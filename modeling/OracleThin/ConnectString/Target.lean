import OracleThin.ConnectString.Sent

/-!
# The target of a connection

A connect descriptor that the parser accepts has a tree for each of its descriptions. If the texts in the tree that
are printed again are clean, then the descriptors that are sent for an address of the description lead to the same
target: nothing is lost, and nothing is added but the identity of the client.
-/

namespace OracleThin.ConnectString

open Lib

variable {description : Description} {lib : Library (Option Descriptor)} {raw : Text}

/-! ### Building the descriptor -/

variable {map : ArgMap} {data : ConnectData} {identity : Option ClientIdentity}

/-- The connect data that are read from a descriptor that is sent. -/
def sentData (data : ConnectData) (map : ArgMap) (identity : Option ClientIdentity) : ConnectData :=
  printedData data (collectExtras (connectDataEntries data map identity) connectDataParamNames)

private theorem buildConnectData_connectDataEntries (hdata : cleanData data = true) (map : ArgMap)
    (identity : Option ClientIdentity) :
    buildConnectData raw (connectDataEntries data map identity) = .ok (sentData data map identity) := by
  refine buildConnectData_core hdata ?_
  intro key hkey
  have hbase : (baseEntries data map).get key.toList = (coreEntries data).get key.toList :=
    get_append_of_not_mem (not_mem_keys_extraEntries (List.mem_map_of_mem hkey))
  cases identity with
  | none => exact hbase
  | some identity =>
    have hcid : key.toList ≠ "cid".toList := by
      have hnot : "cid".toList ∉ connectDataParamNames.map String.toList := by decide
      intro heq
      exact hnot (heq ▸ List.mem_map_of_mem hkey)
    exact (get_push_other hcid _).trans hbase

/-- The description that is built from the tree of a descriptor that is sent. -/
theorem buildDescription_sentEntries (lib : Library (Option Descriptor)) (raw : Text)
    (hdata : cleanData data = true) (descriptor : EasyConnect) (map : ArgMap) (identity : Option ClientIdentity)
    (security : Option ArgMap) :
    ∃ description, buildDescription lib raw (sentEntries descriptor data map identity security) = .ok description ∧
      description.addresses = [sentAddress descriptor] ∧ description.connectData = sentData data map identity := by
  have haddress : ∀ entries, entries = sentEntries descriptor data map identity security →
      buildAddressList entries = .ok { addresses := [sentAddress descriptor], failover := true } := by
    rintro entries rfl
    have hnodes : nodes (((sentEntries descriptor data map identity security).get "address".toList).getD []) =
        [addressEntries descriptor] := by
      cases security <;> rfl
    rw [buildAddressList, hnodes, List.mapM_cons, buildAddress_addressEntries, List.mapM_nil]
    cases security <;> rfl
  have hlists : addressListNodes (sentEntries descriptor data map identity security) =
      [sentEntries descriptor data map identity security] := by
    cases security <;> rfl
  have hconnect : firstNode (sentEntries descriptor data map identity security) "connect_data" =
      some (connectDataEntries data map identity) := by
    cases security <;> rfl
  have hnone : ∀ key ∈ ["expire_time", "retry_count", "retry_delay", "sdu", "tcp_connect_timeout"],
      simple (sentEntries descriptor data map identity security) key = none := by
    intro key hkey
    simp only [List.mem_cons, List.not_mem_nil, or_false] at hkey
    rcases hkey with rfl | rfl | rfl | rfl | rfl <;> cases security <;> rfl
  generalize hentries : sentEntries descriptor data map identity security = entries at *
  refine ⟨{
    addressLists := [{ addresses := [sentAddress descriptor], failover := true }]
    connectData := sentData data map identity
    security := (firstNode entries "security").elim {} buildSecurity
    loadBalance := (simple entries "load_balance").elim false parseBool
    failover := (simple entries "failover").elim true parseBool
    sourceRoute := (entries.get "address_list".toList).isSome && (simple entries "source_route").elim false parseBool
    useSni := (simple entries "use_sni").elim false parseBool
    extra := collectExtras entries descriptionParamNames }, ?_, rfl, rfl⟩
  rw [buildDescription, hnone "expire_time" (by simp), hnone "retry_count" (by simp), hnone "retry_delay" (by simp),
    hnone "sdu" (by simp), hnone "tcp_connect_timeout" (by simp), hconnect, hlists, List.mapM_cons, haddress _ rfl,
    List.mapM_nil, Option.elim_some, buildConnectData_connectDataEntries hdata]
  rfl

/-! ### Trees of descriptions -/

/-- The node of a key, or an empty one. -/
def nodeOf (tree : ArgMap) (key : String) : ArgMap := (firstNode tree key).getD []

/-- The description is built from a tree in the connect descriptor. -/
def Describes (lib : Library (Option Descriptor)) (connectString : Text) (tree : ArgMap) (description : Description) :
    Prop :=
  ∃ cs args, trim connectString = '(' :: cs ∧ parseDescriptor lib connectString cs = .ok (args, []) ∧
    tree ∈ descriptionNodes args ∧ buildDescription lib connectString tree = .ok description

private theorem exists_describes {connectString : Text} {descriptor : Descriptor}
    (hstart : (trim connectString).head? = some '(') (hparse : parse lib connectString = .ok (some descriptor))
    (h : description ∈ descriptor.descriptions) :
    ∃ tree, Describes lib connectString tree description := by
  unfold parse at hparse
  split at hparse
  · cases hparse
  · rename_i c cs htrim
    obtain rfl : c = '(' := by simpa [htrim] using hstart
    rw [if_pos rfl] at hparse
    obtain ⟨⟨args, rest⟩, hargs, hparse⟩ := except_bind_eq_ok.1 hparse
    obtain ⟨built, hbuild, hparse⟩ := except_bind_eq_ok.1 hparse
    split at hparse
    · rename_i hrest
      cases hparse
      subst hrest
      obtain ⟨descriptions, hmap, hbuild⟩ := except_bind_eq_ok.1 hbuild
      dsimp only at hbuild
      split at hbuild
      · cases hbuild
      · cases hbuild
        obtain ⟨tree, htree, hdescription⟩ := exists_of_mem_mapM hmap h
        exact ⟨tree, cs, args, htrim, hargs, htree, hdescription⟩
    · cases hparse

private theorem wellFormed_parseDescriptor (hlib : lib.Lawful) {cs rest : Text} {args : ArgMap}
    (h : parseDescriptor lib raw cs = .ok (args, rest)) : WellFormed lib (.node args) := by
  obtain ⟨⟨pair, rest₁⟩, hpair, h⟩ := except_bind_eq_ok.1 h
  cases h
  exact wellFormed_setPair hlib wellFormed_nil
    ((wellFormedPair_parsePairWith (readsWellFormed_parseValue _ _ _ _) hpair).2 hlib)

private theorem wellFormed_mem (h : WellFormed lib (.node map)) {key : Text} {values : List ArgValue}
    (hget : map.get key = some values) : ∀ value ∈ values, WellFormed lib value := by
  cases h with
  | node collected isKey wellFormed => exact fun value hvalue => wellFormed _ (mem_of_get hget) value hvalue

private theorem wellFormed_nodeOf (h : WellFormed lib (.node map)) (key : String) :
    WellFormed lib (.node (nodeOf map key)) := by
  unfold nodeOf firstNode
  split
  · rename_i entries hfirst
    obtain ⟨values, hget, hhead⟩ := Option.bind_eq_some_iff.1 hfirst
    exact wellFormed_mem h hget _ (List.mem_of_mem_head? hhead)
  · exact wellFormed_nil

private theorem wellFormed_descriptionNodes {args tree : ArgMap} (h : WellFormed lib (.node args))
    (htree : tree ∈ descriptionNodes args) : WellFormed lib (.node tree) := by
  have hcontainer : WellFormed lib (.node (descriptionContainer args)) := by
    unfold descriptionContainer
    cases hlist : firstNode args "description_list" with
    | none => exact h
    | some list =>
      have hnode := wellFormed_nodeOf h "description_list"
      rwa [nodeOf, hlist] at hnode
  unfold descriptionNodes at htree
  cases hget : (descriptionContainer args).get "description".toList with
  | none =>
    rw [hget, Option.elim_none, List.mem_singleton] at htree
    subst htree
    exact hcontainer
  | some values =>
    rw [hget, Option.elim_some, nodes, List.mem_filterMap] at htree
    obtain ⟨value, hvalue, hnode⟩ := htree
    cases value with
    | simple text => cases hnode
    | node entries =>
      cases hnode
      exact wellFormed_mem hcontainer hget _ hvalue

/-! ### The target -/

/-- The texts that are printed without quotes are plain: no parenthesis, double quote or white space at an end, as a
quoted value may have. A SID beside an instance name is not printed, and neither is a value that is an empty node, so
there is none of them. The nodes are not nested deeper than the parser allows. -/
def cleanDescription (tree : ArgMap) (description : Description) (host : Text) (sslServerCertDn : Option Text) :
    Bool :=
  plain host && cleanData description.connectData &&
    entriesClean 126 (extraEntries (nodeOf tree "connect_data") connectDataParamNames) &&
    entriesClean 126 (securityEntries (nodeOf tree "security")) && sslServerCertDn.all plain

/-- The text is parsed to one description with the address, and with the connect data but for its unknown keys. -/
def LeadsTo (lib : Library (Option Descriptor)) (text : Text) (description : Description) (address : Address)
    (extra : List (Text × Text)) : Prop :=
  ∃ target endpoint, parse lib text = .ok (some { descriptions := [target] }) ∧ target.addresses = [endpoint] ∧
    endpoint.host = address.host ∧ endpoint.port = address.port ∧ endpoint.protocol = address.protocol ∧
    target.connectData.serviceName = description.connectData.serviceName ∧
    target.connectData.sid = description.connectData.sid ∧
    target.connectData.instanceName = description.connectData.instanceName ∧
    target.connectData.serverType = description.connectData.serverType ∧ target.connectData.extra = extra

/-- The node of the connect data in the tree of a text. -/
def ConnectDataNode (lib : Library (Option Descriptor)) (text : Text) (node : ArgMap) : Prop :=
  ∃ entries, parseDescriptor lib text text.tail = .ok ([("description".toList, [.node entries])], []) ∧
    firstNode entries "connect_data" = some node

/-- The connect data and the security settings of a description are built from the nodes of its tree. -/
private theorem buildDescription_fields {connectString : Text} {tree : ArgMap}
    (h : buildDescription lib connectString tree = .ok description) :
    description.connectData.extra = collectExtras (nodeOf tree "connect_data") connectDataParamNames ∧
      description.security.extra = collectExtras (nodeOf tree "security") securityParamNames := by
  obtain ⟨expireTime, -, h⟩ := except_bind_eq_ok.1 h
  obtain ⟨retryCount, -, h⟩ := except_bind_eq_ok.1 h
  obtain ⟨retryDelay, -, h⟩ := except_bind_eq_ok.1 h
  obtain ⟨sdu, -, h⟩ := except_bind_eq_ok.1 h
  obtain ⟨timeout, -, h⟩ := except_bind_eq_ok.1 h
  obtain ⟨data, hdata, h⟩ := except_bind_eq_ok.1 h
  obtain ⟨lists, -, h⟩ := except_bind_eq_ok.1 h
  cases h
  refine ⟨?_, ?_⟩
  · unfold nodeOf
    cases hnode : firstNode tree "connect_data" with
    | none =>
      rw [hnode] at hdata
      cases hdata
      rfl
    | some node =>
      rw [hnode] at hdata
      obtain ⟨server, -, hdata⟩ := except_bind_eq_ok.1 hdata
      obtain ⟨purity, -, hdata⟩ := except_bind_eq_ok.1 hdata
      cases hdata
      rfl
  · unfold nodeOf
    cases firstNode tree "security" <;> rfl

/-- A text of the lines of a description, with or without an identity, is parsed to a single description of a single
address. -/
private theorem leadsTo_sent (hlib : lib.Lawful) {address : Address} {host : Text}
    {security : List Line} {text : Text} (hhost : address.host = some host) (hwell : WellFormed lib (.node map))
    (hdata : cleanData description.connectData = true)
    (htext : text = clause "DESCRIPTION" (linesText (sentLines (endpoint description address host)
      description.connectData map identity security)))
    (hlines : ∀ line ∈ sentLines (endpoint description address host) description.connectData map identity security,
      ReadsLine lib text 1 line)
    (hsecurity : security = [] ∨ ∃ lines, security = [nodeLine "SECURITY" "security" lines]) :
    ConnectDataNode lib text (connectDataEntries description.connectData map identity) ∧
      LeadsTo lib text description address
        (collectExtras (connectDataEntries description.connectData map identity) connectDataParamNames) := by
  cases hwell with
  | node collected _ _ =>
    obtain ⟨node, hnode⟩ := collectLines_sentLines collected (endpoint description address host)
      description.connectData identity hsecurity
    obtain ⟨target, hbuild, haddresses, hconnect⟩ :=
      buildDescription_sentEntries lib text hdata (endpoint description address host) map identity node
    have hparsed := parseDescriptor_sent hlib hlines hnode
    rw [← htext] at hparsed
    have htrim : trim text = '(' :: text.tail := by
      rw [htext]
      exact trim_parens ("DESCRIPTION=".toList ++ linesText _)
    have hsome : ({ descriptions := [target] } : Descriptor).addresses ≠ [] := by
      simp [Descriptor.addresses, haddresses]
    have hdescriptor : buildDescriptor lib text [("description".toList, [.node (sentEntries
        (endpoint description address host) description.connectData map identity node)])] =
          .ok { descriptions := [target] } := by
      have hnodes : descriptionNodes [("description".toList, [.node (sentEntries (endpoint description address host)
          description.connectData map identity node)])] = [sentEntries _ _ _ _ _] := rfl
      rw [buildDescriptor, hnodes, List.mapM_cons, hbuild, List.mapM_nil]
      exact if_neg hsome
    have hparse : parse lib text = .ok (some { descriptions := [target] }) := by
      rw [parse, htrim]
      simp only [if_true, hparsed, hdescriptor, bind, Except.bind]
      rfl
    refine ⟨⟨_, hparsed, by cases node <;> rfl⟩, target, _, hparse, haddresses, hhost.symm, rfl, rfl, ?_⟩
    rw [hconnect]
    exact ⟨rfl, rfl, rfl, rfl, rfl⟩

private theorem readsLine_sentLines (hlib : lib.Lawful) {tree : ArgMap}
    {address : Address} {host : Text} {sslServerCertDn : Option Text} (hwell : WellFormed lib (.node tree))
    (hclean : cleanDescription tree description host sslServerCertDn = true)
    (hidentity : ∀ i ∈ identity, cleanIdentity i = true) (tokenAuth sslServerDnMatch : Bool) :
    ∀ line ∈ sentLines (endpoint description address host) description.connectData
    (nodeOf tree "connect_data") identity
        (securityLine address.protocol (nodeOf tree "security") tokenAuth sslServerDnMatch sslServerCertDn),
      ReadsLine lib raw 1 line := by
  simp only [cleanDescription, Bool.and_eq_true] at hclean
  obtain ⟨⟨⟨⟨hhost, hdata⟩, hextra⟩, hsecurity⟩, hcertDn⟩ := hclean
  intro line hline
  simp only [sentLines, List.cons_append, List.nil_append, List.mem_cons] at hline
  rcases hline with rfl | rfl | hline
  · exact readsLine_address hlib hhost (by decide)
  · exact readsLine_nodeLine hlib (by decide) (by decide)
      (readsLine_connectDataLines hlib (wellFormed_nodeOf hwell _) hdata hextra hidentity)
  · exact readsLine_securityLine hlib (wellFormed_nodeOf hwell _) hsecurity hcertDn _ _ _ line hline

private theorem securityLine_cases (protocol : Protocol) (map : ArgMap) (tokenAuth sslServerDnMatch : Bool)
    (sslServerCertDn : Option Text) : securityLine protocol map tokenAuth sslServerDnMatch sslServerCertDn = [] ∨
      ∃ lines, securityLine protocol map tokenAuth sslServerDnMatch sslServerCertDn =
        [nodeLine "SECURITY" "security" lines] := by
  unfold securityLine
  split
  · exact Or.inl rfl
  · exact Or.inr ⟨_, rfl⟩

private theorem linesText_append (lines rest : List Line) : linesText (lines ++ rest) = linesText lines ++
    linesText rest :=
  List.flatMap_append

section Texts

variable {tree : ArgMap}
  (hextra : description.connectData.extra = collectExtras (nodeOf tree "connect_data") connectDataParamNames)
  (hsecurity : description.security.extra = collectExtras (nodeOf tree "security") securityParamNames)
  (address : Address) (host : Text) (tokenAuth sslServerDnMatch : Bool) (sslServerCertDn : Option Text)

include hextra hsecurity

private theorem authConnectDescriptor_eq :
    authConnectDescriptor (endpoint description address host) description tokenAuth sslServerDnMatch sslServerCertDn =
      clause "DESCRIPTION" (linesText (sentLines (endpoint description address host) description.connectData
        (nodeOf tree "connect_data") none
        (securityLine address.protocol (nodeOf tree "security") tokenAuth sslServerDnMatch sslServerCertDn))) := by
  have hcore := linesText_coreLines description (some (endpoint description address host).serviceName) fun hnone =>
    Or.inr (by rw [endpoint, hnone]; rfl)
  have hdata : authConnectDataClause description (endpoint description address host) =
      (nodeLine "CONNECT_DATA" "connect_data" (connectDataLines description.connectData (nodeOf tree "connect_data")
        none)).text := by
    rw [nodeLine_text, authConnectDataClause, hcore, hextra, ← linesText_extraEntries, connectDataLines,
      linesText_append,
      linesText_append]
    simp [clause, linesText]
  rw [authConnectDescriptor, descriptorAddressClause_eq, hdata, descriptorSecurityClause_eq hsecurity]
  simp [sentLines, linesText, endpoint]

private theorem listenerConnectDescriptor_eq (identity : ClientIdentity) :
    listenerConnectDescriptorWithServer (endpoint description address host) description identity false tokenAuth
        sslServerDnMatch sslServerCertDn =
      clause "DESCRIPTION" (linesText (sentLines (endpoint description address host) description.connectData
        (nodeOf tree "connect_data") (some identity)
        (securityLine address.protocol (nodeOf tree "security") tokenAuth sslServerDnMatch sslServerCertDn))) := by
  have hcore := linesText_coreLines description none fun _ => Or.inl rfl
  have hdata : listenerConnectDataClause description identity false =
      (nodeLine "CONNECT_DATA" "connect_data" (connectDataLines description.connectData (nodeOf tree "connect_data")
        (some identity))).text := by
    rw [nodeLine_text, listenerConnectDataClause, if_neg Bool.false_ne_true, hcore, hextra, ← linesText_extraEntries,
      connectDataLines, linesText_append, linesText_append]
    simp [clause, linesText, cidLine, nodeLine, Line.text, textLine]
  rw [listenerConnectDescriptorWithServer, descriptorAddressClause_eq, hdata, descriptorSecurityClause_eq hsecurity]
  simp [sentLines, linesText, endpoint]

end Texts

/-- Every description of a connect descriptor that the parser accepts has a tree. If the tree is clean, what is sent
for an address of the description leads to that address and to the same connect data, and the listener is sent one
more entry, with the three values of the identity. -/
theorem descriptors_lead_to_target (hlib : lib.Lawful) {connectString : Text} {descriptor : Descriptor}
    (hstart : (trim connectString).head? = some '(') (hparse : parse lib connectString = .ok (some descriptor))
    {description : Description} (hdescription : description ∈ descriptor.descriptions) :
    (∃ tree, Describes lib connectString tree description) ∧
    ∀ tree, Describes lib connectString tree description →
      ∀ address ∈ description.addresses, ∀ host, address.host = some host →
        ∀ (tokenAuth sslServerDnMatch : Bool) (sslServerCertDn : Option Text),
          cleanDescription tree description host sslServerCertDn = true →
            let auth :=
  authConnectDescriptor (endpoint description address host) description tokenAuth sslServerDnMatch
              sslServerCertDn
            ∃ node, ConnectDataNode lib auth node ∧
              LeadsTo lib auth description address description.connectData.extra ∧
              ∀ identity, cleanIdentity identity = true →
                let listener :=
                  listenerConnectDescriptorWithServer (endpoint description address host) description identity
                  false tokenAuth sslServerDnMatch sslServerCertDn
                ConnectDataNode lib listener (node.push "cid".toList (.node (cidEntries identity))) ∧
                  ∃ extra, LeadsTo lib listener description address extra ∧
                    extra.Perm (description.connectData.extra ++
                      [("CID".toList, valueRepr (.node (cidEntries identity)))]) := by
  refine ⟨exists_describes hstart hparse hdescription, ?_⟩
  rintro tree ⟨cs, args, -, hargs, htree,
    hbuild⟩ address - host hhost tokenAuth sslServerDnMatch sslServerCertDn hclean
  have hwell := wellFormed_descriptionNodes (wellFormed_parseDescriptor hlib hargs) htree
  obtain ⟨hextra, hsecurity⟩ := buildDescription_fields hbuild
  have hdata : cleanData description.connectData = true := by
    simp only [cleanDescription, Bool.and_eq_true] at hclean
    exact hclean.1.1.1.2
  have hcases := securityLine_cases address.protocol
    (nodeOf tree "security") tokenAuth sslServerDnMatch sslServerCertDn
  have hbase : collectExtras
    (baseEntries description.connectData (nodeOf tree "connect_data")) connectDataParamNames =
      description.connectData.extra := by
    rw [hextra]
    exact collectExtras_connectData _ _
  obtain ⟨hnode, hauth⟩ := leadsTo_sent hlib hhost (wellFormed_nodeOf hwell _) hdata
    (authConnectDescriptor_eq hextra hsecurity address host tokenAuth sslServerDnMatch sslServerCertDn)
    (readsLine_sentLines hlib hwell hclean (fun i hi => by cases hi) tokenAuth sslServerDnMatch) hcases
  refine ⟨_, hnode, hbase ▸ hauth, ?_⟩
  intro identity hidentity
  obtain ⟨hlistenerNode, hlistener⟩ := leadsTo_sent hlib hhost (wellFormed_nodeOf hwell _) hdata
    (listenerConnectDescriptor_eq hextra hsecurity address host tokenAuth sslServerDnMatch sslServerCertDn identity)
    (readsLine_sentLines hlib hwell hclean (by rintro i ⟨⟩; exact hidentity) tokenAuth sslServerDnMatch) hcases
  refine ⟨hlistenerNode, _, hlistener, ?_⟩
  rw [← hbase]
  exact collectExtras_push (by decide) _ _

/-- The standard library on ASCII characters. -/
def asciiLibrary : Library (Option Descriptor) where
  isAlphanumeric := Char.isAlphanum
  isF64 := fun text => text.all Char.isDigit
  easyConnect := fun _ => .ok none

private theorem asciiLibrary_lawful : asciiLibrary.Lawful where
  letters := by
    intro c hc
    show (c.isAlpha || c.isDigit) = true
    rw [hc, Bool.true_or]
  equals := by decide
  visible := by
    intro c hc
    simp only [asciiLibrary, Char.isAlphanum, Char.isAlpha, Char.isUpper, Char.isLower, Char.isDigit, Bool.or_eq_true,
      Bool.and_eq_true, decide_eq_true_eq] at hc
    have hbounds : 48 ≤ c.toNat ∧ c.toNat ≤ 122 := by
      rcases hc with (⟨hlow, hhigh⟩ | ⟨hlow, hhigh⟩) | ⟨hlow, hhigh⟩
      all_goals
        rw [ge_iff_le, UInt32.le_iff_toNat_le] at hlow
        rw [UInt32.le_iff_toNat_le] at hhigh
        exact ⟨le_trans (by decide) hlow, le_trans hhigh (by decide)⟩
    simp only [isWhitespace, Bool.or_eq_false_iff, Bool.and_eq_false_iff, decide_eq_false_iff_not]
    omega

def plainString : Text := "(DESCRIPTION=(ADDRESS=(HOST=h))(CONNECT_DATA=(SERVICE_NAME=svc)(FOO=bar)))".toList

def plainTree : ArgMap :=
  [("address".toList, [.node [("host".toList, [.simple "h".toList])]]),
    ("connect_data".toList,
      [.node [("service_name".toList, [.simple "svc".toList]), ("foo".toList, [.simple "bar".toList])]])]

def plainDescription : Description where
  addressLists := [{ addresses := [{ host := some "h".toList }], failover := true }]
  connectData := { serviceName := some "svc".toList, extra := [("FOO".toList, "bar".toList)] }

def plainIdentity : ClientIdentity := ⟨"p".toList, "m".toList, "u".toList, "t".toList, "d".toList⟩

def plainListener : Text :=
  ("(DESCRIPTION=(ADDRESS=(PROTOCOL=tcp)(HOST=h)(PORT=1521))(CONNECT_DATA=(SERVICE_NAME=svc)(FOO=bar)" ++
    "(CID=(PROGRAM=p)(HOST=m)(USER=u))))").toList

theorem plainString_leads_to_target :
    (trim plainString).head? = some '(' ∧
    parse asciiLibrary plainString = .ok (some { descriptions := [plainDescription] }) ∧
    Describes asciiLibrary plainString plainTree plainDescription ∧
    cleanDescription plainTree plainDescription "h".toList none = true ∧ cleanIdentity plainIdentity = true ∧
    ∃ extra, LeadsTo asciiLibrary plainListener plainDescription { host := some "h".toList } extra := by
  have hstart : (trim plainString).head? = some '(' := by decide +kernel
  have hparse : parse asciiLibrary plainString = .ok (some { descriptions := [plainDescription] }) := by
    decide +kernel
  have hargs : parseDescriptor asciiLibrary plainString plainString.tail =
      .ok ([("description".toList, [.node plainTree])], []) := rfl
  have hbuild : buildDescription asciiLibrary plainString plainTree = .ok plainDescription := by decide +kernel
  have htree : Describes asciiLibrary plainString plainTree plainDescription :=
    ⟨plainString.tail, _, by decide +kernel, hargs, List.mem_singleton_self _, hbuild⟩
  have hclean : cleanDescription plainTree plainDescription "h".toList none = true := by decide +kernel
  have hidentity : cleanIdentity plainIdentity = true := by decide +kernel
  obtain ⟨-, hall⟩ := descriptors_lead_to_target asciiLibrary_lawful hstart hparse (List.mem_singleton_self _)
  obtain ⟨node, -, -, hlistener⟩ := hall plainTree htree { host := some "h".toList } (List.mem_singleton_self _)
    "h".toList rfl false true none hclean
  obtain ⟨-, extra, hleads, -⟩ := hlistener plainIdentity hidentity
  refine ⟨hstart, hparse, htree, hclean, hidentity, extra, ?_⟩
  have htext : listenerConnectDescriptorWithServer (endpoint plainDescription { host := some "h".toList } "h".toList)
      plainDescription plainIdentity false false true none = plainListener := by decide +kernel
  rwa [htext] at hleads

/-- The connect data of a connect descriptor, and what is read of it from the texts for its first address. -/
def readBack (connectString : Text) (identity : ClientIdentity) :
    Option (ConnectData × Option ConnectData × Option ConnectData) :=
  let dataOf (text : Text) : Option ConnectData :=
    (parse asciiLibrary text).toOption.join.bind
      fun descriptor => descriptor.descriptions.head?.map Description.connectData
  (parse asciiLibrary connectString).toOption.join.bind fun descriptor => do
    let description ← descriptor.descriptions.head?
    let address ← description.addresses.head?
    let host ← address.host
    let auth := authConnectDescriptor (endpoint description address host) description false true none
    let listener := listenerConnectDescriptorWithServer
      (endpoint description address host) description identity false false
      true none
    return (description.connectData, dataOf auth, dataOf listener)

def withConnectData (data : String) : Text := ("(DESCRIPTION=(ADDRESS=(HOST=h))(CONNECT_DATA=" ++ data ++ "))").toList

/-- A quoted service name asks for a shared server, a SID beside an instance name is lost, blanks around a name are
lost, and so is a key whose value is an empty node. A program name adds a host to the identity, and one with a quote
is not read. -/
theorem descriptors_injected :
    (["(SERVICE_NAME=\"a)(SERVER=shared\")", "(SID=s)(INSTANCE_NAME=i)", "(SERVICE_NAME=\" s\")",
        "(SERVICE_NAME=s)(X=(A=))"].map fun data =>
          (readBack (withConnectData data) plainIdentity).map fun back => (back.1, back.2.1)) =
      [some ({ serviceName := some "a)(SERVER=shared".toList },
          some { serviceName := some "a".toList, serverType := some .shared }),
        some ({ sid := some "s".toList, instanceName := some "i".toList }, some { instanceName := some "i".toList }),
        some ({ serviceName := some " s".toList }, some { serviceName := some "s".toList }),
        some ({ serviceName := some "s".toList, extra := [("X".toList, [])] },
          some { serviceName := some "s".toList })] ∧
    (["x)(HOST=evil", "x\"y"].map fun program =>
        ((ClientIdentity.new program.toList "m".toList "u".toList "t".toList "d".toList).toOption.bind
          (readBack plainString)).map fun back => back.2.2.map ConnectData.extra) =
      [some (some [("FOO".toList, "bar".toList), ("CID".toList, "(PROGRAM=x)(HOST=evil)(HOST=m)(USER=u)".toList)]),
        some none] := by
  refine ⟨?_, ?_⟩
  · decide +kernel
  · decide +kernel

end OracleThin.ConnectString
