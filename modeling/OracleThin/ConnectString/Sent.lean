import OracleThin.ConnectString.RoundTrip

/-!
# What is read from a descriptor that is sent

A descriptor for the listener or the authentication is one description with one address, the connect data and the
security settings. With clean texts it is parsed to the host, port and protocol of the address and to the connect data
of the description.
-/

namespace OracleThin.ConnectString

open Lib

variable {map : ArgMap} {lib : Library (Option Descriptor)} {raw : Text}

/-! ### Numbers -/

private theorem digit_plain {c : Char} (h : c.isDigit = true) :
    isWhitespace c = false ∧ c ≠ '"' ∧ c ≠ '(' ∧ c ≠ ')' ∧ c ≠ '+' := by
  rw [Char.isDigit, Bool.and_eq_true, decide_eq_true_eq, decide_eq_true_eq] at h
  have hlow : 48 ≤ c.toNat := h.1
  have hhigh : c.toNat ≤ 57 := h.2
  refine ⟨?_, ?_, ?_, ?_, ?_⟩
  · simp only [isWhitespace, Bool.or_eq_false_iff, Bool.and_eq_false_iff, decide_eq_false_iff_not]
    omega
  all_goals
    rintro rfl
    revert hlow hhigh
    decide

private theorem trim_of_visible {cs : Text} (h : ∀ c ∈ cs, isWhitespace c = false) : trim cs = cs := by
  have hskip : skipSpaces cs = cs := skipSpaces_of_visible fun c hc => h c (List.mem_of_mem_head? hc)
  rw [trim, hskip, List.rdropWhile_eq_self_iff]
  intro hne hlast
  rw [h _ (List.getLast_mem hne)] at hlast
  cases hlast

def portText (port : UInt16) : Text := (toString port).toList

private theorem portText_eq (port : UInt16) : portText port = Nat.toDigits 10 port.toNat := by
  show (Nat.repr port.toNat).toList = _
  simp [Nat.repr]

private theorem digits_portText (port : UInt16) : ∀ c ∈ portText port, c.isDigit = true := by
  intro c hc
  rw [portText_eq] at hc
  exact Nat.isDigit_of_mem_toDigits (by decide) (by decide) hc

private theorem portText_ne_nil (port : UInt16) : portText port ≠ [] := by
  rw [portText_eq]
  exact Nat.toDigits_ne_nil

private theorem plain_portText (port : UInt16) : plain (portText port) = true := by
  simp only [plain, decide_eq_true_eq]
  refine ⟨portText_ne_nil port, trim_of_visible fun c hc => (digit_plain (digits_portText port c hc)).1, ?_⟩
  rw [List.all_eq_true]
  intro c hc
  obtain ⟨-, hquote, hopen, hclose, -⟩ := digit_plain (digits_portText port c hc)
  rw [decide_eq_true_eq]
  exact ⟨hquote, hopen, hclose⟩

/-- A port is read back. -/
theorem readPort_portText (port : UInt16) : readPort (portText port) = .ok port := by
  have htrim : trim (portText port) = portText port :=
    trim_of_visible fun c hc => (digit_plain (digits_portText port c hc)).1
  have hsign : (portText port).head? ≠ some '+' := by
    intro hhead
    exact (digit_plain (digits_portText port '+' (List.mem_of_mem_head? hhead))).2.2.2.2 rfl
  have hall : (portText port).all Char.isDigit = true := List.all_eq_true.2 (digits_portText port)
  have hvalue : Nat.ofDigitChars 10 (portText port) 0 = port.toNat := by
    rw [portText_eq]
    exact Nat.ofDigitChars_toDigits (by decide) (by decide)
  have hread : parseUnsigned (2 ^ 16) (portText port) = some port.toNat := by
    simp only [parseUnsigned, if_neg hsign, hvalue]
    rw [if_neg (by simp [portText_ne_nil, hall]), if_pos port.toNat_lt]
  rw [readPort, parsePort, htrim, hread]
  simp

/-! ### Nodes of lines -/

/-- A line whose value is the node of some lines. -/
def nodeLine (written key : String) (lines : List Line) : Line :=
  ⟨written.toList, key.toList, linesText lines, (collectLines none lines).map .node⟩

theorem nodeLine_text (written key : String) (lines : List Line) :
    (nodeLine written key lines).text = clause written (linesText lines) := by
  simp [nodeLine, Line.text, clause]

theorem readsLine_nodeLine (hlib : lib.Lawful) {written key : String} {lines : List Line}
    (hkey : IsSpelling written.toList key.toList) {depth : Nat} (hdepth : depth < maxDescriptorDepth)
    (h : ∀ line ∈ lines, ReadsLine lib raw (depth + 1) line) :
    ReadsLine lib raw depth (nodeLine written key lines) where
  key := readsKey_of_isSpelling hlib hkey
  value := readsValue_lines hlib hdepth h _

/-! ### The address -/

def addressLines (descriptor : EasyConnect) : List Line :=
  [textLine "PROTOCOL" "protocol" descriptor.protocol.asStr, textLine "HOST" "host" descriptor.host,
    textLine "PORT" "port" (portText descriptor.port)]

def addressEntries (descriptor : EasyConnect) : ArgMap :=
  [("protocol".toList, [.simple descriptor.protocol.asStr]), ("host".toList, [.simple descriptor.host]),
    ("port".toList, [.simple (portText descriptor.port)])]

theorem descriptorAddressClause_eq (descriptor : EasyConnect) :
    descriptorAddressClause descriptor = (nodeLine "ADDRESS" "address" (addressLines descriptor)).text := by
  rw [nodeLine_text, descriptorAddressClause]
  simp [linesText, addressLines, textLine_text, portText]

theorem readsLine_address (hlib : lib.Lawful) {descriptor : EasyConnect} (hhost : plain descriptor.host = true)
    {depth : Nat} (hdepth : depth < maxDescriptorDepth) :
    ReadsLine lib raw depth (nodeLine "ADDRESS" "address" (addressLines descriptor)) := by
  have hprotocol : plain descriptor.protocol.asStr = true := by
    cases descriptor.protocol <;> decide
  refine readsLine_nodeLine hlib (by decide) hdepth ?_
  intro line hline
  simp only [addressLines, List.mem_cons, List.not_mem_nil, or_false] at hline
  rcases hline with rfl | rfl | rfl
  · exact readsLine_textLine hlib hprotocol (by decide) _
  · exact readsLine_textLine hlib hhost (by decide) _
  · exact readsLine_textLine hlib (plain_portText _) (by decide) _

/-- The address that is read from a descriptor that is sent. -/
def sentAddress (descriptor : EasyConnect) : Address where
  host := some descriptor.host
  port := descriptor.port
  protocol := descriptor.protocol

theorem buildAddress_addressEntries (descriptor : EasyConnect) :
    buildAddress (addressEntries descriptor) = .ok (sentAddress descriptor) := by
  have hport : simple (addressEntries descriptor) "port" = some (portText descriptor.port) := rfl
  have hprotocol : simple (addressEntries descriptor) "protocol" = some descriptor.protocol.asStr := rfl
  have hkeyword : Protocol.fromKeyword descriptor.protocol.asStr = .ok descriptor.protocol := by
    cases descriptor.protocol <;> rfl
  rw [buildAddress, hport, hprotocol]
  simp only [optional, readPort_portText, hkeyword]
  rfl

/-! ### The security settings -/

/-- The unknown security keys that are printed. -/
def securityEntries (map : ArgMap) : ArgMap :=
  (extraEntries map securityParamNames).filter fun entry => !isTokenAuth (toAsciiUppercase entry.1)

def securityLines (protocol : Protocol) (map : ArgMap) (tokenAuth sslServerDnMatch : Bool)
    (sslServerCertDn : Option Text) :
    List Line :=
  (if protocol.isTls || !sslServerDnMatch then
      [textLine "SSL_SERVER_DN_MATCH" "ssl_server_dn_match" (if sslServerDnMatch then "ON".toList else "OFF".toList)]
    else []) ++
    (sslServerCertDn.map (textLine "SSL_SERVER_CERT_DN" "ssl_server_cert_dn")).toList ++
    linesOf (securityEntries map) ++
    (if tokenAuth then [textLine "TOKEN_AUTH" "token_auth" "OCI_TOKEN".toList] else [])

private theorem linesText_securityEntries (map : ArgMap) : linesText (linesOf (securityEntries map)) =
    extraClauses ((collectExtras map securityParamNames).filter fun entry => !isTokenAuth entry.1) := by
  have hall : collectExtras map securityParamNames = (extraEntries map securityParamNames).flatMap fun entry =>
      entry.2.map fun value => (toAsciiUppercase entry.1, valueRepr value) := rfl
  rw [linesText_linesOf_flatMap, hall, securityEntries]
  congr 1
  induction extraEntries map securityParamNames with
  | nil => rfl
  | cons entry entries ih =>
    cases htoken : isTokenAuth (toAsciiUppercase entry.1) <;>
      simp [htoken, ih, List.filter_map, Function.comp_def]

/-- The clause of the security settings, which may be missing. -/
def securityLine (protocol : Protocol) (map : ArgMap) (tokenAuth sslServerDnMatch : Bool)
    (sslServerCertDn : Option Text) :
    List Line :=
  if !protocol.isTls && !tokenAuth && sslServerDnMatch && sslServerCertDn.isNone &&
      collectExtras map securityParamNames = [] then []
  else [nodeLine "SECURITY" "security" (securityLines protocol map tokenAuth sslServerDnMatch sslServerCertDn)]

theorem descriptorSecurityClause_eq {description : Description}
    (hextra : description.security.extra = collectExtras map securityParamNames) (protocol : Protocol)
    (tokenAuth sslServerDnMatch : Bool) (sslServerCertDn : Option Text) :
    descriptorSecurityClause protocol description tokenAuth sslServerDnMatch sslServerCertDn =
      linesText (securityLine protocol map tokenAuth sslServerDnMatch sslServerCertDn) := by
  unfold descriptorSecurityClause securityLine
  dsimp only
  rw [hextra]
  split
  · rfl
  · have hlines : linesText (securityLines protocol map tokenAuth sslServerDnMatch sslServerCertDn) =
        (if protocol.isTls || !sslServerDnMatch then
          clause "SSL_SERVER_DN_MATCH" (if sslServerDnMatch then "ON".toList else "OFF".toList) else []) ++
        sslServerCertDn.elim [] (clause "SSL_SERVER_CERT_DN") ++
        extraClauses ((collectExtras map securityParamNames).filter fun entry => !isTokenAuth entry.1) ++
        (if tokenAuth then clause "TOKEN_AUTH" "OCI_TOKEN".toList else []) := by
      rw [← linesText_securityEntries]
      cases sslServerCertDn <;> cases tokenAuth <;> cases protocol <;> cases sslServerDnMatch <;>
        simp [securityLines, linesText, textLine_text, Protocol.isTls]
    rw [← hlines]
    simp [linesText, nodeLine_text]

/-! ### The connect data, with or without an identity -/

def cidEntries (identity : ClientIdentity) : ArgMap :=
  [("program".toList, [.simple identity.program]), ("host".toList, [.simple identity.machine]),
    ("user".toList, [.simple identity.osuser])]

def cidLine (identity : ClientIdentity) : Line :=
  nodeLine "CID" "cid" [textLine "PROGRAM" "program" identity.program, textLine "HOST" "host" identity.machine,
    textLine "USER" "user" identity.osuser]

def connectDataLines (data : ConnectData) (map : ArgMap) (identity : Option ClientIdentity) : List Line :=
  coreLines data ++ linesOf (extraEntries map connectDataParamNames) ++ (identity.map cidLine).toList

/-- The node of the connect data without an identity. -/
def baseEntries (data : ConnectData) (map : ArgMap) : ArgMap :=
  coreEntries data ++ extraEntries map connectDataParamNames

def connectDataEntries (data : ConnectData) (map : ArgMap) (identity : Option ClientIdentity) : ArgMap :=
  identity.elim (baseEntries data map) fun identity =>
    (baseEntries data map).push "cid".toList (.node (cidEntries identity))

private theorem collectLines_connectDataLines (h : Collected map) (data : ConnectData)
    (identity : Option ClientIdentity) :
    collectLines none (connectDataLines data map identity) = some (connectDataEntries data map identity) := by
  have hne : connectDataLines data map identity ≠ [] := by
    simp [connectDataLines, coreLines_ne_nil]
  have hbase : ((coreLines data ++ linesOf (extraEntries map connectDataParamNames)).map Line.pair).foldl setPair [] =
      baseEntries data map := by
    rw [List.map_append, List.foldl_append, foldl_coreLines]
    exact foldl_setPair_linesOf (collected_connectData data h)
  rw [collectLines, if_neg hne, connectDataLines, List.map_append, List.foldl_append, Option.getD_none, hbase]
  cases identity with
  | none => rfl
  | some identity =>
    have hpush : setDescriptorArg (baseEntries data map) "cid".toList (.node (cidEntries identity)) =
        (baseEntries data map).push "cid".toList (.node (cidEntries identity)) :=
      setDescriptorArg_eq_push _ (fun hcid => absurd hcid.1 (by decide)) fun hcid => absurd hcid.1 (by decide)
    exact congrArg some hpush

def cleanIdentity (identity : ClientIdentity) : Bool :=
  plain identity.program && plain identity.machine && plain identity.osuser

private theorem readsLine_cidLine (hlib : lib.Lawful) {identity : ClientIdentity} (h : cleanIdentity identity = true)
    {depth : Nat} (hdepth : depth < maxDescriptorDepth) : ReadsLine lib raw depth (cidLine identity) := by
  simp only [cleanIdentity, Bool.and_eq_true] at h
  obtain ⟨⟨hprogram, hmachine⟩, hosuser⟩ := h
  refine readsLine_nodeLine hlib (by decide) hdepth ?_
  intro line hline
  simp only [List.mem_cons, List.not_mem_nil, or_false] at hline
  rcases hline with rfl | rfl | rfl
  · exact readsLine_textLine hlib hprogram (by decide) _
  · exact readsLine_textLine hlib hmachine (by decide) _
  · exact readsLine_textLine hlib hosuser (by decide) _

/-- The lines of clean entries of a well formed node are read back. -/
private theorem readsLine_linesOf (hlib : lib.Lawful) {map entries : ArgMap} (hwell : WellFormed lib (.node map))
    (hsub : entries ⊆ map) {n depth : Nat} (hclean : entriesClean n entries = true)
    (hdepth : depth + n ≤ maxDescriptorDepth) : ∀ line ∈ linesOf entries, ReadsLine lib raw depth line := by
  cases hwell with
  | node collected isKey wellFormed =>
    intro line hline
    obtain ⟨entry, hentry, value, hvalue, rfl⟩ := mem_linesOf.1 hline
    have hvalueClean := entriesClean_iff.1 hclean entry hentry value hvalue
    exact ⟨isKey entry (hsub hentry) value hvalue,
      readsValue_clean hlib (wellFormed entry (hsub hentry) value hvalue) hvalueClean hdepth⟩

theorem readsLine_connectDataLines (hlib : lib.Lawful) {data : ConnectData}
    {identity : Option ClientIdentity} (hwell : WellFormed lib (.node map)) (hdata : cleanData data = true)
    (hextra : entriesClean 126 (extraEntries map connectDataParamNames) = true)
    (hidentity : ∀ i ∈ identity, cleanIdentity i = true) :
    ∀ line ∈ connectDataLines data map identity, ReadsLine lib raw 2 line := by
  intro line hline
  simp only [connectDataLines, List.mem_append, Option.mem_toList, Option.map_eq_some_iff] at hline
  rcases hline with (hcore | hextras) | ⟨i, hi, rfl⟩
  · exact readsLine_coreLines hlib hdata 2 line hcore
  · exact readsLine_linesOf hlib hwell (List.filter_subset_self _) hextra (by decide) line hextras
  · exact readsLine_cidLine hlib (hidentity i hi) (by decide)

/-- The line of the security settings is read back, if they are clean. -/
theorem readsLine_securityLine (hlib : lib.Lawful) (hwell : WellFormed lib (.node map))
    (hclean : entriesClean 126 (securityEntries map) = true) {sslServerCertDn : Option Text}
    (hcertDn : sslServerCertDn.all plain = true) (protocol : Protocol) (tokenAuth sslServerDnMatch : Bool) :
    ∀ line ∈ securityLine protocol map tokenAuth sslServerDnMatch sslServerCertDn, ReadsLine lib raw 1 line := by
  have hsub : securityEntries map ⊆ map :=
    List.Subset.trans (List.filter_subset_self _) (List.filter_subset_self _)
  intro line hline
  unfold securityLine at hline
  split at hline
  · cases hline
  · rw [List.mem_singleton] at hline
    subst hline
    refine readsLine_nodeLine hlib (by decide) (by decide) ?_
    intro line hline
    simp only [securityLines, List.mem_append, Option.mem_toList, Option.map_eq_some_iff] at hline
    rcases hline with ((hmatch | ⟨dn, hdn, rfl⟩) | hextra) | htoken
    · split at hmatch
      · rw [List.mem_singleton] at hmatch
        subst hmatch
        have hplain : plain (if sslServerDnMatch then "ON".toList else "OFF".toList) = true := by
          cases sslServerDnMatch <;> decide
        exact readsLine_textLine hlib hplain (by decide) _
      · cases hmatch
    · rw [hdn] at hcertDn
      exact readsLine_textLine hlib hcertDn (by decide) _
    · exact readsLine_linesOf hlib hwell hsub hclean (by decide) line hextra
    · split at htoken
      · rw [List.mem_singleton] at htoken
        subst htoken
        exact readsLine_textLine hlib (by decide) (by decide) _
      · cases htoken

/-! ### The whole descriptor -/

def sentLines (descriptor : EasyConnect) (data : ConnectData) (map : ArgMap) (identity : Option ClientIdentity)
    (security : List Line) : List Line :=
  [nodeLine "ADDRESS" "address" (addressLines descriptor),
    nodeLine "CONNECT_DATA" "connect_data" (connectDataLines data map identity)] ++ security

/-- The tree of a description that is sent, with or without security settings. -/
def sentEntries (descriptor : EasyConnect) (data : ConnectData) (map : ArgMap) (identity : Option ClientIdentity)
    (security : Option ArgMap) : ArgMap :=
  [("address".toList, [.node (addressEntries descriptor)]),
    ("connect_data".toList, [.node (connectDataEntries data map identity)])] ++
    (security.map fun node => ("security".toList, [ArgValue.node node])).toList

theorem collectLines_sentLines (h : Collected map) (descriptor : EasyConnect) (data : ConnectData)
    (identity : Option ClientIdentity) {security : List Line}
    (hsecurity : security = [] ∨ ∃ lines, security = [nodeLine "SECURITY" "security" lines]) :
    ∃ node, collectLines none (sentLines descriptor data map identity security) =
      some (sentEntries descriptor data map identity node) := by
  have hdata : (nodeLine "CONNECT_DATA" "connect_data" (connectDataLines data map identity)).pair =
      ("connect_data".toList, some (.node (connectDataEntries data map identity))) := by
    rw [Line.pair, nodeLine, collectLines_connectDataLines h]
    rfl
  have hcollect : ∀ security, collectLines none (sentLines descriptor data map identity security) =
      some (((sentLines descriptor data map identity security).map Line.pair).foldl setPair []) := by
    intro security
    rfl
  rcases hsecurity with rfl | ⟨lines, rfl⟩
  · refine ⟨none, ?_⟩
    rw [hcollect, sentLines, List.append_nil, List.map_cons, List.map_cons, hdata]
    rfl
  · have hline : (nodeLine "SECURITY" "security" lines).pair =
        ("security".toList, (collectLines none lines).map .node) := rfl
    refine ⟨collectLines none lines, ?_⟩
    rw [hcollect, sentLines, List.map_append, List.map_cons, List.map_cons, List.map_cons, hdata, hline]
    cases collectLines none lines <;> rfl

/-- A descriptor that is sent is parsed to its tree. -/
theorem parseDescriptor_sent (hlib : lib.Lawful) {lines : List Line} {entries : ArgMap}
    (hlines : ∀ line ∈ lines, ReadsLine lib raw 1 line) (hentries : collectLines none lines = some entries) :
    parseDescriptor lib raw (clause "DESCRIPTION" (linesText lines)).tail =
      .ok ([("description".toList, [.node entries])], []) := by
  have htail : (clause "DESCRIPTION" (linesText lines)).tail =
      "DESCRIPTION".toList ++ '=' :: (linesText lines ++ ')' :: []) := by
    simp [clause]
  have hvalue : ReadsValue lib raw 0 "description".toList (linesText lines) (some (.node entries)) := by
    have hread : ReadsValue lib raw 0 "description".toList (linesText lines) ((collectLines none lines).map .node) :=
      readsValue_lines hlib (by decide) hlines _
    rwa [hentries] at hread
  have hkey : ReadsKey lib "DESCRIPTION".toList "description".toList :=
    readsKey_of_isSpelling hlib (by decide)
  have hclose : Visible (')' :: ([] : Text)) := visible_cons (by decide)
  rw [parseDescriptor, parseKeyValuePair, htail,
    parsePairWith_written hlib hkey (visible_append hvalue.visible hclose)
    (hvalue.reads _ (by simp; omega) [])]
  rfl

end OracleThin.ConnectString
