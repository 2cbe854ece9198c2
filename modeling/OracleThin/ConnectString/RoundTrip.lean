import OracleThin.ConnectString.Trees

/-!
# The descriptors that are sent are read back

The clauses of the driver are lines. The lines of the connect data are collected to a node with the known fields first
and then the unknown keys of the description, and for the listener the identity of the client behind them. From that
node the fields of the description are built again.
-/

namespace OracleThin.ConnectString

open Lib

variable {lib : Library (Option Descriptor)} {raw : Text}

/-! ### Lines of the driver -/

/-- A line with a text as its value. -/
def textLine (written key : String) (text : Text) : Line := ⟨written.toList, key.toList, text, some (.simple text)⟩

theorem textLine_text (written key : String) (text : Text) :
    (textLine written key text).text = clause written text := by
  simp [textLine, Line.text, clause]

theorem readsLine_textLine (hlib : lib.Lawful) {written key : String} {text : Text} (hplain : plain text = true)
    (h : IsSpelling written.toList key.toList ∧ isContainerParam key.toList = false) (depth : Nat) :
    ReadsLine lib raw depth (textLine written key text) where
  key := readsKey_of_isSpelling hlib h.1
  value := readsValue_plain hplain h.2 depth

/-- The entries of a node that are not among the known keys. -/
def extraEntries (map : ArgMap) (allowed : List String) : ArgMap :=
  map.filter fun entry => entry.1 ∉ allowed.map String.toList

theorem linesText_linesOf_flatMap (entries : ArgMap) : linesText (linesOf entries) =
    extraClauses (entries.flatMap fun entry => entry.2.map fun value =>
      (toAsciiUppercase entry.1, valueRepr value)) := by
  simp [linesText, linesOf, extraClauses, Line.text, List.flatMap_map, List.flatMap_assoc]

theorem linesText_extraEntries (map : ArgMap) (allowed : List String) :
    linesText (linesOf (extraEntries map allowed)) = extraClauses (collectExtras map allowed) :=
  linesText_linesOf_flatMap _

/-! ### The connect data -/

/-- The instance name, or else the SID. -/
def targetLine (data : ConnectData) : List Line :=
  match data.instanceName, data.sid with
  | some instanceName, _ => [textLine "INSTANCE_NAME" "instance_name" instanceName]
  | none, some sid => [textLine "SID" "sid" sid]
  | none, none => []

/-- Without a name of any kind the service name is printed without a value. -/
def emptyLine (data : ConnectData) : List Line :=
  if data.serviceName.isNone && data.instanceName.isNone && data.sid.isNone then
    [⟨"SERVICE_NAME".toList, "service_name".toList, [], none⟩] else []

def coreLines (data : ConnectData) : List Line :=
  (data.serviceName.map (textLine "SERVICE_NAME" "service_name")).toList ++ targetLine data ++ emptyLine data ++
    (data.serverType.map fun server => textLine "SERVER" "server_type" server.asStr).toList

def coreEntries (data : ConnectData) : ArgMap :=
  (data.serviceName.map fun name => ("service_name".toList, [ArgValue.simple name])).toList ++
    (match data.instanceName, data.sid with
      | some instanceName, _ => [("instance_name".toList, [ArgValue.simple instanceName])]
      | none, some sid => [("sid".toList, [ArgValue.simple sid])]
      | none, none => []) ++
    (data.serverType.map fun server => ("server_type".toList, [ArgValue.simple server.asStr])).toList

theorem coreLines_ne_nil (data : ConnectData) : coreLines data ≠ [] := by
  obtain ⟨service, sid, instanceName, server, _, _, _, _, _, _, _⟩ := data
  cases service <;> cases sid <;> cases instanceName <;> simp [coreLines, targetLine, emptyLine]

theorem foldl_coreLines (data : ConnectData) :
    ((coreLines data).map Line.pair).foldl setPair [] = coreEntries data := by
  obtain ⟨service, sid, instanceName, server, _, _, _, _, _, _, _⟩ := data
  cases service <;> cases sid <;> cases instanceName <;> cases server <;> rfl

theorem linesText_coreLines (description : Description) (fallback : Option Text)
    (hfallback : description.connectData.serviceName = none → fallback = none ∨ fallback = some []) :
    authConnectDataClauseFromService description fallback ++ serverClause description.connectData.serverType =
      "(CONNECT_DATA=".toList ++ linesText (coreLines description.connectData) := by
  have hservice : description.connectData.serviceName.or (fallback.filter fun name => name ≠ []) =
      description.connectData.serviceName := by
    cases hname : description.connectData.serviceName with
    | some name => rfl
    | none =>
      rcases hfallback hname with rfl | rfl
      · rfl
      · rfl
  unfold authConnectDataClauseFromService
  dsimp only
  rw [hservice]
  generalize description.connectData = data
  obtain ⟨service, sid, instanceName, server, _, _, _, _, _, _, _⟩ := data
  cases service <;> cases sid <;> cases instanceName <;> cases server <;>
    simp [coreLines, targetLine, emptyLine, linesText, serverClause, textLine, Line.text, clause]

/-- The fields that are printed are plain, and there is no SID beside an instance name. -/
def cleanData (data : ConnectData) : Bool :=
  data.serviceName.all plain && data.instanceName.all plain && data.sid.all plain &&
    (data.instanceName.isNone || data.sid.isNone)

theorem readsLine_coreLines (hlib : lib.Lawful) {data : ConnectData} (h : cleanData data = true) (depth : Nat) :
    ∀ line ∈ coreLines data, ReadsLine lib raw depth line := by
  simp only [cleanData, Bool.and_eq_true] at h
  obtain ⟨⟨⟨hservice, hinstance⟩, hsid⟩, -⟩ := h
  intro line hline
  simp only [coreLines, List.mem_append, Option.mem_toList, Option.map_eq_some_iff] at hline
  rcases hline with ((⟨name, hname, rfl⟩ | htarget) | hempty) | ⟨server, -, rfl⟩
  · rw [hname] at hservice
    exact readsLine_textLine hlib hservice (by decide) depth
  · unfold targetLine at htarget
    split at htarget
    · rename_i name hname
      rw [hname] at hinstance
      rw [List.mem_singleton] at htarget
      subst htarget
      exact readsLine_textLine hlib hinstance (by decide) depth
    · rename_i sid _ hname
      rw [hname] at hsid
      rw [List.mem_singleton] at htarget
      subst htarget
      exact readsLine_textLine hlib hsid (by decide) depth
    · cases htarget
  · unfold emptyLine at hempty
    split at hempty
    · rw [List.mem_singleton] at hempty
      subst hempty
      exact ⟨readsKey_of_isSpelling hlib (by decide), readsValue_nothing depth _⟩
    · cases hempty
  · exact readsLine_textLine hlib (by cases server <;> decide) (by decide) depth

private theorem keys_coreEntries (data : ConnectData) :
    (keys (coreEntries data)).Nodup ∧ ∀ key ∈ keys (coreEntries data),
    key ∈ connectDataParamNames.map String.toList := by
  obtain ⟨service, sid, instanceName, server, _, _, _, _, _, _, _⟩ := data
  cases service <;> cases sid <;> cases instanceName <;> cases server <;>
    simp [coreEntries, keys, connectDataParamNames]

private theorem values_coreEntries (data : ConnectData) : ∀ entry ∈ coreEntries data, entry.2 ≠ [] := by
  obtain ⟨service, sid, instanceName, server, _, _, _, _, _, _, _⟩ := data
  cases service <;> cases sid <;> cases instanceName <;> cases server <;> simp [coreEntries]

theorem not_mem_keys_extraEntries {map : ArgMap} {allowed : List String} {key : Text}
    (h : key ∈ allowed.map String.toList) : key ∉ keys (extraEntries map allowed) := by
  intro hmem
  obtain ⟨entry, hentry, rfl⟩ := List.mem_map.1 hmem
  have hnew := (List.mem_filter.1 hentry).2
  rw [decide_eq_true_eq] at hnew
  exact hnew h

/-- The known fields and the unknown keys make up a collected node. -/
theorem collected_connectData (data : ConnectData) {map : ArgMap} (h : Collected map) :
    Collected (coreEntries data ++ extraEntries map connectDataParamNames) := by
  obtain ⟨hnodup, hknown⟩ := keys_coreEntries data
  have hsub : (extraEntries map connectDataParamNames).Sublist map := List.filter_sublist
  have hkeys : keys (coreEntries data ++ extraEntries map connectDataParamNames) =
      keys (coreEntries data) ++ keys (extraEntries map connectDataParamNames) := List.map_append ..
  refine ⟨?_, ?_, ?_⟩
  · rw [hkeys, List.nodup_append]
    refine ⟨hnodup, h.nodup.sublist (hsub.map _), ?_⟩
    rintro key hcore _ hextra rfl
    exact not_mem_keys_extraEntries (hknown key hcore) hextra
  · intro entry hentry
    rcases List.mem_append.1 hentry with hcore | hextra
    · exact values_coreEntries data entry hcore
    · exact h.values entry (hsub.subset hextra)
  · rw [hkeys]
    rintro ⟨haddress, hlist⟩
    -- Neither key is one of the known fields.
    have hextra : ∀ key, key ∉ connectDataParamNames.map String.toList →
        key ∈ keys (coreEntries data) ++ keys (extraEntries map connectDataParamNames) → key ∈ keys map := by
      intro key hnew hmem
      rcases List.mem_append.1 hmem with hcore | hmem
      · exact absurd (hknown key hcore) hnew
      · exact (hsub.map Prod.fst).subset hmem
    exact h.apart ⟨hextra _ (by decide) haddress, hextra _ (by decide) hlist⟩

/-! ### The fields are built again -/

/-- The connect data that the printed fields give, with unknown keys. -/
def printedData (data : ConnectData) (extra : List (Text × Text)) : ConnectData where
  serviceName := data.serviceName
  sid := data.sid
  instanceName := data.instanceName
  serverType := data.serverType
  extra := extra

/-- A node with the known fields in it is built to the connect data. -/
theorem buildConnectData_core {data : ConnectData} (hdata : cleanData data = true) {map : ArgMap}
    (h : ∀ key ∈ connectDataParamNames, map.get key.toList = (coreEntries data).get key.toList) :
    buildConnectData raw map = .ok (printedData data (collectExtras map connectDataParamNames)) := by
  have hsimple : ∀ key ∈ connectDataParamNames, simple map key = simple (coreEntries data) key :=
    fun key hkey => by rw [simple, h key hkey, simple]
  simp only [cleanData, Bool.and_eq_true, Bool.or_eq_true] at hdata
  obtain ⟨-, hone⟩ := hdata
  unfold buildConnectData
  rw [hsimple "server_type" (by decide), hsimple "purity" (by decide), hsimple "service_name" (by decide),
    hsimple "sid" (by decide), hsimple "instance_name" (by decide), hsimple "cclass" (by decide),
    hsimple "pool_boundary" (by decide), hsimple "pool_name" (by decide), hsimple "connection_id_prefix" (by decide),
    hsimple "use_tcp_fast_open" (by decide)]
  obtain ⟨service, sid, instanceName, server, _, _, _, _, _, _, _⟩ := data
  rcases server with _ | server
  · cases service <;> cases sid <;> cases instanceName <;> first | rfl | simp at hone
  · cases server <;> cases service <;> cases sid <;> cases instanceName <;> first | rfl | simp at hone

private theorem extraEntries_append (map rest : ArgMap) (allowed : List String) :
    extraEntries (map ++ rest) allowed = extraEntries map allowed ++ extraEntries rest allowed :=
  List.filter_append ..

theorem collectExtras_connectData (data : ConnectData) (map : ArgMap) :
    collectExtras (coreEntries data ++ extraEntries map connectDataParamNames) connectDataParamNames =
      collectExtras map connectDataParamNames := by
  have hcore : extraEntries (coreEntries data) connectDataParamNames = [] := by
    rw [extraEntries, List.filter_eq_nil_iff]
    intro entry hentry
    have hknown := (keys_coreEntries data).2 entry.1 (List.mem_map_of_mem hentry)
    simp only [decide_eq_true_eq, not_not]
    exact hknown
  have hagain : extraEntries (extraEntries map connectDataParamNames) connectDataParamNames =
      extraEntries map connectDataParamNames := by
    simp [extraEntries, List.filter_filter]
  have hall : ∀ map, collectExtras map connectDataParamNames = (extraEntries map connectDataParamNames).flatMap
    fun entry =>
      entry.2.map fun value => (toAsciiUppercase entry.1, valueRepr value) := fun map => rfl
  rw [hall, hall, extraEntries_append, hcore, hagain, List.nil_append]

private theorem collectExtras_cons {key : Text} {allowed : List String} (h : key ∉ allowed.map String.toList)
    (values : List ArgValue) (map : ArgMap) : collectExtras ((key, values) :: map) allowed =
      (values.map fun value => (toAsciiUppercase key, valueRepr value)) ++ collectExtras map allowed := by
  have hfilter : ((key, values) :: map).filter (fun entry => entry.1 ∉ allowed.map String.toList) =
      (key, values) :: map.filter fun entry => entry.1 ∉ allowed.map String.toList :=
    List.filter_cons_of_pos (decide_eq_true h)
  rw [collectExtras, hfilter, List.flatMap_cons]
  rfl

/-- Another value under an unknown key is one more unknown key, up to the order. -/
theorem collectExtras_push {key : Text} {allowed : List String} (h : key ∉ allowed.map String.toList) (map : ArgMap)
    (value : ArgValue) : (collectExtras (map.push key value) allowed).Perm
      (collectExtras map allowed ++ [(toAsciiUppercase key, valueRepr value)]) := by
  induction map with
  | nil => exact List.Perm.of_eq (collectExtras_cons h [value] [])
  | cons entry map ih =>
    obtain ⟨k, values⟩ := entry
    by_cases hk : k = key
    · subst hk
      have hpush : ArgMap.push ((k, values) :: map) k value = (k, values ++ [value]) :: map := by simp [ArgMap.push]
      rw [hpush, collectExtras_cons h, collectExtras_cons h, List.map_append, List.append_assoc, List.append_assoc]
      exact List.Perm.append_left _ List.perm_append_comm
    · have hpush : ArgMap.push ((k, values) :: map) key value = (k, values) :: ArgMap.push map key value := by
        simp [ArgMap.push, hk]
      have hcons : ∀ map, collectExtras ((k, values) :: map) allowed =
          collectExtras [(k, values)] allowed ++ collectExtras map allowed := by
        intro map
        rw [← List.singleton_append, collectExtras, List.filter_append, List.flatMap_append]
        rfl
      rw [hpush, hcons (ArgMap.push map key value), hcons map, List.append_assoc]
      exact ih.append_left _

end OracleThin.ConnectString
