import OracleThin.Image.OsonTree

/-!
# The field names of an OSON image

The encoder collects the distinct names of a value, those of at most 255 bytes and the longer ones apart, sorts each
of the two lists and numbers both through. A name is found again in its segment at its offset, and its id is its place
in the two lists, counted from one.
-/

namespace OracleThin.Image

open Lib Wire Ttc Seek

/-! ### Collecting the names -/

/-- The names with one more, if it is new. -/
def addDistinct (names : List String) (key : String) : List String := if key ∈ names then names else names ++ [key]

/-- The distinct names among some keys. -/
def distinctNames (keys : List String) : List String := keys.foldl addDistinct []

variable {names : List String} {maxFnameSize width : Nat} {fieldName : FieldName} {fieldNames : List FieldName}

theorem nodup_addDistinct (h : names.Nodup) (key : String) : (addDistinct names key).Nodup := by
  unfold addDistinct
  split
  · exact h
  · rename_i hnew
    exact List.nodup_append.2 ⟨h, by simp, fun a ha b hb hab => hnew (hab.trans (List.mem_singleton.1 hb) ▸ ha)⟩

theorem nodup_distinctNames (keys : List String) : (distinctNames keys).Nodup :=
  List.foldlRecOn keys addDistinct List.nodup_nil fun _ h key _ => nodup_addDistinct h key

theorem length_foldl_addDistinct_le (keys names : List String) :
    (keys.foldl addDistinct names).length ≤ names.length + keys.length := by
  induction keys generalizing names with
  | nil => simp
  | cons key keys ih =>
    have hstep : (addDistinct names key).length ≤ names.length + 1 := by
      unfold addDistinct
      split
      · omega
      · simp
    have hrest := ih (addDistinct names key)
    rw [List.foldl_cons, List.length_cons]
    omega

theorem length_distinctNames_le (keys : List String) : (distinctNames keys).length ≤ keys.length := by
  have h := length_foldl_addDistinct_le keys []
  rwa [List.length_nil, Nat.zero_add] at h

/-- The name goes to the first of the two segments. -/
def isShortName (name : String) : Bool := (textBytes name).length ≤ 255

/-- A name with its hash, before it has an id. -/
def plainName (name : String) : FieldName :=
  { name, nameBytes := textBytes name, hashId := calcHashId (textBytes name) }

/-- The segment of some names. -/
def segmentOf (names : List String) : FieldNamesSegment :=
  names.foldl (fun seg name => seg.addName (plainName name)) {}

theorem segmentOf_append_singleton (names : List String) (name : String) :
    segmentOf (names ++ [name]) = (segmentOf names).addName (plainName name) := by
  rw [segmentOf, List.foldl_append]
  rfl

/-- The encoder when it has collected some names. -/
def collected (maxFnameSize : Nat) (names : List String) : OsonEncoder where
  fieldNamesDict := names.map plainName
  shortFnamesSeg := some (segmentOf (names.filter isShortName))
  longFnamesSeg :=
    if names.filter (!isShortName ·) = [] then none else some (segmentOf (names.filter (!isShortName ·)))
  maxFnameSize := maxFnameSize

theorem lookup_collected (maxFnameSize : Nat) (names : List String) (key : String) :
    ((collected maxFnameSize names).lookup key).isSome ↔ key ∈ names := by
  rw [OsonEncoder.lookup, collected, List.find?_isSome]
  simp [plainName]

/-- All names are within the length that the connection allows. -/
def NamesFit (maxFnameSize : Nat) (names : List String) : Prop :=
  ∀ name ∈ names, (textBytes name).length ≤ maxFnameSize

/-- The examination adds these keys to the names that are collected. -/
def Collects (maxFnameSize : Nat) (keys : List String) (examine : OsonEncoder → Result OsonEncoder) : Prop :=
  ∀ names encoder, NamesFit maxFnameSize names → examine (collected maxFnameSize names) = .ok encoder →
    encoder = collected maxFnameSize (keys.foldl addDistinct names) ∧
      NamesFit maxFnameSize (keys.foldl addDistinct names)

theorem Collects.append {keys keys' : List String} {examine examine' : OsonEncoder → Result OsonEncoder}
    (h : Collects maxFnameSize keys examine) (h' : Collects maxFnameSize keys' examine') :
    Collects maxFnameSize (keys ++ keys') fun encoder => examine encoder >>= examine' := by
  intro names encoder hfit hok
  obtain ⟨first, hfirst, hok⟩ := except_bind_eq_ok.1 hok
  obtain ⟨rfl, hfit⟩ := h names first hfit hfirst
  rw [List.foldl_append]
  exact h' _ _ hfit hok

theorem collects_addFieldName (key : String) : Collects maxFnameSize [key]
    fun encoder => encoder.addFieldName key := by
  intro names encoder hfit h
  dsimp only [OsonEncoder.addFieldName] at h
  rw [List.foldl_cons, List.foldl_nil]
  unfold addDistinct
  by_cases hold : key ∈ names
  · rw [if_pos ((lookup_collected ..).2 hold)] at h
    rw [if_pos hold]
    cases h
    exact ⟨rfl, hfit⟩
  rw [if_neg fun h => hold ((lookup_collected ..).1 h)] at h
  rw [if_neg hold]
  obtain ⟨fieldName, hnew, h⟩ := except_bind_eq_ok.1 h
  have hplain : fieldName = plainName key ∧ (textBytes key).length ≤ maxFnameSize := by
    unfold FieldName.new at hnew
    split at hnew
    · cases hnew
    · rename_i hlen
      cases hnew
      exact ⟨rfl, not_lt.1 hlen⟩
  obtain ⟨rfl, hlen⟩ := hplain
  refine ⟨?_, fun name hname => ?_⟩
  swap
  · rcases List.mem_append.1 hname with hname | hname
    · exact hfit name hname
    · rwa [List.mem_singleton.1 hname]
  by_cases hshort : (plainName key).nameBytes.length ≤ 255
  · have hkey : isShortName key = true := decide_eq_true hshort
    rw [if_pos hshort] at h
    cases h
    simp [collected, List.filter_append, hkey, segmentOf_append_singleton]
  · have hkey : isShortName key = false := decide_eq_false hshort
    rw [if_neg hshort] at h
    cases h
    have hseg : (collected maxFnameSize names).longFnamesSeg.getD {} = segmentOf (names.filter (!isShortName ·)) := by
      rw [collected]
      split
      · rename_i hnil
        rw [hnil]
        rfl
      · rfl
    rw [hseg]
    simp [collected, List.filter_append, hkey, segmentOf_append_singleton]

/-- Examining a value collects its names. -/
theorem collects_examineNode (value : OsonValue) :
    Collects maxFnameSize value.keys fun encoder => encoder.examineNode value := by
  induction value using OsonValue.ind
    (Q := fun values => Collects maxFnameSize (OsonValue.keysOfValues values) fun encoder =>
      encoder.examineValues values)
    (R := fun entries =>
      Collects maxFnameSize (OsonValue.keysOfEntries entries) fun encoder => encoder.examineEntries entries) with
  | scalar value hvalue =>
    cases value with
    | array _ | object _ => cases hvalue
    | null | bool _ | number _ | binaryFloat _ | binaryDouble _ | string _ | raw _ | dateTime _ | intervalDS _ _ _ _ _
    | vector _ =>
      rintro names _ hfit ⟨⟩
      exact ⟨rfl, hfit⟩
  | array values ih | object values ih => exact ih
  | nil | none =>
    rintro names _ hfit ⟨⟩
    exact ⟨rfl, hfit⟩
  | cons value values ih ihs => exact ih.append ihs
  | entry key value entries ih ihs => exact (collects_addFieldName key).append (ih.append ihs)

/-! ### Segments -/

/-- The width of the length in front of a name. -/
def nameLenSize (name : String) : Nat := if isShortName name then 1 else 2

/-- The bytes of the names of a segment with their lengths. -/
def namesBytes (names : List String) : Nat := (names.map fun name => nameLenSize name + (textBytes name).length).sum

theorem segmentOf_buffer_append (names : List String) (name : String) :
    (segmentOf (names ++ [name])).buffer =
      (segmentOf names).buffer ++ toBe (nameLenSize name) (textBytes name).length ++ textBytes name := by
  rw [segmentOf_append_singleton]
  by_cases hshort : (textBytes name).length ≤ 255 <;>
    simp [FieldNamesSegment.addName, plainName, nameLenSize, isShortName, hshort]

theorem length_segmentOf_buffer (names : List String) : (segmentOf names).buffer.length = namesBytes names := by
  induction names using List.reverseRecOn with
  | nil => rfl
  | append_singleton names name ih =>
    rw [segmentOf_buffer_append, List.length_append, List.length_append, length_toBe, ih]
    simp [namesBytes]
    omega

/-- The names of a segment are those collected, each with its place. -/
theorem map_name_segmentOf (names : List String) : (segmentOf names).fieldNames.map FieldName.name = names := by
  induction names using List.reverseRecOn with
  | nil => rfl
  | append_singleton names name ih =>
    rw [segmentOf_append_singleton, FieldNamesSegment.addName, List.map_append, ih]
    rfl

theorem mem_segmentOf (h : fieldName ∈ (segmentOf names).fieldNames) :
    fieldName.nameBytes = textBytes fieldName.name ∧
      StandsAt (segmentOf names).buffer fieldName.offset
        (toBe (nameLenSize fieldName.name) (textBytes fieldName.name).length ++ textBytes fieldName.name) := by
  induction names using List.reverseRecOn with
  | nil => cases h
  | append_singleton names name ih =>
    rw [segmentOf_buffer_append]
    rw [segmentOf_append_singleton, FieldNamesSegment.addName] at h
    rcases List.mem_append.1 h with h | h
    · obtain ⟨hbytes, hstands⟩ := ih h
      rw [List.append_assoc]
      exact ⟨hbytes, hstands.append_right _⟩
    · rw [List.mem_singleton.1 h]
      refine ⟨rfl, ?_⟩
      have hlast := StandsAt.of_append (segmentOf names).buffer
        (toBe (nameLenSize name) (textBytes name).length ++ textBytes name) []
      rw [List.append_nil, ← List.append_assoc] at hlast
      exact hlast

/-! ### Sorting and numbering -/

/-- What is true of a segment of some names when they are sorted and numbered from a base. -/
structure Processed (seg : FieldNamesSegment) (base : UInt32) (names : List String) : Prop where
  perm : (seg.fieldNames.map FieldName.name).Perm names
  buffer : seg.buffer = (segmentOf names).buffer
  count : seg.numFieldNames = UInt32.ofNat names.length
  place : ∀ fieldName ∈ seg.fieldNames, fieldName.nameBytes = textBytes fieldName.name ∧
    StandsAt seg.buffer fieldName.offset
      (toBe (nameLenSize fieldName.name) (textBytes fieldName.name).length ++ textBytes fieldName.name)
  id : ∀ (i : Nat) (fieldName : FieldName), seg.fieldNames[i]? = some fieldName →
    fieldName.fieldId = base + UInt32.ofNat i + 1

theorem processed_processFieldNames (base : UInt32) (names : List String) :
    Processed ((segmentOf names).processFieldNames base) base names := by
  have hperm := List.mergeSort_perm (segmentOf names).fieldNames FieldName.sortsBefore
  have hnames : (((segmentOf names).fieldNames.mergeSort FieldName.sortsBefore).map FieldName.name).Perm names := by
    have hmap := hperm.map FieldName.name
    rwa [map_name_segmentOf] at hmap
  have hnumbered : ((segmentOf names).processFieldNames base).fieldNames.map FieldName.name =
      ((segmentOf names).fieldNames.mergeSort FieldName.sortsBefore).map FieldName.name := by
    rw [FieldNamesSegment.processFieldNames, List.map_map]
    conv_rhs => rw [← List.zipIdx_map_fst 0 ((segmentOf names).fieldNames.mergeSort FieldName.sortsBefore),
      List.map_map]
    rfl
  refine ⟨by rw [hnumbered]; exact hnames, rfl, ?_, ?_, ?_⟩
  · have hlen := hnames.length_eq
    rw [List.length_map] at hlen
    rw [FieldNamesSegment.processFieldNames, hlen]
  · intro fieldName hmem
    obtain ⟨⟨sorted, i⟩, hsorted, rfl⟩ := List.mem_map.1 hmem
    have horigin := (hperm.mem_iff).1 (List.fst_mem_of_mem_zipIdx hsorted)
    obtain ⟨hbytes, hstands⟩ := mem_segmentOf horigin
    exact ⟨hbytes, hstands⟩
  · intro i fieldName hget
    rw [FieldNamesSegment.processFieldNames, List.getElem?_map, List.getElem?_zipIdx, Option.map_map] at hget
    obtain ⟨sorted, -, rfl⟩ := Option.map_eq_some_iff.1 hget
    simp

def shortSegment (names : List String) : FieldNamesSegment :=
  (segmentOf (names.filter isShortName)).processFieldNames 0

def longSegment (names : List String) : FieldNamesSegment :=
  (segmentOf (names.filter (!isShortName ·))).processFieldNames (UInt32.ofNat (names.filter isShortName).length)

/-- The field names of both segments. -/
def allFieldNames (names : List String) : List FieldName :=
  (shortSegment names).fieldNames ++ (longSegment names).fieldNames

theorem processed_shortSegment (names : List String) :
    Processed (shortSegment names) 0 (names.filter isShortName) := processed_processFieldNames ..

theorem processed_longSegment (names : List String) :
    Processed (longSegment names) (UInt32.ofNat (names.filter isShortName).length) (names.filter (!isShortName ·)) :=
  processed_processFieldNames ..

theorem perm_allFieldNames (names : List String) : ((allFieldNames names).map FieldName.name).Perm names := by
  rw [allFieldNames, List.map_append]
  have hparts := (processed_shortSegment names).perm.append (processed_longSegment names).perm
  exact hparts.trans (List.filter_append_perm isShortName names)

/-- The id of a name is its place among all, counted from one. -/
theorem fieldId_allFieldNames {i : Nat} (h : (allFieldNames names)[i]? = some fieldName) :
    fieldName.fieldId = UInt32.ofNat (i + 1) := by
  have hlen := (processed_shortSegment names).perm.length_eq
  rw [List.length_map] at hlen
  rw [allFieldNames] at h
  by_cases hshort : i < (shortSegment names).fieldNames.length
  · rw [List.getElem?_append_left hshort] at h
    rw [(processed_shortSegment names).id i fieldName h, UInt32.ofNat_add]
    simp
  · rw [List.getElem?_append_right (not_lt.1 hshort)] at h
    have hsum : (names.filter isShortName).length + (i - (names.filter isShortName).length) = i := by omega
    rw [(processed_longSegment names).id _ fieldName h, hlen, ← UInt32.ofNat_add, hsum, UInt32.ofNat_add]
    rfl

/-! ### The dictionary -/

/-- The entry of the dictionary takes the id and the offset of a name that is its own. -/
def syncEntry (entry fieldName : FieldName) : FieldName :=
  if entry.name = fieldName.name then
    { entry with fieldId := fieldName.fieldId, offset := fieldName.offset } else entry

theorem name_syncEntry (entry fieldName : FieldName) : (syncEntry entry fieldName).name = entry.name := by
  unfold syncEntry
  split <;> rfl

theorem foldl_map_syncEntry (fieldNames dict : List FieldName) :
    fieldNames.foldl (fun dict fieldName => dict.map fun entry => syncEntry entry fieldName) dict =
      dict.map fun entry => fieldNames.foldl syncEntry entry := by
  induction fieldNames generalizing dict with
  | nil => simp
  | cons fieldName fieldNames ih =>
    rw [List.foldl_cons, ih, List.map_map]
    rfl

theorem name_foldl_syncEntry (fieldNames : List FieldName) (entry : FieldName) :
    (fieldNames.foldl syncEntry entry).name = entry.name := by
  induction fieldNames generalizing entry with
  | nil => rfl
  | cons fieldName fieldNames ih => rw [List.foldl_cons, ih, name_syncEntry]

theorem foldl_syncEntry_of_not_mem {entry : FieldName} (h : entry.name ∉ fieldNames.map FieldName.name) :
    fieldNames.foldl syncEntry entry = entry := by
  induction fieldNames with
  | nil => rfl
  | cons fieldName fieldNames ih =>
    rw [List.map_cons, List.mem_cons, not_or] at h
    rw [List.foldl_cons, syncEntry, if_neg h.1]
    exact ih h.2

/-- An entry takes the id of the one name that is its own. -/
theorem fieldId_foldl_syncEntry {entry : FieldName} (hnodup : (fieldNames.map FieldName.name).Nodup)
    (hmem : fieldName ∈ fieldNames) (hname : entry.name = fieldName.name) :
    (fieldNames.foldl syncEntry entry).fieldId = fieldName.fieldId := by
  induction fieldNames generalizing entry with
  | nil => cases hmem
  | cons first fieldNames ih =>
    rw [List.map_cons, List.nodup_cons] at hnodup
    rw [List.foldl_cons]
    rcases List.mem_cons.1 hmem with rfl | hmem
    · rw [foldl_syncEntry_of_not_mem, syncEntry, if_pos hname]
      rw [name_syncEntry, hname]
      exact hnodup.1
    · exact ih hnodup.2 hmem ((name_syncEntry ..).trans hname)

/-- The encoder with all names of a value sorted and numbered. -/
def numbered (maxFnameSize : Nat) (names : List String) : OsonEncoder where
  fieldNamesDict := names.map plainName
  shortFnamesSeg := some (shortSegment names)
  longFnamesSeg := if names.filter (!isShortName ·) = [] then none else some (longSegment names)
  numFieldNames := UInt32.ofNat names.length
  maxFnameSize := maxFnameSize

theorem processLong_collected (maxFnameSize : Nat) (names : List String) :
    (collected maxFnameSize names).processShort.processLong = numbered maxFnameSize names := by
  have hcount := (List.filter_append_perm isShortName names).length_eq
  rw [List.length_append] at hcount
  have hshort := (processed_shortSegment names).count
  have hlong := (processed_longSegment names).count
  unfold shortSegment at hshort
  unfold longSegment at hlong
  have hprocessed : (collected maxFnameSize names).processShort =
      { collected maxFnameSize names with
        shortFnamesSeg := some (shortSegment names)
        numFieldNames := UInt32.ofNat (names.filter isShortName).length } := by
    simp [OsonEncoder.processShort, collected, hshort, shortSegment]
  rw [hprocessed]
  by_cases hnil : names.filter (!isShortName ·) = []
  · rw [hnil, List.length_nil, Nat.add_zero] at hcount
    simp [OsonEncoder.processLong, collected, numbered, hnil, hcount]
  · simp [OsonEncoder.processLong, collected, numbered, hnil, hlong, longSegment, ← hcount, UInt32.ofNat_add]

theorem fieldNames_longSegment (h : names.filter (!isShortName ·) = []) : (longSegment names).fieldNames = [] := by
  have hperm := (processed_longSegment names).perm
  rw [h] at hperm
  exact List.map_eq_nil_iff.1 (List.perm_nil.1 hperm)

/-- The encoder whose dictionary has the ids. -/
theorem syncFieldIds_numbered (maxFnameSize : Nat) (names : List String) :
    (numbered maxFnameSize names).syncFieldIds =
      { numbered maxFnameSize names with
        fieldNamesDict := names.map fun name => (allFieldNames names).foldl syncEntry (plainName name) } := by
  have hall : [(numbered maxFnameSize names).shortFnamesSeg, (numbered maxFnameSize names).longFnamesSeg].flatMap
      (fun seg => seg.elim [] (·.fieldNames)) = allFieldNames names := by
    by_cases hnil : names.filter (!isShortName ·) = []
    · simp [numbered, hnil, allFieldNames, fieldNames_longSegment hnil]
    · simp [numbered, hnil, allFieldNames]
  have hmap := foldl_map_syncEntry (allFieldNames names) (names.map plainName)
  rw [List.map_map] at hmap
  rw [OsonEncoder.syncFieldIds, hall]
  exact congrArg (fun dict => { numbered maxFnameSize names with fieldNamesDict := dict }) hmap

/-- A name that is found has the id that is its place among all names, counted from one. -/
theorem lookup_syncFieldIds (hnodup : names.Nodup) {key : String}
    (h : (numbered maxFnameSize names).syncFieldIds.lookup key = some fieldName) :
    ∃ i, ((allFieldNames names).map FieldName.name)[i]? = some key ∧ fieldName.fieldId = UInt32.ofNat (i + 1) := by
  rw [syncFieldIds_numbered, OsonEncoder.lookup] at h
  have hname : fieldName.name = key := by simpa using List.find?_some h
  obtain ⟨name, hmem, rfl⟩ := List.mem_map.1 (List.mem_of_find?_eq_some h)
  rw [name_foldl_syncEntry] at hname
  have hperm := perm_allFieldNames names
  have hall : name ∈ (allFieldNames names).map FieldName.name := hperm.mem_iff.2 hmem
  obtain ⟨found, hfound, hfoundName⟩ := List.mem_map.1 hall
  obtain ⟨i, hi⟩ := List.getElem?_of_mem hfound
  have hid : ((allFieldNames names).foldl syncEntry (plainName name)).fieldId = found.fieldId :=
    fieldId_foldl_syncEntry (hperm.nodup_iff.2 hnodup) hfound hfoundName.symm
  refine ⟨i, ?_, hid.trans (fieldId_allFieldNames hi)⟩
  rw [List.getElem?_map, hi, Option.map_some, hfoundName]
  exact congrArg some hname

/-! ### Reading the names -/

theorem fieldNameAt_standsAt {seg : List UInt8} {offset : Nat} {name : String}
    (h : StandsAt seg offset (toBe width (textBytes name).length ++ textBytes name))
    (hlen : (textBytes name).length < 256 ^ width) : fieldNameAt seg width offset = .ok name := by
  obtain ⟨hsize, hname⟩ := StandsAt.append_iff.1 h
  have hend := hname.length_le
  have htake := hsize.take_drop
  rw [length_toBe] at hname hend htake
  unfold fieldNameAt
  rw [if_neg (by omega)]
  rw [htake, ofBe_toBe_of_lt hlen, if_neg (by omega), hname.take_drop]
  exact decodeUtf8_textBytes name _

section

variable {reader : OsonReader} (hmax : reader.data.length ≤ reader.limits.maxResponseBytes)

variable {pos pos' : Nat}

include hmax in
theorem readNames_standsAt {seg : List UInt8} {offsetsSize nameLenSize : Nat}
    (h : StandsAt reader.data pos (fieldNames.flatMap fun fieldName => toBe offsetsSize fieldName.offset))
    (hfields : ∀ fieldName ∈ fieldNames, fieldName.offset < 256 ^ offsetsSize ∧
      fieldNameAt seg nameLenSize fieldName.offset = .ok fieldName.name) :
    readNames reader seg offsetsSize nameLenSize fieldNames.length pos =
      .ok (fieldNames.map FieldName.name, pos + fieldNames.length * offsetsSize) := by
  induction fieldNames generalizing pos with
  | nil => simp [readNames]
  | cons fieldName fieldNames ih =>
    obtain ⟨hoffset, hrest⟩ := StandsAt.append_iff.1 h
    obtain ⟨hfits, hname⟩ := hfields fieldName (List.mem_cons_self ..)
    have hread := readUint_standsAt hmax hoffset
    rw [Nat.mod_eq_of_lt hfits] at hread
    rw [length_toBe] at hrest
    have hlater := ih hrest fun f hf => hfields f (List.mem_cons_of_mem _ hf)
    rw [List.length_cons, readNames, Seek.bind_of_ok hread, Seek.bind_of_ok (lift_of_ok hname),
      Seek.bind_of_ok hlater,
      pure_apply, List.map_cons, Nat.add_mul, Nat.one_mul]
    congr 2
    omega

/-- The width of the offsets of a segment. -/
def offsetsWidth (size : Nat) : Nat := if size < 65536 then 2 else 4

theorem length_writeFnamesSeg {seg : FieldNamesSegment} {base : UInt32} (hseg : Processed seg base names)
    (hwidth : ∀ name ∈ names, nameLenSize name = width) :
    (seg.fieldNames.flatMap fun fieldName =>
      if fieldName.nameBytes.length ≤ 255 then toBe 1 fieldName.hashId.toNat
      else toBe 2 fieldName.hashId.toNat).length =
        names.length * width ∧
    (seg.fieldNames.flatMap fun fieldName =>
      toBe (if seg.buffer.length < 65536 then 2 else 4) fieldName.offset).length =
        names.length * offsetsWidth seg.buffer.length := by
  have hlen := hseg.perm.length_eq
  rw [List.length_map] at hlen
  have hhash : ∀ fieldName ∈ seg.fieldNames, (if fieldName.nameBytes.length ≤ 255 then toBe 1 fieldName.hashId.toNat
      else toBe 2 fieldName.hashId.toNat).length = width := by
    intro fieldName hmem
    have hname := hwidth fieldName.name (hseg.perm.mem_iff.1 (List.mem_map_of_mem hmem))
    rw [(hseg.place fieldName hmem).1, ← hname, nameLenSize, isShortName]
    by_cases hshort : (textBytes fieldName.name).length ≤ 255 <;> simp [hshort]
  constructor
  · rw [List.length_flatMap, List.map_congr_left hhash]
    simp [hlen]
  · simp [hlen, offsetsWidth]

include hmax in
theorem skip_standsAt {part : List UInt8} (h : StandsAt reader.data pos part) :
    reader.skip part.length pos = .ok ((), pos + part.length) := by
  rw [OsonReader.skip, Seek.bind_of_ok (readRaw_standsAt hmax h)]
  rfl

include hmax in
/-- The names of a segment are read back in their order. -/
theorem readNamesOf_standsAt {seg : FieldNamesSegment} {base : UInt32} (hseg : Processed seg base names)
    (hwidth : ∀ name ∈ names, nameLenSize name = width)
    (hnames : ∀ name ∈ names, (textBytes name).length < 256 ^ width) (hbuffer : seg.buffer.length < 2 ^ 32)
    (hcount : names.length ≤ reader.limits.maxObjectElements) (h : StandsAt reader.data pos (writeFnamesSeg seg)) :
    readNamesOf reader width ⟨names.length, offsetsWidth seg.buffer.length, seg.buffer.length⟩ pos =
      .ok (seg.fieldNames.map FieldName.name, pos + (writeFnamesSeg seg).length) := by
  have hlen := hseg.perm.length_eq
  rw [List.length_map] at hlen
  rw [readNamesOf]
  by_cases hnil : names = []
  · have hfields : seg.fieldNames = [] := List.length_eq_zero_iff.1 (by rw [hlen, hnil, List.length_nil])
    have hempty : seg.buffer = [] := by
      rw [hseg.buffer, hnil]
      rfl
    rw [if_neg (by simp [hnil]), writeFnamesSeg, hfields, hempty]
    rfl
  have hpos : 0 < names.length := List.length_pos_iff.2 hnil
  obtain ⟨hhashLen, hoffsetsLen⟩ := length_writeFnamesSeg hseg hwidth
  have hfinal := h.length_le
  obtain ⟨hfront, hbytes⟩ := StandsAt.append_iff.1 h
  obtain ⟨hhash, hoffsets⟩ := StandsAt.append_iff.1 hfront
  have hskipHash := skip_standsAt hmax hhash
  have hskipOffsets := skip_standsAt hmax hoffsets
  have hraw := readRaw_standsAt hmax hbytes
  rw [List.length_append, hhashLen, hoffsetsLen] at hraw
  rw [hhashLen] at hskipHash hoffsets hskipOffsets
  rw [hoffsetsLen] at hskipOffsets
  have hfields : ∀ fieldName ∈ seg.fieldNames, fieldName.offset < 256 ^ offsetsWidth seg.buffer.length ∧
      fieldNameAt seg.buffer width fieldName.offset = .ok fieldName.name := fun fieldName hmem => by
    obtain ⟨-, hstands⟩ := hseg.place fieldName hmem
    have hmemName := hseg.perm.mem_iff.1 (List.mem_map_of_mem hmem)
    rw [hwidth _ hmemName] at hstands
    have hwithin := hstands.length_le
    refine ⟨?_, fieldNameAt_standsAt hstands (hnames _ hmemName)⟩
    unfold offsetsWidth
    split <;> omega
  have hread : readNames reader seg.buffer (offsetsWidth seg.buffer.length) width seg.fieldNames.length
      (pos + names.length * width) = _ := readNames_standsAt hmax hoffsets hfields
  have hcheck : reader.limits.checkObjectElements names.length = .ok () := if_pos hcount
  have hend : pos + (writeFnamesSeg seg).length =
      pos + (names.length * width + names.length * offsetsWidth seg.buffer.length) + seg.buffer.length := by
    rw [writeFnamesSeg, List.length_append, List.length_append, hhashLen, hoffsetsLen]
    omega
  rw [Nat.add_assoc] at hskipOffsets
  rw [hlen] at hread
  rw [hend] at hfinal
  rw [if_pos hpos, readFieldNames, Seek.bind_of_ok hskipHash, Seek.bind_of_ok (get_apply _),
    Seek.bind_of_ok hskipOffsets,
    Seek.bind_of_ok hraw, Seek.bind_of_ok (get_apply _), Seek.bind_of_ok (seekTo_of_le (by omega) _),
    Seek.bind_of_ok (lift_of_ok hcheck), Seek.bind_of_ok hread, Seek.bind_of_ok (seekTo_of_le hfinal _), pure_apply,
      hend]

theorem readRaw_eq_ok {len : Nat} {raw : List UInt8} (h : reader.readRaw len pos = .ok (raw, pos')) :
    pos + len ≤ reader.data.length ∧ pos' = pos + len := by
  obtain ⟨_, pos₁, hcheck, hrest⟩ := Seek.bind_eq_ok.1 h
  have hpos : pos₁ = pos := by
    obtain ⟨_, -, hsame⟩ := except_map_eq_ok.1 hcheck
    cases hsame
    rfl
  rw [hpos, Seek.bind_of_ok (get_apply pos)] at hrest
  by_cases hend : reader.data.length < pos + len
  · rw [if_pos hend] at hrest
    cases hrest
  · rw [if_neg hend] at hrest
    cases hrest
    exact ⟨not_lt.1 hend, rfl⟩

theorem skip_eq_ok {len : Nat} (h : reader.skip len pos = .ok ((), pos')) : pos' = pos + len := by
  obtain ⟨raw, pos₁, hraw, h⟩ := Seek.bind_eq_ok.1 h
  cases h
  exact (readRaw_eq_ok hraw).2

theorem seekTo_eq_ok {pos₁ : Nat} (h : reader.seekTo pos pos₁ = .ok ((), pos')) :
    pos ≤ reader.data.length ∧ pos' = pos := by
  unfold OsonReader.seekTo at h
  split at h
  · cases h
  · rename_i hend
    cases h
    exact ⟨not_lt.1 hend, rfl⟩

/-- The bytes of the names that a header announces. -/
def NamesHeader.extent (header : NamesHeader) (width : Nat) : Nat :=
  if 0 < header.count then header.count * width + header.count * header.offsetsSize + header.segSize else 0

/-- Where the reader is behind the names of a segment. -/
theorem readNamesOf_eq_ok {header : NamesHeader} (h : readNamesOf reader width header pos = .ok (names, pos')) :
    pos' = pos + header.extent width := by
  unfold readNamesOf at h
  unfold NamesHeader.extent
  by_cases hpos : 0 < header.count
  · rw [if_pos hpos] at h ⊢
    obtain ⟨_, pos₁, hhash, h⟩ := Seek.bind_eq_ok.1 h
    obtain ⟨_, _, hget, h⟩ := Seek.bind_eq_ok.1 h
    cases hget
    obtain ⟨_, pos₂, hoffsets, h⟩ := Seek.bind_eq_ok.1 h
    obtain ⟨_, pos₃, hraw, h⟩ := Seek.bind_eq_ok.1 h
    obtain ⟨_, _, hget, h⟩ := Seek.bind_eq_ok.1 h
    cases hget
    obtain ⟨_, _, -, h⟩ := Seek.bind_eq_ok.1 h
    obtain ⟨_, _, -, h⟩ := Seek.bind_eq_ok.1 h
    obtain ⟨_, _, -, h⟩ := Seek.bind_eq_ok.1 h
    obtain ⟨_, pos₄, hseek, h⟩ := Seek.bind_eq_ok.1 h
    cases h
    rw [(seekTo_eq_ok hseek).2, (readRaw_eq_ok hraw).2, skip_eq_ok hoffsets, skip_eq_ok hhash]
    omega
  · rw [if_neg hpos] at h ⊢
    cases h
    rfl

end

end OracleThin.Image
