import OracleThin.Image.OsonNames

/-!
# OSON images

The header and the names in front of the tree are read back as they were written, if every size in them fits its
field. If one does not fit, the tree is not found where the image ends, and decoding fails.
-/

namespace OracleThin.Image

open Lib Wire Ttc Seek

variable {value : OsonValue} {tree : List UInt8}

/-! ### Flags -/

/-- The width of the ids of that many fields. -/
def fieldIdWidth (count : Nat) : Nat := if 65535 < count then 4 else if 255 < count then 2 else 1

/-- The flags of the image of a container. -/
def imageFlags (idWidth : Nat) (wideNames wideTree : Bool) : UInt16 :=
  tnsJsonFlagInlineLeaf ||| tnsJsonFlagHashIdUint8 ||| tnsJsonFlagTinyNodesStat |||
    (if idWidth = 4 then tnsJsonFlagNumFnamesUint32 else if idWidth = 2 then tnsJsonFlagNumFnamesUint16 else 0) |||
    (if wideNames then tnsJsonFlagFnamesSegUint32 else 0) ||| if wideTree then tnsJsonFlagTreeSegUint32 else 0

/-- What the decoder finds in the flags. -/
structure FlagBits (flags : UInt16) (idWidth : Nat) (wideNames wideTree : Bool) : Prop where
  scalar : flags &&& tnsJsonFlagIsScalar = 0
  absolute : flags &&& tnsJsonFlagRelOffsetMode = 0
  ids : (if flags &&& tnsJsonFlagNumFnamesUint32 ≠ 0 then 4 else if flags &&& tnsJsonFlagNumFnamesUint16 ≠ 0 then 2
    else 1) = idWidth
  names : (if flags &&& tnsJsonFlagFnamesSegUint32 ≠ 0 then 4 else 2) = if wideNames then 4 else 2
  tree : (if flags &&& tnsJsonFlagTreeSegUint32 ≠ 0 then 4 else 2) = if wideTree then 4 else 2

theorem flagBits_imageFlags {idWidth : Nat} (h : idWidth = 1 ∨ idWidth = 2 ∨ idWidth = 4)
    (wideNames wideTree : Bool) :
    FlagBits (imageFlags idWidth wideNames wideTree) idWidth wideNames wideTree := by
  rcases h with rfl | rfl | rfl <;> cases wideNames <;> cases wideTree <;>
    exact ⟨by decide, by decide, by decide, by decide, by decide⟩

theorem fieldIdWidth_cases (count : Nat) : fieldIdWidth count = 1 ∨ fieldIdWidth count = 2 ∨
    fieldIdWidth count = 4 := by
  unfold fieldIdWidth
  split_ifs <;> simp

variable {count size maxFnameSize : Nat} {flags : UInt16}

theorem lt_fieldIdWidth (h : count < 2 ^ 32) : count < 256 ^ fieldIdWidth count := by
  unfold fieldIdWidth
  split
  · omega
  · split <;> omega

theorem width_eq (size : Nat) : (if size < 65536 then 2 else 4) = if decide (65535 < size) then 4 else 2 := by
  by_cases hwide : 65535 < size
  · rw [if_neg (by omega), if_pos (decide_eq_true hwide)]
  · rw [if_pos (by omega), if_neg (by simpa using hwide)]

/-- A size as its field keeps it, which is wide if the size does not fit the narrow one. -/
def keptSize (size : Nat) : Nat := size % 256 ^ (if decide (65535 < size) then 4 else 2)

/-- A size is kept unless it fits no field. -/
theorem keptSize_eq_iff (size : Nat) : keptSize size = size ↔ size < 2 ^ 32 := by
  unfold keptSize
  by_cases hwide : 65535 < size
  · rw [if_pos (decide_eq_true hwide)]
    omega
  · rw [if_neg (by simpa using hwide)]
    omega

/-! ### The header -/

section

variable {reader : OsonReader} (hmax : reader.data.length ≤ reader.limits.maxResponseBytes) {pos : Nat}

theorem orNotEncoded_of_ok {α : Type} {read : OsonRead α} {reason : String} {found : α × Nat}
    (h : read pos = .ok found) : orNotEncoded reason read pos = .ok found := by
  rw [orNotEncoded, h]

include hmax

theorem readHeader_standsAt {version : UInt8}
    (hversion : version = tnsJsonVersionMaxFname255 ∨ version = tnsJsonVersionMaxFname65535)
    (h : StandsAt reader.data 0 (tnsJsonMagicBytes ++ [version] ++ toBe 2 flags.toNat)) :
    readHeader reader 0 = .ok ((version, flags), 6) := by
  obtain ⟨hfront, hflags⟩ := StandsAt.append_iff.1 h
  obtain ⟨hmagic, hversionByte⟩ := StandsAt.append_iff.1 hfront
  have hmagic : reader.readRaw 3 0 = .ok (tnsJsonMagicBytes, 3) := readRaw_standsAt hmax hmagic
  have hbyte : reader.readU8 3 = .ok (version, 4) := readU8_standsAt hmax hversionByte
  have hread : reader.readU16be 4 = .ok (flags.toNat, 6) := by
    rw [← Nat.mod_eq_of_lt (show flags.toNat < 256 ^ 2 from flags.toNat_lt)]
    exact readUint_standsAt hmax hflags
  rw [readHeader, Seek.bind_of_ok (orNotEncoded_of_ok hmagic), if_neg (not_not.2 rfl)]
  refine (Seek.bind_of_ok (orNotEncoded_of_ok hbyte)).trans ?_
  rw [if_neg (by tauto)]
  refine (Seek.bind_of_ok (orNotEncoded_of_ok hread)).trans ?_
  rw [pure_apply, UInt16.ofNat_toNat]

theorem readShortHeader_standsAt {idWidth : Nat} {wideNames wideTree : Bool}
    (hbits : FlagBits flags idWidth wideNames wideTree)
    (h : StandsAt reader.data pos (toBe idWidth count ++ toBe (if wideNames then 4 else 2) size)) :
    readShortHeader reader flags pos =
      .ok ((idWidth, ⟨count % 256 ^ idWidth, if wideNames then 4 else 2, size % 256 ^ (if wideNames then 4 else 2)⟩),
        pos + idWidth + if wideNames then 4 else 2) := by
  obtain ⟨hcount, hsize⟩ := StandsAt.append_iff.1 h
  rw [length_toBe] at hsize
  rw [readShortHeader]
  dsimp only
  rw [hbits.ids, hbits.names, Seek.bind_of_ok (readUint_standsAt hmax hcount),
    Seek.bind_of_ok (readUint_standsAt hmax hsize), pure_apply]

theorem readLongHeader_standsAt (h : StandsAt reader.data pos
      (toBe 2 (if size < 65536 then tnsJsonFlagSecFnamesSegUint16 else 0).toNat ++ toBe 4 count ++ toBe 4 size)) :
    readLongHeader reader tnsJsonVersionMaxFname65535 pos =
      .ok (⟨count % 2 ^ 32, offsetsWidth size, size % 2 ^ 32⟩, pos + 10) := by
  obtain ⟨hfront, hsize⟩ := StandsAt.append_iff.1 h
  obtain ⟨hflags, hcount⟩ := StandsAt.append_iff.1 hfront
  rw [length_toBe] at hcount
  rw [List.length_append, length_toBe, length_toBe] at hsize
  rw [readLongHeader, if_pos rfl, OsonReader.readU16be, Seek.bind_of_ok (readUint_standsAt hmax hflags),
    OsonReader.readU32be, Seek.bind_of_ok (readUint_standsAt hmax hcount)]
  refine (Seek.bind_of_ok (readUint_standsAt hmax hsize)).trans ?_
  unfold offsetsWidth
  split <;> rfl

theorem readTreeSegSize_standsAt {wideTree : Bool}
    (htree : (if flags &&& tnsJsonFlagTreeSegUint32 ≠ 0 then 4 else 2) = if wideTree then 4 else 2)
    (h : StandsAt reader.data pos (toBe (if wideTree then 4 else 2) size)) :
    readTreeSegSize reader flags pos =
      .ok (size % 256 ^ (if wideTree then 4 else 2), pos + if wideTree then 4 else 2) := by
  rw [readTreeSegSize, htree]
  exact readUint_standsAt hmax h

end

/-! ### The image of a container -/

/-- The encoder when it writes the tree of a container with these names. -/
def finished (maxFnameSize : Nat) (names : List String) : OsonEncoder :=
  { (numbered maxFnameSize names).syncFieldIds with fieldIdSize := fieldIdWidth (names.length % 2 ^ 32) }

/-- The short names take more than 65535 bytes. -/
def wideNames (names : List String) : Bool := 65535 < (shortSegment names).buffer.length

theorem namesFlags_numbered (maxFnameSize : Nat) (names : List String) :
    (numbered maxFnameSize names).syncFieldIds.namesFlags =
      (imageFlags (fieldIdWidth (names.length % 2 ^ 32)) (wideNames names) false,
        fieldIdWidth (names.length % 2 ^ 32)) := by
  have hcount (n : Nat) (hn : n < 2 ^ 32) :
      UInt32.ofNat n < UInt32.ofNat names.length ↔ n < names.length % 2 ^ 32 := by
    rw [UInt32.lt_iff_toNat_lt, UInt32.toNat_ofNat', UInt32.toNat_ofNat', Nat.mod_eq_of_lt hn]
  have hwide : (numbered maxFnameSize names).syncFieldIds.shortFnamesSeg.elim 0 (·.buffer.length) =
      (shortSegment names).buffer.length := rfl
  have hmany : (65535 : UInt32) < (numbered maxFnameSize names).syncFieldIds.numFieldNames ↔
      65535 < names.length % 2 ^ 32 := hcount 65535 (by decide)
  have hsome : (255 : UInt32) < (numbered maxFnameSize names).syncFieldIds.numFieldNames ↔
      255 < names.length % 2 ^ 32 := hcount 255 (by decide)
  unfold OsonEncoder.namesFlags fieldIdWidth wideNames
  simp only [hwide, hmany, hsome]
  generalize names.length % 2 ^ 32 = count
  by_cases hsize : 65535 < (shortSegment names).buffer.length <;> by_cases h₁ : 65535 < count <;>
    by_cases h₂ : 255 < count <;> simp [h₁, h₂, hsize, imageFlags]

theorem determineFlags_container {encoder : OsonEncoder} (hvalue : value.isScalar = false)
    (h : OsonEncoder.determineFlags { maxFnameSize } value = .ok (flags, encoder)) :
    NamesFit maxFnameSize (distinctNames value.keys) ∧ encoder = finished maxFnameSize (distinctNames value.keys) ∧
      flags = imageFlags (fieldIdWidth ((distinctNames value.keys).length % 2 ^ 32))
      (wideNames (distinctNames value.keys))
        false := by
  have hexamine : ∃ examined, (collected maxFnameSize []).examineNode value = .ok examined ∧
      (flags, encoder) = (examined.processShort.processLong.syncFieldIds.namesFlags.1,
        { examined.processShort.processLong.syncFieldIds with
          fieldIdSize := examined.processShort.processLong.syncFieldIds.namesFlags.2 }) := by
    cases value with
    | array values | object entries =>
      obtain ⟨examined, hexamined, h⟩ := except_bind_eq_ok.1 h
      cases h
      exact ⟨examined, hexamined, rfl⟩
    | null | bool _ | number _ | binaryFloat _ | binaryDouble _ | string _ | raw _ | dateTime _ | intervalDS _ _ _ _ _
    | vector _ => cases hvalue
  obtain ⟨examined, hexamined, hpair⟩ := hexamine
  obtain ⟨rfl, hfit⟩ := collects_examineNode value [] _ (fun name hname => by cases hname) hexamined
  rw [← distinctNames, processLong_collected, namesFlags_numbered] at hpair
  cases hpair
  exact ⟨hfit, rfl, rfl⟩

/-- Some names are longer than 255 bytes. -/
def hasLongNames (names : List String) : Bool := names.filter (!isShortName ·) ≠ []

def versionOf (names : List String) : UInt8 :=
  if hasLongNames names then tnsJsonVersionMaxFname65535 else tnsJsonVersionMaxFname255

def longHeader (names : List String) : List UInt8 :=
  if hasLongNames names then
    toBe 2 (if (longSegment names).buffer.length < 65536 then tnsJsonFlagSecFnamesSegUint16 else 0).toNat ++
      toBe 4 (longSegment names).numFieldNames.toNat ++ toBe 4 (longSegment names).buffer.length
  else []

/-- The image of a container with these names and this tree. -/
def containerImage (names : List String) (tree : List UInt8) : List UInt8 :=
  let wideTree : Bool := 65535 < tree.length
  let idWidth := fieldIdWidth (names.length % 2 ^ 32)
  (tnsJsonMagicBytes ++ [versionOf names] ++ toBe 2 (imageFlags idWidth (wideNames names) wideTree).toNat) ++
  ((toBe idWidth (shortSegment names).numFieldNames.toNat ++
    toBe (if wideNames names then 4 else 2) (shortSegment names).buffer.length) ++
  (longHeader names ++ (toBe (if wideTree then 4 else 2) tree.length ++ (toBe 2 0 ++
  (writeFnamesSeg (shortSegment names) ++ (writeFnamesSeg (longSegment names) ++ tree))))))

/-- The names and the tree behind the header. -/
def namedTree (names : List String) (tree : List UInt8) : List UInt8 :=
  writeFnamesSeg (shortSegment names) ++ (writeFnamesSeg (longSegment names) ++ tree)

theorem writeFnamesSeg_longSegment {names : List String} (h : hasLongNames names = false) :
    writeFnamesSeg (longSegment names) = [] := by
  have hnil : names.filter (!isShortName ·) = [] := by simpa [hasLongNames] using h
  have hbuffer := (processed_longSegment names).buffer
  rw [hnil] at hbuffer
  rw [writeFnamesSeg, fieldNames_longSegment hnil, hbuffer]
  rfl

/-- The image of a container is made of its names and its tree. -/
theorem encodeOson_container {supportsLongFnames : Bool} {image : List UInt8}
    (hvalue : value.isScalar = false) (h : encodeOson value supportsLongFnames = .ok image) :
    ∃ maxFnameSize tree, maxFnameSize ≤ 65535 ∧ NamesFit maxFnameSize (distinctNames value.keys) ∧
      encodeNode (finished maxFnameSize (distinctNames value.keys)) 0 value = .ok tree ∧
      image = containerImage (distinctNames value.keys) tree := by
  obtain ⟨⟨flags, encoder⟩, hflags, h⟩ := except_bind_eq_ok.1 h
  obtain ⟨tree, htree, h⟩ := except_bind_eq_ok.1 h
  obtain ⟨hfit, rfl, rfl⟩ := determineFlags_container hvalue hflags
  refine ⟨_, tree, ?_, hfit, htree, ?_⟩
  · cases supportsLongFnames <;> decide
  · generalize distinctNames value.keys = names at h htree
    have htreeFlag : (if 65535 < tree.length then
        imageFlags (fieldIdWidth (names.length % 2 ^ 32)) (wideNames names) false ||| tnsJsonFlagTreeSegUint32
        else imageFlags (fieldIdWidth (names.length % 2 ^ 32)) (wideNames names) false) =
          imageFlags (fieldIdWidth (names.length % 2 ^ 32)) (wideNames names) (65535 < tree.length) := by
      by_cases hwide : 65535 < tree.length <;> simp [hwide, imageFlags]
    have hnamesWidth : (if (shortSegment names).buffer.length < 65536 then 2 else 4) =
        if wideNames names then 4 else 2 := width_eq _
    cases h
    have hshort (m : Nat) : (finished m names).shortFnamesSeg = some (shortSegment names) := rfl
    have hlong (m : Nat) : (finished m names).longFnamesSeg =
        if names.filter (!isShortName ·) = [] then none else some (longSegment names) := rfl
    have hids (m : Nat) : (finished m names).fieldIdSize = fieldIdWidth (names.length % 2 ^ 32) := rfl
    simp only [writeExtendedHeader, hshort, hlong, hids, htreeFlag, width_eq tree.length, Option.elim_some,
      hnamesWidth,
      containerImage, longHeader, versionOf]
    cases hnames : hasLongNames names with
    | true =>
      have hne : names.filter (!isShortName ·) ≠ [] := by simpa [hasLongNames] using hnames
      simp [hne]
    | false =>
      have hnil : names.filter (!isShortName ·) = [] := by simpa [hasLongNames] using hnames
      simp [hnil, writeFnamesSeg_longSegment hnames]

/-! ### Decoding the image of a container -/

/-- What is left to do behind the header. -/
def decodeNamedTree (reader : OsonReader) (fieldIdLength : Nat) (short long : NamesHeader) (treeSegSize : Nat) :
    OsonRead OsonValue := do
  let decoder ← readNamedDecoder reader fieldIdLength short long treeSegSize false
  decoder.decodeNode reader.limits.maxObjectDepth

/-- What the header says of the short names. -/
def shortHeaderOf (names : List String) : NamesHeader where
  count := (names.filter isShortName).length % 2 ^ 32 % 256 ^ fieldIdWidth (names.length % 2 ^ 32)
  offsetsSize := if wideNames names then 4 else 2
  segSize := (shortSegment names).buffer.length % 256 ^ (if wideNames names then 4 else 2)

/-- What the header says of the long names. -/
def longHeaderOf (names : List String) : NamesHeader :=
  if hasLongNames names then
    { count := (names.filter (!isShortName ·)).length % 2 ^ 32
      offsetsSize := offsetsWidth (longSegment names).buffer.length
      segSize := (longSegment names).buffer.length % 2 ^ 32 }
  else { count := 0, offsetsSize := 0, segSize := 0 }

/-- The header is read, whatever the sizes are. -/
theorem decodeImage_containerImage {names : List String} {limits : ProtocolLimits}
    (hmax : (containerImage names tree).length ≤ limits.maxResponseBytes) : ∃ pos,
    StandsAt (containerImage names tree) pos (namedTree names tree) ∧
    (containerImage names tree).length = pos + (namedTree names tree).length ∧
    decodeImage ⟨containerImage names tree, limits⟩ 0 =
      decodeNamedTree ⟨containerImage names tree, limits⟩ (fieldIdWidth (names.length % 2 ^ 32)) (shortHeaderOf names)
        (longHeaderOf names) (keptSize tree.length) pos := by
  have hbits := flagBits_imageFlags (fieldIdWidth_cases (names.length % 2 ^ 32)) (wideNames names)
    (decide (65535 < tree.length))
  have hversion : versionOf names = tnsJsonVersionMaxFname255 ∨ versionOf names = tnsJsonVersionMaxFname65535 := by
    unfold versionOf
    split
    · exact Or.inr rfl
    · exact Or.inl rfl
  have hshortCount : (shortSegment names).numFieldNames.toNat = (names.filter isShortName).length % 2 ^ 32 := by
    rw [(processed_shortSegment names).count, UInt32.toNat_ofNat']
  have hlongCount : (longSegment names).numFieldNames.toNat = (names.filter (!isShortName ·)).length % 2 ^ 32 := by
    rw [(processed_longSegment names).count, UInt32.toNat_ofNat']
  -- the parts stand one behind the other
  obtain ⟨data, hdata⟩ : ∃ data, containerImage names tree = data := ⟨_, rfl⟩
  have hparts : StandsAt data 0 (containerImage names tree) := hdata ▸ ⟨[], [], (List.append_nil _).symm, rfl⟩
  have hlength := congrArg List.length hdata
  rw [hdata] at hmax ⊢
  unfold containerImage at hparts
  obtain ⟨hheader, hparts⟩ := StandsAt.append_iff.1 hparts
  obtain ⟨hshort, hparts⟩ := StandsAt.append_iff.1 hparts
  obtain ⟨hlong, hparts⟩ := StandsAt.append_iff.1 hparts
  obtain ⟨htree, hparts⟩ := StandsAt.append_iff.1 hparts
  obtain ⟨htiny, hparts⟩ := StandsAt.append_iff.1 hparts
  have hsix : 0 + (tnsJsonMagicBytes ++ [versionOf names] ++ toBe 2 (imageFlags (fieldIdWidth (names.length % 2 ^ 32))
        (wideNames names) (decide (65535 < tree.length))).toNat).length = 6 := by simp [tnsJsonMagicBytes]
  rw [hsix] at hshort hlong htree htiny hparts
  simp only [List.length_append, length_toBe, ← Nat.add_assoc] at hlong htree htiny hparts
  rw [hshortCount] at hshort
  refine ⟨_, hparts, ?_, ?_⟩
  · rw [← hlength]
    simp only [containerImage, namedTree, tnsJsonMagicBytes, List.length_append, length_toBe, List.length_cons,
      List.length_nil]
    omega
  · have hlongRead : readLongHeader ⟨data, limits⟩ (versionOf names)
        (6 + fieldIdWidth (names.length % 2 ^ 32) + if wideNames names then 4 else 2) =
        .ok (longHeaderOf names, 6 + fieldIdWidth (names.length % 2 ^ 32) + (if wideNames names then 4 else 2) +
          (longHeader names).length) := by
      unfold longHeader at hlong
      unfold longHeader longHeaderOf versionOf
      cases hnames : hasLongNames names with
      | true =>
        rw [hnames, if_pos rfl, hlongCount] at hlong
        have hread : readLongHeader ⟨data, limits⟩ tnsJsonVersionMaxFname65535 _ = _ :=
          readLongHeader_standsAt hmax hlong
        rw [Nat.mod_mod] at hread
        simpa using hread
      | false => rfl
    rw [decodeImage, readDecoder, bind_assoc]
    refine (Seek.bind_of_ok (readHeader_standsAt hmax hversion hheader)).trans ?_
    dsimp only
    rw [if_neg (not_not.2 hbits.scalar)]
    simp only [bind_assoc]
    refine (Seek.bind_of_ok (readShortHeader_standsAt hmax hbits hshort)).trans ?_
    refine (Seek.bind_of_ok hlongRead).trans ?_
    refine (Seek.bind_of_ok (readTreeSegSize_standsAt hmax hbits.tree htree)).trans ?_
    refine (Seek.bind_of_ok (readUint_standsAt hmax htiny)).trans ?_
    simp only [hbits.absolute, ne_eq, not_true_eq_false, decide_false]
    rfl

/-! ### Sizes that do not fit -/

theorem width_shortNames {names : List String} : ∀ name ∈ names.filter isShortName, nameLenSize name = 1 :=
  fun name hname => by rw [nameLenSize, if_pos (List.mem_filter.1 hname).2]

theorem width_longNames {names : List String} : ∀ name ∈ names.filter (!isShortName ·), nameLenSize name = 2 :=
  fun name hname => by
    have hlong : isShortName name = false := by simpa using (List.mem_filter.1 hname).2
    rw [nameLenSize, hlong]
    rfl

/-- A segment whose header says less than it holds is left too early. -/
theorem Processed.extent_le {seg : FieldNamesSegment} {base : UInt32} {names : List String} {width : Nat}
    {header : NamesHeader} (hseg : Processed seg base names) (hwidth : ∀ name ∈ names, nameLenSize name = width)
    (hcount : header.count ≤ names.length) (hoffsets : header.offsetsSize = offsetsWidth seg.buffer.length)
    (hsize : header.segSize ≤ seg.buffer.length) :
    header.extent width ≤ (writeFnamesSeg seg).length ∧
      (header.extent width = (writeFnamesSeg seg).length → header.segSize = seg.buffer.length) := by
  obtain ⟨hhash, htable⟩ := length_writeFnamesSeg hseg hwidth
  have hids := Nat.mul_le_mul_right width hcount
  have hpositions := Nat.mul_le_mul_right header.offsetsSize hcount
  rw [writeFnamesSeg, List.length_append, List.length_append, hhash, htable, ← hoffsets]
  unfold NamesHeader.extent
  split <;> omega

theorem count_shortHeaderOf (names : List String) :
    (shortHeaderOf names).count ≤ (names.filter isShortName).length :=
  le_trans (Nat.mod_le _ _) (Nat.mod_le _ _)

theorem offsetsSize_shortHeaderOf (names : List String) :
    (shortHeaderOf names).offsetsSize = offsetsWidth (shortSegment names).buffer.length :=
  (width_eq _).symm

/-- The header says at most what the short names take, and less if they do not fit. -/
theorem shortPart_le (names : List String) :
    (shortHeaderOf names).extent 1 ≤ (writeFnamesSeg (shortSegment names)).length ∧
      ((shortHeaderOf names).extent 1 = (writeFnamesSeg (shortSegment names)).length →
        (shortSegment names).buffer.length < 2 ^ 32) := by
  refine And.imp_right (fun heq h => ?_) ((processed_shortSegment names).extent_le width_shortNames
    (count_shortHeaderOf names) (offsetsSize_shortHeaderOf names) (Nat.mod_le _ _))
  exact (keptSize_eq_iff _).1 (heq h)

/-- The header says at most what the long names take, and less if they do not fit. -/
theorem longPart_le (names : List String) :
    (longHeaderOf names).extent 2 ≤ (writeFnamesSeg (longSegment names)).length ∧
      ((longHeaderOf names).extent 2 = (writeFnamesSeg (longSegment names)).length →
        (longSegment names).buffer.length < 2 ^ 32) := by
  unfold longHeaderOf
  cases hnames : hasLongNames names with
  | true =>
    rw [if_pos rfl]
    refine And.imp_right (fun heq h => ?_)
      ((processed_longSegment names).extent_le width_longNames (Nat.mod_le _ _) rfl
      (Nat.mod_le _ _))
    have hsame : (longSegment names).buffer.length % 2 ^ 32 = (longSegment names).buffer.length := heq h
    omega
  | false =>
    have hbuffer : (longSegment names).buffer = [] := by
      have hempty := writeFnamesSeg_longSegment hnames
      exact (List.append_eq_nil_iff.1 hempty).2
    exact ⟨Nat.zero_le _, fun _ => by rw [hbuffer]; decide⟩

theorem validateTreeSegmentExtent_eq_ok {imageLen treeSegPos treeSegSize : Nat} :
    validateTreeSegmentExtent imageLen treeSegPos treeSegSize = .ok () ↔ treeSegPos + treeSegSize = imageLen := by
  unfold validateTreeSegmentExtent
  split_ifs <;> simp <;> omega

/-- If the image is decoded, everything fits its field. -/
theorem sizes_of_decodeNamedTree {reader : OsonReader} {names : List String}
    {fieldIdLength pos pos' : Nat} (hlength : reader.data.length = pos + (namedTree names tree).length)
    (h : decodeNamedTree reader fieldIdLength (shortHeaderOf names) (longHeaderOf names) (keptSize tree.length) pos =
      .ok (value, pos')) :
    (shortSegment names).buffer.length < 2 ^ 32 ∧ (longSegment names).buffer.length < 2 ^ 32 ∧
    tree.length < 2 ^ 32 := by
  obtain ⟨_, _, h, -⟩ := Seek.bind_eq_ok.1 h
  obtain ⟨_, pos₁, hcheck, h⟩ := Seek.bind_eq_ok.1 h
  obtain ⟨shortNames, pos₂, hshort, h⟩ := Seek.bind_eq_ok.1 h
  obtain ⟨longNames, pos₃, hlong, h⟩ := Seek.bind_eq_ok.1 h
  obtain ⟨_, _, hget, h⟩ := Seek.bind_eq_ok.1 h
  cases hget
  obtain ⟨_, _, hextent, -⟩ := Seek.bind_eq_ok.1 h
  obtain ⟨_, -, hsame⟩ := except_map_eq_ok.1 hcheck
  cases hsame
  obtain ⟨_, hextent, -⟩ := except_map_eq_ok.1 hextent
  have hend := validateTreeSegmentExtent_eq_ok.1 hextent
  rw [readNamesOf_eq_ok hlong, readNamesOf_eq_ok hshort, hlength, namedTree, List.length_append,
    List.length_append] at hend
  obtain ⟨hshortLe, hshortEq⟩ := shortPart_le names
  obtain ⟨hlongLe, hlongEq⟩ := longPart_le names
  have htreeLe : keptSize tree.length ≤ tree.length := Nat.mod_le _ _
  exact ⟨hshortEq (by omega), hlongEq (by omega), (keptSize_eq_iff _).1 (by omega)⟩

/-! ### Sizes that fit -/

/-- The decoder that has read the names knows them under their ids. -/
theorem knows_finished {reader : OsonReader} {names : List String} {treeSegPos : Nat}
    (hmax : reader.data.length ≤ reader.limits.maxResponseBytes) (hnodup : names.Nodup)
    (hcount : names.length < 2 ^ 32) :
    Knows
      { reader, fieldNames := (allFieldNames names).map FieldName.name
        fieldIdLength := fieldIdWidth (names.length % 2 ^ 32), treeSegPos, relativeOffsets := false }
      (finished maxFnameSize names) := by
  refine ⟨hmax, rfl, rfl, fun key fieldName hlookup => ?_⟩
  obtain ⟨i, hname, hid⟩ := lookup_syncFieldIds hnodup hlookup
  have hi : i < names.length := by
    have hlen := (perm_allFieldNames names).length_eq
    have hlt := (List.getElem?_eq_some_iff.1 hname).1
    omega
  have hnat : fieldName.fieldId.toNat = i + 1 := by
    rw [hid, UInt32.toNat_ofNat', Nat.mod_eq_of_lt (by omega)]
  have hwidth := lt_fieldIdWidth hcount
  have hsize : (finished maxFnameSize names).fieldIdSize = fieldIdWidth names.length := by
    rw [← Nat.mod_eq_of_lt hcount]
    rfl
  rw [hnat, hsize]
  exact ⟨by omega, by omega, hname⟩

section

variable {reader : OsonReader} (hmax : reader.data.length ≤ reader.limits.maxResponseBytes) {names : List String}
    {pos : Nat}

include hmax

theorem readShortNames (hcount : names.length < 2 ^ 32) (hsize : (shortSegment names).buffer.length < 2 ^ 32)
    (helements : names.length ≤ reader.limits.maxObjectElements)
    (h : StandsAt reader.data pos (writeFnamesSeg (shortSegment names))) :
    readNamesOf reader 1 (shortHeaderOf names) pos =
      .ok ((shortSegment names).fieldNames.map FieldName.name,
        pos + (writeFnamesSeg (shortSegment names)).length) := by
  have hle := List.length_filter_le isShortName names
  have hwidth := lt_fieldIdWidth hcount
  have hheader :
      shortHeaderOf names = ⟨(names.filter isShortName).length, offsetsWidth (shortSegment names).buffer.length,
      (shortSegment names).buffer.length⟩ := by
    have hcountEq : (shortHeaderOf names).count = (names.filter isShortName).length := by
      rw [shortHeaderOf]
      dsimp only
      rw [Nat.mod_eq_of_lt hcount, Nat.mod_eq_of_lt (by omega : (names.filter isShortName).length < 2 ^ 32),
        Nat.mod_eq_of_lt (by omega)]
    have hsizeEq : (shortHeaderOf names).segSize = (shortSegment names).buffer.length := by
      rw [shortHeaderOf, wideNames]
      exact (keptSize_eq_iff _).2 hsize
    rw [← hcountEq, ← offsetsSize_shortHeaderOf, ← hsizeEq]
  rw [hheader]
  refine readNamesOf_standsAt hmax (processed_shortSegment names) width_shortNames (fun name hname => ?_) hsize
    (by omega) h
  have hshort : (textBytes name).length ≤ 255 := by simpa [isShortName] using (List.mem_filter.1 hname).2
  omega

theorem readLongNames (hfit : NamesFit maxFnameSize names) (hmaxFname : maxFnameSize ≤ 65535)
    (hcount : names.length < 2 ^ 32) (hsize : (longSegment names).buffer.length < 2 ^ 32)
    (helements : names.length ≤ reader.limits.maxObjectElements)
    (h : StandsAt reader.data pos (writeFnamesSeg (longSegment names))) :
    readNamesOf reader 2 (longHeaderOf names) pos =
      .ok ((longSegment names).fieldNames.map FieldName.name, pos + (writeFnamesSeg (longSegment names)).length) := by
  have hle := List.length_filter_le (!isShortName ·) names
  cases hnames : hasLongNames names with
  | true =>
    have hheader : longHeaderOf names = ⟨(names.filter (!isShortName ·)).length,
        offsetsWidth (longSegment names).buffer.length, (longSegment names).buffer.length⟩ := by
      rw [longHeaderOf, hnames, if_pos rfl, Nat.mod_eq_of_lt (by omega), Nat.mod_eq_of_lt hsize]
    rw [hheader]
    refine readNamesOf_standsAt hmax (processed_longSegment names) width_longNames (fun name hname => ?_) hsize
      (by omega) h
    have hname := hfit name (List.mem_filter.1 hname).1
    omega
  | false =>
    have hnil : names.filter (!isShortName ·) = [] := by simpa [hasLongNames] using hnames
    rw [longHeaderOf, hnames, writeFnamesSeg_longSegment hnames, fieldNames_longSegment hnil]
    rfl

/-- The names are read, and then the tree. -/
theorem gives_decodeNamedTree (hnodup : names.Nodup)
    (hfit : NamesFit maxFnameSize names) (hmaxFname : maxFnameSize ≤ 65535) (hcount : names.length < 2 ^ 32)
    (hshort : (shortSegment names).buffer.length < 2 ^ 32) (hlong : (longSegment names).buffer.length < 2 ^ 32)
    (htree : tree.length < 2 ^ 32) (hencode : encodeNode (finished maxFnameSize names) 0 value = .ok tree)
    (helements : names.length ≤ reader.limits.maxObjectElements)
    (hdepth : value.depth ≤ reader.limits.maxObjectDepth)
    (hbreadth : value.breadth ≤ reader.limits.maxObjectElements)
    (hlength : reader.data.length = pos + (namedTree names tree).length)
    (h : StandsAt reader.data pos (namedTree names tree)) :
    Gives (decodeNamedTree reader (fieldIdWidth (names.length % 2 ^ 32)) (shortHeaderOf names) (longHeaderOf names)
      (keptSize tree.length)) pos (value.reread reader.limits) := by
  obtain ⟨hshortNames, h⟩ := StandsAt.append_iff.1 h
  obtain ⟨hlongNames, htreeAt⟩ := StandsAt.append_iff.1 h
  rw [namedTree, List.length_append, List.length_append] at hlength
  have hsum : (shortHeaderOf names).count + (longHeaderOf names).count ≤ reader.limits.maxObjectElements := by
    have hshortLe := count_shortHeaderOf names
    have hlongLe : (longHeaderOf names).count ≤ (names.filter (!isShortName ·)).length := by
      rw [longHeaderOf]
      split
      · exact Nat.mod_le _ _
      · exact Nat.zero_le _
    have hall := List.length_eq_length_filter_add (l := names) isShortName
    omega
  have hcheck :
      reader.limits.checkObjectElements ((shortHeaderOf names).count + (longHeaderOf names).count) = .ok () :=
    if_pos hsum
  have hextent := validateTreeSegmentExtent_eq_ok.2
    (show pos + (writeFnamesSeg (shortSegment names)).length +
      (writeFnamesSeg (longSegment names)).length + tree.length =
      reader.data.length by omega)
  rw [(keptSize_eq_iff _).2 htree, decodeNamedTree, readNamedDecoder]
  simp only [bind_assoc, pure_bind]
  refine Gives.of_ok (lift_of_ok hcheck) ?_
  refine Gives.of_ok (readShortNames hmax hcount hshort helements hshortNames) ?_
  refine Gives.of_ok (readLongNames hmax hfit hmaxFname hcount hlong helements hlongNames) ?_
  refine Gives.of_ok (get_apply _) ?_
  refine Gives.of_ok (lift_of_ok hextent) ?_
  rw [← List.map_append, ← allFieldNames]
  exact gives_encodeNode (knows_finished hmax hnodup hcount) value hencode htreeAt (by omega) hdepth hbreadth

end

/-! ### The image of a scalar -/

def scalarFlags (wideTree : Bool) : UInt16 :=
  tnsJsonFlagInlineLeaf ||| tnsJsonFlagIsScalar ||| if wideTree then tnsJsonFlagTreeSegUint32 else 0

/-- The image of a scalar with this node. -/
def scalarImage (tree : List UInt8) : List UInt8 :=
  (tnsJsonMagicBytes ++ [tnsJsonVersionMaxFname255] ++ toBe 2 (scalarFlags (65535 < tree.length)).toNat) ++
    (toBe (if decide (65535 < tree.length) then 4 else 2) tree.length ++ tree)

theorem encodeOson_scalar {supportsLongFnames : Bool} {image : List UInt8}
    (hvalue : value.isScalar) (h : encodeOson value supportsLongFnames = .ok image) :
    ∃ tree, encodeScalar value = .ok tree ∧ image = scalarImage tree := by
  obtain ⟨⟨flags, encoder⟩, hflags, h⟩ := except_bind_eq_ok.1 h
  obtain ⟨tree, htree, h⟩ := except_bind_eq_ok.1 h
  have hplain : flags = scalarFlags false ∧ encoder.shortFnamesSeg = none ∧ encoder.longFnamesSeg = none := by
    cases value with
    | array _ | object _ => cases hvalue
    | null | bool _ | number _ | binaryFloat _ | binaryDouble _ | string _ | raw _ | dateTime _ | intervalDS _ _ _ _ _
    | vector _ =>
      cases hflags
      exact ⟨rfl, rfl, rfl⟩
  obtain ⟨rfl, hshort, hlong⟩ := hplain
  rw [encodeNode_of_isScalar hvalue] at htree
  refine ⟨tree, htree, ?_⟩
  have hwide : (if 65535 < tree.length then scalarFlags false ||| tnsJsonFlagTreeSegUint32 else scalarFlags false) =
      scalarFlags (65535 < tree.length) := by
    by_cases hwide : 65535 < tree.length <;> simp [hwide, scalarFlags]
  simp only [hshort, hlong, hwide, width_eq tree.length] at h
  cases h
  simp [scalarImage]

/-- The header is read, and then the extent of the tree is checked. -/
theorem decodeImage_scalarImage {limits : ProtocolLimits}
    (hmax : (scalarImage tree).length ≤ limits.maxResponseBytes) : ∃ pos, StandsAt (scalarImage tree) pos tree ∧
    (scalarImage tree).length = pos + tree.length ∧
    decodeImage ⟨scalarImage tree, limits⟩ 0 = (do
      liftM (validateTreeSegmentExtent (scalarImage tree).length pos (keptSize tree.length))
      OsonDecoder.decodeNode
        { reader := ⟨scalarImage tree, limits⟩, fieldNames := [], fieldIdLength := 1, treeSegPos := pos
          relativeOffsets := false } limits.maxObjectDepth : OsonRead OsonValue) pos := by
  have hbits (wideTree : Bool) : scalarFlags wideTree &&& tnsJsonFlagIsScalar ≠ 0 ∧
      scalarFlags wideTree &&& tnsJsonFlagRelOffsetMode = 0 ∧
      (if scalarFlags wideTree &&& tnsJsonFlagTreeSegUint32 ≠ 0 then 4 else 2) = if wideTree then 4 else 2 := by
    cases wideTree <;> exact ⟨by decide, by decide, by decide⟩
  obtain ⟨hscalar, habsolute, htreeBit⟩ := hbits (65535 < tree.length)
  obtain ⟨data, hdata⟩ : ∃ data, scalarImage tree = data := ⟨_, rfl⟩
  have hparts : StandsAt data 0 (scalarImage tree) := hdata ▸ ⟨[], [], (List.append_nil _).symm, rfl⟩
  have hlength := congrArg List.length hdata
  rw [hdata] at hmax ⊢
  unfold scalarImage at hparts
  obtain ⟨hheader, hparts⟩ := StandsAt.append_iff.1 hparts
  obtain ⟨hsize, htree⟩ := StandsAt.append_iff.1 hparts
  have hsix : 0 + (tnsJsonMagicBytes ++ [tnsJsonVersionMaxFname255] ++
      toBe 2 (scalarFlags (65535 < tree.length)).toNat).length = 6 := by simp [tnsJsonMagicBytes]
  rw [hsix] at hsize htree
  rw [length_toBe] at htree
  refine ⟨_, htree, ?_, ?_⟩
  · rw [← hlength]
    simp only [scalarImage, tnsJsonMagicBytes, List.length_append, length_toBe, List.length_cons, List.length_nil]
    omega
  · rw [decodeImage, readDecoder, bind_assoc]
    refine (Seek.bind_of_ok (readHeader_standsAt hmax (Or.inl rfl) hheader)).trans ?_
    dsimp only
    rw [if_pos hscalar]
    simp only [bind_assoc, pure_bind]
    refine (Seek.bind_of_ok (readTreeSegSize_standsAt hmax htreeBit hsize)).trans ?_
    refine (Seek.bind_of_ok (get_apply _)).trans ?_
    simp only [habsolute, ne_eq, not_true_eq_false, decide_false, keptSize]

/-! ### Sizes of a value -/

namespace OsonValue

/-- The distinct field names of a value. -/
def names (value : OsonValue) : List String := distinctNames value.keys

/-- Every size in the image of a value fits its field. -/
structure Fits (value : OsonValue) : Prop where
  shortNames : namesBytes (value.names.filter isShortName) < 2 ^ 32
  longNames : namesBytes (value.names.filter (!isShortName ·)) < 2 ^ 32
  tree : value.bytes (fieldIdWidth value.names.length) < 2 ^ 32

variable {fieldIdSize : Nat}

theorem keys_of_isScalar (hvalue : value.isScalar) : value.keys = [] := by
  cases value <;> first | rfl | cases hvalue

/-- A member takes more bytes than its id and its position do. -/
theorem keys_le_bytes (hid : 1 ≤ fieldIdSize) (value : OsonValue) :
    value.keys.length * 5 ≤ value.bytes fieldIdSize := by
  induction value using ind
    (Q := fun values => (keysOfValues values).length * 5 ≤ bytesOfValues fieldIdSize values)
    (R := fun entries => (keysOfEntries entries).length * 5 ≤ bytesOfEntries fieldIdSize entries) with
  | scalar value hvalue =>
    rw [keys_of_isScalar hvalue]
    exact Nat.zero_le _
  | array values ih | object values ih =>
    rw [keys, bytes]
    omega
  | nil | none => exact Nat.zero_le _
  | cons value values ih ihs =>
    rw [keysOfValues, bytesOfValues, List.length_append]
    omega
  | entry key value entries ih ihs =>
    rw [keysOfEntries, bytesOfEntries, List.length_cons, List.length_append]
    omega

/-- The names of a tree that fits can be counted. -/
theorem length_names_lt (hid : 1 ≤ fieldIdSize) (h : value.bytes fieldIdSize < 2 ^ 32) :
    value.names.length < 2 ^ 32 := by
  have hle := keys_le_bytes hid value
  have hdistinct := length_distinctNames_le value.keys
  rw [names]
  omega

end OsonValue

theorem one_le_fieldIdWidth (count : Nat) : 1 ≤ fieldIdWidth count := by
  rcases fieldIdWidth_cases count with h | h | h <;> omega

theorem length_shortSegment (names : List String) :
    (shortSegment names).buffer.length = namesBytes (names.filter isShortName) := by
  rw [(processed_shortSegment names).buffer, length_segmentOf_buffer]

theorem length_longSegment (names : List String) :
    (longSegment names).buffer.length = namesBytes (names.filter (!isShortName ·)) := by
  rw [(processed_longSegment names).buffer, length_segmentOf_buffer]

section

variable {supportsLongFnames : Bool} {image : List UInt8} {limits : ProtocolLimits}
variable (h : encodeOson value supportsLongFnames = .ok image) (hmax : image.length ≤ limits.maxResponseBytes)

theorem OsonValue.bytes_of_isScalar (hvalue : value.isScalar) (fieldIdSize : Nat) :
    value.bytes fieldIdSize = scalarBytes value := by
  cases value <;> first | rfl | cases hvalue

include h hmax

/-- An image is not decoded if a size does not fit. -/
theorem fits_of_decodeImage {found : OsonValue × Nat} (hfound : decodeImage ⟨image, limits⟩ 0 = .ok found) :
    value.Fits := by
  obtain ⟨decoded, pos'⟩ := found
  cases hvalue : value.isScalar with
  | true =>
    obtain ⟨tree, htree, rfl⟩ := encodeOson_scalar hvalue h
    obtain ⟨pos, -, hlength, hdecode⟩ := decodeImage_scalarImage hmax
    rw [hdecode] at hfound
    obtain ⟨_, _, hextent, -⟩ := Seek.bind_eq_ok.1 hfound
    rw [lift_apply] at hextent
    obtain ⟨_, hextent, -⟩ := except_map_eq_ok.1 hextent
    have hend := validateTreeSegmentExtent_eq_ok.1 hextent
    have hsmall := (keptSize_eq_iff tree.length).1 (by omega)
    have hnames : value.names = [] := by rw [OsonValue.names, OsonValue.keys_of_isScalar hvalue]; rfl
    refine ⟨by rw [hnames]; decide, by rw [hnames]; decide, ?_⟩
    rwa [OsonValue.bytes_of_isScalar hvalue, ← length_encodeScalar htree]
  | false =>
    obtain ⟨maxFnameSize, tree, hmaxFname, hfit, htree, rfl⟩ := encodeOson_container hvalue h
    obtain ⟨pos, hstands, hlength, hdecode⟩ := decodeImage_containerImage hmax
    rw [hdecode] at hfound
    obtain ⟨hshort, hlong, hsmall⟩ := sizes_of_decodeNamedTree hlength hfound
    rw [length_shortSegment] at hshort
    rw [length_longSegment] at hlong
    have hbytes : tree.length = value.bytes (fieldIdWidth (value.names.length % 2 ^ 32)) :=
      length_encodeNode value htree
    have hcount := OsonValue.length_names_lt (one_le_fieldIdWidth _) (hbytes ▸ hsmall)
    rw [Nat.mod_eq_of_lt hcount] at hbytes
    exact ⟨hshort, hlong, hbytes ▸ hsmall⟩

/-- An image is decoded to its value with every scalar read back, if the sizes fit and the limits admit them. -/
theorem gives_encodeOson (hfits : value.Fits) (hnames : value.names.length ≤ limits.maxObjectElements)
    (hdepth : value.depth ≤ limits.maxObjectDepth) (hbreadth : value.breadth ≤ limits.maxObjectElements) :
    Gives (decodeImage ⟨image, limits⟩) 0 (value.reread limits) := by
  obtain ⟨hshort, hlong, hsize⟩ := hfits
  have hcount := OsonValue.length_names_lt (one_le_fieldIdWidth _) hsize
  cases hvalue : value.isScalar with
  | true =>
    obtain ⟨tree, htree, rfl⟩ := encodeOson_scalar hvalue h
    rw [OsonValue.bytes_of_isScalar hvalue, ← length_encodeScalar htree] at hsize
    obtain ⟨pos, hstands, hlength, hdecode⟩ := decodeImage_scalarImage hmax
    have hextent := validateTreeSegmentExtent_eq_ok.2 hlength.symm
    rw [Gives, hdecode, (keptSize_eq_iff _).2 hsize, OsonValue.reread_of_isScalar hvalue,
      Seek.bind_of_ok (lift_of_ok hextent), decodeNode_encodeScalar hmax _ hvalue htree hstands hsize]
    cases rereadScalar limits value <;> rfl
  | false =>
    obtain ⟨maxFnameSize, tree, hmaxFname, hfit, htree, rfl⟩ := encodeOson_container hvalue h
    obtain ⟨pos, hstands, hlength, hdecode⟩ := decodeImage_containerImage hmax
    have hbytes : tree.length = value.bytes (fieldIdWidth (value.names.length % 2 ^ 32)) :=
      length_encodeNode value htree
    rw [Nat.mod_eq_of_lt hcount] at hbytes
    rw [← length_shortSegment] at hshort
    rw [← length_longSegment] at hlong
    rw [Gives, hdecode]
    exact gives_decodeNamedTree hmax (nodup_distinctNames _) hfit hmaxFname hcount hshort hlong (hbytes ▸ hsize) htree
      hnames hdepth hbreadth hlength hstands

end

end OracleThin.Image
