import OracleThin.Bind.Temporal
import OracleThin.ConnectString.Parser
import OracleThin.Ttc.Fields

/-!
# Images of objects

An object is sent as an image: a header with the size of the whole image, and a body. In the body a value comes after
its length, NULL is a marker in place of the length, and an object is packed as an image of its own in a collection,
or written inline in an object. An object that is NULL is the atomic null marker, or the marker for NULL if its type
is a collection.

The reader of an object looks for a marker first. An object that is written inline has no byte of its own in front of
its attributes, so if its first attribute is an object that is atomically null, the reader takes that marker for its
own.
-/

namespace OracleThin.Bind

open Lib Lib.Parser Wire Ttc Image

def tnsObjAtomicNull : UInt8 := 253
def tnsObjIsDegenerate : UInt8 := 0x10
def tnsObjNoPrefixSeg : UInt8 := 0x04
def tnsObjIsVersion81 : UInt8 := 0x80
def tnsObjIsCollection : UInt8 := 0x08
def tnsObjImageVersion : UInt8 := 1
def tnsObjMaxShortLength : Nat := 245

/-! ### Reader -/

/-- The reader of an image knows the limits besides its input. -/
structure DbObjectPackedReader where
  limits : ProtocolLimits

namespace DbObjectPackedReader

variable (reader : DbObjectPackedReader)

def readU8 : Read UInt8 := Parser.item (.ttcDecode "truncated DbObject packed data")

def readRaw (len : Nat) : Read (List UInt8) := do
  reader.limits.checkResponseBytes len
  Parser.take (.ttcDecode "truncated DbObject packed data") len

def skip (len : Nat) : Read Unit := do
  let _ ← reader.readRaw len

def readU32be : Read Nat := do
  let bytes ← reader.readRaw 4
  return ofBe bytes

def readLength : Read Nat := do
  let length ← readU8
  if length = tnsLongLengthIndicator then reader.readU32be else return length.toNat

def skipLength : Read Unit := do
  let length ← readU8
  if length = tnsLongLengthIndicator then reader.skip 4

def readValueBytes : Read (Option (List UInt8)) := do
  let length ← readU8
  if length = tnsNullLengthIndicator then return none
  else if length = tnsLongLengthIndicator then do
    let length ← reader.readU32be
    let bytes ← reader.readRaw length
    return some bytes
  else do
    let bytes ← reader.readRaw length.toNat
    return some bytes

def readHeader : Read Unit := do
  let flags ← readU8
  let _version ← readU8
  reader.skipLength
  if flags &&& tnsObjIsDegenerate ≠ 0 then throw (.unsupportedFeature "DbObject stored in a LOB")
  else if flags &&& tnsObjNoPrefixSeg = 0 then do
    let prefixLen ← reader.readLength
    reader.skip prefixLen

/-- Takes a marker for an object that is null; any other byte is left for what follows. -/
def readAtomicNull (isCollectionContext : Bool) : Read Bool
  | [] => .error (.ttcDecode "truncated DbObject packed data")
  | value :: rest =>
    if value = tnsObjAtomicNull ∨ value = tnsNullLengthIndicator ∧ isCollectionContext = true then .ok (true, rest)
    else .ok (false, value :: rest)

end DbObjectPackedReader

/-! ### Writer -/

def imageWriteLength (length : Nat) : Result (List UInt8) :=
  if length ≤ tnsObjMaxShortLength then .ok [UInt8.ofNat length]
  else if length ≤ u32Max then .ok (tnsLongLengthIndicator :: toBe 4 length)
  else .error (.invalidPacketLength length 0)

def imageWriteValueBytes (value : List UInt8) : Result (List UInt8) := do
  let length ← imageWriteLength value.length
  return length ++ value

def imageWriteNull (atomicNull : Bool) : List UInt8 :=
  [if atomicNull then tnsObjAtomicNull else tnsNullLengthIndicator]

/-- The header, with a placeholder for the size. -/
def imageBegin (isCollection : Bool) : List UInt8 :=
  [tnsObjIsVersion81 ||| if isCollection then tnsObjIsCollection else tnsObjNoPrefixSeg, tnsObjImageVersion,
    tnsLongLengthIndicator] ++ toBe 4 0 ++ if isCollection then [1, 1] else []

/-- Puts the size of the image into the header. -/
def imageFinalize (image : List UInt8) : Result (List UInt8) :=
  if u32Max < image.length then .error (.invalidPacketLength image.length 0)
  else if image.length < 7 then .error (.ttcDecode "DbObject image too short to finalize")
  else .ok (image.take 3 ++ toBe 4 image.length ++ image.drop 7)

section

-- The library narrows a double, and reads a text without the white space around it as a 64-bit integer.
variable (asF32 : UInt64 → UInt32) (parseI64 : String → Option Int)

def parseBinaryIntegerU32 (text : String) : Result Nat :=
  match parseI64 text with
  | some parsed => .ok (parsed % 2 ^ 32).toNat
  | none => .error (.ttcDecode "invalid BINARY_INTEGER value")

def packBindvalueIntoImage : BindValue → UInt8 → Result (List UInt8)
  | .text value, csfrm => imageWriteValueBytes (encodeTextValue value csfrm)
  | .raw value, _ => imageWriteValueBytes value
  | .number value, _ => do
    let bytes ← encodeNumberText (textBytes value)
    imageWriteValueBytes bytes
  | .binaryInteger value, _ => do
    let value ← parseBinaryIntegerU32 parseI64 value
    return 4 :: toBe 4 value
  | .boolean value, _ => return 4 :: toBe 4 (if value then 1 else 0)
  | .binaryDouble bits, _ => imageWriteValueBytes (encodeBinaryDouble bits)
  | .binaryFloat bits, _ => imageWriteValueBytes (encodeBinaryFloat (asF32 bits))
  | .dateTime time, _ => do
    let bytes ← encodeOracleDate time
    imageWriteValueBytes bytes
  | .timestamp oraTypeNum time, _ => do
    let bytes ←
      if oraTypeNum = oraTypeNumTimestampTz then encodeOracleTimestampTz time else encodeOracleTimestamp time
    imageWriteValueBytes bytes
  | .timestampTz time offsetMinutes, _ => do
    let bytes ← encodeOracleTimestampTzWithOffset time offsetMinutes
    imageWriteValueBytes bytes
  | .lob _ _ locator, _ => imageWriteValueBytes locator
  | .intervalDS days seconds microseconds, _ => do
    let nanoseconds ← toNanoseconds microseconds
    let bytes ← encodeIntervalDs days seconds nanoseconds
    imageWriteValueBytes bytes
  | .intervalYM years months, _ => do
    let bytes ← encodeIntervalYm years months
    imageWriteValueBytes bytes
  | .null, _ => return imageWriteNull false
  | _, _ => .error (.unsupportedFeature "DbObject attribute type not supported for input binding")

/-- The bytes that a bind value stands for in an image; none for NULL. -/
def imageValue : BindValue → UInt8 → Result (Option (List UInt8))
  | .text value, csfrm => return some (encodeTextValue value csfrm)
  | .raw value, _ => return some value
  | .number value, _ => some <$> encodeNumberText (textBytes value)
  | .binaryInteger value, _ => (fun value => some (toBe 4 value)) <$> parseBinaryIntegerU32 parseI64 value
  | .boolean value, _ => return some (toBe 4 (if value then 1 else 0))
  | .binaryDouble bits, _ => return some (encodeBinaryDouble bits)
  | .binaryFloat bits, _ => return some (encodeBinaryFloat (asF32 bits))
  | .dateTime time, _ => some <$> encodeOracleDate time
  | .timestamp oraTypeNum time, _ =>
    some <$> if oraTypeNum = oraTypeNumTimestampTz then encodeOracleTimestampTz time else encodeOracleTimestamp time
  | .timestampTz time offsetMinutes, _ => some <$> encodeOracleTimestampTzWithOffset time offsetMinutes
  | .lob _ _ locator, _ => return some locator
  | .intervalDS days seconds microseconds, _ => do
    let nanoseconds ← toNanoseconds microseconds
    some <$> encodeIntervalDs days seconds nanoseconds
  | .intervalYM years months, _ => some <$> encodeIntervalYm years months
  | .null, _ => return none
  | _, _ => .error (.unsupportedFeature "DbObject attribute type not supported for input binding")

/-- A value with its length, or the marker for NULL. -/
def imageWriteOption : Option (List UInt8) → Result (List UInt8)
  | some value => imageWriteValueBytes value
  | none => .ok (imageWriteNull false)

/-- Every bind value is packed as its bytes, also the integers and booleans, whose length byte is written apart. -/
theorem packBindvalueIntoImage_eq (value : BindValue) (csfrm : UInt8) :
    packBindvalueIntoImage asF32 parseI64 value csfrm =
      imageValue asF32 parseI64 value csfrm >>= imageWriteOption := by
  have hfour (n : Nat) : imageWriteValueBytes (toBe 4 n) = .ok (4 :: toBe 4 n) := by
    rfl
  cases value with
  | binaryInteger value =>
    simp only [packBindvalueIntoImage, imageValue, bind_map_left, imageWriteOption, hfour]
    rfl
  | boolean value =>
    rfl
  | number value | dateTime time | timestampTz time offsetMinutes | intervalYM years months =>
    simp only [packBindvalueIntoImage, imageValue, bind_map_left, imageWriteOption]
  | timestamp oraTypeNum time =>
    simp only [packBindvalueIntoImage, imageValue, bind_map_left, imageWriteOption]
    split <;> rfl
  | intervalDS days seconds microseconds =>
    simp only [packBindvalueIntoImage, imageValue, bind_assoc, bind_map_left, imageWriteOption]
  | text value | raw value | binaryDouble bits | binaryFloat bits | lob oraTypeNum csfrm locator | null => rfl
  | typedNull _ _ _ | output _ _ _ | returnOutput _ _ _ | inOut _ _ | objectOutput _ _ _ | objectInput _ _ _ _
  | array _ _ _ _ _ | vector _ | json _ | cursor _ => rfl

end

/-! ### Items of an image -/

/-- What is written into an image. -/
inductive ImageItem
  /-- A scalar that is packed from a bind value. -/
  | bind (scalar : BindValue) (csfrm : UInt8)
  | value (bytes : List UInt8)
  | null
  /-- The number of elements of a collection. -/
  | count (length : Nat)
  /-- An object that is null; the marker depends on its own type. -/
  | nullObject (isCollection parentIsCollection : Bool)
  /-- An object with an image of its own: it is a collection or in a collection. -/
  | packedObject (image : List UInt8)
  /-- An object that is written inline: its attributes are the next items. -/
  | inlineObject

/-- What the reader is told to read. -/
inductive ImageOp
  | value
  | count
  | object (isCollectionContext : Bool)
deriving DecidableEq, Repr

/-- What the reader finds. -/
inductive ImageSeen
  | value (bytes : Option (List UInt8))
  | count (length : Nat)
  | nullObject
  | packedObject (image : List UInt8)
  | inlineObject
deriving DecidableEq, Repr

/-- An object is read after a test for the markers of null. -/
def ImageOp.read (reader : DbObjectPackedReader) : ImageOp → Read ImageSeen
  | value => .value <$> reader.readValueBytes
  | count => .count <$> reader.readLength
  | object isCollectionContext => do
    let isNull ← DbObjectPackedReader.readAtomicNull isCollectionContext
    if isNull then return .nullObject
    else if isCollectionContext then do
      let bytes ← reader.readValueBytes
      return bytes.elim .nullObject .packedObject
    else return .inlineObject

section

variable (asF32 : UInt64 → UInt32) (parseI64 : String → Option Int)

namespace ImageItem

def write : ImageItem → Result (List UInt8)
  | bind scalar csfrm => packBindvalueIntoImage asF32 parseI64 scalar csfrm
  | value bytes => imageWriteValueBytes bytes
  | null => .ok (imageWriteNull false)
  | count length => imageWriteLength length
  | nullObject isCollection _ => .ok (imageWriteNull !isCollection)
  | packedObject image => imageWriteValueBytes image
  | inlineObject => .ok []

def op : ImageItem → ImageOp
  | bind .. | value _ | null => .value
  | count _ => .count
  | nullObject isCollection parentIsCollection => .object (parentIsCollection || isCollection)
  | packedObject _ => .object true
  | inlineObject => .object false

def seen : ImageItem → ImageSeen
  | bind scalar csfrm => .value (imageValue asF32 parseI64 scalar csfrm).toOption.join
  | value bytes => .value (some bytes)
  | null => .value none
  | count length => .count length
  | nullObject _ _ => .nullObject
  | packedObject image => .packedObject image
  | inlineObject => .inlineObject

/-- The limits admit the bytes of the item. -/
def Admitted (limits : ProtocolLimits) : ImageItem → Prop
  | bind scalar csfrm => ∀ bytes, imageValue asF32 parseI64 scalar csfrm = .ok (some bytes) →
      bytes.length ≤ limits.maxResponseBytes
  | value bytes | packedObject bytes => bytes.length ≤ limits.maxResponseBytes
  | _ => True

end ImageItem

def writeItems : List ImageItem → Result (List UInt8)
  | [] => .ok []
  | item :: items => do
    let part ← item.write asF32 parseI64
    let body ← writeItems items
    return part ++ body

/-- An image: header, items, and the size. -/
def writeImage (isCollection : Bool) (items : List ImageItem) : Result (List UInt8) := do
  let body ← writeItems asF32 parseI64 items
  imageFinalize (imageBegin isCollection ++ body)

end

def readImage (reader : DbObjectPackedReader) (ops : List ImageOp) : Read (List ImageSeen) := do
  reader.readHeader
  each (ImageOp.read reader) ops

/-- The items start with a byte that is not the atomic null marker. -/
def startsPlain : List ImageItem → Bool
  | [] => false
  | .inlineObject :: items => startsPlain items
  | .nullObject isCollection _ :: _ => isCollection
  | _ :: _ => true

/-- No inline object starts with an atomic null, or with nothing. -/
def Unambiguous : List ImageItem → Prop
  | [] => True
  | .inlineObject :: items => startsPlain items = true ∧ Unambiguous items
  | _ :: items => Unambiguous items

/-! ### Values, lengths and markers -/

section

variable {reader : DbObjectPackedReader} {n : Nat} {value part : List UInt8}

open DbObjectPackedReader

private theorem reads_imageRaw (hmax : value.length ≤ reader.limits.maxResponseBytes) :
    Reads (reader.readRaw value.length) value value :=
  (reads_lift (ProtocolLimits.check_eq_ok hmax)).after (reads_take _ rfl)

private theorem reads_imageU8 (byte : UInt8) : Reads DbObjectPackedReader.readU8 [byte] byte := reads_item _ byte

theorem reads_readU32be (hn : n < 2 ^ 32) (hmax : 4 ≤ reader.limits.maxResponseBytes) :
    Reads reader.readU32be (toBe 4 n) n := by
  have hlen : (toBe 4 n).length = 4 := length_toBe 4 n
  have hraw : Reads (reader.readRaw 4) (toBe 4 n) (toBe 4 n) := by
    have h : Reads (reader.readRaw (toBe 4 n).length) (toBe 4 n) (toBe 4 n) := reads_imageRaw (by omega)
    rwa [hlen] at h
  have h := hraw.map ofBe
  rwa [ofBe_toBe_of_lt hn] at h

/-- A length has one byte, or five. -/
theorem imageWriteLength_cases (h : imageWriteLength n = .ok part) :
    n ≤ 245 ∧ part = [UInt8.ofNat n] ∨ n < 2 ^ 32 ∧ part = tnsLongLengthIndicator :: toBe 4 n := by
  unfold imageWriteLength at h
  split at h
  · cases h
    exact Or.inl ⟨‹_›, rfl⟩
  · split at h
    · rename_i hfits
      cases h
      unfold u32Max at hfits
      exact Or.inr ⟨by omega, rfl⟩
    · cases h

private theorem toNat_shortLength (h : n ≤ 245) : (UInt8.ofNat n).toNat = n := by
  rw [UInt8.toNat_ofNat']
  omega

/-- A short length is none of the markers. -/
private theorem shortLength_ne (h : n ≤ 245) {marker : UInt8} (hmarker : 245 < marker.toNat) :
    UInt8.ofNat n ≠ marker := by
  intro heq
  rw [← heq, toNat_shortLength h] at hmarker
  omega

private theorem imageWriteLength_head (h : imageWriteLength n = .ok part) :
    ∃ byte rest, part = byte :: rest ∧ byte ≠ tnsObjAtomicNull ∧ byte ≠ tnsNullLengthIndicator := by
  rcases imageWriteLength_cases h with ⟨hshort, rfl⟩ | ⟨-, rfl⟩
  · exact ⟨_, [], rfl, shortLength_ne hshort (by decide), shortLength_ne hshort (by decide)⟩
  · exact ⟨_, _, rfl, by decide, by decide⟩

private theorem imageWriteValueBytes_eq_ok (h : imageWriteValueBytes value = .ok part) :
    ∃ length, imageWriteLength value.length = .ok length ∧ part = length ++ value := by
  obtain ⟨length, hlength, h⟩ := except_bind_eq_ok.1 h
  cases h
  exact ⟨length, hlength, rfl⟩

private theorem reads_readLength (h : imageWriteLength n = .ok part) (hmax : 4 ≤ reader.limits.maxResponseBytes) :
    Reads reader.readLength part n := by
  rcases imageWriteLength_cases h with ⟨hshort, rfl⟩ | ⟨hlong, rfl⟩
  · refine (reads_imageU8 (UInt8.ofNat n)).bind ?_
    rw [if_neg (shortLength_ne hshort (by decide)), toNat_shortLength hshort]
    exact reads_pure n
  · refine (reads_imageU8 tnsLongLengthIndicator).bind ?_
    exact reads_readU32be hlong hmax

private theorem reads_readValueBytes (h : imageWriteValueBytes value = .ok part)
    (hmax : 4 ≤ reader.limits.maxResponseBytes)
    (hvalue : value.length ≤ reader.limits.maxResponseBytes) : Reads reader.readValueBytes part (some value) := by
  obtain ⟨length, hlength, rfl⟩ := imageWriteValueBytes_eq_ok h
  have hraw : Reads (some <$> reader.readRaw value.length) value (some value) := (reads_imageRaw hvalue).map some
  rcases imageWriteLength_cases hlength with ⟨hshort, rfl⟩ | ⟨hlong, rfl⟩
  · refine (reads_imageU8 (UInt8.ofNat value.length)).bind ?_
    rw [if_neg (shortLength_ne hshort (by decide)), if_neg (shortLength_ne hshort (by decide)),
      toNat_shortLength hshort]
    exact hraw
  · refine (reads_imageU8 tnsLongLengthIndicator).bind ?_
    exact (reads_readU32be hlong hmax).bind hraw

private theorem reads_readValueBytes_null : Reads reader.readValueBytes (imageWriteNull false) none :=
  (reads_imageU8 tnsNullLengthIndicator).bind (reads_pure none)

private theorem readAtomicNull_of_ne {byte : UInt8} {rest : List UInt8} (isCollectionContext : Bool)
    (hatomic : byte ≠ tnsObjAtomicNull) (hnull : byte ≠ tnsNullLengthIndicator ∨ isCollectionContext = false) :
    readAtomicNull isCollectionContext (byte :: rest) = .ok (false, byte :: rest) := by
  refine if_neg ?_
  rw [not_or, not_and]
  refine ⟨hatomic, fun heq hcontext => ?_⟩
  rcases hnull with hne | hfalse
  · exact hne heq
  · rw [hfalse] at hcontext
    cases hcontext

end

/-! ### Reading items back -/

section

variable {asF32 : UInt64 → UInt32} {parseI64 : String → Option Int} {reader : DbObjectPackedReader}

/-- An object with an image of its own is not taken for a null one. -/
theorem reads_packedObject {image part : List UInt8} (h : imageWriteValueBytes image = .ok part)
    (hmax : 4 ≤ reader.limits.maxResponseBytes) (hvalue : image.length ≤ reader.limits.maxResponseBytes) :
    Reads (ImageOp.read reader (.object true)) part (.packedObject image) := by
  intro rest
  obtain ⟨length, hlength, hpart⟩ := imageWriteValueBytes_eq_ok h
  obtain ⟨byte, more, rfl, hatomic, hnull⟩ := imageWriteLength_head hlength
  have hvalue := ((reads_readValueBytes h hmax hvalue).map fun bytes =>
    bytes.elim .nullObject ImageSeen.packedObject) rest
  rw [hpart] at hvalue ⊢
  refine (bind_apply_ok (readAtomicNull_of_ne true hatomic (Or.inl hnull))).trans ?_
  exact hvalue

/-- Every item but the start of an inline object is read back, whatever follows. -/
theorem reads_imageItem {item : ImageItem} {part : List UInt8} (hinline : item ≠ .inlineObject)
    (h : item.write asF32 parseI64 = .ok part) (hmax : 4 ≤ reader.limits.maxResponseBytes)
    (hadmitted : item.Admitted asF32 parseI64 reader.limits) :
    Reads (item.op.read reader) part (item.seen asF32 parseI64) := by
  cases item with
  | bind scalar csfrm =>
    rw [ImageItem.write, packBindvalueIntoImage_eq] at h
    obtain ⟨seen, hseen, h⟩ := except_bind_eq_ok.1 h
    have hvalue : Reads reader.readValueBytes part seen := by
      cases seen with
      | none =>
        cases h
        exact reads_readValueBytes_null
      | some bytes => exact reads_readValueBytes h hmax (hadmitted bytes hseen)
    rw [ImageItem.seen, hseen]
    exact hvalue.map ImageSeen.value
  | value bytes => exact (reads_readValueBytes h hmax hadmitted).map ImageSeen.value
  | null =>
    cases h
    exact reads_readValueBytes_null.map ImageSeen.value
  | count length => exact (reads_readLength h hmax).map ImageSeen.count
  | nullObject isCollection parentIsCollection =>
    cases h
    intro rest
    refine (bind_apply_ok (a := true) (r := rest) ?_).trans rfl
    cases isCollection <;> cases parentIsCollection <;> rfl
  | packedObject image => exact reads_packedObject h hmax hadmitted
  | inlineObject => exact absurd rfl hinline

private theorem imageWriteOption_head (value : Option (List UInt8)) {part : List UInt8}
    (h : imageWriteOption value = .ok part) : ∃ byte rest, part = byte :: rest ∧ byte ≠ tnsObjAtomicNull := by
  cases value with
  | none =>
    cases h
    exact ⟨_, [], rfl, by decide⟩
  | some value =>
    obtain ⟨length, hlength, rfl⟩ := imageWriteValueBytes_eq_ok h
    obtain ⟨byte, rest, rfl, hatomic, -⟩ := imageWriteLength_head hlength
    exact ⟨byte, rest ++ value, rfl, hatomic⟩

/-- The first byte tells whether the items start with an atomic null. -/
theorem startsPlain_iff {items : List ImageItem} {body : List UInt8}
    (h : writeItems asF32 parseI64 items = .ok body) :
    startsPlain items = true ↔ ∃ byte rest, body = byte :: rest ∧ byte ≠ tnsObjAtomicNull := by
  induction items generalizing body with
  | nil =>
    cases h
    simp [startsPlain]
  | cons item items ih =>
    obtain ⟨part, hpart, h⟩ := except_bind_eq_ok.1 h
    obtain ⟨later, hlater, h⟩ := except_bind_eq_ok.1 h
    cases h
    have hplain (hhead : ∃ byte rest, part = byte :: rest ∧ byte ≠ tnsObjAtomicNull) :
        ∃ byte rest, part ++ later = byte :: rest ∧ byte ≠ tnsObjAtomicNull := by
      obtain ⟨byte, rest, rfl, hne⟩ := hhead
      exact ⟨byte, rest ++ later, rfl, hne⟩
    cases item with
    | bind scalar csfrm =>
      rw [ImageItem.write, packBindvalueIntoImage_eq] at hpart
      obtain ⟨seen, -, hpart⟩ := except_bind_eq_ok.1 hpart
      exact iff_of_true rfl (hplain (imageWriteOption_head seen hpart))
    | value bytes => exact iff_of_true rfl (hplain (imageWriteOption_head (some bytes) hpart))
    | null => exact iff_of_true rfl (hplain (imageWriteOption_head none hpart))
    | count length =>
      obtain ⟨byte, rest, rfl, hatomic, -⟩ := imageWriteLength_head hpart
      exact iff_of_true rfl (hplain ⟨byte, rest, rfl, hatomic⟩)
    | packedObject image => exact iff_of_true rfl (hplain (imageWriteOption_head (some image) hpart))
    | nullObject isCollection parentIsCollection =>
      cases hpart
      cases isCollection <;> simp [startsPlain, imageWriteNull, tnsNullLengthIndicator, tnsObjAtomicNull]
    | inlineObject =>
      cases hpart
      exact ih hlater

/-- The items are read back, to the end, exactly if no inline object starts with an atomic null or with nothing. -/
theorem readItems_iff {items : List ImageItem} {body : List UInt8} (h : writeItems asF32 parseI64 items = .ok body)
    (hmax : 4 ≤ reader.limits.maxResponseBytes)
    (hadmitted : ∀ item ∈ items, item.Admitted asF32 parseI64 reader.limits) :
    each (ImageOp.read reader) (items.map ImageItem.op) body = .ok (items.map (ImageItem.seen asF32 parseI64), []) ↔
      Unambiguous items := by
  induction items generalizing body with
  | nil =>
    cases h
    exact iff_of_true rfl trivial
  | cons item items ih =>
    obtain ⟨part, hpart, h⟩ := except_bind_eq_ok.1 h
    obtain ⟨later, hlater, h⟩ := except_bind_eq_ok.1 h
    cases h
    have ih := ih hlater fun item hitem => hadmitted item (List.mem_cons_of_mem _ hitem)
    rw [List.map_cons, List.map_cons]
    by_cases hinline : item = .inlineObject
    · subst hinline
      cases hpart
      rw [Unambiguous, startsPlain_iff hlater, List.nil_append, ← ih]
      cases later with
      | nil => exact iff_of_false nofun (by simp)
      | cons byte rest =>
        by_cases hatomic : byte = tnsObjAtomicNull
        · -- The reader takes the marker of the first attribute for the object.
          subst hatomic
          refine iff_of_false (fun h => ?_) (by simp)
          obtain ⟨found, left, hfound, h⟩ := bind_eq_ok h
          cases hfound
          obtain ⟨others, _, -, h⟩ := bind_eq_ok h
          cases h
        · have hread : ImageOp.read reader (.object false) (byte :: rest) = .ok (.inlineObject, byte :: rest) :=
            bind_apply_ok (readAtomicNull_of_ne false hatomic (Or.inr rfl))
          rw [ImageItem.op, ImageItem.seen, each_cons_eq_ok_iff hread]
          exact (and_iff_right ⟨byte, rest, rfl, hatomic⟩).symm
    · have hread := reads_imageItem hinline hpart hmax (hadmitted item (List.mem_cons_self ..)) later
      rw [each_cons_eq_ok_iff hread, ih]
      cases item with
      | inlineObject => exact absurd rfl hinline
      | _ => rfl

/-! ### Whole images -/

/-- The header with a size. -/
def imageHeader (isCollection : Bool) (size : Nat) : List UInt8 :=
  [tnsObjIsVersion81 ||| if isCollection then tnsObjIsCollection else tnsObjNoPrefixSeg, tnsObjImageVersion,
    tnsLongLengthIndicator] ++ toBe 4 size ++ if isCollection then [1, 1] else []

/-- A finished image is the header with the size of the image, and the body. -/
theorem imageFinalize_eq_ok {isCollection : Bool} {body image : List UInt8}
    (h : imageFinalize (imageBegin isCollection ++ body) = .ok image) :
    image.length < 2 ^ 32 ∧ image = imageHeader isCollection image.length ++ body := by
  have hpatch (size : Nat) : (imageBegin isCollection ++ body).take 3 ++ toBe 4 size ++
      (imageBegin isCollection ++ body).drop 7 = imageHeader isCollection size ++ body := by
    cases isCollection <;> simp [imageBegin, imageHeader, toBe]
  have hlength (size : Nat) :
      (imageHeader isCollection size ++ body).length = (imageBegin isCollection ++ body).length := by
    simp [imageBegin, imageHeader]
  unfold imageFinalize at h
  rw [hpatch] at h
  split at h
  · cases h
  · rename_i hfits
    unfold u32Max at hfits
    split at h
    · cases h
    · cases h
      rw [hlength]
      exact ⟨by omega, rfl⟩

private theorem reads_readHeader (isCollection : Bool) (size : Nat) (hmax : 4 ≤ reader.limits.maxResponseBytes) :
    Reads reader.readHeader (imageHeader isCollection size) () := by
  have hskip (bytes : List UInt8) (n : Nat) (hn : bytes.length = n) (hle : n ≤ 4) :
    Reads (reader.skip n) bytes () := by
    subst hn
    exact (reads_imageRaw (by omega)).map fun _ => ()
  have hlength : Reads reader.skipLength (tnsLongLengthIndicator :: toBe 4 size) () := by
    refine (reads_imageU8 tnsLongLengthIndicator).bind ?_
    exact hskip _ 4 (length_toBe 4 size) le_rfl
  have hprefix : Reads (reader.readLength >>= reader.skip) [1, 1] () := by
    have hone : Reads reader.readLength [1] 1 := reads_readLength rfl hmax
    exact hone.bind (hskip [1] 1 rfl (by decide))
  cases isCollection with
  | true => exact (reads_imageU8 _).bind ((reads_imageU8 tnsObjImageVersion).bind (hlength.bind hprefix))
  | false => exact (reads_imageU8 _).bind ((reads_imageU8 tnsObjImageVersion).bind (hlength.bind (reads_pure ())))

/-- The header of an image is accepted and has its size, and the items are read back, to the end of the image, exactly
if no inline object starts with an atomic null or with nothing. -/
theorem readImage_writeImage_iff (limits : ProtocolLimits) (isCollection : Bool) (items : List ImageItem)
    (image : List UInt8) (hmax : 4 ≤ limits.maxResponseBytes)
    (hadmitted : ∀ item ∈ items, item.Admitted asF32 parseI64 limits)
    (hwrite : writeImage asF32 parseI64 isCollection items = .ok image) :
    (∃ body, DbObjectPackedReader.readHeader ⟨limits⟩ image = .ok ((), body)) ∧
      ofBe ((image.drop 3).take 4) = image.length ∧
      (readImage ⟨limits⟩ (items.map ImageItem.op) image = .ok (items.map (ImageItem.seen asF32 parseI64), []) ↔
        Unambiguous items) := by
  obtain ⟨body, hbody, hfinal⟩ := except_bind_eq_ok.1 hwrite
  obtain ⟨hfits, himage⟩ := imageFinalize_eq_ok hfinal
  have hheader : DbObjectPackedReader.readHeader ⟨limits⟩ image = .ok ((), body) := by
    rw [himage]
    exact reads_readHeader isCollection image.length hmax body
  refine ⟨⟨body, hheader⟩, ?_, ?_⟩
  · have hslot (size : Nat) : ((imageHeader isCollection size ++ body).drop 3).take 4 = toBe 4 size := by
      simp [imageHeader]
    have hsize := hslot image.length
    rw [← himage] at hsize
    rw [hsize, ofBe_toBe_of_lt hfits]
  · rw [readImage, bind_apply_ok hheader]
    exact readItems_iff hbody hmax hadmitted

end

/-- An object inside an object has a first attribute that is an object and null, and a second attribute: the reader
says that the object is null and that its first attribute is not. -/
theorem readImage_writeImage_inlineNull :
    writeImage (fun _ => 0) (fun _ => none) false [.inlineObject, .nullObject false false, .value [7]] =
        .ok [0x84, 1, 0xfe, 0, 0, 0, 10, 0xfd, 1, 7] ∧
      readImage ⟨.default⟩ [.object false, .object false, .value] [0x84, 1, 0xfe, 0, 0, 0, 10, 0xfd, 1, 7] =
        .ok ([.nullObject, .inlineObject, .value (some [7])], []) :=
  ⟨rfl, rfl⟩

theorem readImage_writeImage_nested :
    readImage ⟨.default⟩ [.object false, .value, .object false, .value] [0x84, 1, 0xfe, 0, 0, 0, 11, 1, 7, 0xfd,
      0xff] =
      .ok ([.inlineObject, .value (some [7]), .nullObject, .value none], []) :=
  (readImage_writeImage_iff .default false [.inlineObject, .value [7], .nullObject false false, .null]
    [0x84, 1, 0xfe, 0, 0, 0, 11, 1, 7, 0xfd, 0xff] (by decide)
    (by simp [ImageItem.Admitted, ProtocolLimits.default, mib])
    (show writeImage (fun _ => 0) (fun _ => none) _ _ = _ from rfl)).2.2.2 (by simp [Unambiguous, startsPlain])

/-! ### Integer attributes -/

/-- The integer that a text spells, with a sign or without one and with white space around it. -/
def spelledInteger (text : String) : Option Int :=
  let (negative, digits) :=
    match ConnectString.trim text.toList with
    | '-' :: digits => (true, digits)
    | '+' :: digits => (false, digits)
    | digits => (false, digits)
  if digits = [] then none
  else (digits.mapM charDigit).map fun digits => if negative then -(decimal digits : Int) else decimal digits

/-- `text.trim().parse::<i64>()`. -/
def parseTrimmedI64 (text : String) : Option Int :=
  (spelledInteger text).filter fun value => -2 ^ 63 ≤ value ∧ value < 2 ^ 63

def decodeDbobjectBinaryInteger (bytes : List UInt8) : Except String Int :=
  if 4 < bytes.length then .error "BINARY_INTEGER image value exceeds 4 bytes"
  else .ok (wrapInt 32 (ofBe (List.replicate (4 - bytes.length) 0 ++ bytes)))

/-- An integer of 32 bits is written in four bytes that are read back as the same integer; any other is refused. -/
def IntegerKept (asF32 : UInt64 → UInt32) (text : String) (csfrm : UInt8) (value : Int) : Prop :=
  let packed := packBindvalueIntoImage asF32 parseTrimmedI64 (.binaryInteger text) csfrm
  (∀ part, packed = .ok part → ∃ bytes, bytes.length = 4 ∧
    (∀ rest, DbObjectPackedReader.readValueBytes ⟨.default⟩ (part ++ rest) = .ok (some bytes, rest)) ∧
      decodeDbobjectBinaryInteger bytes = .ok value) ∧
    ((∃ e, packed = .error e) ↔ ¬(-2 ^ 31 ≤ value ∧ value < 2 ^ 31))

private theorem decodeDbobjectBinaryInteger_toBe (value : Int) :
    decodeDbobjectBinaryInteger (toBe 4 (value % 2 ^ 32).toNat) = .ok (wrapInt 32 value) := by
  have hlt : (value % 2 ^ 32).toNat < 256 ^ 4 := by omega
  have hcast : ((value % 2 ^ 32).toNat : Int) = value % ((2 ^ 32 : Nat) : Int) := by omega
  rw [decodeDbobjectBinaryInteger, length_toBe, if_neg (by decide), Nat.sub_self, List.replicate_zero,
    List.nil_append,
    ofBe_toBe_of_lt hlt, hcast, wrapInt, Int.emod_bmod]
  rfl

/-- The 64-bit integers beyond 32 bits are written without an error. -/
theorem integerKept_iff (asF32 : UInt64 → UInt32) (text : String) (csfrm : UInt8) (value : Int)
    (htext : spelledInteger text = some value) :
    IntegerKept asF32 text csfrm value ↔
      -2 ^ 31 ≤ value ∧ value < 2 ^ 31 ∨ value < -2 ^ 63 ∨ 2 ^ 63 ≤ value := by
  have hpacked : packBindvalueIntoImage asF32 parseTrimmedI64 (.binaryInteger text) csfrm =
      if -2 ^ 63 ≤ value ∧ value < 2 ^ 63 then imageWriteValueBytes (toBe 4 (value % 2 ^ 32).toNat)
      else .error (.ttcDecode "invalid BINARY_INTEGER value") := by
    rw [packBindvalueIntoImage_eq, imageValue, parseBinaryIntegerU32, parseTrimmedI64, htext, Option.filter_some]
    by_cases hfits : -2 ^ 63 ≤ value ∧ value < 2 ^ 63
    · rw [if_pos hfits, if_pos (decide_eq_true hfits)]
      rfl
    · rw [if_neg hfits, if_neg (mt of_decide_eq_true hfits)]
      rfl
  unfold IntegerKept
  rw [hpacked]
  by_cases hfits : -2 ^ 63 ≤ value ∧ value < 2 ^ 63
  · rw [if_pos hfits]
    have hshort : (toBe 4 (value % 2 ^ 32).toNat).length ≤ tnsObjMaxShortLength := by
      rw [length_toBe]
      decide
    constructor
    · rintro ⟨-, hrefused⟩
      by_contra hout
      obtain ⟨e, he⟩ := hrefused.2 (by omega)
      cases he
    · intro hin
      have hsame : wrapInt 32 value = value := Int.bmod_eq_of_le (by omega) (by omega)
      refine ⟨fun part hpart => ⟨_, length_toBe 4 _, ?_, by rw [decodeDbobjectBinaryInteger_toBe, hsame]⟩, ?_⟩
      · exact reads_readValueBytes hpart (by decide) (by rw [length_toBe]; decide)
      · exact iff_of_false nofun (by omega)
  · rw [if_neg hfits]
    exact iff_of_true ⟨nofun, iff_of_true ⟨_, rfl⟩ (by omega)⟩ (by omega)

theorem integerKept_seven : spelledInteger " -7 " = some (-7) ∧ IntegerKept (fun _ => 0) " -7 " 1 (-7) :=
  ⟨by decide, (integerKept_iff _ _ _ _ (by decide)).2 (by decide)⟩

/-- An integer of 33 bits is written as another one. -/
theorem integerKept_wraps :
    spelledInteger "4294967301" = some 4294967301 ∧
      packBindvalueIntoImage (fun _ => 0) parseTrimmedI64 (.binaryInteger "4294967301") 1 = .ok [4, 0, 0, 0, 5] ∧
      decodeDbobjectBinaryInteger [0, 0, 0, 5] = .ok 5 := by
  decide

end OracleThin.Bind
