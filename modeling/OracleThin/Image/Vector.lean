import OracleThin.Ttc.Reader

/-!
# VECTOR images

A VECTOR is sent as an image: a header, for a sparse vector the indices, and the elements. `encodeVectorChecked` makes
it and `decodeVectorWithLimits` reads it. Floating-point elements are given by their bit patterns; on the wire the
pattern is changed so that the bytes sort as the numbers do.
-/

namespace OracleThin.Image

open Lib Lib.Parser Wire Ttc

/-! ### Vectors -/

def tnsVectorMagicByte : UInt8 := 0xdb

def tnsVectorVersionBase : UInt8 := 0
def tnsVectorVersionWithBinary : UInt8 := 1
def tnsVectorVersionWithSparse : UInt8 := 2

def tnsVectorFlagNorm : UInt16 := 0x0002
def tnsVectorFlagNormReserved : UInt16 := 0x0010
def tnsVectorFlagSparse : UInt16 := 0x0020

def vectorFormatFloat32 : UInt8 := 2
def vectorFormatFloat64 : UInt8 := 3
def vectorFormatInt8 : UInt8 := 4
def vectorFormatBinary : UInt8 := 5

/-- The elements of a vector; one byte of a binary vector is eight dimensions. -/
inductive VectorValues
  | float32 (bits : List UInt32)
  | float64 (bits : List UInt64)
  | int8 (values : List Int8)
  | binary (bytes : List UInt8)
deriving DecidableEq, Repr

namespace VectorValues

def format : VectorValues → UInt8
  | float32 _ => vectorFormatFloat32
  | float64 _ => vectorFormatFloat64
  | int8 _ => vectorFormatInt8
  | binary _ => vectorFormatBinary

def len : VectorValues → Nat
  | float32 bits => bits.length
  | float64 bits => bits.length
  | int8 values => values.length
  | binary bytes => bytes.length

end VectorValues

inductive Vector
  | dense (values : VectorValues)
  | sparse (numDimensions : UInt32) (indices : List UInt32) (values : VectorValues)
deriving DecidableEq, Repr

/-! ### Encoding -/

/-- The bytes of a floating-point number in the order of the numbers: the sign bit is set in a positive number, and in
a negative one all bits are inverted. -/
def encodeSortable : List UInt8 → List UInt8
  | [] => []
  | first :: rest => if first &&& 0x80 = 0 then (first ||| 0x80) :: rest else (first :: rest).map (~~~·)

def encodeBinaryFloat (bits : UInt32) : List UInt8 := encodeSortable (toBe 4 bits.toNat)
def encodeBinaryDouble (bits : UInt64) : List UInt8 := encodeSortable (toBe 8 bits.toNat)

def encodeValues : VectorValues → List UInt8
  | .float32 bits => bits.flatMap encodeBinaryFloat
  | .float64 bits => bits.flatMap encodeBinaryDouble
  | .int8 values => values.flatMap fun value => [value.toUInt8]
  | .binary bytes => bytes

/-- The flags, the version and the number of elements in the header. -/
def vectorHeader : Vector → UInt16 × UInt8 × UInt32
  | .sparse numDimensions _ _ =>
    (tnsVectorFlagNormReserved ||| tnsVectorFlagSparse ||| tnsVectorFlagNorm, tnsVectorVersionWithSparse,
      numDimensions)
  | .dense values =>
    if values.format = vectorFormatBinary then
      (tnsVectorFlagNormReserved, tnsVectorVersionWithBinary, UInt32.ofNat values.len * 8)
    else (tnsVectorFlagNormReserved ||| tnsVectorFlagNorm, tnsVectorVersionBase, UInt32.ofNat values.len)

def Vector.values : Vector → VectorValues
  | .dense values => values
  | .sparse _ _ values => values

def encodeVectorChecked (vector : Vector) : Result (List UInt8) := do
  let (flags, version, numElements) := vectorHeader vector
  let header := [tnsVectorMagicByte, version] ++ toBe 2 flags.toNat ++ [vector.values.format] ++
    toBe 4 numElements.toNat ++ List.replicate 8 0
  match vector with
  | .dense values => return header ++ encodeValues values
  | .sparse _ indices values =>
    if indices.length ≠ values.len then throw (.ttcDecode "vector: sparse index/value count mismatch")
    if 0xffff < indices.length then throw (.invalidPacketLength indices.length 0)
    return header ++ toBe 2 indices.length ++ indices.flatMap (fun index => toBe 4 index.toNat) ++ encodeValues values

/-! ### Decoding -/

def decodeSortable : List UInt8 → List UInt8
  | [] => []
  | first :: rest => if first &&& 0x80 ≠ 0 then (first &&& 0x7f) :: rest else (first :: rest).map (~~~·)

def decodeBinaryFloat (bytes : List UInt8) : UInt32 := UInt32.ofNat (ofBe (decodeSortable bytes))
def decodeBinaryDouble (bytes : List UInt8) : UInt64 := UInt64.ofNat (ofBe (decodeSortable bytes))

section

variable (reader : TtcReader)

def readU32be : Read Nat := do
  let bytes ← reader.readRaw 4
  return ofBe bytes

def decodeValues (count : Nat) (format : UInt8) : Read VectorValues := do
  reader.limits.checkVectorDimensions count
  if format = vectorFormatFloat32 then
    return .float32 (← many (decodeBinaryFloat <$> reader.readRaw 4) count)
  else if format = vectorFormatFloat64 then
    return .float64 (← many (decodeBinaryDouble <$> reader.readRaw 8) count)
  else if format = vectorFormatInt8 then
    return .int8 (← many (UInt8.toInt8 <$> readU8) count)
  else if format = vectorFormatBinary then
    return .binary (← reader.readRaw count)
  else throw (.ttcDecode "vector: unsupported element format")

/-- The indices and the elements of a sparse vector. -/
def decodeSparse (numDimensions : UInt32) (format : UInt8) : Read Vector := do
  let numSparse ← reader.readU16be
  reader.limits.checkVectorDimensions numSparse
  let indices ← many (UInt32.ofNat <$> readU32be reader) numSparse
  let values ← decodeValues reader numSparse format
  return .sparse numDimensions indices values

/-- The elements of a dense vector. The count of a binary one is in bits. -/
def decodeDense (numElements : Nat) (format : UInt8) : Read Vector := do
  if format = vectorFormatBinary then
    if numElements % 8 ≠ 0 then throw (.ttcDecode "vector: binary dimension count is not byte-aligned")
    return .dense (← decodeValues reader (numElements / 8) format)
  else return .dense (← decodeValues reader numElements format)

def decodeVectorImage : Read Vector := do
  let magic ← readU8
  if magic ≠ tnsVectorMagicByte then throw (.ttcDecode "vector: bad magic byte")
  let version ← readU8
  if tnsVectorVersionWithSparse < version then throw (.ttcDecode "vector: unsupported version")
  let flags ← UInt16.ofNat <$> reader.readU16be
  let format ← readU8
  let numElements ← readU32be reader
  reader.limits.checkVectorDimensions numElements
  if flags &&& tnsVectorFlagNormReserved ≠ 0 ∨ flags &&& tnsVectorFlagNorm ≠ 0 then reader.skip 8
  if flags &&& tnsVectorFlagSparse ≠ 0 then decodeSparse reader (UInt32.ofNat numElements) format
  else decodeDense reader numElements format

end

def decodeVectorWithLimits (data : List UInt8) (limits : ProtocolLimits) : Result Vector := do
  limits.checkResponseBytes data.length
  let reader ← TtcReader.withLimits data limits
  let (vector, rest) ← decodeVectorImage reader data
  if rest ≠ [] then throw (.ttcDecode "vector: trailing bytes after image payload")
  return vector

/-! ### Round trip -/

private theorem sortable_high (byte : UInt8) (h : byte &&& 0x80 = 0) :
    (byte ||| 0x80) &&& 0x80 ≠ 0 ∧ (byte ||| 0x80) &&& 0x7f = byte := by
  obtain ⟨⟨n⟩⟩ := byte
  revert n
  decide +kernel

private theorem sortable_low (byte : UInt8) (h : byte &&& 0x80 ≠ 0) : ~~~byte &&& 0x80 = 0 := by
  obtain ⟨⟨n⟩⟩ := byte
  revert n
  decide +kernel

private theorem decodeSortable_encodeSortable (bytes : List UInt8) :
    decodeSortable (encodeSortable bytes) = bytes := by
  cases bytes with
  | nil => rfl
  | cons first rest =>
    rw [encodeSortable]
    split
    · rename_i h
      obtain ⟨hhigh, hback⟩ := sortable_high first h
      rw [decodeSortable, if_pos hhigh, hback]
    · rename_i h
      rw [List.map_cons, decodeSortable, if_neg (not_not.2 (sortable_low first h))]
      simp [Function.comp_def]

theorem length_encodeSortable (bytes : List UInt8) : (encodeSortable bytes).length = bytes.length := by
  cases bytes with
  | nil => rfl
  | cons first rest =>
    rw [encodeSortable]
    split <;> simp

theorem decodeBinaryFloat_encodeBinaryFloat (bits : UInt32) : decodeBinaryFloat (encodeBinaryFloat bits) = bits := by
  rw [decodeBinaryFloat, encodeBinaryFloat, decodeSortable_encodeSortable, ofBe_toBe_of_lt bits.toNat_lt,
    UInt32.ofNat_toNat]

theorem decodeBinaryDouble_encodeBinaryDouble (bits : UInt64) :
    decodeBinaryDouble (encodeBinaryDouble bits) = bits := by
  rw [decodeBinaryDouble, encodeBinaryDouble, decodeSortable_encodeSortable, ofBe_toBe_of_lt bits.toNat_lt,
    UInt64.ofNat_toNat]

variable {n : Nat} {vector : Vector} {image : List UInt8}

section

variable {reader : TtcReader} {bytes : List UInt8}

theorem reads_readRaw (hlen : bytes.length = n) (hmax : n ≤ reader.limits.maxResponseBytes) :
    Reads (reader.readRaw n) bytes bytes :=
  (reads_lift (ProtocolLimits.check_eq_ok hmax)).after (reads_take _ hlen)

theorem reads_readU8 (byte : UInt8) : Reads readU8 [byte] byte := reads_item _ byte

theorem reads_readU16be (hn : n < 2 ^ 16) (hmax : 2 ≤ reader.limits.maxResponseBytes) :
    Reads reader.readU16be (toBe 2 n) n := by
  have h := (reads_readRaw (length_toBe 2 n) hmax).map ofBe
  rwa [ofBe_toBe_of_lt hn] at h

theorem reads_readU32be (hn : n < 2 ^ 32) (hmax : 4 ≤ reader.limits.maxResponseBytes) :
    Reads (readU32be reader) (toBe 4 n) n := by
  have h := (reads_readRaw (length_toBe 4 n) hmax).map ofBe
  rwa [ofBe_toBe_of_lt hn] at h

private theorem reads_encodeBinaryFloat (bits : UInt32) (hmax : 4 ≤ reader.limits.maxResponseBytes) :
    Reads (decodeBinaryFloat <$> reader.readRaw 4) (encodeBinaryFloat bits) bits := by
  have hlen : (encodeBinaryFloat bits).length = 4 := by rw [encodeBinaryFloat, length_encodeSortable, length_toBe]
  have h := (reads_readRaw hlen hmax).map decodeBinaryFloat
  rwa [decodeBinaryFloat_encodeBinaryFloat] at h

private theorem reads_encodeBinaryDouble (bits : UInt64) (hmax : 8 ≤ reader.limits.maxResponseBytes) :
    Reads (decodeBinaryDouble <$> reader.readRaw 8) (encodeBinaryDouble bits) bits := by
  have hlen : (encodeBinaryDouble bits).length = 8 := by rw [encodeBinaryDouble, length_encodeSortable, length_toBe]
  have h := (reads_readRaw hlen hmax).map decodeBinaryDouble
  rwa [decodeBinaryDouble_encodeBinaryDouble] at h

private theorem reads_toUInt8 (value : Int8) : Reads (UInt8.toInt8 <$> readU8) [value.toUInt8] value := by
  simpa using (reads_readU8 value.toUInt8).map UInt8.toInt8

/-- The header is read up to the reserved space. -/
theorem reads_header {version format : UInt8} {flags : UInt16} {body : List UInt8}
    (hversion : version ≤ tnsVectorVersionWithSparse) (hflags : flags &&& tnsVectorFlagNormReserved ≠ 0)
    (hn : n < 2 ^ 32) (hdims : n ≤ reader.limits.maxVectorDimensions) (hmax : 8 ≤ reader.limits.maxResponseBytes)
    (hbody : Reads (if flags &&& tnsVectorFlagSparse ≠ 0 then decodeSparse reader (UInt32.ofNat n) format
      else decodeDense reader n format) body vector) :
    Reads (decodeVectorImage reader)
      ([tnsVectorMagicByte, version] ++ toBe 2 flags.toNat ++ [format] ++ toBe 4 n ++ List.replicate 8 0 ++ body)
      vector := by
  have hskip : Reads (reader.skip 8) (List.replicate 8 0) () :=
    (reads_readRaw (List.length_replicate ..) hmax).bind (f := fun _ => pure ()) (d := []) (reads_pure ())
  have hu16 : Reads (UInt16.ofNat <$> reader.readU16be) (toBe 2 flags.toNat) flags := by
    have h : Reads reader.readU16be (toBe 2 flags.toNat) flags.toNat := reads_readU16be flags.toNat_lt (by omega)
    simpa using h.map UInt16.ofNat
  refine (reads_readU8 tnsVectorMagicByte).bind (d := version :: _) ?_
  refine (reads_readU8 version).bind ?_
  rw [if_neg (by simpa using hversion)]
  refine hu16.bind ((reads_readU8 format).bind ((reads_readU32be hn (by omega)).bind ?_))
  refine (reads_lift (ProtocolLimits.check_eq_ok hdims)).after ?_
  rw [if_pos (Or.inl hflags)]
  exact hskip.bind hbody

end

/-- The number of dimensions of a vector. -/
def Vector.dimensions : Vector → Nat
  | .dense (.binary bytes) => bytes.length * 8
  | .dense values => values.len
  | .sparse numDimensions _ _ => numDimensions.toNat

/-- The image of a vector is within the limits of the decoder. -/
structure Vector.Within (vector : Vector) (image : List UInt8) (limits : ProtocolLimits) : Prop where
  valid : limits.validate = .ok ()
  bytes : image.length ≤ limits.maxFrameBytes
  dimensions : vector.dimensions ≤ limits.maxVectorDimensions
  elements : vector.values.len ≤ limits.maxVectorDimensions

instance (vector : Vector) (image : List UInt8) (limits : ProtocolLimits) : Decidable (vector.Within image limits) :=
  decidable_of_iff (limits.validate = .ok () ∧ image.length ≤ limits.maxFrameBytes ∧
      vector.dimensions ≤ limits.maxVectorDimensions ∧ vector.values.len ≤ limits.maxVectorDimensions)
    ⟨fun ⟨h₁, h₂, h₃, h₄⟩ => ⟨h₁, h₂, h₃, h₄⟩, fun ⟨h₁, h₂, h₃, h₄⟩ => ⟨h₁, h₂, h₃, h₄⟩⟩

section

variable {reader : TtcReader} {values : VectorValues}

section

variable (hcount : values.len ≤ reader.limits.maxVectorDimensions) (hmax : 8 ≤ reader.limits.maxResponseBytes)
  (hbytes : (encodeValues values).length ≤ reader.limits.maxResponseBytes)
include hcount hmax hbytes

private theorem reads_decodeValues :
    Reads (decodeValues reader values.len values.format) (encodeValues values) values := by
  refine (reads_lift (ProtocolLimits.check_eq_ok hcount)).after ?_
  cases values with
  | float32 bits => exact (reads_many fun b _ => reads_encodeBinaryFloat b (by omega)).map VectorValues.float32
  | float64 bits => exact (reads_many fun b _ => reads_encodeBinaryDouble b hmax).map VectorValues.float64
  | int8 values => exact (reads_many fun value _ => reads_toUInt8 value).map VectorValues.int8
  | binary bytes => exact (reads_readRaw rfl hbytes).map VectorValues.binary

private theorem reads_decodeDense :
    Reads (decodeDense reader (Vector.dense values).dimensions values.format) (encodeValues values)
      (.dense values) := by
  have hvalues := (reads_decodeValues hcount hmax hbytes).map Vector.dense
  cases values with
  | binary bytes =>
    have hcount : (Vector.dense (.binary bytes)).dimensions = bytes.length * 8 := rfl
    rw [decodeDense, hcount, if_pos (show (VectorValues.binary bytes).format = vectorFormatBinary from rfl)]
    rw [if_neg (by simp), Nat.mul_div_cancel _ (by decide)]
    exact hvalues
  | _ => exact hvalues

private theorem reads_decodeSparse {numDimensions : UInt32} {indices : List UInt32}
    (hlen : indices.length = values.len) (hshort : indices.length ≤ 0xffff) :
    Reads (decodeSparse reader numDimensions values.format)
      (toBe 2 indices.length ++ indices.flatMap (fun index => toBe 4 index.toNat) ++ encodeValues values)
      (.sparse numDimensions indices values) := by
  have hindex (index : UInt32) : Reads (UInt32.ofNat <$> readU32be reader) (toBe 4 index.toNat) index := by
    have h : Reads (readU32be reader) (toBe 4 index.toNat) index.toNat := reads_readU32be index.toNat_lt (by omega)
    simpa using h.map UInt32.ofNat
  have hvalues := (reads_decodeValues hcount hmax hbytes).map (Vector.sparse numDimensions indices)
  refine (reads_readU16be (by omega) (by omega)).bind ?_
  refine (reads_lift (ProtocolLimits.check_eq_ok (by omega))).after ?_
  refine (reads_many fun index _ => hindex index).bind ?_
  rw [hlen]
  exact hvalues

end

/-- The image of a dense vector whose dimensions are counted in 32 bits. -/
theorem encodeVectorChecked_dense (hcounted : (Vector.dense values).dimensions < 2 ^ 32)
    (h : encodeVectorChecked (.dense values) = .ok image) :
    ∃ version flags, version ≤ tnsVectorVersionWithSparse ∧ flags &&& tnsVectorFlagNormReserved ≠ 0 ∧
      flags &&& tnsVectorFlagSparse = 0 ∧
      image = [tnsVectorMagicByte, version] ++ toBe 2 flags.toNat ++ [values.format] ++
        toBe 4 (Vector.dense values).dimensions ++ List.replicate 8 0 ++ encodeValues values := by
  have hplain {n : Nat} (hn : n < 2 ^ 32) : (UInt32.ofNat n).toNat = n := by
    exact Nat.mod_eq_of_lt hn
  cases values with
  | binary bytes =>
    have hcounted : bytes.length * 8 < 2 ^ 32 := hcounted
    have hcount : (UInt32.ofNat bytes.length * 8).toNat = (Vector.dense (.binary bytes)).dimensions := by
      rw [UInt32.toNat_mul, hplain (by omega)]
      exact Nat.mod_eq_of_lt hcounted
    cases h
    rw [← hcount]
    exact ⟨tnsVectorVersionWithBinary, tnsVectorFlagNormReserved, by decide, by decide, by decide, rfl⟩
  | _ =>
    have hcount := hplain hcounted
    cases h
    rw [← hcount]
    exact ⟨tnsVectorVersionBase, tnsVectorFlagNormReserved ||| tnsVectorFlagNorm, by decide, by decide, by decide,
      rfl⟩

/-- The image of a sparse vector. -/
theorem encodeVectorChecked_sparse {numDimensions : UInt32} {indices : List UInt32}
    (h : encodeVectorChecked (.sparse numDimensions indices values) = .ok image) :
    indices.length = values.len ∧ indices.length ≤ 0xffff ∧
      ∃ version flags, version ≤ tnsVectorVersionWithSparse ∧ flags &&& tnsVectorFlagNormReserved ≠ 0 ∧
        flags &&& tnsVectorFlagSparse ≠ 0 ∧
        image = [tnsVectorMagicByte, version] ++ toBe 2 flags.toNat ++ [values.format] ++
          toBe 4 numDimensions.toNat ++ List.replicate 8 0 ++
          (toBe 2 indices.length ++ indices.flatMap (fun index => toBe 4 index.toNat) ++ encodeValues values) := by
  by_cases hlen : indices.length = values.len
  · by_cases hshort : indices.length ≤ 0xffff
    · refine ⟨hlen, hshort, tnsVectorVersionWithSparse,
        tnsVectorFlagNormReserved ||| tnsVectorFlagSparse ||| tnsVectorFlagNorm, by decide, by decide, by decide, ?_⟩
      simp only [encodeVectorChecked, hlen, ne_eq, not_true_eq_false, if_false,
        if_neg (Nat.not_lt.2 (hlen ▸ hshort))] at h
      cases h
      rw [hlen]
      simp [vectorHeader, Vector.values]
    · simp [encodeVectorChecked, hlen, hlen ▸ Nat.not_le.1 hshort, bind, Except.bind] at h
  · simp [encodeVectorChecked, hlen, bind, Except.bind] at h

private theorem length_le_of_header {head body : List UInt8} (h : (head ++ List.replicate 8 0 ++ body).length ≤ n) :
    8 ≤ n ∧ body.length ≤ n := by
  simp only [List.length_append, List.length_replicate] at h
  omega

/-- A vector is decoded from its image if its dimensions are counted in 32 bits. -/
theorem reads_decodeVectorImage {reader : TtcReader} (h : encodeVectorChecked vector = .ok image)
    (hcounted : vector.dimensions < 2 ^ 32) (hbytes : image.length ≤ reader.limits.maxResponseBytes)
    (hdims : vector.dimensions ≤ reader.limits.maxVectorDimensions)
    (helements : vector.values.len ≤ reader.limits.maxVectorDimensions) :
    Reads (decodeVectorImage reader) image vector := by
  cases vector with
  | dense values =>
    obtain ⟨version, flags, hversion, hreserved, hsparse, rfl⟩ := encodeVectorChecked_dense hcounted h
    obtain ⟨hmax, hbody⟩ := length_le_of_header hbytes
    refine reads_header hversion hreserved hcounted hdims hmax ?_
    rw [if_neg (not_not.2 hsparse)]
    exact reads_decodeDense helements hmax hbody
  | sparse numDimensions indices values =>
    obtain ⟨hlen, hshort, version, flags, hversion, hreserved, hsparse, rfl⟩ := encodeVectorChecked_sparse h
    obtain ⟨hmax, hbody⟩ := length_le_of_header hbytes
    refine reads_header hversion hreserved hcounted hdims hmax ?_
    rw [if_pos hsparse, UInt32.ofNat_toNat]
    simp only [List.length_append] at hbody
    exact reads_decodeSparse helements hmax (Nat.le_of_add_left_le hbody) hlen hshort

end

/-! ### The count of dimensions -/

section

variable {reader : TtcReader}

private theorem yields_readRaw (n : Nat) : Yields (fun bytes => bytes.length = n) (reader.readRaw n) :=
  yields_bind fun _ => yields_take _ n

private theorem yields_readU32be : Yields (· < 2 ^ 32) (readU32be reader) :=
  (yields_readRaw 4).bind fun bytes hlen => yields_pure (by simpa [hlen] using ofBe_lt bytes)

private theorem yields_decodeValues (count : Nat) (format : UInt8) :
    Yields (fun values => values.len = count ∧ values.format = format) (decodeValues reader count format) := by
  refine yields_bind fun _ => ?_
  refine yields_ite (fun h => (yields_many count).bind fun _ hlen => yields_pure ⟨hlen, h.symm⟩) fun _ => ?_
  refine yields_ite (fun h => (yields_many count).bind fun _ hlen => yields_pure ⟨hlen, h.symm⟩) fun _ => ?_
  refine yields_ite (fun h => (yields_many count).bind fun _ hlen => yields_pure ⟨hlen, h.symm⟩) fun _ => ?_
  exact yields_ite (fun h => (yields_readRaw count).bind fun _ hlen => yields_pure ⟨hlen, h.symm⟩)
    fun _ => yields_throw _

private theorem yields_decodeDense (numElements : Nat) (format : UInt8) :
    Yields (fun vector => vector.dimensions = numElements) (decodeDense reader numElements format) := by
  refine yields_ite (fun hbinary => ?_) fun hother => ?_
  · refine yields_ite (fun _ => yields_throw _) fun haligned => ?_
    refine (yields_decodeValues _ _).bind fun values ⟨hlen, hformat⟩ => yields_pure ?_
    cases values with
    | binary bytes =>
      have hlen : bytes.length = numElements / 8 := hlen
      show bytes.length * 8 = numElements
      omega
    | _ => cases hformat.trans hbinary
  · refine (yields_decodeValues _ _).bind fun values ⟨hlen, hformat⟩ => yields_pure ?_
    cases values with
    | binary bytes => exact absurd hformat.symm hother
    | _ => exact hlen

/-- What is decoded has fewer than `2 ^ 32` dimensions. -/
theorem yields_decodeVectorImage : Yields (fun vector => vector.dimensions < 2 ^ 32) (decodeVectorImage reader) := by
  refine yields_bind fun _ => yields_ite (fun _ => yields_throw _) fun _ => ?_
  refine yields_bind fun _ => yields_ite (fun _ => yields_throw _) fun _ => ?_
  refine yields_bind fun flags => yields_bind fun format => yields_readU32be.bind fun numElements hcounted => ?_
  have hbody : Yields (fun vector => vector.dimensions < 2 ^ 32)
      (if flags &&& tnsVectorFlagSparse ≠ 0 then decodeSparse reader (UInt32.ofNat numElements) format
        else decodeDense reader numElements format) := by
    refine yields_ite (fun _ => ?_) fun _ b vector rest h => ?_
    · refine yields_bind fun _ => yields_bind fun _ => yields_bind fun indices => yields_bind fun values => ?_
      exact yields_pure (UInt32.toNat_lt _)
    · exact yields_decodeDense numElements format b vector rest h ▸ hcounted
  refine yields_bind fun _ => yields_ite (fun _ => yields_bind fun _ => hbody) fun _ => hbody

end

theorem dimensions_lt_of_decodeVectorWithLimits {data : List UInt8} {limits : ProtocolLimits}
    (h : decodeVectorWithLimits data limits = .ok vector) : vector.dimensions < 2 ^ 32 := by
  obtain ⟨_, -, h⟩ := except_bind_eq_ok.1 h
  obtain ⟨reader, -, h⟩ := except_bind_eq_ok.1 h
  obtain ⟨⟨found, rest⟩, hread, h⟩ := except_bind_eq_ok.1 h
  have hfound := yields_decodeVectorImage _ _ _ hread
  dsimp only at h
  split at h
  · cases h
  · cases h
    exact hfound

theorem decodeVectorWithLimits_of_dimensions_lt {limits : ProtocolLimits}
    (h : encodeVectorChecked vector = .ok image) (hwithin : vector.Within image limits)
    (hcounted : vector.dimensions < 2 ^ 32) : decodeVectorWithLimits image limits = .ok vector := by
  obtain ⟨hvalid, hframe, hdims, helements⟩ := hwithin
  have hresponse := hframe.trans (ProtocolLimits.frame_le_response hvalid)
  have hreader := TtcReader.withLimits_eq_ok_iff.2 ⟨hvalid, hframe, hresponse, rfl⟩
  have hreads : Reads (decodeVectorImage { limits }) image vector :=
    reads_decodeVectorImage h hcounted hresponse hdims helements
  rw [decodeVectorWithLimits, ProtocolLimits.checkResponseBytes, ProtocolLimits.check_eq_ok hresponse, hreader]
  simp [bind, Except.bind, hreads.nil, pure, Except.pure]

/-- What the checked encoder makes of a vector within the limits is decoded to the same vector, with the same bit
patterns, exactly when the vector has fewer than `2 ^ 32` dimensions. -/
theorem decodeVectorWithLimits_eq_ok_iff {vector : Vector} {image : List UInt8} {limits : ProtocolLimits}
    (h : encodeVectorChecked vector = .ok image) (hwithin : vector.Within image limits) :
    decodeVectorWithLimits image limits = .ok vector ↔ vector.dimensions < 2 ^ 32 :=
  ⟨dimensions_lt_of_decodeVectorWithLimits, decodeVectorWithLimits_of_dimensions_lt h hwithin⟩

/-- A sparse vector with a not-a-number among its elements. -/
theorem decodeVectorWithLimits_sparse :
    ∃ image, encodeVectorChecked (.sparse 9 [3, 7] (.float32 [0x7fc00001, 0x80000000])) = .ok image ∧
      decodeVectorWithLimits image .default = .ok (.sparse 9 [3, 7] (.float32 [0x7fc00001, 0x80000000])) :=
  ⟨_, rfl, (decodeVectorWithLimits_eq_ok_iff rfl (by decide)).2 (by decide)⟩

/-- Limits under which a binary vector of half a gigabyte may be decoded. -/
def wideLimits : ProtocolLimits :=
  { ProtocolLimits.default with
    maxFrameBytes := 2 ^ 30, maxResponseBytes := 2 ^ 30, maxVectorDimensions := 2 ^ 32 }

/-- The count of a binary vector of `2 ^ 29` bytes is written as 0 and its elements are refused as trailing bytes. -/
private theorem binary_not_decoded {bytes : List UInt8} (hlen : bytes.length = 2 ^ 29) :
    ∃ image, encodeVectorChecked (.dense (.binary bytes)) = .ok image ∧
      (Vector.dense (.binary bytes)).Within image wideLimits ∧
      decodeVectorWithLimits image wideLimits ≠ .ok (.dense (.binary bytes)) := by
  have hdims : (Vector.dense (.binary bytes)).dimensions = 2 ^ 32 := by
    show bytes.length * 8 = 2 ^ 32
    omega
  refine ⟨_, rfl, ⟨by decide, ?_, hdims.le, ?_⟩, fun h => ?_⟩
  · simp [encodeValues, wideLimits, hlen]
  · show bytes.length ≤ 2 ^ 32
    omega
  · exact absurd (dimensions_lt_of_decodeVectorWithLimits h) hdims.ge.not_gt

theorem decodeVectorWithLimits_binary_ne :
    ∃ image, encodeVectorChecked (.dense (.binary (List.replicate (2 ^ 29) 0))) = .ok image ∧
      (Vector.dense (.binary (List.replicate (2 ^ 29) 0))).Within image wideLimits ∧
      decodeVectorWithLimits image wideLimits ≠ .ok (.dense (.binary (List.replicate (2 ^ 29) 0))) :=
  binary_not_decoded (List.length_replicate ..)

end OracleThin.Image
