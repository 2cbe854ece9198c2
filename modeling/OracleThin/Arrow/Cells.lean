import OracleThin.Arrow.NumberText

/-!
# Rows in both ways

The two parsers of a page fail alike, or read rows whose values are alike: the owned value is the owned form of the
borrowed one, except that of a NUMBER only the text is the same. Values that are alike are converted alike. What has
to be assumed is that both decoders write the NUMBERs of the page alike, and that the first row of the page leaves out
no value that is not known.
-/

namespace OracleThin.Arrow

open Lib Lib.Parser Wire Ttc Image

variable {J : Type}

/-! ### Owned and borrowed values -/

/-- The owned value is the owned form of the borrowed one, or both are NUMBERs with the same text, which an owned form
keeps. -/
inductive Alike : ValueRef J → Value J → Prop
  | same {value} (h : ∀ text isInteger, value ≠ .number text isInteger) : Alike value value.toOwnedValue
  | number {isInteger} {number : OracleNumber}
      (h : (OracleNumber.fromCanonicalTextWithFlag number.fmtInto isInteger).fmtInto = number.fmtInto) :
      Alike (.number number.fmtInto isInteger) (.number number)
  | owned {other number : OracleNumber} (h : other.fmtInto = number.fmtInto) :
      Alike (.owned (.number other)) (.number number)

theorem alike_owned (value : Value J) : Alike (.owned value) value :=
  show Alike (.owned value) (QueryValueRef.toOwnedValue (.owned value)) from .same (by simp)

/-- The value of the next row, if it is a duplicate. -/
theorem Alike.toOwnedValue {value : ValueRef J} {owned : Value J}
    (h : Alike value owned) : Alike (.owned value.toOwnedValue) owned := by
  cases h with
  | same => exact alike_owned _
  | number h => exact .owned h
  | owned h => exact .owned h

/-! ### Conversion -/

/-- One owned value in a column. -/
def convertOwned (lib : Library) (arrayType : ArrayType) (column : ColumnMetadata) (value : Value J) :
    Result ArrowValue :=
  match arrayType with
  | .int width => numericText column value >>= intFromText width
  | .uint width => numericText column value >>= uintFromText width
  | .float64 => numericText column value >>= float64FromText lib
  | .float32 => numericText column value >>= float32FromText lib
  | .decimal128 _ scale => numericText column value >>= decimalFromText scale
  | .boolean => booleanFromText <$> numericText column value
  | .utf8 | .largeUtf8 => .utf8 <$> textOf column value
  | .binary | .largeBinary => .binary <$> rawOf column value
  | .fixedSizeBinary size => rawOf column value >>= fixedSizeBinaryFrom size
  | .timestamp unit => epochParts column value >>= timestampFromParts column unit
  | .date32 => epochParts column value >>= date32FromParts column
  | .date64 => epochParts column value >>= date64FromParts column
  | .intervalMonthDayNano => intervalOf column value
  | .vectorFixedSizeList item dim => denseVector column (pushFixedSize column item dim) value
  | .vectorList item => denseVector column (pushVectorValues column item) value
  | .vectorStruct _ item => sparseVector column item value

/-- The types of arrays that are built from borrowed rows. -/
def IsColumnar (arrayType : ArrayType) : Prop := ∃ dataType, ColumnBuilder.arrayTypeFor dataType = some arrayType

theorem not_isColumnar (item : VectorItem) (fields : List Field) :
    ¬IsColumnar (.vectorList item) ∧ ¬IsColumnar (.vectorStruct fields item) := by
  constructor <;> rintro ⟨dataType, h⟩ <;> unfold ColumnBuilder.arrayTypeFor at h <;> split at h <;> simp at h

/-- Values that are alike are converted alike. -/
theorem convertRef_eq (lib : Library) {arrayType : ArrayType} (hcolumnar : IsColumnar arrayType)
    (column : ColumnMetadata) {value : ValueRef J} {owned : Value J} (h : Alike value owned) :
    ColumnBuilder.convertRef lib arrayType column value = convertOwned lib arrayType column owned := by
  cases arrayType with
  | vectorList item => exact absurd hcolumnar (not_isColumnar item []).1
  | vectorStruct fields item => exact absurd hcolumnar (not_isColumnar item fields).2
  | _ =>
    cases h with
    | number h => rfl
    | owned h => first | rfl | simp only [ColumnBuilder.convertRef, convertOwned, numericTextRef, numericText, h]
    | same h =>
      cases value with
      | number text isInteger => exact absurd rfl (h text isInteger)
      | owned value => cases value <;> first | rfl | (rename_i vector; cases vector <;> rfl)
      | _ => rfl

/-! ### The slots of a row -/

/-- An arena that has only grown. -/
def Grown (arena arena' : RowArena J Image.Vector) : Prop :=
  arena.numbers <+: arena'.numbers ∧ arena.owned <+: arena'.owned

theorem Grown.refl (arena : RowArena J Image.Vector) : Grown arena arena := ⟨List.prefix_rfl, List.prefix_rfl⟩

theorem Grown.trans {a b c : RowArena J Image.Vector} (h : Grown a b) (h' : Grown b c) : Grown a c :=
  ⟨h.1.trans h'.1, h.2.trans h'.2⟩

/-- The slot stands for a value like the owned cell, however the arena grows. -/
def SlotAlike (arena : RowArena J Image.Vector) (slot : ColumnSlot J Image.Vector)
    (cell : Option (Value J)) : Prop :=
  ∀ arena', Grown arena arena' → Option.Rel Alike (BorrowedRowBatch.resolve arena' slot) cell

/-- A slot in an arena that has grown, like the owned cell. -/
def SlotFrom (arena : RowArena J Image.Vector) (result : ColumnSlot J Image.Vector × RowArena J Image.Vector)
    (cell : Option (Value J)) : Prop :=
  Grown arena result.2 ∧ SlotAlike result.2 result.1 cell

variable {arena : RowArena J Image.Vector}

theorem slotFrom_null : SlotFrom arena (.null, arena) none := ⟨.refl _, fun _ _ => .none⟩

theorem slotFrom_wire {value : ValueRef J} {owned : Value J} (h : Alike value owned) :
    SlotFrom arena (.wire value, arena) (some owned) :=
  ⟨.refl _, fun _ _ => .some h⟩

theorem slotFrom_park {value : Value J} {owned : Value J}
    (h : Alike (.owned value) owned) : SlotFrom arena (arena.park (some value)) (some owned) := by
  refine ⟨⟨List.prefix_rfl, List.prefix_append ..⟩, fun arena' hgrown => ?_⟩
  obtain ⟨more, hmore⟩ := hgrown.2
  have hvalue : arena'.owned[arena.owned.length]? = some value := by
    rw [← hmore]
    simp [RowArena.park]
  simp only [RowArena.park, BorrowedRowBatch.resolve, hvalue, Option.map_some]
  exact .some h

theorem slotFrom_pushNumber {isInteger : Bool} {number : OracleNumber}
    (h : (OracleNumber.fromCanonicalTextWithFlag number.fmtInto isInteger).fmtInto = number.fmtInto) :
    SlotFrom arena (arena.pushNumber number.fmtInto isInteger) (some (.number number)) := by
  refine ⟨⟨List.prefix_append .., List.prefix_rfl⟩, fun arena' hgrown => ?_⟩
  obtain ⟨more, hmore⟩ := hgrown.1
  have htext :
      (arena'.numbers.drop arena.numbers.length).take number.fmtInto.toList.length = number.fmtInto.toList := by
    rw [← hmore]
    simp [RowArena.pushNumber]
  simp only [RowArena.pushNumber, BorrowedRowBatch.resolve, Nat.add_sub_cancel_left, htext, String.ofList_toList]
  exact .some (.number h)

/-! ### Columns that are sent -/

/-- A type that is one byte string, read borrowed and owned. -/
theorem agreeAt_readScalar {reader : TtcReader} {input : List UInt8}
    {slot : TtcReader.BorrowedBytes → Except ProtocolError (ColumnSlot J Image.Vector × RowArena J Image.Vector)}
    {decode : List UInt8 → Except ProtocolError (Value J)}
    (h : ∀ bytes rest, reader.readBytes input = .ok (bytes.toOption, rest) →
      Agree (SlotFrom arena) (slot bytes) (decodePresent decode bytes.toOption)) :
    AgreeAt (SlotFrom arena) (do let bytes ← reader.readBytesBorrowed; slot bytes)
    (readScalar reader decode) input := by
  have hread : AgreeAt
    (fun borrowed bytes => bytes = borrowed.toOption) reader.readBytesBorrowed reader.readBytes input := by
    rw [reader.readBytes_eq_map]
    exact agreeAt_map ..
  refine hread.bind fun borrowed bytes rest hok heq => ?_
  subst heq
  exact agreeAt_lift (h borrowed rest hok)

theorem agree_textSlot (std : StdLib) (csfrm : UInt8) (bytes : TtcReader.BorrowedBytes) :
    Agree (SlotFrom arena) (textSlot std csfrm arena bytes)
    (decodePresent (decodeText std csfrm) bytes.toOption) := by
  have hdecoded (bytes : List UInt8) : Agree (SlotFrom arena)
      (do let value ← decodeText std csfrm bytes; return arena.park (some value))
      (decodePresent (decodeText std csfrm) (some bytes)) := by
    refine (agree_refl (decodeText std csfrm bytes)).bind fun value _ _ _ heq => ?_
    subst heq
    exact slotFrom_park (alike_owned value)
  cases bytes with
  | null => exact slotFrom_null
  | chunked bytes => exact hdecoded bytes
  | slice bytes =>
    unfold textSlot
    by_cases hcsfrm : csfrm ≠ csFormNchar
    · simp only [if_pos hcsfrm, TtcReader.BorrowedBytes.toOption, decodePresent, decodeText, decodeTextValue,
        if_neg hcsfrm]
      cases String.fromUTF8? (ByteArray.mk bytes.toArray) with
      | some text => exact slotFrom_wire (.same (by simp))
      | none => exact slotFrom_park (alike_owned _)
    · simp only [if_neg hcsfrm]
      exact hdecoded bytes

theorem agree_smallSlot (decode : List UInt8 → Except ProtocolError (Value J))
    (bytes : TtcReader.BorrowedBytes) :
    Agree (SlotFrom arena) (smallSlot decode arena bytes) (decodePresent decode bytes.toOption) := by
  unfold smallSlot
  cases bytes.toOption with
  | none => exact slotFrom_null
  | some bytes =>
    simp only [decodePresent]
    cases decode bytes with
    | error e => trivial
    | ok value => cases value <;> first | exact slotFrom_wire (.same (by simp)) | exact slotFrom_park (alike_owned _)

theorem agree_numberSlot {bytes : TtcReader.BorrowedBytes} (h : ∀ wire ∈ bytes.toOption, WireAlike wire) :
    Agree (SlotFrom arena) (numberSlot arena bytes) (decodePresent decodeNumberValue bytes.toOption) := by
  unfold numberSlot
  cases hbytes : bytes.toOption with
  | none => exact slotFrom_null
  | some wire =>
    simp only [decodePresent, decodeNumberValue, bind_assoc, pure_bind]
    refine (fromWire_agree (h wire hbytes)).bind fun ⟨text, isInteger⟩ number _ _ ⟨htext, hkept⟩ => ?_
    obtain rfl : number.fmtInto = text := htext
    exact slotFrom_pushNumber hkept

/-- A value that is parked as it is. -/
theorem agreeAt_park (p : Read (Option (Value J))) (input : List UInt8) :
    AgreeAt (SlotFrom arena) (do let value ← p; return arena.park value) p input := by
  unfold AgreeAt
  rw [bind_apply]
  cases p input with
  | error e => trivial
  | ok result =>
    obtain ⟨value, rest⟩ := result
    cases value with
    | none => exact ⟨slotFrom_null, rfl⟩
    | some value => exact ⟨slotFrom_park (alike_owned value), rfl⟩

/-- The types that are read as a NUMBER. -/
def IsNumberField (metadata : ColumnMetadata) : Prop :=
  ¬metadata.isNotSent ∧ (metadata.oraTypeNum = oraTypeNumNumber ∨ metadata.oraTypeNum = oraTypeNumBinaryInteger)

/-- A column of a row, borrowed and owned. -/
theorem agreeAt_parseColumnSlot (std : StdLib) (images : ImageDecoders J Image.Vector) (reader : TtcReader)
    (metadata : ColumnMetadata) (mode : LobDecodeMode) {input : List UInt8}
    (h : IsNumberField metadata → ∀ bytes rest, reader.readBytes input = .ok (some bytes, rest) → WireAlike bytes) :
    AgreeAt (SlotFrom arena) (parseColumnSlot std images reader metadata arena mode)
      (parseColumnValueWithLobMode std images reader metadata mode) input := by
  unfold parseColumnSlot parseColumnValueWithLobMode IsNumberField at *
  dsimp only
  by_cases hsent : metadata.isNotSent = true
  · simp only [hsent, if_true]
    exact ⟨slotFrom_null, rfl⟩
  simp only [hsent, Bool.false_eq_true, if_false, not_false_eq_true, true_and] at h ⊢
  unfold scalarDecoder
  generalize metadata.oraTypeNum = oraTypeNum at h ⊢
  dsimp only
  by_cases htext : oraTypeNum = oraTypeNumVarchar ∨ oraTypeNum = oraTypeNumChar ∨ oraTypeNum = oraTypeNumLong
  · simp only [htext, if_true]
    exact agreeAt_readScalar fun bytes _ _ => agree_textSlot std metadata.csfrm bytes
  by_cases hraw : oraTypeNum = oraTypeNumRaw ∨ oraTypeNum = oraTypeNumLongRaw
  · simp only [htext, hraw, if_true, if_false]
    refine agreeAt_readScalar fun bytes _ _ => (?_ : Agree (SlotFrom arena) (.ok (rawSlot arena bytes)) _)
    cases bytes with
    | null => exact slotFrom_null
    | slice bytes => exact slotFrom_wire (.same (by simp))
    | chunked bytes => exact slotFrom_park (alike_owned _)
  by_cases hnumber : oraTypeNum = oraTypeNumNumber ∨ oraTypeNum = oraTypeNumBinaryInteger
  · simp only [htext, hraw, hnumber, if_true, if_false]
    refine agreeAt_readScalar fun bytes rest hread => agree_numberSlot fun wire hwire => ?_
    rw [Option.mem_def.1 hwire] at hread
    exact h hnumber wire rest hread
  simp only [htext, hraw, hnumber, if_false]
  have hsmall (decode : List UInt8 → Except ProtocolError (Value J)) : AgreeAt (SlotFrom arena)
      (do let bytes ← reader.readBytesBorrowed; smallSlot decode arena bytes) (readScalar reader decode) input :=
    agreeAt_readScalar fun bytes _ _ => agree_smallSlot decode bytes
  by_cases hboolean : oraTypeNum = oraTypeNumBoolean
  · subst hboolean
    exact hsmall decodeBoolean
  by_cases hdays : oraTypeNum = oraTypeNumIntervalDs
  · subst hdays
    exact hsmall decodeIntervalDs
  by_cases hmonths : oraTypeNum = oraTypeNumIntervalYm
  · subst hmonths
    exact hsmall decodeIntervalYm
  by_cases htime : oraTypeNum = oraTypeNumDate ∨ oraTypeNum = oraTypeNumTimestamp ∨
    oraTypeNum = oraTypeNumTimestampLtz ∨
      oraTypeNum = oraTypeNumTimestampTz
  · rcases htime with rfl | rfl | rfl | rfl <;> exact hsmall decodeDatetimeValue
  · simp only [hboolean, hdays, hmonths, htime, if_false]
    exact agreeAt_park _ _

/-! ### Rows -/

theorem SlotAlike.mono {arena' : RowArena J Image.Vector} {slot : ColumnSlot J Image.Vector}
    {cell : Option (Value J)} (h : SlotAlike arena slot cell) (hgrown : Grown arena arena') :
    SlotAlike arena' slot cell :=
  fun _ hmore => h _ (hgrown.trans hmore)

section

variable (std : StdLib) (images : ImageDecoders J Image.Vector) (batch : Page J)

/-- The owned value of a column that is sent. -/
def sentCell (metadata : ColumnMetadata) : Read (Option (Value J)) := do
  let value ← parseColumnValueWithLobMode std images { limits := .default } metadata batch.lobDecodeMode
  skipLongStatus { limits := .default } batch.fetchLongStatus metadata
  return value

def ownedCell (bitVector : Option (List UInt8)) (previous : Option (OwnedRow J)) (column : ColumnMetadata × Nat) :
    Read (Option (Value J)) :=
  if isDuplicateColumn bitVector column.2 then liftM
    (duplicateCell previous column.2) else sentCell std images batch column.1

/-- Both decoders write the NUMBERs of a row alike. -/
def NumbersAlike (bitVector : Option (List UInt8)) : List (ColumnMetadata × Nat) → List UInt8 → Prop
  | [], _ => True
  | (metadata, index) :: columns, input =>
    if isDuplicateColumn bitVector index then NumbersAlike bitVector columns input
    else
      (IsNumberField metadata → ∀ bytes rest,
        TtcReader.readBytes { limits := .default } input = .ok (some bytes, rest) →
        WireAlike bytes) ∧
      ∀ value rest, sentCell std images batch metadata input = .ok (value, rest) → NumbersAlike bitVector columns rest

variable {bitVector : Option (List UInt8)} {previousOwned : OwnedRow J} {previous : Option (OwnedRow J)}

/-- What both parsers keep of the previous row has a value in the column, and a like one. -/
def KeptAlike (previousOwned : OwnedRow J) (previous : Option (OwnedRow J)) (index : Nat) : Prop :=
  ∃ cell, previous.bind (·[index]?) = some cell ∧
    Option.Rel (fun value owned => Alike (.owned value) owned) previousOwned[index]?.join cell

theorem agreeAt_decodeSlots {columns : List (ColumnMetadata × Nat)} {input : List UInt8}
    (hnumbers : NumbersAlike std images batch bitVector columns input)
    (hkept : ∀ column ∈ columns, isDuplicateColumn bitVector column.2 = true →
      KeptAlike previousOwned previous column.2) :
    AgreeAt (fun result cells => Grown arena result.2 ∧ List.Forall₂ (SlotAlike result.2) result.1 cells ∧
        cells.length = columns.length)
      (batch.decodeSlots std images { limits := .default } bitVector previousOwned columns arena)
      (Parser.each (ownedCell std images batch bitVector previous) columns) input := by
  induction columns generalizing arena input with
  | nil => exact ⟨⟨.refl _, .nil, rfl⟩, rfl⟩
  | cons column columns ih =>
    obtain ⟨metadata, index⟩ := column
    have hlater := fun column hmem => hkept column (List.mem_cons_of_mem _ hmem)
    have hfirst : AgreeAt (SlotFrom arena)
        (batch.decodeSlot std images { limits := .default } bitVector previousOwned metadata index arena)
        (ownedCell std images batch bitVector previous (metadata, index)) input ∧
        ∀ value rest, ownedCell std images batch bitVector previous (metadata, index) input = .ok (value, rest) →
          NumbersAlike std images batch bitVector columns rest := by
      unfold NumbersAlike at hnumbers
      unfold BorrowedRowBatch.decodeSlot ownedCell
      by_cases hduplicate : isDuplicateColumn bitVector index = true
      · rw [if_pos hduplicate] at hnumbers ⊢
        rw [if_pos hduplicate]
        obtain ⟨cell, hcell, hrel⟩ := hkept (metadata, index) (List.mem_cons_self ..) hduplicate
        have hok : duplicateCell previous index = .ok cell := by
          unfold duplicateCell
          rw [hcell]
        rw [hok]
        refine ⟨⟨?_, rfl⟩, ?_⟩
        · generalize previousOwned[index]?.join = kept at hrel
          cases hrel with
          | none => exact slotFrom_null
          | some h => exact slotFrom_park h
        · rintro _ _ ⟨⟩
          exact hnumbers
      · rw [if_neg hduplicate] at hnumbers ⊢
        rw [if_neg hduplicate]
        refine ⟨?_, hnumbers.2⟩
        refine (agreeAt_parseColumnSlot std images _ metadata _ hnumbers.1).bind fun slot cell rest _ hslot => ?_
        exact (agreeAt_refl _ rest).bind fun _ _ _ _ _ => ⟨hslot, rfl⟩
    refine hfirst.1.bind fun result cell rest hcell hslot => ?_
    refine (ih (hfirst.2 cell rest hcell) hlater).bind fun more cells _ _ ⟨hgrown, hcells, hlen⟩ => ?_
    exact ⟨⟨hslot.1.trans hgrown, .cons (hslot.2.mono hgrown) hcells, congrArg (· + 1) hlen⟩, rfl⟩

/-- The cells of a borrowed row and of an owned one. -/
abbrev RowAlike : List (Option (ValueRef J)) → OwnedRow J → Prop :=
  List.Forall₂ (Option.Rel Alike)

theorem agree_decodeRow {start : Nat}
    (hnumbers : NumbersAlike std images batch bitVector batch.columns.zipIdx (batch.buffer.drop start))
    (hkept : ∀ index < batch.columns.length, isDuplicateColumn bitVector index = true →
      KeptAlike previousOwned previous index) :
    Agree (fun row owned => RowAlike row owned ∧ owned.length = batch.columns.length)
      (batch.decodeRow std images start bitVector previousOwned)
      (batch.ownedRow std images start bitVector previous) := by
  have hslots := @agreeAt_decodeSlots _ {} std images batch _ _ _ _ _ hnumbers fun column hcolumn =>
    hkept column.2 (List.snd_lt_of_mem_zipIdx hcolumn)
  refine Agree.bind hslots fun ⟨⟨slots, arena⟩, _⟩ ⟨cells, _⟩ _ hcells ⟨⟨_, halike, hlen⟩, _⟩ => ⟨?_, ?_⟩
  · exact List.forall₂_map_left_iff.2 (halike.imp fun _ _ h => h arena (.refl _))
  · exact hlen.trans List.length_zipIdx

theorem keptAlike_of_rowAlike {row : List (Option (ValueRef J))} {owned : OwnedRow J}
    (h : RowAlike row owned) {index : Nat} (hindex : index < owned.length) :
    KeptAlike (row.map (Option.map QueryValueRef.toOwnedValue)) (some owned) index := by
  have hlen := h.length_eq
  refine ⟨owned[index], List.getElem?_eq_getElem hindex, ?_⟩
  have hcell := h.get (hlen ▸ hindex) hindex
  rw [List.getElem?_map, List.getElem?_eq_getElem (hlen ▸ hindex)]
  simp only [List.get_eq_getElem] at hcell
  revert hcell
  generalize row[index] = cell
  generalize owned[index] = cell'
  rintro (h | _)
  · exact .some h.toOwnedValue
  · exact .none

theorem agree_rowsFrom {starts : List Nat} {rowIndex : Nat}
    (hnumbers : ∀ row ∈ starts.zipIdx rowIndex,
      NumbersAlike std images batch batch.rowBitVectors[row.2]?.join batch.columns.zipIdx (batch.buffer.drop row.1))
    (hkept : ∀ index < batch.columns.length, isDuplicateColumn batch.rowBitVectors[rowIndex]?.join index = true →
      KeptAlike previousOwned previous index) :
    Agree (List.Forall₂ RowAlike) (batch.rowsFrom std images starts rowIndex previousOwned)
      (batch.ownedRowsFrom std images starts rowIndex previous) := by
  induction starts generalizing rowIndex previousOwned previous with
  | nil => exact .nil
  | cons start starts ih =>
    rw [List.zipIdx_cons] at hnumbers
    refine (agree_decodeRow std images batch (hnumbers _ (List.mem_cons_self ..)) hkept).bind
      fun row owned _ _ ⟨halike, hlen⟩ => ?_
    refine (ih (fun row hrow => hnumbers row (List.mem_cons_of_mem _ hrow)) ?_).bind
      fun rows owneds _ _ hrest => .cons halike hrest
    intro index hindex hduplicate
    by_cases hnone : batch.rowBitVectors.isEmpty
    · rw [List.isEmpty_iff.1 hnone] at hduplicate
      simp [isDuplicateColumn] at hduplicate
    · rw [if_neg hnone]
      exact keptAlike_of_rowAlike halike (hlen ▸ hindex)

/-- The NUMBERs of the page are written alike, and what its first row leaves out is in the row before the page. -/
structure PageAlike : Prop where
  numbers : ∀ row ∈ batch.rowStarts.zipIdx,
    NumbersAlike std images batch batch.rowBitVectors[row.2]?.join batch.columns.zipIdx (batch.buffer.drop row.1)
  seeded : ∀ index < batch.columns.length, isDuplicateColumn batch.rowBitVectors[0]?.join index = true →
    index < (batch.previousRowSeed.getD []).length

theorem agree_forEachRowRef (h : PageAlike std images batch) :
    Agree (List.Forall₂ RowAlike) (batch.forEachRowRef std images) (batch.ownedRows std images) := by
  refine agree_rowsFrom std images batch h.numbers fun index hindex hduplicate => ?_
  have hseed := h.seeded index hindex hduplicate
  cases hprevious : batch.previousRowSeed with
  | none =>
    rw [hprevious] at hseed
    cases hseed
  | some row =>
    rw [hprevious, Option.getD_some] at hseed
    refine ⟨row[index], List.getElem?_eq_getElem hseed, ?_⟩
    rw [Option.getD_some, List.getElem?_eq_getElem hseed, Option.join_some]
    cases row[index] with
    | none => exact .none
    | some value => exact .some (alike_owned value)

end

end OracleThin.Arrow
