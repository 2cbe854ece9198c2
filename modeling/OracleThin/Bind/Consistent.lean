import OracleThin.Bind.Rows
import OracleThin.Lib.Fallible

/-!
# Rows agree with their declaration

Rows that pass the validators are sent as they are declared: every value once, in an order that the declarations
decide, and every typed value under a type of its own family. The declared buffer is as large as the largest value
needs, except for a JSON column, whose buffer is always the same.
-/

namespace OracleThin.Bind

open Lib Wire Ttc Image Cursor

/-! ### The order of the values of a row -/

/-- Every value to send has its index in the list once, first those of ordinary columns and then those of long
ones. -/
structure RowOrder (row : List BindValue) (metadata : List BindTypeInfo) (isPlsql : Bool) (maxStringSize : Nat)
    (order : List Nat) : Prop where
  once : order.Nodup
  sent : ∀ index, index ∈ order ↔ ∃ value, row[index]? = some value ∧ isSent isPlsql value
  groups : ∃ nonLong long, order = nonLong ++ long ∧ nonLong.Pairwise (· < ·) ∧ long.Pairwise (· < ·) ∧
    (∀ index ∈ nonLong, isLongColumn isPlsql maxStringSize metadata[index]? = false) ∧
    ∀ index ∈ long, isLongColumn isPlsql maxStringSize metadata[index]? = true

variable {index : Nat} {value : BindValue} {oraTypeNum : UInt8} {firstRow : List BindValue}
  {rows : List (List BindValue)}

section

variable (metadata : List BindTypeInfo) (isPlsql : Bool) (maxStringSize : Nat)

/-- The indices of the values to send whose columns are long, or are not. -/
def sentIndices (long : Bool) (entries : List (BindValue × Nat)) : List Nat :=
  (entries.filter fun entry =>
    isSent isPlsql entry.1 && (isLongColumn isPlsql maxStringSize metadata[entry.2]? == long)).map Prod.snd

theorem foldl_orderStep (entries : List (BindValue × Nat)) (found : List Nat × List Nat) :
    entries.foldl (orderStep metadata isPlsql maxStringSize) found =
      (found.1 ++ sentIndices metadata isPlsql maxStringSize false entries,
        found.2 ++ sentIndices metadata isPlsql maxStringSize true entries) := by
  induction entries generalizing found with
  | nil => simp [sentIndices]
  | cons entry entries ih =>
    rw [List.foldl_cons, ih]
    unfold orderStep sentIndices
    cases hsent : isSent isPlsql entry.1 with
    | false => simp [hsent]
    | true => cases hlong : isLongColumn isPlsql maxStringSize metadata[entry.2]? <;> simp [hsent, hlong]

theorem pairwise_sentIndices (long : Bool) (row : List BindValue) :
    (sentIndices metadata isPlsql maxStringSize long row.zipIdx).Pairwise (· < ·) := by
  have hall : (row.zipIdx.map Prod.snd).Pairwise (· < ·) := by
    rw [List.zipIdx_map_snd]
    exact List.pairwise_lt_range'
  exact hall.sublist (List.filter_sublist.map _)

theorem mem_sentIndices {long : Bool} {row : List BindValue} :
    index ∈ sentIndices metadata isPlsql maxStringSize long row.zipIdx ↔
      (∃ value, row[index]? = some value ∧ isSent isPlsql value) ∧
        isLongColumn isPlsql maxStringSize metadata[index]? = long := by
  simp only [sentIndices, List.mem_map, List.mem_filter, Prod.exists, List.mem_zipIdx_iff_getElem?, Bool.and_eq_true,
    beq_iff_eq]
  constructor
  · rintro ⟨value, i, ⟨hvalue, hsent, hlong⟩, rfl⟩
    exact ⟨⟨value, hvalue, hsent⟩, hlong⟩
  · rintro ⟨⟨value, hvalue, hsent⟩, hlong⟩
    exact ⟨value, index, ⟨hvalue, hsent, hlong⟩, rfl⟩

/-- The order is as it should be, whatever the declarations are. -/
theorem rowOrder_bindRowValueOrder (row : List BindValue) :
    RowOrder row metadata isPlsql maxStringSize (bindRowValueOrder row metadata isPlsql maxStringSize) := by
  have horder : bindRowValueOrder row metadata isPlsql maxStringSize =
      sentIndices metadata isPlsql maxStringSize false row.zipIdx ++
        sentIndices metadata isPlsql maxStringSize true row.zipIdx := by
    rw [bindRowValueOrder, foldl_orderStep]
    rfl
  rw [horder]
  have hnonLong := pairwise_sentIndices metadata isPlsql maxStringSize false row
  have hlong := pairwise_sentIndices metadata isPlsql maxStringSize true row
  refine ⟨?_, fun index => ?_, _, _, rfl, hnonLong, hlong, fun index h => ?_, fun index h => ?_⟩
  · refine List.nodup_append.2 ⟨hnonLong.imp Nat.ne_of_lt, hlong.imp Nat.ne_of_lt, fun i hi j hj hij => ?_⟩
    subst hij
    have hfalse := (mem_sentIndices metadata isPlsql maxStringSize).1 hi
    have htrue := (mem_sentIndices metadata isPlsql maxStringSize).1 hj
    rw [hfalse.2] at htrue
    cases htrue.2
  · rw [List.mem_append, mem_sentIndices, mem_sentIndices]
    cases isLongColumn isPlsql maxStringSize metadata[index]? <;> simp
  · exact ((mem_sentIndices metadata isPlsql maxStringSize).1 h).2
  · exact ((mem_sentIndices metadata isPlsql maxStringSize).1 h).2

end

/-! ### Families -/

/-- The larger families, by one of their types; every other type is a family by itself. -/
theorem bindTypeFamily_cases (oraTypeNum : UInt8) :
    (isCharType oraTypeNum ↔ bindTypeFamily oraTypeNum = oraTypeNumVarchar) ∧
      (isRawType oraTypeNum ↔ bindTypeFamily oraTypeNum = oraTypeNumRaw) ∧
      (bindTypeFamily oraTypeNum ≠ oraTypeNumVarchar → bindTypeFamily oraTypeNum ≠ oraTypeNumRaw →
        bindTypeFamily oraTypeNum = oraTypeNum) := by
  have hdistinct : oraTypeNumVarchar ≠ oraTypeNumRaw ∧ oraTypeNumVarchar ≠ oraTypeNumLongRaw ∧
      oraTypeNumRaw ≠ oraTypeNumChar ∧ oraTypeNumRaw ≠ oraTypeNumLong ∧ oraTypeNumLongRaw ≠ oraTypeNumChar ∧
      oraTypeNumLongRaw ≠ oraTypeNumLong := by decide
  simp only [isCharType, isRawType, bindTypeFamily, decide_eq_true_eq]
  grind

/-- The writer merges types of one family and no others. -/
theorem bindMetadataTypesAreCompatible_iff (left right : UInt8) :
    bindMetadataTypesAreCompatible left right ↔ bindTypeFamily left = bindTypeFamily right := by
  obtain ⟨hcharLeft, hrawLeft, hleft⟩ := bindTypeFamily_cases left
  obtain ⟨hcharRight, hrawRight, hright⟩ := bindTypeFamily_cases right
  rw [bindMetadataTypesAreCompatible, decide_eq_true_eq, hcharLeft, hcharRight, hrawLeft, hrawRight]
  constructor
  · rintro (rfl | ⟨hl, hr⟩ | ⟨hl, hr⟩)
    · rfl
    · exact hl.trans hr.symm
    · exact hl.trans hr.symm
  · intro h
    by_cases hchar : bindTypeFamily left = oraTypeNumVarchar
    · exact Or.inr (Or.inl ⟨hchar, h ▸ hchar⟩)
    · by_cases hraw : bindTypeFamily left = oraTypeNumRaw
      · exact Or.inr (Or.inr ⟨hraw, h ▸ hraw⟩)
      · exact Or.inl ((hleft hchar hraw).symm.trans (h.trans (hright (h ▸ hchar) (h ▸ hraw))))

theorem bindTypeFamily_promotedBindMetadataType {left right : UInt8}
    (h : bindTypeFamily left = bindTypeFamily right) :
    bindTypeFamily (promotedBindMetadataType left right) = bindTypeFamily left := by
  unfold promotedBindMetadataType
  split
  · rfl
  · split
    · exact h.symm
    · rfl

/-! ### Columns -/

/-- A typed value has this family and this character form. -/
def HasType (family csfrm : UInt8) (value : BindValue) : Prop :=
  ∀ info, bindValueTypeInfo value = some info → bindTypeFamily info.oraTypeNum = family ∧ info.csfrm = csfrm

/-- The state of a column whose typed values have this family and this character form, after the given values. -/
structure ColumnState.Covers (family csfrm : UInt8) (state : ColumnState) (seen : List BindValue) : Prop where
  untyped : state.needsTypeInference = true → ∀ value ∈ seen, value = .null
  typed : state.needsTypeInference = false →
    bindTypeFamily state.metadata.oraTypeNum = family ∧ state.metadata.csfrm = csfrm
  size : ∀ value ∈ seen, (bindMetadata value).bufferSize ≤ state.metadata.bufferSize
  nonempty : 1 ≤ state.metadata.bufferSize

section

variable {family csfrm : UInt8}

theorem bindMetadata_of_typed {info : BindTypeInfo} (h : bindValueTypeInfo value = some info) :
    bindMetadata value = info := by
  rw [bindMetadata, h]
  rfl

theorem one_le_bindMetadata (value : BindValue) : 1 ≤ (bindMetadata value).bufferSize := by
  unfold bindMetadata
  cases h : bindValueTypeInfo value with
  | none => exact le_refl 1
  | some info => exact one_le_bufferSize h

variable {seen : List BindValue}

/-- A typed value covers itself and the untyped ones before it. -/
theorem covers_typed (hvalue : HasType family csfrm value) (hne : value ≠ .null) (hseen : ∀ v ∈ seen, v = .null) :
    ColumnState.Covers family csfrm ⟨value, bindMetadata value, false⟩ (seen ++ [value]) := by
  obtain ⟨info, hinfo⟩ := Option.ne_none_iff_exists'.1 (mt bindValueTypeInfo_eq_none_iff.1 hne)
  refine ⟨nofun, fun _ => ?_, fun v hv => ?_, one_le_bindMetadata value⟩
  · rw [bindMetadata_of_typed hinfo]
    exact hvalue info hinfo
  · rcases List.mem_append.1 hv with hv | hv
    · rw [hseen v hv]
      exact one_le_bindMetadata value
    · rw [List.mem_singleton.1 hv]

theorem covers_init {firstValue : BindValue} (h : HasType family csfrm firstValue) :
    (ColumnState.init firstValue).Covers family csfrm [firstValue] := by
  by_cases hnull : firstValue = .null
  · subst hnull
    exact ⟨fun _ value hvalue => List.mem_singleton.1 hvalue, nofun,
      fun value hvalue => by rw [List.mem_singleton.1 hvalue]; exact le_refl _, le_refl 1⟩
  · have hinit : ColumnState.init firstValue = ⟨firstValue, bindMetadata firstValue, false⟩ := by
      cases firstValue <;> first | rfl | exact (hnull rfl).elim
    rw [hinit]
    have hnone : ∀ value ∈ ([] : List BindValue), value = .null := fun value hvalue => by cases hvalue
    exact covers_typed h hnull hnone

variable {state : ColumnState}

theorem ColumnState.Covers.null (h : state.Covers family csfrm seen) :
    state.Covers family csfrm (seen ++ [.null]) := by
  refine ⟨fun hinfer v hv => ?_, h.typed, fun v hv => ?_, h.nonempty⟩
  · rcases List.mem_append.1 hv with hv | hv
    · exact h.untyped hinfer v hv
    · exact List.mem_singleton.1 hv
  · rcases List.mem_append.1 hv with hv | hv
    · exact h.size v hv
    · rw [List.mem_singleton.1 hv]
      exact h.nonempty

theorem ColumnState.Covers.step (h : state.Covers family csfrm seen)
    (hvalue : HasType family csfrm value) : (state.step value).Covers family csfrm (seen ++ [value]) := by
  cases hinfer : state.needsTypeInference with
  | true =>
    by_cases hnull : value = .null
    · subst hnull
      have hstep : state.step .null = state := by simp [ColumnState.step, hinfer]
      rw [hstep]
      exact h.null
    · have hstep : state.step value = ⟨value, bindMetadata value, false⟩ := by
        cases value <;> first | exact (hnull rfl).elim | simp [ColumnState.step, hinfer]
      rw [hstep]
      exact covers_typed hvalue hnull (h.untyped hinfer)
  | false =>
    obtain ⟨hfamily, hcsfrm⟩ := h.typed hinfer
    by_cases hmerge : (bindMetadata value).csfrm = state.metadata.csfrm ∧
        bindMetadataTypesAreCompatible state.metadata.oraTypeNum (bindMetadata value).oraTypeNum
    · have hcompatible := (bindMetadataTypesAreCompatible_iff _ _).1 hmerge.2
      have hstep : state.step value = { state with metadata :=
          { state.metadata with
            oraTypeNum := promotedBindMetadataType state.metadata.oraTypeNum (bindMetadata value).oraTypeNum
            bufferSize := max state.metadata.bufferSize (bindMetadata value).bufferSize } } := by
        unfold ColumnState.step
        rw [hinfer, if_neg Bool.false_ne_true]
        exact if_pos hmerge
      rw [hstep]
      refine ⟨fun htrue => ?_, fun _ => ⟨?_, hcsfrm⟩, fun v hv => ?_, le_max_of_le_left h.nonempty⟩
      · rw [hinfer] at htrue
        cases htrue
      · exact (bindTypeFamily_promotedBindMetadataType hcompatible).trans hfamily
      · rcases List.mem_append.1 hv with hv | hv
        · exact le_max_of_le_left (h.size v hv)
        · rw [List.mem_singleton.1 hv]
          exact le_max_right _ _
    · -- only an untyped value is left out
      have hnull : value = .null := by
        by_contra hne
        obtain ⟨info, hinfo⟩ := Option.ne_none_iff_exists'.1 (mt bindValueTypeInfo_eq_none_iff.1 hne)
        obtain ⟨hvalueFamily, hvalueCsfrm⟩ := hvalue info hinfo
        refine hmerge ?_
        rw [bindMetadata_of_typed hinfo, bindMetadataTypesAreCompatible_iff, hfamily, hcsfrm]
        exact ⟨hvalueCsfrm, hvalueFamily.symm⟩
      have hstep : state.step value = state := by
        unfold ColumnState.step
        rw [hinfer, if_neg Bool.false_ne_true]
        exact if_neg hmerge
      rw [hstep, hnull]
      exact h.null

theorem covers_foldl {values : List BindValue} (h : state.Covers family csfrm seen)
    (hvalues : ∀ value ∈ values, HasType family csfrm value) :
    (values.foldl ColumnState.step state).Covers family csfrm (seen ++ values) := by
  induction values generalizing state seen with
  | nil => simpa using h
  | cons value values ih =>
    rw [List.foldl_cons, List.append_cons]
    exact ih (h.step (hvalues value (List.mem_cons_self ..)))
      fun v hv => hvalues v (List.mem_cons_of_mem _ hv)

end

/-! ### What the validators ensure -/

/-- The values of a column. -/
def columnValues (bindRows : List (List BindValue)) (index : Nat) : List BindValue := bindRows.filterMap (·[index]?)

theorem length_eq_of_validateBindRowsShape (h : validateBindRowsShape (firstRow :: rows) = .ok ()) :
    ∀ row ∈ firstRow :: rows, row.length = firstRow.length := by
  intro row hrow
  rcases List.mem_cons.1 hrow with rfl | hrow
  · rfl
  · rw [validateBindRowsShape] at h
    split at h
    · cases h
    · rename_i hnone
      obtain ⟨i, hi, rfl⟩ := List.mem_iff_getElem.1 hrow
      have hmem : (rows[i], 1 + i) ∈ rows.zipIdx 1 := by
        rw [List.mk_add_mem_zipIdx_iff_getElem?]
        exact List.getElem?_eq_getElem hi
      simpa using List.find?_eq_none.1 hnone _ hmem

/-- The type of the value that a row has in a column. -/
def entryType (index : Nat) (entry : List BindValue × Nat) : Option BindTypeInfo :=
  entry.1[index]?.bind bindValueTypeInfo

theorem checkRowType_eq_ok {established found : Option Established} {entry : List BindValue × Nat}
    (h : checkRowType index established entry = .ok found) :
    (∀ e, established = some e → found = some e) ∧
      ∀ info, entryType index entry = some info →
        ∃ name, found = some (bindTypeFamily info.oraTypeNum, info.csfrm, name) := by
  unfold checkRowType at h
  unfold entryType
  split at h
  · rename_i hvalue
    cases h
    rw [hvalue]
    exact ⟨fun e he => he, nofun⟩
  · rename_i value hvalue
    rw [hvalue, Option.bind_some]
    split at h
    · rename_i hinfo
      cases h
      rw [hinfo]
      exact ⟨fun e he => he, nofun⟩
    · rename_i info hinfo
      rw [hinfo]
      split at h
      · cases h
        exact ⟨nofun, by rintro _ ⟨⟩; exact ⟨_, rfl⟩⟩
      · split at h
        · cases h
        · rename_i hsame
          cases h
          rw [not_or, not_not, not_not] at hsame
          exact ⟨fun e he => he, by rintro _ ⟨⟩; exact ⟨_, by rw [hsame.1, hsame.2]⟩⟩

/-- A column that passes has one type. -/
theorem foldlM_checkRowType {established found : Option Established} {entries : List (List BindValue × Nat)}
    (h : entries.foldlM (checkRowType index) established = .ok found) :
    (∀ e, established = some e → found = some e) ∧
      ∀ entry ∈ entries, ∀ info, entryType index entry = some info →
        ∃ name, found = some (bindTypeFamily info.oraTypeNum, info.csfrm, name) := by
  induction entries generalizing established with
  | nil =>
    cases h
    exact ⟨fun e he => he, fun entry hentry => by cases hentry⟩
  | cons entry entries ih =>
    obtain ⟨next, hnext, h⟩ := except_bind_eq_ok.1 h
    obtain ⟨hkeep, hfirst⟩ := checkRowType_eq_ok hnext
    obtain ⟨hlater, hrest⟩ := ih h
    refine ⟨fun e he => hlater e (hkeep e he), fun entry' hentry' info hinfo => ?_⟩
    rcases List.mem_cons.1 hentry' with rfl | hentry'
    · obtain ⟨name, hname⟩ := hfirst info hinfo
      exact ⟨name, hlater _ hname⟩
    · exact hrest entry' hentry' info hinfo

theorem mem_columnValues {bindRows : List (List BindValue)} :
    value ∈ columnValues bindRows index ↔ ∃ row ∈ bindRows, row[index]? = some value := by
  simp [columnValues]

/-- The typed values of a column of rows that pass have one family and one character form. -/
theorem hasType_of_validateBindRowsTypes (h : validateBindRowsTypes (firstRow :: rows) = .ok ())
    (hindex : index < firstRow.length) :
    ∃ family csfrm, ∀ value ∈ columnValues (firstRow :: rows) index, HasType family csfrm value := by
  by_cases hone : (firstRow :: rows).length < 2
  · have hnil : rows = [] := by
      rw [List.length_cons] at hone
      exact List.eq_nil_of_length_eq_zero (by omega)
    subst hnil
    have hvalues : columnValues [firstRow] index = [firstRow[index]] := by
      simp [columnValues, List.getElem?_eq_getElem hindex]
    refine ⟨bindTypeFamily (bindMetadata firstRow[index]).oraTypeNum, (bindMetadata firstRow[index]).csfrm, ?_⟩
    intro value hvalue info hinfo
    rw [hvalues, List.mem_singleton] at hvalue
    rw [← hvalue, bindMetadata_of_typed hinfo]
    exact ⟨rfl, rfl⟩
  · rw [validateBindRowsTypes, if_neg hone] at h
    obtain ⟨columns, hcolumns, -⟩ := except_bind_eq_ok.1 h
    obtain ⟨found, -, hfound⟩ := exists_right_of_forall₂ (forall₂_of_mapM_eq_ok hcolumns) (List.mem_range.2 hindex)
    obtain ⟨-, hall⟩ := foldlM_checkRowType hfound
    have htyped (value : BindValue) (hvalue : value ∈ columnValues (firstRow :: rows) index) (info : BindTypeInfo)
        (hinfo : bindValueTypeInfo value = some info) :
        ∃ name, found = some (bindTypeFamily info.oraTypeNum, info.csfrm, name) := by
      obtain ⟨row, hrow, hvalue⟩ := mem_columnValues.1 hvalue
      obtain ⟨i, hi⟩ := List.mem_iff_getElem?.1 hrow
      refine hall (row, i) (List.mk_mem_zipIdx_iff_getElem?.2 hi) info ?_
      rw [entryType, hvalue, Option.bind_some, hinfo]
    cases found with
    | none =>
      refine ⟨0, 0, fun value hvalue info hinfo => ?_⟩
      obtain ⟨name, hname⟩ := htyped value hvalue info hinfo
      cases hname
    | some established =>
      refine ⟨established.1, established.2.1, fun value hvalue info hinfo => ?_⟩
      obtain ⟨name, hname⟩ := htyped value hvalue info hinfo
      cases hname
      exact ⟨rfl, rfl⟩

/-! ### Rows as they are sent -/

/-- The typed values of a column have the family and the character form that are declared and recorded for it, and
their size is declared unless the column is JSON. -/
structure ColumnAgrees (bindRows : List (List BindValue)) (index : Nat) (metadata : BindTypeInfo)
    (slot : BindShapeSlot) :
    Prop where
  typed : ∀ row ∈ bindRows, ∀ value, row[index]? = some value → ∀ info, bindValueTypeInfo value = some info →
    bindTypeFamily info.oraTypeNum = bindTypeFamily metadata.oraTypeNum ∧ info.csfrm = metadata.csfrm ∧
      bindTypeFamily info.oraTypeNum = slot.family ∧ info.csfrm = slot.csfrm
  size : ∀ row ∈ bindRows, ∀ value, row[index]? = some value →
    (bindMetadata value).bufferSize ≤ metadata.bufferSize ∧
      (metadata.oraTypeNum ≠ oraTypeNumJson → (bindMetadata value).bufferSize ≤ declaredBufferSize metadata)

theorem columnAgrees_columnState {firstValue : BindValue} {family csfrm : UInt8}
    (hfirst : firstRow[index]? = some firstValue)
    (h : ∀ value ∈ columnValues (firstRow :: rows) index, HasType family csfrm value) :
    ColumnAgrees (firstRow :: rows) index (columnState firstValue rows index).metadata
      (bindShapeSlot (firstRow :: rows) index) := by
  have hcolumn : columnValues (firstRow :: rows) index = [firstValue] ++ rows.filterMap (·[index]?) := by
    simp [columnValues, hfirst]
  have hcovers : (columnState firstValue rows index).Covers family csfrm (columnValues (firstRow :: rows) index) := by
    rw [hcolumn] at h ⊢
    exact covers_foldl (covers_init (h firstValue (List.mem_append_left _ (List.mem_singleton_self _))))
      fun value hvalue => h value (List.mem_append_right _ hvalue)
  refine ⟨fun row hrow value hvalue info hinfo => ?_, fun row hrow value hvalue => ?_⟩
  · have hmem := mem_columnValues.2 ⟨row, hrow, hvalue⟩
    obtain ⟨hfamily, hcsfrm⟩ := h value hmem info hinfo
    have hknown : (columnState firstValue rows index).needsTypeInference = false := by
      cases hinfer : (columnState firstValue rows index).needsTypeInference with
      | false => rfl
      | true =>
        rw [hcovers.untyped hinfer value hmem] at hinfo
        cases hinfo
    obtain ⟨hstateFamily, hstateCsfrm⟩ := hcovers.typed hknown
    -- the slot is made from a typed value of the column, which has the same type
    have hslot : (bindShapeSlot (firstRow :: rows) index).family = family ∧
        (bindShapeSlot (firstRow :: rows) index).csfrm = csfrm := by
      unfold bindShapeSlot
      cases hfound : (firstRow :: rows).findSome? fun row => row[index]?.bind bindValueTypeInfo with
      | none =>
        have hnone := List.findSome?_eq_none_iff.1 hfound row hrow
        rw [hvalue, Option.bind_some, hinfo] at hnone
        cases hnone
      | some info' =>
        obtain ⟨row', hrow', hinfo'⟩ := List.exists_of_findSome?_eq_some hfound
        obtain ⟨value', hvalue', hinfo'⟩ := Option.bind_eq_some_iff.1 hinfo'
        exact h value' (mem_columnValues.2 ⟨row', hrow', hvalue'⟩) info' hinfo'
    rw [hfamily, hcsfrm, hstateFamily, hstateCsfrm, hslot.1, hslot.2]
    exact ⟨rfl, rfl, rfl, rfl⟩
  · have hsize := hcovers.size value (mem_columnValues.2 ⟨row, hrow, hvalue⟩)
    refine ⟨hsize, fun hjson => ?_⟩
    rw [declaredBufferSize, if_neg hjson]
    exact hsize

section

variable (asF32 : UInt64 → UInt32) (isPlsql : Bool) (maxStringSize : Nat)

/-- The message of a row holds the values to send, each once and in order, in the character form of its column. A row
of a SQL statement that has none to send has no message. -/
def RowMessage (metadata : List BindTypeInfo) (row : List BindValue) (message : List UInt8) : Prop :=
  if !isPlsql && row.all BindValue.isOutputOnly then message = []
  else ∃ order parts, RowOrder row metadata isPlsql maxStringSize order ∧
    message = tnsMsgTypeRowData :: parts.flatten ∧
    List.Forall₂ (fun index part => ∃ value column, row[index]? = some value ∧ metadata[index]? = some column ∧
      writeBindValue asF32 value column.csfrm = .ok part) order parts

variable {asF32 isPlsql maxStringSize}

theorem rowMessage_of_writeBindRow {metadata : List BindTypeInfo} {row : List BindValue} {message : List UInt8}
    (hlength : metadata.length = row.length)
    (h : writeBindRow asF32 metadata isPlsql maxStringSize row = .ok message) :
    RowMessage asF32 isPlsql maxStringSize metadata row message := by
  unfold writeBindRow at h
  unfold RowMessage
  split at h
  · cases h
    rw [if_pos ‹_›]
  · obtain ⟨parts, hparts, h⟩ := except_bind_eq_ok.1 h
    cases h
    rw [if_neg ‹_›]
    refine ⟨_, parts, rowOrder_bindRowValueOrder metadata isPlsql maxStringSize row, rfl, ?_⟩
    refine (forall₂_mem_left (forall₂_of_mapM_eq_ok hparts)).imp fun index part hpart => ?_
    obtain ⟨value, hvalue, -⟩ :=
      ((rowOrder_bindRowValueOrder metadata isPlsql maxStringSize row).sent index).1 hpart.1
    have hindex : index < metadata.length := hlength ▸ (List.getElem?_eq_some_iff.1 hvalue).1
    have hcolumn := List.getElem?_eq_getElem hindex
    have hwrite := hpart.2
    rw [writeRowValue, hvalue, hcolumn] at hwrite
    exact ⟨value, metadata[index], hvalue, hcolumn, hwrite⟩

/-- Rows that the validators accept and the writer encodes are declared column by column and then sent row by row.
Every value to send is in the message of its row once, in SQL those of long columns last. Typed values have the family
and the character form of the declaration and of the shape in the cache, and their size is declared unless the column
is JSON. -/
theorem writeBindParams_consistent {bindRows : List (List BindValue)} {ttcFieldVersion : Nat} {bytes : List UInt8}
    (hshape : validateBindRowsShape bindRows = .ok ()) (htypes : validateBindRowsTypes bindRows = .ok ())
    (h : writeBindParams asF32 bindRows isPlsql maxStringSize ttcFieldVersion = .ok bytes) :
    ∃ (columns : List (List UInt8 × BindTypeInfo)) (messages : List (List UInt8)),
      bytes = (columns.map Prod.fst).flatten ++ messages.flatten ∧
      (∀ row ∈ bindRows, row.length = columns.length) ∧
      (∀ index column, columns[index]? = some column → ∃ value slot,
        writeBindMetadataWithType value column.2 ttcFieldVersion = .ok column.1 ∧
        (bindTypeShape bindRows)[index]? = some slot ∧ ColumnAgrees bindRows index column.2 slot) ∧
      List.Forall₂ (RowMessage asF32 isPlsql maxStringSize (columns.map Prod.snd)) bindRows messages := by
  cases bindRows with
  | nil =>
    cases h
    refine ⟨[], [], rfl, fun row hrow => ?_, fun index column hcolumn => ?_, .nil⟩
    · cases hrow
    · cases hcolumn
  | cons firstRow rows =>
    obtain ⟨columns, hcolumns, h⟩ := except_bind_eq_ok.1 h
    obtain ⟨messages, hmessages, h⟩ := except_bind_eq_ok.1 h
    cases h
    have hall := forall₂_of_mapM_eq_ok hcolumns
    have hlength : columns.length = firstRow.length := by rw [← hall.length_eq, List.length_range]
    have hwidth (row : List BindValue) (hrow : row ∈ firstRow :: rows) : row.length = columns.length :=
      (length_eq_of_validateBindRowsShape hshape row hrow).trans hlength.symm
    refine ⟨columns, messages, rfl, hwidth, fun index column hcolumn => ?_, ?_⟩
    · have hindex : index < firstRow.length := hlength ▸ (List.getElem?_eq_some_iff.1 hcolumn).1
      have hfirst := List.getElem?_eq_getElem hindex
      have hwritten : writeBindMetadataForRows (firstRow :: rows) index ttcFieldVersion = .ok column := by
        have hget := hall.get (List.length_range ▸ hindex) (hlength ▸ hindex)
        simpa [(List.getElem?_eq_some_iff.1 hcolumn).2] using hget
      obtain ⟨family, csfrm, htype⟩ := hasType_of_validateBindRowsTypes htypes hindex
      rw [writeBindMetadataForRows, hfirst] at hwritten
      obtain ⟨declared, hdeclared, hwritten⟩ := except_bind_eq_ok.1 hwritten
      cases hwritten
      have hslot : (bindTypeShape (firstRow :: rows))[index]? = some (bindShapeSlot (firstRow :: rows) index) := by
        simp [bindTypeShape, hindex]
      exact ⟨_, _, hdeclared, hslot, columnAgrees_columnState hfirst htype⟩
    · refine (forall₂_mem_left (forall₂_of_mapM_eq_ok hmessages)).imp fun row message hmessage => ?_
      exact rowMessage_of_writeBindRow (by rw [List.length_map, hwidth row hmessage.1]) hmessage.2

end

/-- Two rows with an untyped NULL in each column, the first of which is a LONG. -/
def sparseRows : List (List BindValue) :=
  [[.typedNull oraTypeNumLong csFormImplicit 100, .null, .text "ab"], [.null, .number "1", .null]]

theorem writeBindParams_sparseRows : ∃ (columns : List (List UInt8 × BindTypeInfo)) (messages : List (List UInt8)),
    writeBindParams (fun _ => 0) sparseRows false 4000 8 =
      .ok ((columns.map Prod.fst).flatten ++ messages.flatten) ∧
    (∀ row ∈ sparseRows, row.length = columns.length) ∧
    (∀ index column, columns[index]? = some column → ∃ value slot,
      writeBindMetadataWithType value column.2 8 = .ok column.1 ∧
      (bindTypeShape sparseRows)[index]? = some slot ∧ ColumnAgrees sparseRows index column.2 slot) ∧
    List.Forall₂ (RowMessage (fun _ => 0) false 4000 (columns.map Prod.snd)) sparseRows messages := by
  obtain ⟨bytes, hbytes⟩ : ∃ bytes, writeBindParams (fun _ => 0) sparseRows false 4000 8 = .ok bytes := ⟨_, rfl⟩
  obtain ⟨columns, messages, rfl, hwidths, hcolumns, hmessages⟩ :=
    writeBindParams_consistent (by decide : validateBindRowsShape sparseRows = .ok ())
      (by decide : validateBindRowsTypes sparseRows = .ok ()) hbytes
  exact ⟨columns, messages, hbytes, hwidths, hcolumns, hmessages⟩

/-- In PL/SQL the value of a LONG column keeps its place, and a JSON column declares less than a value may ask for. -/
theorem writeBindParams_longFirst_jsonSmall :
    (∃ declared, writeBindParams (fun _ =>
      0) [[.typedNull oraTypeNumLong csFormImplicit 100, .number "1"]] true 4000 8 =
        .ok (declared ++ [tnsMsgTypeRowData, 0, 2, 0xc1, 2]) ∧
      bindRowValueOrder [.typedNull oraTypeNumLong csFormImplicit 100, .number "1"]
        [⟨oraTypeNumLong, csFormImplicit, 100⟩, ⟨oraTypeNumNumber, 0, 22⟩] true 4000 = [0, 1]) ∧
    ∃ declared metadata,
      writeBindMetadataForRows [[.typedNull oraTypeNumJson 0 (2 ^ 30)]] 0 8 = .ok (declared, metadata) ∧
      declaredBufferSize metadata = 2 ^ 25 ∧
        (bindMetadata (.typedNull oraTypeNumJson 0 (2 ^ 30))).bufferSize = 2 ^ 30 :=
  ⟨⟨[8, 1, 0, 0, 1, 100, 0, 0, 0, 0, 2, 3, 105, 1, 0, 0, 2, 1, 0, 0, 1, 22, 0, 0, 0, 0, 0, 0, 0, 0], by decide,
    by decide⟩,
    _, _, rfl, by decide, by decide⟩

end OracleThin.Bind
