import OracleThin.Arrow.Cells

/-!
# The columns of a record batch

When a batch is built from owned rows and when from borrowed rows, and with which arrays: each array has the converted
cells of its column. For borrowed rows this is an invariant of the builders, kept by each row.
-/

namespace OracleThin.Arrow

open Lib Wire Ttc Image

variable {J : Type}

theorem isSome_of_cellWith {α : Type} {convert : α → Result ArrowValue} {cell : Option α}
    {value : Option ArrowValue} (h : cellWith convert cell = .ok value) : value.isSome = cell.isSome := by
  cases cell with
  | none =>
    cases h
    rfl
  | some cell =>
    obtain ⟨converted, -, rfl⟩ := except_map_eq_ok.1 h
    rfl

/-! ### From owned rows -/

/-- The type of the array that is built for a type of Arrow. -/
def ownedType : DataType → Option ArrayType
  | .list item => (VectorItem.forItem item.dataType).map .vectorList
  | .struct fields =>
    match fields[2]?.map Field.dataType with
    | some (.list item) => (VectorItem.forItem item.dataType).map (.vectorStruct fields)
    | _ => none
  | dataType => ColumnBuilder.arrayTypeFor dataType

/-- Arrays of structures are checked once more. -/
def structAccepted (lib : Library) : ArrayType → List Bool → Bool
  | .vectorStruct fields item, validity => lib.acceptsStruct fields item validity
  | _, _ => true

variable {lib : Library} {columns : List ColumnMetadata} {schema fields : List Field} {array : ArrowArray}
  {column : ColumnMetadata} {cells : List (Option (Value J))}
  {row : List (Option (ValueRef J))} {dataType : DataType} {field : Field × Nat} {start : Nat}
  {builders : List ColumnBuilder}

theorem buildArray_eq_ok {arrayType : ArrayType}
    {convert : Value J → Result ArrowValue} :
    buildArray lib arrayType convert cells = .ok array ↔
      lib.builds arrayType ∧ ∃ values,
      List.Forall₂ (fun cell value => cellWith convert cell = .ok value) cells values ∧
        array = ⟨arrayType, values⟩ := by
  unfold buildArray
  by_cases hbuilds : lib.builds arrayType
  · rw [if_pos hbuilds]
    constructor
    · intro h
      obtain ⟨values, hvalues, h⟩ := except_bind_eq_ok.1 h
      cases h
      exact ⟨hbuilds, values, mapM_eq_ok_iff.1 hvalues, rfl⟩
    · rintro ⟨-, values, hvalues, rfl⟩
      rw [mapM_eq_ok_iff.2 hvalues]
      rfl
  · simp [hbuilds]

theorem forall₂_isSome {α : Type} {convert : α → Result ArrowValue} {cells : List (Option α)}
    {values : List (Option ArrowValue)}
    (h : List.Forall₂ (fun cell value => cellWith convert cell = .ok value) cells values) :
    values.map Option.isSome = cells.map Option.isSome := by
  induction h with
  | nil => rfl
  | cons hcell _ ih => rw [List.map_cons, List.map_cons, ih, isSome_of_cellWith hcell]

/-- An array of the type of a column, with its cells. -/
def IsColumnArray (lib : Library) (dataType : DataType) (column : ColumnMetadata)
    (cells : List (Option (Value J))) (array : ArrowArray) : Prop :=
  ∃ arrayType values, ownedType dataType = some arrayType ∧ lib.builds arrayType ∧
    structAccepted lib arrayType (cells.map Option.isSome) ∧
    List.Forall₂ (fun cell value => cellWith (convertOwned lib arrayType column) cell = .ok value) cells values ∧
    array = ⟨arrayType, values⟩

theorem error_isColumnArray {e : ArrowConversionError} (h : ownedType dataType = none) :
    .error e = Except.ok array ↔ IsColumnArray lib dataType column cells array := by
  refine iff_of_false nofun ?_
  rintro ⟨arrayType, values, htype, -⟩
  rw [h] at htype
  cases htype

theorem buildArray_isColumnArray {arrayType : ArrayType} (htype : ownedType dataType = some arrayType)
    (haccepted : structAccepted lib arrayType (cells.map Option.isSome)) :
    buildArray lib arrayType (convertOwned lib arrayType column) cells = .ok array ↔
      IsColumnArray lib dataType column cells array := by
  rw [buildArray_eq_ok]
  constructor
  · rintro ⟨hbuilds, values, hvalues, rfl⟩
    exact ⟨arrayType, values, htype, hbuilds, haccepted, hvalues, rfl⟩
  · rintro ⟨arrayType', values, htype', hbuilds, -, hvalues, rfl⟩
    rw [htype] at htype'
    cases htype'
    exact ⟨hbuilds, values, hvalues, rfl⟩

theorem buildVectorStructColumn_eq_ok :
    buildVectorStructColumn lib fields column cells = .ok array ↔
      IsColumnArray lib (.struct fields) column cells array := by
  unfold buildVectorStructColumn
  split
  · rename_i hfield
    exact error_isColumnArray (by rw [ownedType, hfield])
  · rename_i item hfield
    cases hitem : VectorItem.forItem item.dataType with
    | none => exact error_isColumnArray (by rw [ownedType, hfield]; simp [hitem])
    | some element =>
      have htype : ownedType (.struct fields) = some (.vectorStruct fields element) := by
        rw [ownedType, hfield]
        simp [hitem]
      rw [except_bind_eq_ok]
      constructor
      · rintro ⟨built, hbuilt, hcheck⟩
        obtain ⟨hbuilds, values, hvalues, rfl⟩ := buildArray_eq_ok.1 hbuilt
        split at hcheck
        · rename_i haccepted
          cases hcheck
          rw [ArrowArray.validity, forall₂_isSome hvalues] at haccepted
          exact ⟨_, values, htype, hbuilds, haccepted, hvalues, rfl⟩
        · cases hcheck
      · rintro ⟨arrayType, values, htype', hbuilds, haccepted, hvalues, rfl⟩
        rw [htype] at htype'
        cases htype'
        refine ⟨_, buildArray_eq_ok.2 ⟨hbuilds, values, hvalues, rfl⟩, ?_⟩
        rw [if_pos]
        · rfl
        · rw [ArrowArray.validity, forall₂_isSome hvalues]
          exact haccepted
  · rename_i dataType hlist hfield
    have hnone : ownedType (.struct fields) = none := by
      rw [ownedType, hfield]
      split
      · rename_i heq
        exact absurd (Option.some.inj heq) (hlist _)
      · rfl
    exact error_isColumnArray hnone

theorem buildColumnArray_eq_ok :
    buildColumnArray lib dataType column cells = .ok array ↔ IsColumnArray lib dataType column cells array := by
  cases dataType with
  | struct fields => exact buildVectorStructColumn_eq_ok
  | list item =>
    show buildVectorListColumn lib item column cells = .ok array ↔ _
    unfold buildVectorListColumn
    cases hitem : VectorItem.forItem item.dataType with
    | none => exact error_isColumnArray (by simp [ownedType, hitem])
    | some element => exact buildArray_isColumnArray (by simp [ownedType, hitem]) rfl
  | fixedSizeList item dim =>
    show buildVectorFixedSizeListColumn lib item dim column cells = .ok array ↔ _
    unfold buildVectorFixedSizeListColumn
    cases hitem : VectorItem.forItem item.dataType with
    | none => exact error_isColumnArray (by simp [ownedType, ColumnBuilder.arrayTypeFor, hitem])
    | some element => exact buildArray_isColumnArray (by simp [ownedType, ColumnBuilder.arrayTypeFor, hitem]) rfl
  | timestamp unit zone =>
    cases zone with
    | none => exact buildArray_isColumnArray (show ownedType (.timestamp unit none) =
        some (.timestamp unit) from rfl) rfl
    | some zone => exact error_isColumnArray rfl
  | interval unit =>
    cases unit with
    | monthDayNano =>
      exact buildArray_isColumnArray
        (show ownedType (.interval .monthDayNano) = some .intervalMonthDayNano from rfl) rfl
    | yearMonth | dayTime => exact error_isColumnArray rfl
  | null | utf8View | binaryView | other name => exact error_isColumnArray rfl
  | _ => exact buildArray_isColumnArray rfl rfl

/-- The cells of the rows in a column. -/
def columnCells {α : Type} (rows : List (List (Option α))) (index : Nat) : List (Option α) :=
  rows.map fun row => row[index]?.join

/-- The types and nulls of arrays. -/
def shapes (arrays : List ArrowArray) : List (ArrayType × List Bool) :=
  arrays.map fun array => (array.arrayType, array.validity)

/-- A column of a batch with the array that is built for it from owned rows. -/
def OwnedColumn (lib : Library) (columns : List ColumnMetadata) (rows : List (OwnedRow J)) (field : Field × Nat)
    (array : ArrowArray) : Prop :=
  ∃ column, columns[field.2]? = some column ∧
    IsColumnArray lib field.1.dataType column (columnCells rows field.2) array

theorem checkRowWidths_eq_ok {rows : List (OwnedRow J)} :
    checkRowWidths columns rows = .ok () ↔ ∀ row ∈ rows, row.length = columns.length := by
  unfold checkRowWidths
  split
  · rename_i hnone
    simpa using hnone
  · rename_i row hsome
    refine iff_of_false nofun fun hall => ?_
    have hwrong := List.find?_some hsome
    exact absurd (hall row (List.mem_of_find?_eq_some hsome)) (by simpa using hwrong)

theorem buildColumnAt_eq_ok {rows : List (OwnedRow J)} :
    buildColumnAt lib columns rows field = .ok array ↔ OwnedColumn lib columns rows field array := by
  unfold buildColumnAt OwnedColumn
  cases columns[field.2]? with
  | none => exact iff_of_false nofun (by rintro ⟨column, ⟨⟩, -⟩)
  | some column =>
    rw [buildColumnArray_eq_ok]
    constructor
    · exact fun h => ⟨column, rfl, h⟩
    · rintro ⟨_, ⟨⟩, h⟩
      exact h

theorem buildRecordBatchWithSchema_eq_ok {rows : List (OwnedRow J)} {batch : RecordBatch} :
    buildRecordBatchWithSchema lib schema columns rows = .ok batch ↔
      (∀ row ∈ rows, row.length = columns.length) ∧
      List.Forall₂ (OwnedColumn lib columns rows) schema.zipIdx batch.arrays ∧
      lib.accepts schema (shapes batch.arrays) ∧ batch.schema = schema := by
  have hcolumns (arrays : List ArrowArray) : schema.zipIdx.mapM (buildColumnAt lib columns rows) = .ok arrays ↔
      List.Forall₂ (OwnedColumn lib columns rows) schema.zipIdx arrays := by
    rw [mapM_eq_ok_iff]
    exact ⟨fun h => h.imp fun _ _ => buildColumnAt_eq_ok.1, fun h => h.imp fun _ _ => buildColumnAt_eq_ok.2⟩
  unfold buildRecordBatchWithSchema RecordBatch.tryNew
  constructor
  · intro h
    obtain ⟨⟨⟩, hwidths, h⟩ := except_bind_eq_ok.1 h
    obtain ⟨arrays, harrays, h⟩ := except_bind_eq_ok.1 h
    split at h
    · rename_i haccepts
      cases h
      exact ⟨checkRowWidths_eq_ok.1 hwidths, (hcolumns arrays).1 harrays, haccepts, rfl⟩
    · cases h
  · rintro ⟨hwidths, harrays, haccepts, rfl⟩
    refine except_bind_eq_ok.2 ⟨(), checkRowWidths_eq_ok.2 hwidths, ?_⟩
    refine except_bind_eq_ok.2 ⟨batch.arrays, (hcolumns _).2 harrays, ?_⟩
    exact if_pos haccepts

/-! ### From borrowed rows -/

/-- The builder of a column with the cells of the rows so far. -/
def Filled (lib : Library) (columns : List ColumnMetadata) (rows : List (List (Option (ValueRef J))))
    (field : Field × Nat) (builder : ColumnBuilder) : Prop :=
  ∃ column arrayType values, columns[field.2]? = some column ∧
    ColumnBuilder.arrayTypeFor field.1.dataType = some arrayType ∧ lib.builds arrayType ∧
    List.Forall₂ (fun cell value => cellWith (ColumnBuilder.convertRef lib arrayType column) cell = .ok value)
      (columnCells rows field.2) values ∧
    builder = ⟨arrayType, values⟩

theorem appendRef_eq_ok {builder builder' : ColumnBuilder} {cell : Option (ValueRef J)} :
    builder.appendRef lib column cell = .ok builder' ↔
      ∃ value, cellWith (ColumnBuilder.convertRef lib builder.arrayType column) cell = .ok value ∧
        builder' = { builder with values := builder.values ++ [value] } := by
  cases cell with
  | none =>
    constructor
    · rintro ⟨⟩
      exact ⟨none, rfl, rfl⟩
    · rintro ⟨_, ⟨⟩, rfl⟩
      rfl
  | some cell =>
    constructor
    · intro h
      obtain ⟨converted, hconverted, h⟩ := except_bind_eq_ok.1 h
      cases h
      exact ⟨some converted, except_map_eq_ok.2 ⟨converted, hconverted, rfl⟩, rfl⟩
    · rintro ⟨value, hvalue, rfl⟩
      obtain ⟨converted, hconverted, rfl⟩ := except_map_eq_ok.1 hvalue
      exact except_bind_eq_ok.2 ⟨converted, hconverted, rfl⟩

variable {rows : List (List (Option (ValueRef J)))} {builder : ColumnBuilder}

theorem filled_concat_iff (hcolumn : columns[field.2]? = some column) :
    Filled lib columns (rows ++ [row]) field builder ↔
      ∃ before, Filled lib columns rows field before ∧
        before.appendRef lib column row[field.2]?.join = .ok builder := by
  have hcells : columnCells (rows ++ [row]) field.2 = columnCells rows field.2 ++ [row[field.2]?.join] := by
    simp [columnCells]
  constructor
  · rintro ⟨column', arrayType, values, hcolumn', htype, hbuilds, hvalues, rfl⟩
    cases hcolumn.symm.trans hcolumn'
    rw [hcells] at hvalues
    obtain ⟨before, value, hbefore, hvalue, rfl⟩ := forall₂_concat_left_iff.1 hvalues
    exact ⟨⟨arrayType, before⟩, ⟨column, arrayType, before, hcolumn, htype, hbuilds, hbefore, rfl⟩,
      appendRef_eq_ok.2 ⟨value, hvalue, rfl⟩⟩
  · rintro ⟨_, ⟨column', arrayType, values, hcolumn', htype, hbuilds, hvalues, rfl⟩, happend⟩
    cases hcolumn.symm.trans hcolumn'
    obtain ⟨value, hvalue, rfl⟩ := appendRef_eq_ok.1 happend
    refine ⟨column, arrayType, values ++ [value], hcolumn, htype, hbuilds, ?_, rfl⟩
    rw [hcells]
    exact forall₂_concat_left_iff.2 ⟨values, value, hvalues, hvalue, rfl⟩

/-- One row: the columns from an index on. -/
theorem filled_appendCells_iff (hwidth : row.length = columns.length)
    (hlen : start + fields.length = columns.length) :
    List.Forall₂ (Filled lib columns (rows ++ [row])) (fields.zipIdx start) builders ↔
      ∃ before, List.Forall₂ (Filled lib columns rows) (fields.zipIdx start) before ∧
        ColumnarBatchBuilder.appendCells lib (columns.drop start) before (row.drop start) = .ok builders := by
  induction fields generalizing start builders with
  | nil =>
    have hrow : row.drop start = [] := List.drop_eq_nil_of_le (by rw [List.length_nil] at hlen; omega)
    simp [hrow, ColumnarBatchBuilder.appendCells, eq_comm]
  | cons field fields ih =>
    rw [List.length_cons] at hlen
    have hcolumn : start < columns.length := by omega
    have hrow : start < row.length := by omega
    have hcell : row[start]?.join = row[start] := by
      rw [List.getElem?_eq_getElem hrow]
      rfl
    rw [List.zipIdx_cons, List.drop_eq_getElem_cons hcolumn, List.drop_eq_getElem_cons hrow,
      List.forall₂_cons_left_iff]
    have hfirst (builder : ColumnBuilder) : Filled lib columns (rows ++ [row]) (field, start) builder ↔
        ∃ before, Filled lib columns rows (field, start) before ∧
          before.appendRef lib columns[start] row[start] = .ok builder :=
      hcell ▸ filled_concat_iff (List.getElem?_eq_getElem hcolumn)
    constructor
    · rintro ⟨builder, rest, hbuilder, hrest, rfl⟩
      obtain ⟨before, hbefore, happend⟩ := (hfirst builder).1 hbuilder
      obtain ⟨more, hmore, happends⟩ := (ih (by omega)).1 hrest
      exact ⟨before :: more, .cons hbefore hmore,
        except_bind_eq_ok.2 ⟨builder, happend, except_bind_eq_ok.2 ⟨rest, happends, rfl⟩⟩⟩
    · rintro ⟨_, hall, happend⟩
      obtain ⟨before, more, hbefore, hmore, rfl⟩ := List.forall₂_cons_left_iff.1 hall
      obtain ⟨builder, hbuilder, happend⟩ := except_bind_eq_ok.1 happend
      obtain ⟨rest, hrest, happend⟩ := except_bind_eq_ok.1 happend
      cases happend
      exact ⟨builder, rest, (hfirst builder).2 ⟨before, hbefore, hbuilder⟩, (ih (by omega)).2 ⟨more, hmore, hrest⟩,
        rfl⟩

theorem filled_new_iff (hlen : start + fields.length = columns.length) :
    fields.mapM (fun field => ColumnBuilder.new lib field.dataType) = some builders ↔
      List.Forall₂ (Filled lib columns ([] : List (List (Option (ValueRef J))))) (fields.zipIdx start)
        builders := by
  induction fields generalizing start builders with
  | nil => simp [eq_comm]
  | cons field fields ih =>
    rw [List.length_cons] at hlen
    have hcolumn : start < columns.length := by omega
    have hfirst (builder : ColumnBuilder) : ColumnBuilder.new lib field.dataType = some builder ↔
        Filled lib columns ([] : List (List (Option (ValueRef J)))) (field, start) builder := by
      constructor
      · intro h
        obtain ⟨arrayType, htype, h⟩ := Option.bind_eq_some_iff.1 h
        split at h
        · cases h
          exact ⟨columns[start], arrayType, [], List.getElem?_eq_getElem hcolumn, htype, ‹_›, .nil, rfl⟩
        · cases h
      · rintro ⟨column, arrayType, _, -, htype, hbuilds, ⟨⟩, rfl⟩
        exact Option.bind_eq_some_iff.2 ⟨arrayType, htype, if_pos hbuilds⟩
    simp only [List.mapM_cons, List.zipIdx_cons, List.forall₂_cons_left_iff, Option.bind_eq_bind,
      Option.bind_eq_some_iff,
      hfirst, ih (show start + 1 + fields.length = columns.length by omega), Option.pure_def, Option.some.injEq]
    grind

/-- The builders of a batch with the cells of the rows so far. -/
structure BatchFilled (lib : Library) (schema : List Field) (columns : List ColumnMetadata)
    (rows : List (List (Option (ValueRef J)))) (builder : ColumnarBatchBuilder) : Prop where
  schema_eq : builder.schema = schema
  columns_eq : builder.columns = columns
  widths : ∀ row ∈ rows, row.length = columns.length
  builders : List.Forall₂ (Filled lib columns rows) schema.zipIdx builder.builders

theorem batchFilled_concat_iff (hlen : schema.length = columns.length) {built : ColumnarBatchBuilder} :
    BatchFilled lib schema columns (rows ++ [row]) built ↔
      ∃ before, BatchFilled lib schema columns rows before ∧ before.appendRow lib row = .ok built := by
  unfold ColumnarBatchBuilder.appendRow
  constructor
  · rintro ⟨hschema, hcolumns, hwidths, hbuilders⟩
    have hwidth : row.length = columns.length := hwidths row (by simp)
    obtain ⟨before, hbefore, happend⟩ := (filled_appendCells_iff hwidth (by omega)).1 hbuilders
    refine ⟨⟨schema, columns, before⟩, ⟨rfl, rfl, fun row' hmem => hwidths row' (by simp [hmem]), hbefore⟩, ?_⟩
    rw [if_neg (not_not.2 hwidth)]
    refine except_bind_eq_ok.2 ⟨_, happend, ?_⟩
    subst hschema hcolumns
    rfl
  · rintro ⟨before, ⟨rfl, rfl, hwidths, hbuilders⟩, happend⟩
    split at happend
    · cases happend
    · rename_i hwidth
      have hwidth := not_not.1 hwidth
      obtain ⟨builders, hbuilders', happend⟩ := except_bind_eq_ok.1 happend
      cases happend
      refine ⟨rfl, rfl, ?_, (filled_appendCells_iff hwidth (by omega)).2 ⟨_, hbuilders, hbuilders'⟩⟩
      intro row' hmem
      rcases List.mem_append.1 hmem with hmem | hmem
      · exact hwidths row' hmem
      · rwa [List.mem_singleton.1 hmem]

/-- The rows go to new builders one after the other. -/
theorem batchFilled_iff (hlen : schema.length = columns.length) {built : ColumnarBatchBuilder} :
    BatchFilled lib schema columns rows built ↔ ∃ builder,
      ColumnarBatchBuilder.new lib schema columns = some builder ∧
      rows.foldlM (ColumnarBatchBuilder.appendRow lib) builder = .ok built := by
  induction rows using List.reverseRecOn generalizing built with
  | nil =>
    constructor
    · rintro ⟨rfl, rfl, -, hbuilders⟩
      exact ⟨built, Option.bind_eq_some_iff.2 ⟨_, (filled_new_iff (by omega)).2 hbuilders, rfl⟩, rfl⟩
    · rintro ⟨_, hnew, ⟨⟩⟩
      obtain ⟨builders, hbuilders, hnew⟩ := Option.bind_eq_some_iff.1 hnew
      cases hnew
      exact ⟨rfl, rfl, by simp, (filled_new_iff (by omega)).1 hbuilders⟩
  | append_singleton rows row ih =>
    rw [batchFilled_concat_iff hlen]
    simp only [ih, List.foldlM_append, List.foldlM_cons, List.foldlM_nil, bind_pure, except_bind_eq_ok]
    grind

section

variable {lib : Library} {std : StdLib} {images : ImageDecoders J Image.Vector} {pages : List (Page J)}

/-- The borrowed rows of the pages. -/
def borrowedRows (std : StdLib) (images : ImageDecoders J Image.Vector) (pages : List (Page J)) :
    Result (List (List (Option (ValueRef J)))) := do
  let rows ← pages.mapM fun page => (page.forEachRowRef std images).mapError .protocol
  return rows.flatten

theorem foldlM_pages {builder builder' : ColumnarBatchBuilder} :
    pages.foldlM (fun builder page => Prod.fst <$> builder.appendBorrowed lib std images page) builder =
      .ok builder' ↔
      ∃ rows, borrowedRows std images pages = .ok rows ∧
        rows.foldlM (ColumnarBatchBuilder.appendRow lib) builder = .ok builder' := by
  have hflat (pages : List (Page J)) (P : List (List (Option (ValueRef J))) → Prop) :
      (∃ rows, borrowedRows std images pages = .ok rows ∧ P rows) ↔
        ∃ rows,
          pages.mapM (fun page => (page.forEachRowRef std images).mapError ArrowConversionError.protocol) = .ok rows ∧
          P rows.flatten := by
    simp only [borrowedRows, except_bind_eq_ok, except_pure_eq_ok]
    grind
  rw [hflat]
  induction pages generalizing builder with
  | nil =>
    constructor
    · intro h
      exact ⟨[], rfl, h⟩
    · rintro ⟨rows, ⟨⟩, h⟩
      exact h
  | cons page pages ih =>
    rw [List.foldlM_cons, except_bind_eq_ok]
    constructor
    · rintro ⟨next, hnext, hrun⟩
      obtain ⟨⟨next', last⟩, happend, rfl⟩ := except_map_eq_ok.1 hnext
      obtain ⟨first, hfirst, happend⟩ := except_bind_eq_ok.1 happend
      obtain ⟨built, hbuilt, happend⟩ := except_bind_eq_ok.1 happend
      cases happend
      obtain ⟨rows, hrows, hrun⟩ := ih.1 hrun
      refine ⟨first :: rows, mapM_eq_ok_iff.2 (.cons hfirst (mapM_eq_ok_iff.1 hrows)), ?_⟩
      rw [List.flatten_cons, List.foldlM_append]
      exact except_bind_eq_ok.2 ⟨_, hbuilt, hrun⟩
    · rintro ⟨rows, hrows, hrun⟩
      obtain ⟨first, rest, hfirst, hrest, rfl⟩ := List.forall₂_cons_left_iff.1 (mapM_eq_ok_iff.1 hrows)
      rw [List.flatten_cons, List.foldlM_append] at hrun
      obtain ⟨next, hnext, hrun⟩ := except_bind_eq_ok.1 hrun
      have happend : builder.appendBorrowed lib std images page =
          .ok (next, first.getLast?.map fun row => row.map (Option.map QueryValueRef.toOwnedValue)) :=
        except_bind_eq_ok.2 ⟨first, hfirst, except_bind_eq_ok.2 ⟨next, hnext, rfl⟩⟩
      exact ⟨next, except_map_eq_ok.2 ⟨_, happend, rfl⟩, ih.2 ⟨rest, mapM_eq_ok_iff.2 hrest, hrun⟩⟩

/-- A column of a batch with the array that is built for it from borrowed rows. -/
def BorrowedColumn (lib : Library) (columns : List ColumnMetadata)
    (rows : List (List (Option (ValueRef J)))) (field : Field × Nat) (array : ArrowArray) : Prop :=
  Filled lib columns rows field ⟨array.arrayType, array.values⟩

theorem buildRecordBatchColumnar_eq_ok (hlen : schema.length = columns.length) {batch : RecordBatch} :
    buildRecordBatchColumnar lib std images schema columns pages = .ok batch ↔
      ∃ rows, borrowedRows std images pages = .ok rows ∧ (∀ row ∈ rows, row.length = columns.length) ∧
        List.Forall₂ (BorrowedColumn lib columns rows) schema.zipIdx batch.arrays ∧
        lib.accepts schema (shapes batch.arrays) ∧ batch.schema = schema := by
  have hshapes (builders : List ColumnBuilder) : (builders.map ColumnBuilder.finish).map
      (fun array => (array.arrayType, array.validity)) = shapes (builders.map ColumnBuilder.finish) := rfl
  unfold buildRecordBatchColumnar
  constructor
  · intro h
    cases hnew : ColumnarBatchBuilder.new lib schema columns with
    | none =>
      rw [hnew] at h
      cases h
    | some builder =>
      rw [hnew] at h
      obtain ⟨built, hbuilt, h⟩ := except_bind_eq_ok.1 h
      obtain ⟨rows, hrows, hrun⟩ := foldlM_pages.1 hbuilt
      have hfilled := (batchFilled_iff hlen).2 ⟨builder, hnew, hrun⟩
      unfold ColumnarBatchBuilder.finish RecordBatch.tryNew at h
      rw [hfilled.schema_eq, hshapes] at h
      split at h
      · rename_i haccepts
        cases h
        refine ⟨rows, hrows, hfilled.widths, ?_, haccepts, rfl⟩
        rw [List.forall₂_map_right_iff]
        exact hfilled.builders
      · cases h
  · rintro ⟨rows, hrows, hwidths, harrays, haccepts, hschema⟩
    have hfilled : BatchFilled lib schema columns rows
        ⟨schema, columns, batch.arrays.map fun array => ⟨array.arrayType, array.values⟩⟩ :=
      ⟨rfl, rfl, hwidths, List.forall₂_map_right_iff.2 harrays⟩
    obtain ⟨builder, hnew, hrun⟩ := (batchFilled_iff hlen).1 hfilled
    have hfinish : (batch.arrays.map fun array =>
      (⟨array.arrayType, array.values⟩ : ColumnBuilder)).map ColumnBuilder.finish =
        batch.arrays := by
      rw [List.map_map]
      exact List.map_id _
    rw [hnew]
    refine except_bind_eq_ok.2 ⟨_, foldlM_pages.2 ⟨rows, hrows, hrun⟩, ?_⟩
    unfold ColumnarBatchBuilder.finish RecordBatch.tryNew
    rw [hshapes, hfinish, if_pos haccepts, ← hschema]

end

end OracleThin.Arrow
