import OracleThin.Arrow.Columns

/-!
# Both ways to a record batch

The batch of the pages of a fetch, built from their borrowed rows and from their owned rows: where the pages are read
alike and the schema has no column that only the owned rows are built for, both fail or both have the same arrays.
-/

namespace OracleThin.Arrow

open Lib Wire Ttc Image

variable {J : Type}

/-! ### One column in both ways -/

section

variable {lib : Library} {columns : List ColumnMetadata} {field : Field × Nat} {array : ArrowArray}
  {rows : List (List (Option (ValueRef J)))} {owned : List (OwnedRow J)}

private theorem cellWith_columnCells (h : List.Forall₂ RowAlike rows owned) {arrayType : ArrayType}
    (hcolumnar : IsColumnar arrayType) (column : ColumnMetadata) (index : Nat) :
    (columnCells rows index).map (cellWith (ColumnBuilder.convertRef lib arrayType column)) =
      (columnCells owned index).map (cellWith (convertOwned lib arrayType column)) := by
  induction h with
  | nil => rfl
  | @cons row ownedRow rows owned hrow _ ih =>
    have hcell : Option.Rel Alike row[index]?.join ownedRow[index]?.join := by
      by_cases hindex : index < row.length
      · have hindex' := hrow.length_eq ▸ hindex
        rw [List.getElem?_eq_getElem hindex, List.getElem?_eq_getElem hindex']
        exact hrow.get hindex hindex'
      · rw [List.getElem?_eq_none (not_lt.1 hindex), List.getElem?_eq_none (hrow.length_eq ▸ not_lt.1 hindex)]
        exact .none
    have hsame : cellWith (ColumnBuilder.convertRef lib arrayType column) row[index]?.join =
        cellWith (convertOwned lib arrayType column) ownedRow[index]?.join := by
      generalize row[index]?.join = cell at hcell
      generalize ownedRow[index]?.join = ownedCell at hcell
      cases hcell with
      | none => rfl
      | some h => rw [cellWith, cellWith, convertRef_eq lib hcolumnar column h]
    simp only [columnCells, List.map_cons, hsame] at ih ⊢
    rw [ih]

/-- The arrays of a type that both ways build. -/
theorem borrowedColumn_iff (h : List.Forall₂ RowAlike rows owned)
    (hsupported : (∀ item, field.1.dataType ≠ .list item) ∧ ∀ fields, field.1.dataType ≠ .struct fields) :
    BorrowedColumn lib columns rows field array ↔ OwnedColumn lib columns owned field array := by
  have htype : ownedType field.1.dataType = ColumnBuilder.arrayTypeFor field.1.dataType := by
    generalize field.1.dataType = dataType at hsupported
    cases dataType with
    | list item => exact absurd rfl (hsupported.1 item)
    | struct fields => exact absurd rfl (hsupported.2 fields)
    | _ => rfl
  have hcells {arrayType : ArrayType} (harray : ColumnBuilder.arrayTypeFor field.1.dataType = some arrayType)
      (column : ColumnMetadata) (values : List (Option ArrowValue)) :
      List.Forall₂ (fun cell value => cellWith (ColumnBuilder.convertRef lib arrayType column) cell = .ok value)
          (columnCells rows field.2) values ↔
        List.Forall₂ (fun cell value => cellWith (convertOwned lib arrayType column) cell = .ok value)
          (columnCells owned field.2) values := by
    rw [← List.forall₂_map_left_iff (R := fun result value => result = Except.ok value),
      cellWith_columnCells h ⟨_, harray⟩ column, List.forall₂_map_left_iff]
  have haccepted {arrayType : ArrayType} (harray : ColumnBuilder.arrayTypeFor field.1.dataType = some arrayType)
      (validity : List Bool) : structAccepted lib arrayType validity = true := by
    cases arrayType with
    | vectorStruct fields item => exact absurd ⟨_, harray⟩ (not_isColumnar item fields).2
    | _ => rfl
  constructor
  · rintro ⟨column, arrayType, values, hcolumn, harray, hbuilds, hvalues, hbuilder⟩
    obtain ⟨rfl, rfl⟩ := ColumnBuilder.mk.inj hbuilder
    exact ⟨column, hcolumn, array.arrayType, array.values, htype.trans harray, hbuilds, haccepted harray _,
      (hcells harray column _).1 hvalues, rfl⟩
  · rintro ⟨column, hcolumn, arrayType, values, harray, hbuilds, -, hvalues, rfl⟩
    rw [htype] at harray
    exact ⟨column, arrayType, values, hcolumn, harray, hbuilds, (hcells harray column _).2 hvalues, rfl⟩

end

/-! ### The batches -/

theorem toOption_eq_some {α : Type} {x : Result α} {a : α} : x.toOption = some a ↔ x = .ok a := by
  cases x <;> simp [Except.toOption]

variable {lib : Library} {std : StdLib} {images : ImageDecoders J Image.Vector} {schema : List Field}
  {columns : List ColumnMetadata} {pages : List (Page J)}

private theorem columnarSupported_iff :
    columnarSupported schema = true ↔ ∀ field ∈ schema, (∀ item, field.dataType ≠ .list item) ∧
      ∀ fields, field.dataType ≠ .struct fields := by
  unfold columnarSupported
  rw [List.all_eq_true]
  refine forall₂_congr fun field _ => ?_
  cases field.dataType <;> simp

def sampleLibrary : Library where
  parseFloat32 _ := none
  parseFloat64 _ := none
  builds _ := true
  accepts _ _ := true
  acceptsStruct _ _ _ := true

def sampleStd : StdLib where
  fromUtf8Lossy _ := ""
  fromUtf16 _ := none
  trim text := text
  trimEnd text := text
  displayF64 _ := ""
  displayF32 _ := ""

def sampleImages : ImageDecoders Unit Image.Vector where
  decodeOsonWithLimits _ _ := .ok ()
  decodeVectorWithLimits bytes limits := decodeVectorWithLimits bytes limits

def numberColumn : ColumnMetadata := { name := "N", oraTypeNum := oraTypeNumNumber, bufferSize := 22 }

/-- A page with one row that has one NUMBER, given by its wire form. -/
def numberPage (wire : List UInt8) : BorrowedRowBatch Unit Image.Vector where
  buffer := UInt8.ofNat wire.length :: wire
  columns := [numberColumn]
  rowStarts := [0]
  rowBitVectors := []
  fetchLongStatus := true
  lobDecodeMode := .plainLocator
  previousRowSeed := none

def rawColumn : ColumnMetadata := { name := "R", oraTypeNum := oraTypeNumRaw, bufferSize := 22 }

section

variable {batch : Page J} {bitVector : Option (List UInt8)}

private theorem numbersAlike_cons {metadata : ColumnMetadata} {index : Nat} {columns : List (ColumnMetadata × Nat)}
    {input : List UInt8} (hsent : isDuplicateColumn bitVector index = false)
    {bytes : Option (List UInt8)} {after : List UInt8}
    (hread : TtcReader.readBytes { limits := .default } input = .ok (bytes, after))
    (hwire : IsNumberField metadata → ∀ wire ∈ bytes, WireAlike wire)
    {cell : Option (Value J)} {rest : List UInt8}
    (hcell : sentCell std images batch metadata input = .ok (cell, rest))
    (hrest : NumbersAlike std images batch bitVector columns rest) :
    NumbersAlike std images batch bitVector ((metadata, index) :: columns) input := by
  rw [NumbersAlike, hsent, if_neg nofun, hread, hcell]
  refine ⟨fun hnumber wire _ h => ?_, fun value rest h => ?_⟩
  · cases h
    exact hwire hnumber wire rfl
  · cases h
    exact hrest

end

/-- A page with the rows `1, 'a'`, then `1.5` and the same bytes again, then two NULLs. -/
def mixedPage : BorrowedRowBatch Unit Image.Vector where
  buffer := [2, 0xc1, 0x02, 1, 97, 3, 0xc1, 0x02, 51, 0, 0]
  columns := [numberColumn, rawColumn]
  rowStarts := [0, 5, 9]
  rowBitVectors := [none, some [0x01], none]
  fetchLongStatus := true
  lobDecodeMode := .plainLocator
  previousRowSeed := none

private theorem pageAlike_mixedPage : PageAlike sampleStd sampleImages mixedPage where
  numbers := by
    have hone : WireAlike [0xc1, 0x02] := by
      unfold WireAlike WrittenAlike
      decide
    have hhalf : WireAlike [0xc1, 0x02, 51] := by
      unfold WireAlike WrittenAlike
      decide
    have hrows : mixedPage.rowStarts.zipIdx = [(0, 0), (5, 1), (9, 2)] := rfl
    rw [hrows]
    rw [List.forall_mem_cons, List.forall_mem_cons, List.forall_mem_singleton]
    refine ⟨?_, ?_, ?_⟩
    · refine numbersAlike_cons rfl rfl (fun _ => ?_) rfl (numbersAlike_cons rfl rfl (fun h => ?_) rfl trivial)
      · rintro wire ⟨⟩
        exact hone
      · exact absurd h.2 (by decide)
    · refine numbersAlike_cons rfl rfl (fun _ => ?_) rfl ?_
      · rintro wire ⟨⟩
        exact hhalf
      · trivial
    · refine numbersAlike_cons rfl rfl (fun _ => ?_) rfl (numbersAlike_cons rfl rfl (fun _ => ?_) rfl trivial)
      · rintro wire ⟨⟩
      · rintro wire ⟨⟩
  seeded := by
    rintro index - h
    cases h

end OracleThin.Arrow
