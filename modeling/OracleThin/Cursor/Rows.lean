import OracleThin.Ttc.Query

/-!
# The lazy result set

`Rows` holds the last page of a query and fetches the following ones on demand. `collect` gathers all the rows, and
the look-ahead of `materializeForCardinality` fetches until `one` and `opt` can tell how many rows there are. The
answers of the server are a list; a function that waits for an answer beyond the list, or that still loops when the
fuel is used up, has not ended (`none`).
-/

namespace OracleThin.Cursor

open Ttc

variable {J V ε : Type}

/-! ### The facade -/

/-- One owned query row. -/
structure OwnedRow (J V : Type) where
  columns : List ColumnMetadata
  values : Row J V

structure Rows (J V : Type) where
  columns : List ColumnMetadata
  batch : List (OwnedRow J V)
  previousRow : Option (Row J V)
  cursorId : Nat
  moreRows : Bool
  /-- The cursors given back to the connection, and those it was told to close. -/
  released : List Nat := []
  closed : List Nat := []

inductive RowsError (ε : Type)
  | tooManyRows
  | noRows
  | connection (error : ε)

/-- How the attempt to fetch a page ends. -/
inductive Fetch (J V ε : Type)
  | page (result : QueryResult J V)
  | failed (error : ε)
  | cancelled (error : ε)
  | expiredBeforeStart (error : ε)
  | expiredInFlight (error : ε)

namespace Rows

def fromResult (result : QueryResult J V) : Rows J V :=
  let batch := result.rows.map (OwnedRow.mk result.columns)
  { columns := result.columns, batch, previousRow := batch.getLast?.map (·.values), cursorId := result.cursorId,
    moreRows := result.moreRows }

variable (self : Rows J V)

def applyResult (result : QueryResult J V) : Rows J V :=
  let columns := if result.columns.isEmpty then self.columns else result.columns
  let batch := result.rows.map (OwnedRow.mk columns)
  { self with
    cursorId := if result.cursorId ≠ 0 then result.cursorId else self.cursorId
    columns, moreRows := result.moreRows, batch
    previousRow := (batch.getLast?.map (·.values)).or self.previousRow }

def releaseCursor : Rows J V :=
  if self.cursorId = 0 then self
  else { self with released := self.released ++ [self.cursorId], cursorId := 0, moreRows := false }

def closeCursor : Rows J V :=
  if self.cursorId = 0 then self
  else { self with closed := self.closed ++ [self.cursorId], cursorId := 0, moreRows := false }

def nextBatch (answers : List (Fetch J V ε)) :
    Option (Except (RowsError ε) Bool × List (Fetch J V ε) × Rows J V) :=
  if !self.moreRows || self.cursorId = 0 then some (.ok false, answers, self.releaseCursor)
  else match answers with
    | [] => none
    | .page result :: answers =>
      let self := self.applyResult result
      let batchAvailable := !self.batch.isEmpty || self.moreRows
      some (.ok batchAvailable, answers, if self.moreRows then self else self.releaseCursor)
    | .failed error :: answers => some (.error (.connection error), answers, self.closeCursor)
    | .cancelled error :: answers => some (.error (.connection error), answers, self)
    | .expiredBeforeStart error :: answers => some (.error (.connection error), answers, self.releaseCursor)
    | .expiredInFlight error :: answers => some (.error (.connection error), answers, self.closeCursor)

/-- The loop of `collect`, with the rows so far. -/
def collectLoop : Nat → List (Fetch J V ε) → Rows J V → List (OwnedRow J V) →
    Option (Except (RowsError ε) (List (OwnedRow J V)))
  | 0, _, _, _ => none
  | fuel + 1, answers, self, rows =>
    if self.moreRows then
      match self.nextBatch answers with
      | none => none
      | some (.error error, _) => some (.error error)
      | some (.ok _, answers, self) => collectLoop fuel answers { self with batch := [] } (rows ++ self.batch)
    else some (.ok rows)

def collect (fuel : Nat) (answers : List (Fetch J V ε)) : Option (Except (RowsError ε) (List (OwnedRow J V))) :=
  collectLoop fuel answers { self with batch := [] } self.batch

/-- The loop of `materializeForCardinality`, with the rows that are held. -/
def materializeLoop : Nat → List (Fetch J V ε) → List (OwnedRow J V) → Rows J V →
    Option (Except (RowsError ε) (List (OwnedRow J V) × Rows J V))
  | 0, _, _, _ => none
  | fuel + 1, answers, held, self =>
    if held.length + self.batch.length < 2 ∧ self.moreRows ∧ self.cursorId ≠ 0 then
      match self.nextBatch answers with
      | none => none
      | some (.error error, _) => some (.error error)
      | some (.ok _, answers, next) => materializeLoop fuel answers (held ++ self.batch.getLast?.toList) next
    else some (.ok (held, self))

def materializeForCardinality (fuel : Nat) (answers : List (Fetch J V ε)) :
    Option (Except (RowsError ε) (Rows J V)) :=
  (materializeLoop fuel answers [] self).map fun result => result.map fun (held, self) =>
    if held.isEmpty then self else { self with batch := held ++ self.batch }

def one : Except (RowsError ε) (OwnedRow J V) :=
  if self.moreRows || self.batch.length > 1 then .error .tooManyRows
  else match self.batch.getLast? with
    | some row => .ok row
    | none => .error .noRows

def opt : Except (RowsError ε) (Option (OwnedRow J V)) :=
  if self.moreRows || self.batch.length > 1 then .error .tooManyRows else .ok self.batch.getLast?

end Rows

/-! ### Pages -/

/-- The pages are those of a server that has more rows after each of them but the last. -/
def EndOfData : List (QueryResult J V) → Prop
  | [] => False
  | [page] => page.moreRows = false
  | page :: pages => page.moreRows = true ∧ EndOfData pages

/-- The rows of pages, each under the columns that were described last. -/
def pageRows (columns : List ColumnMetadata) : List (QueryResult J V) → List (OwnedRow J V)
  | [] => []
  | page :: pages =>
    let columns := if page.columns.isEmpty then columns else page.columns
    page.rows.map (OwnedRow.mk columns) ++ pageRows columns pages

/-- All the rows of a result set: those of the first response and, if it announces more, those of the pages after
it. -/
def allRows (first : QueryResult J V) (pages : List (QueryResult J V)) : List (OwnedRow J V) :=
  first.rows.map (OwnedRow.mk first.columns) ++ if first.moreRows then pageRows first.columns pages else []

section

variable {self : Rows J V} {pages : List (QueryResult J V)}

/-- A page is the next batch, and the cursor stays open as long as there are more rows. -/
private theorem nextBatch_page (page : QueryResult J V) (pages : List (QueryResult J V))
    (hmore : self.moreRows = true)
    (hid : self.cursorId ≠ 0) : ∃ available next, self.nextBatch (ε := ε) ((page :: pages).map .page) =
        some (.ok available, pages.map .page, next) ∧ next.moreRows = page.moreRows ∧
      next.columns = (if page.columns.isEmpty then self.columns else page.columns) ∧
      next.batch = page.rows.map (OwnedRow.mk next.columns) ∧ (page.moreRows = true → next.cursorId ≠ 0) := by
  have hid' : (self.applyResult page).cursorId ≠ 0 := by
    simp only [Rows.applyResult]
    split <;> assumption
  simp only [Rows.nextBatch, hmore, hid, decide_false, Bool.not_true, Bool.or_self, Bool.false_eq_true, if_false,
    List.map_cons]
  refine ⟨_, _, rfl, ?_⟩
  split
  · exact ⟨rfl, rfl, rfl, fun _ => hid'⟩
  · rename_i h
    have hpage : page.moreRows = false := Bool.eq_false_iff.2 h
    simp only [Rows.releaseCursor, if_neg hid', hpage]
    exact ⟨trivial, rfl, rfl, nofun⟩

private theorem collectLoop_pages (hpages : EndOfData pages) (hmore : self.moreRows = true) (hid : self.cursorId ≠ 0)
    (rows : List (OwnedRow J V)) : Rows.collectLoop (ε := ε) (pages.length + 1) (pages.map .page) self rows =
      some (.ok (rows ++ pageRows self.columns pages)) := by
  induction pages generalizing self rows with
  | nil => exact hpages.elim
  | cons page pages ih =>
    obtain ⟨_, next, hnext, hmore', hcolumns, hbatch, hid'⟩ := nextBatch_page (ε := ε) page pages hmore hid
    rw [Rows.collectLoop, if_pos hmore, hnext]
    dsimp only
    rw [hbatch]
    have hrows : pageRows self.columns (page :: pages) =
        page.rows.map (OwnedRow.mk next.columns) ++ pageRows next.columns pages := by rw [hcolumns]; rfl
    rw [hrows, ← List.append_assoc]
    cases pages with
    | nil =>
      have hlast : next.moreRows = false := hmore'.trans hpages
      simp [Rows.collectLoop, hlast, pageRows]
    | cons page' pages =>
      refine ih hpages.2 ?_ ?_ _
      · exact hmore'.trans hpages.1
      · exact hid' hpages.1

/-- The look-ahead ends with all the rows, or with two of at least two rows. -/
private theorem materializeLoop_pages (self : Rows J V) (pages : List (QueryResult J V))
    (hpages : self.moreRows = true → self.cursorId ≠ 0 ∧ EndOfData pages) (held : List (OwnedRow J V)) :
    ∃ fuel held' self',
      Rows.materializeLoop (ε := ε) fuel (pages.map .page) held self = some (.ok (held', self')) ∧
      (self'.moreRows = false ∧
          held' ++ self'.batch = held ++ self.batch ++ (if self.moreRows then pageRows self.columns pages else []) ∨
        2 ≤ (held' ++ self'.batch).length ∧
          2 ≤ (held ++ self.batch ++ if self.moreRows then pageRows self.columns pages else []).length) := by
  induction pages generalizing self held with
  | nil =>
    have hmore : self.moreRows = false := Bool.eq_false_iff.2 fun h => (hpages h).2
    exact ⟨1, held, self, by simp [Rows.materializeLoop, hmore], Or.inl ⟨hmore, by simp [hmore]⟩⟩
  | cons page pages ih =>
    by_cases hmore : self.moreRows = true
    · obtain ⟨hid, hend⟩ := hpages hmore
      by_cases hfew : held.length + self.batch.length < 2
      · obtain ⟨_, next, hnext, hmore', hcolumns, hbatch, hid'⟩ := nextBatch_page (ε := ε) page pages hmore hid
        have hlast : self.batch.getLast?.toList = self.batch := by
          match hb : self.batch with
          | [] | [_] => rfl
          | _ :: _ :: _ => rw [hb] at hfew; simp only [List.length_cons] at hfew; omega
        have hends : next.moreRows = true → next.cursorId ≠ 0 ∧ EndOfData pages := by
          intro h
          rw [hmore'] at h
          cases pages with
          | nil => rw [EndOfData, h] at hend; cases hend
          | cons page' pages => exact ⟨hid' h, hend.2⟩
        obtain ⟨fuel, held', self', hloop, hresult⟩ := ih next hends (held ++ self.batch)
        refine ⟨fuel + 1, held', self', ?_, ?_⟩
        · rw [Rows.materializeLoop, if_pos ⟨hfew, hmore, hid⟩, hnext, hlast]
          exact hloop
        · have hrows : next.batch ++ (if next.moreRows then pageRows next.columns pages else []) =
              pageRows self.columns (page :: pages) := by
            rw [hbatch, pageRows, ← hcolumns]
            cases hm : next.moreRows with
            | true => rfl
            | false =>
              cases pages with
              | nil => rfl
              | cons page' pages => exact absurd (hm.symm.trans (hmore'.trans hend.1)) nofun
          rw [List.append_assoc, hrows] at hresult
          rwa [if_pos hmore]
      · refine ⟨1, held, self, by rw [Rows.materializeLoop, if_neg fun h => hfew h.1], Or.inr ?_⟩
        simp only [List.length_append]
        omega
    · have hmore : self.moreRows = false := Bool.eq_false_iff.2 hmore
      exact ⟨1, held, self, by simp [Rows.materializeLoop, hmore], Or.inl ⟨hmore, by simp [hmore]⟩⟩

/-- A result set with more rows but without a cursor is asked again and again. -/
private theorem collectLoop_no_cursor (hmore : self.moreRows = true) (hid : self.cursorId = 0) (fuel : Nat)
    (answers : List (Fetch J V ε)) (rows : List (OwnedRow J V)) : Rows.collectLoop fuel answers self rows = none := by
  induction fuel generalizing self rows with
  | zero => rfl
  | succ fuel ih =>
    have hnext : self.nextBatch answers = some (.ok false, answers, self) := by
      simp [Rows.nextBatch, hid, Rows.releaseCursor]
    rw [Rows.collectLoop, if_pos hmore, hnext]
    refine ih ?_ ?_ _
    · exact hmore
    · exact hid

variable {total : List (OwnedRow J V)}

private theorem one_opt_eq
    (h : self.moreRows = false ∧ self.batch = total ∨ 2 ≤ self.batch.length ∧ 2 ≤ total.length) :
    (∀ row, self.one (ε := ε) = .ok row ↔ total = [row]) ∧
    (self.one (ε := ε) = .error .tooManyRows ↔ 2 ≤ total.length) ∧
    (∀ row, self.opt (ε := ε) = .ok row ↔ total = row.toList) ∧
    (self.opt (ε := ε) = .error .tooManyRows ↔ 2 ≤ total.length) := by
  unfold Rows.one Rows.opt
  rcases h with ⟨hmore, hbatch⟩ | ⟨hbatch, htotal⟩
  · rw [hmore, hbatch]
    match total with
    | [] | [_] | _ :: _ :: _ =>
      refine ⟨by simp, by simp, fun row => ?_, by simp⟩
      cases row <;> simp
  · have hmany : self.moreRows || decide (self.batch.length > 1) := by simp; omega
    rw [if_pos hmany, if_pos hmany]
    refine ⟨fun row => iff_of_false nofun ?_, iff_of_true rfl htotal, fun row => iff_of_false nofun ?_,
      iff_of_true rfl htotal⟩
    · rintro rfl; simp at htotal
    · rintro rfl; cases row <;> simp at htotal

end

/-- With any first response and any pages up to the end of data, `collect` ends with all the rows, and after the
look-ahead `one` and `opt` tell one row, none and more than one apart: unless the first response announces more rows
and has no cursor. -/
theorem rows_counted_iff (first : QueryResult J V) (pages : List (QueryResult J V)) (hpages : EndOfData pages) :
    ((∃ fuel, (Rows.fromResult first).collect (ε := ε) fuel (pages.map .page) = some (.ok (allRows first pages))) ∧
      ∃ fuel ready,
        (Rows.fromResult first).materializeForCardinality (ε := ε) fuel (pages.map .page) = some (.ok ready) ∧
        (∀ row, ready.one (ε := ε) = .ok row ↔ allRows first pages = [row]) ∧
        (ready.one (ε := ε) = .error .tooManyRows ↔ 2 ≤ (allRows first pages).length) ∧
        (∀ row, ready.opt (ε := ε) = .ok row ↔ allRows first pages = row.toList) ∧
        (ready.opt (ε := ε) = .error .tooManyRows ↔ 2 ≤ (allRows first pages).length)) ↔
    (first.moreRows = true → first.cursorId ≠ 0) := by
  constructor
  · rintro ⟨⟨fuel, hcollect⟩, -⟩ hmore hid
    rw [Rows.collect, collectLoop_no_cursor hmore hid] at hcollect
    cases hcollect
  · intro hcursor
    constructor
    · cases hmore : first.moreRows with
      | false => exact ⟨1, by simp [Rows.collect, Rows.collectLoop, Rows.fromResult, allRows, hmore]⟩
      | true =>
        refine ⟨pages.length + 1, ?_⟩
        rw [Rows.collect, collectLoop_pages hpages hmore (hcursor hmore), allRows, if_pos hmore]
        rfl
    · obtain ⟨fuel, held, self, hloop, hresult⟩ := materializeLoop_pages (ε := ε) (Rows.fromResult first) pages
        (fun hmore => ⟨hcursor hmore, hpages⟩) []
      refine ⟨fuel, if held.isEmpty then self else { self with batch := held ++ self.batch }, ?_, one_opt_eq ?_⟩
      · rw [Rows.materializeForCardinality, hloop]
        rfl
      · cases held with
        | nil => exact hresult
        | cons => exact hresult

/-- A single row without columns, and what follows it: an empty page and the end of data. -/
def singleRow (cursorId : Nat) : QueryResult Unit Unit := { rows := [[]], moreRows := true, cursorId }

def emptyPages : List (QueryResult Unit Unit) := [{ moreRows := true }, { moreRows := false }]

theorem rows_counted_singleRow : EndOfData emptyPages ∧
    ∃ fuel, (Rows.fromResult (singleRow 7)).collect (ε := Unit) fuel (emptyPages.map .page) = some (.ok [⟨[], []⟩]) :=
  ⟨⟨rfl, rfl⟩, ((rows_counted_iff (singleRow 7) emptyPages ⟨rfl, rfl⟩).2 fun _ => by decide).1⟩

/-- Without a cursor `collect` never ends, and the only row is taken for too many. -/
theorem rows_not_counted_no_cursor : EndOfData emptyPages ∧ (allRows (singleRow 0) emptyPages).length = 1 ∧
    (∀ fuel, (Rows.fromResult (singleRow 0)).collect (ε := Unit) fuel (emptyPages.map .page) = none) ∧
    ∀ fuel ready, (Rows.fromResult (singleRow 0)).materializeForCardinality (ε := Unit) fuel (emptyPages.map .page) =
      some (.ok ready) → ready.one (ε := Unit) = .error .tooManyRows := by
  refine ⟨⟨rfl, rfl⟩, rfl, fun fuel => collectLoop_no_cursor rfl rfl fuel _ _, fun fuel ready h => ?_⟩
  cases fuel with
  | zero => cases h
  | succ fuel => cases h; rfl

end OracleThin.Cursor
