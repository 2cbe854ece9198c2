import OracleThin.Wire.Packet

/-!
# Batches of rows

A load sends its rows in batches. The rows come in chunks, and no batch goes beyond the end of a chunk.
`BatchLoadState` of the direct path load walks from chunk to chunk with an offset in the chunk, `ExecutemanyManager`
has one offset into all rows and looks for the next end of a chunk. Both send the same batches.
-/

namespace OracleThin.Load

open Wire

/-! ### The direct path load -/

structure BatchLoadState where
  chunkLengths : List Nat
  batchSize : Nat
  chunkIndex : Nat := 0
  offset : Nat := 0
  messageOffset : Nat := 0
  numRows : Nat := 0
deriving DecidableEq, Repr

namespace BatchLoadState

def rowsInCurrentChunk (s : BatchLoadState) : Nat := s.chunkLengths[s.chunkIndex]?.getD 0

def calculateNumRowsInBatch (s : BatchLoadState) : BatchLoadState :=
  let rows := min (s.rowsInCurrentChunk - s.offset) s.batchSize
  { s with numRows := if rows < 2 ^ 32 then rows else 0 }

/-- The loop over the chunks behind the current one, until one has rows. -/
def advanceChunkLoop : Nat → BatchLoadState → BatchLoadState
  | 0, s => s
  | remaining + 1, s =>
    let s := { s with offset := 0, messageOffset := 0, chunkIndex := s.chunkIndex + 1 }.calculateNumRowsInBatch
    if 0 < s.numRows then s else advanceChunkLoop remaining s

def advanceChunk (s : BatchLoadState) : BatchLoadState :=
  advanceChunkLoop (s.chunkLengths.length - (s.chunkIndex + 1)) s

def advanceBatch (s : BatchLoadState) : BatchLoadState :=
  let s := { s with messageOffset := s.offset }.calculateNumRowsInBatch
  if s.numRows = 0 then s.advanceChunk else s

def new (chunkLengths : List Nat) (batchSize : Nat) : Result BatchLoadState :=
  if batchSize = 0 then .error (.ttcDecode "batch_size must be a positive integer")
  else .ok (advanceBatch { chunkLengths, batchSize })

def nextBatch (s : BatchLoadState) : BatchLoadState := { s with offset := s.offset + s.numRows }.advanceBatch

end BatchLoadState

/-! ### Many executions -/

inductive ExecutemanyManagerError
  | zeroBatchSize
  | rowCountOverflow
deriving DecidableEq, Repr

structure ExecutemanyManager where
  totalRows : Nat
  batchSize : Nat
  numRows : Nat := 0
  messageOffset : Nat := 0
  chunkEnds : List Nat
deriving DecidableEq, Repr

namespace ExecutemanyManager

def saturatingAdd (a b : Nat) : Nat := min (a + b) (2 ^ 32 - 1)

/-- The ends of the chunks, counted from the first row. -/
def endsFrom : Nat → List Nat → Except ExecutemanyManagerError (List Nat)
  | _, [] => .ok []
  | acc, len :: lengths =>
    if len < 2 ^ 32 then do
      let acc := saturatingAdd acc len
      let ends ← endsFrom acc lengths
      return acc :: ends
    else .error .rowCountOverflow

def batchLenFrom (manager : ExecutemanyManager) (offset : Nat) : Nat :=
  let remaining := manager.totalRows - offset
  let len := min remaining manager.batchSize
  match manager.chunkEnds.find? fun chunkEnd => offset < chunkEnd with
  | some nextEnd => min len (nextEnd - offset)
  | none => len

def withChunks (totalRows batchSize : Nat) (chunkLengths : List Nat) :
    Except ExecutemanyManagerError ExecutemanyManager := do
  if ¬totalRows < 2 ^ 32 then throw .rowCountOverflow
  if batchSize = 0 then throw .zeroBatchSize
  let chunkEnds ← endsFrom 0 chunkLengths
  let manager : ExecutemanyManager := { totalRows, batchSize, chunkEnds }
  return { manager with numRows := manager.batchLenFrom 0 }

def nextBatch (manager : ExecutemanyManager) : ExecutemanyManager :=
  let messageOffset := saturatingAdd manager.messageOffset manager.numRows
  { manager with messageOffset, numRows := manager.batchLenFrom messageOffset }

end ExecutemanyManager

/-! ### Runs -/

/-- The states of a run, one for each batch: it ends where a batch has no rows. -/
inductive Runs {σ : Type} (size : σ → Nat) (next : σ → σ) : σ → List σ → Prop
  | done {s : σ} (h : size s = 0) : Runs size next s []
  | step {s : σ} {rest : List σ} (h : 0 < size s) (hrest : Runs size next (next s) rest) :
      Runs size next s (s :: rest)

/-- The rows in front of a chunk. -/
def chunkStart (chunks : List Nat) (index : Nat) : Nat := (chunks.take index).sum

/-- The first row of a batch and the number of its rows. -/
def BatchLoadState.window (s : BatchLoadState) : Nat × Nat :=
  (chunkStart s.chunkLengths s.chunkIndex + s.messageOffset, s.numRows)

def ExecutemanyManager.window (manager : ExecutemanyManager) : Nat × Nat := (manager.messageOffset, manager.numRows)

/-! ### Ends of chunks -/

variable {index : Nat}

private theorem chunkStart_succ {chunks : List Nat} {length : Nat} (h : chunks[index]? = some length) :
    chunkStart chunks (index + 1) = chunkStart chunks index + length := by
  unfold chunkStart
  rw [List.take_add_one, h, List.sum_append]
  simp

private theorem chunkStart_le_sum (chunks : List Nat) (index : Nat) : chunkStart chunks index ≤ chunks.sum := by
  have hsplit : (chunks.take index).sum + (chunks.drop index).sum = chunks.sum := by
    rw [← List.sum_append, List.take_append_drop]
  unfold chunkStart
  omega

private theorem chunkStart_of_length_le {chunks : List Nat} (h : chunks.length ≤ index) :
    chunkStart chunks index = chunks.sum := by
  unfold chunkStart
  rw [List.take_of_length_le h]

private theorem chunkStart_cons_succ (length : Nat) (chunks : List Nat) (index : Nat) :
    chunkStart (length :: chunks) (index + 1) = length + chunkStart chunks index := by
  simp [chunkStart]

namespace ExecutemanyManager

/-- The ends of chunks with rows below 2^32, without saturation. -/
theorem endsFrom_eq {chunks : List Nat} {acc : Nat} (h : acc + chunks.sum < 2 ^ 32) :
    ∃ ends, endsFrom acc chunks = .ok ends ∧
      ∀ offset index length, chunks[index]? = some length → acc + chunkStart chunks index ≤ offset →
        offset < acc + chunkStart chunks index + length →
        ends.find? (fun chunkEnd => offset < chunkEnd) = some (acc + chunkStart chunks index + length) := by
  induction chunks generalizing acc with
  | nil => exact ⟨[], rfl, by simp⟩
  | cons first chunks ih =>
    rw [List.sum_cons] at h
    have hadd : saturatingAdd acc first = acc + first := by
      unfold saturatingAdd
      omega
    obtain ⟨ends, hends, hfind⟩ := ih (show acc + first + chunks.sum < 2 ^ 32 by omega)
    refine ⟨(acc + first) :: ends, ?_, ?_⟩
    · rw [endsFrom, if_pos (by omega), hadd]
      dsimp only
      rw [hends]
      rfl
    · intro offset index length hlength hlow hhigh
      cases index with
      | zero =>
        cases hlength
        have hstart : chunkStart (first :: chunks) 0 = 0 := rfl
        rw [hstart] at hlow hhigh ⊢
        exact List.find?_cons_of_pos (by simpa using hhigh)
      | succ index =>
        rw [chunkStart_cons_succ] at hlow hhigh ⊢
        have hrest := hfind offset index length hlength (by omega) (by omega)
        rw [List.find?_cons_of_neg (by simp; omega), hrest]
        congr 1
        omega

end ExecutemanyManager

/-! ### Both machines at the same row -/

section

variable {chunks : List Nat} {batchSize : Nat}

/-- The load stands at a row: in a chunk that has it, or behind the last one. -/
structure LoadAt (chunks : List Nat) (batchSize : Nat) (s : BatchLoadState) (row : Nat) : Prop where
  chunkLengths : s.chunkLengths = chunks
  batchSize_eq : s.batchSize = batchSize
  at_row : (∃ length, chunks[s.chunkIndex]? = some length ∧ s.offset < length ∧ s.messageOffset = s.offset ∧
      chunkStart chunks s.chunkIndex + s.offset = row ∧ s.numRows = min (length - s.offset) batchSize) ∨
    (row = chunks.sum ∧ s.numRows = 0)

variable {s : BatchLoadState}

namespace BatchLoadState

theorem calculateNumRowsInBatch_eq (s : BatchLoadState) (hsize : s.batchSize < 2 ^ 32) :
    s.calculateNumRowsInBatch = { s with numRows := min (s.rowsInCurrentChunk - s.offset) s.batchSize } := by
  unfold calculateNumRowsInBatch
  dsimp only
  rw [if_pos (by omega)]

variable (hpos : 0 < batchSize) (hsize : batchSize < 2 ^ 32)

include hpos hsize

theorem loadAt_advanceChunkLoop {remaining : Nat} {row : Nat} (hchunks : s.chunkLengths = chunks)
    (hbatch : s.batchSize = batchSize) (hremaining : remaining = chunks.length - (s.chunkIndex + 1))
    (hrows : s.numRows = 0) (hrow : chunkStart chunks (s.chunkIndex + 1) = row) :
    LoadAt chunks batchSize (advanceChunkLoop remaining s) row := by
  induction remaining generalizing s with
  | zero =>
    refine ⟨hchunks, hbatch, Or.inr ⟨?_, hrows⟩⟩
    rw [← hrow, chunkStart_of_length_le (by omega)]
  | succ remaining ih =>
    have hindex : s.chunkIndex + 1 < chunks.length := by omega
    have hlength : chunks[s.chunkIndex + 1]? = some chunks[s.chunkIndex + 1] := List.getElem?_eq_getElem hindex
    unfold advanceChunkLoop
    rw [calculateNumRowsInBatch_eq _ (by rw [hbatch]; exact hsize)]
    have hcurrent : rowsInCurrentChunk { s with offset := 0, messageOffset := 0, chunkIndex := s.chunkIndex + 1 } =
        chunks[s.chunkIndex + 1] := by
      unfold rowsInCurrentChunk
      rw [hchunks, hlength]
      rfl
    rw [hcurrent, hbatch, Nat.sub_zero]
    by_cases hempty : chunks[s.chunkIndex + 1] = 0
    · rw [if_neg (by simp [hempty])]
      refine ih hchunks rfl (by dsimp only; omega) (by simp [hempty]) ?_
      rw [chunkStart_succ hlength, hrow, hempty, Nat.add_zero]
    · rw [if_pos (by simp only; omega)]
      refine ⟨hchunks, rfl, Or.inl ⟨_, hlength, by dsimp only; omega, rfl, hrow, ?_⟩⟩
      simp

theorem loadAt_advanceBatch {row : Nat} (hchunks : s.chunkLengths = chunks) (hbatch : s.batchSize = batchSize)
    (hrow : (∃ length, chunks[s.chunkIndex]? = some length ∧ s.offset ≤ length ∧
        chunkStart chunks s.chunkIndex + s.offset = row) ∨
      (chunks.length ≤ s.chunkIndex ∧ row = chunks.sum)) :
    LoadAt chunks batchSize s.advanceBatch row := by
  unfold advanceBatch
  rw [calculateNumRowsInBatch_eq _ (by rw [hbatch]; exact hsize)]
  rcases hrow with ⟨length, hlength, hoffset, hrow⟩ | ⟨hbehind, hrow⟩
  · have hcurrent : rowsInCurrentChunk { s with messageOffset := s.offset } = length := by
      unfold rowsInCurrentChunk
      rw [hchunks, hlength]
      rfl
    rw [hcurrent, hbatch]
    by_cases hinside : s.offset < length
    · rw [if_neg (by simp only; omega)]
      exact ⟨hchunks, rfl, Or.inl ⟨length, hlength, hinside, rfl, hrow, rfl⟩⟩
    · -- The chunk has no more rows: the row is the first one behind it.
      rw [if_pos (by simp only; omega)]
      refine loadAt_advanceChunkLoop hpos hsize hchunks rfl (by rw [hchunks]) (by simp only; omega) ?_
      rw [chunkStart_succ hlength]
      omega
  · have hcurrent : rowsInCurrentChunk { s with messageOffset := s.offset } = 0 := by
      unfold rowsInCurrentChunk
      rw [hchunks, List.getElem?_eq_none hbehind]
      rfl
    rw [hcurrent, hbatch, if_pos (by simp)]
    refine loadAt_advanceChunkLoop hpos hsize hchunks rfl (by rw [hchunks]) (by simp) ?_
    rw [hrow, chunkStart_of_length_le (by dsimp only; omega)]

/-- One batch further. -/
theorem loadAt_nextBatch {row : Nat} (h : LoadAt chunks batchSize s row) (hne : 0 < s.numRows) :
    LoadAt chunks batchSize s.nextBatch (row + s.numRows) := by
  refine loadAt_advanceBatch hpos hsize h.chunkLengths h.batchSize_eq ?_
  rcases h.at_row with ⟨length, hlength, hoffset, -, hrow, hrows⟩ | ⟨hrow, hrows⟩
  · refine Or.inl ⟨length, hlength, ?_, ?_⟩
    · dsimp only
      omega
    · dsimp only
      omega
  · omega

end BatchLoadState

/-- The manager stands at a row. -/
structure ManagerAt (chunks : List Nat) (batchSize : Nat) (manager : ExecutemanyManager) (row : Nat) : Prop where
  totalRows : manager.totalRows = chunks.sum
  batchSize_eq : manager.batchSize = batchSize
  chunkEnds : ∀ offset index length, chunks[index]? = some length → chunkStart chunks index ≤ offset →
    offset < chunkStart chunks index + length →
    manager.chunkEnds.find? (fun chunkEnd => offset < chunkEnd) = some (chunkStart chunks index + length)
  messageOffset : manager.messageOffset = row
  numRows : manager.numRows = manager.batchLenFrom row

namespace ManagerAt

variable {manager : ExecutemanyManager} {row : Nat} (h : ManagerAt chunks batchSize manager row)

include h

/-- In a chunk the next end is the one of the chunk. -/
theorem numRows_of_inside {length offset : Nat} (hlength : chunks[index]? = some length) (hoffset : offset < length)
    (hrow : chunkStart chunks index + offset = row) : manager.numRows = min (length - offset) batchSize := by
  have hend := h.chunkEnds row index length hlength (by omega) (by omega)
  have htotal := chunkStart_le_sum chunks (index + 1)
  rw [chunkStart_succ hlength] at htotal
  rw [h.numRows, ExecutemanyManager.batchLenFrom, hend, h.totalRows, h.batchSize_eq]
  dsimp only
  omega

theorem numRows_of_end (hrow : row = chunks.sum) : manager.numRows = 0 := by
  rw [h.numRows, ExecutemanyManager.batchLenFrom, h.totalRows, hrow]
  split <;> omega

theorem nextBatch (hrow : row + manager.numRows < 2 ^ 32) :
    ManagerAt chunks batchSize manager.nextBatch (row + manager.numRows) := by
  have hadd : ExecutemanyManager.saturatingAdd manager.messageOffset manager.numRows = row + manager.numRows := by
    rw [h.messageOffset]
    unfold ExecutemanyManager.saturatingAdd
    omega
  unfold ExecutemanyManager.nextBatch
  rw [hadd]
  exact ⟨h.totalRows, h.batchSize_eq, h.chunkEnds, rfl, rfl⟩

end ManagerAt

/-- The rows of batches, one after the other. -/
def windowRows (windows : List (Nat × Nat)) : List Nat := windows.flatMap fun window => List.range' window.1 window.2

/-- A batch with rows, within a chunk. -/
structure BatchLoadState.Proper (chunks : List Nat) (batchSize : Nat) (s : BatchLoadState) : Prop where
  numRows_pos : 0 < s.numRows
  numRows_le : s.numRows ≤ batchSize
  within : ∃ length, chunks[s.chunkIndex]? = some length ∧ s.messageOffset + s.numRows ≤ length

/-- From the same row on both machines send the same batches, up to the last row. -/
theorem runs_agree (htotal : chunks.sum < 2 ^ 32) (hpos : 0 < batchSize) (hsize : batchSize < 2 ^ 32)
    {manager : ExecutemanyManager} {row : Nat} (hload : LoadAt chunks batchSize s row)
    (hmanager : ManagerAt chunks batchSize manager row) :
    ∃ loads managed, Runs BatchLoadState.numRows BatchLoadState.nextBatch s loads ∧
      Runs ExecutemanyManager.numRows ExecutemanyManager.nextBatch manager managed ∧
      loads.map BatchLoadState.window = managed.map ExecutemanyManager.window ∧
      (∀ load ∈ loads, load.Proper chunks batchSize) ∧
      windowRows (loads.map BatchLoadState.window) = List.range' row (chunks.sum - row) := by
  induction hrest : chunks.sum - row using Nat.strong_induction_on generalizing s manager row with
  | _ rest ih =>
    rcases hload.at_row with ⟨length, hlength, hoffset, hmessage, hrow, hrows⟩ | ⟨hrow, hrows⟩
    · have hmanaged := hmanager.numRows_of_inside hlength hoffset hrow
      have hend := chunkStart_le_sum chunks (s.chunkIndex + 1)
      rw [chunkStart_succ hlength] at hend
      have hne : 0 < s.numRows := by omega
      have hload' := BatchLoadState.loadAt_nextBatch hpos hsize hload hne
      have hmanager' := hmanager.nextBatch (by omega)
      rw [hmanaged, ← hrows] at hmanager'
      obtain ⟨loads, managed, hloads, hmanageds, hwindows, hproper, hall⟩ :=
        ih (chunks.sum - (row + s.numRows)) (by omega) hload' hmanager' rfl
      have hwindow : s.window = manager.window := by
        unfold BatchLoadState.window ExecutemanyManager.window
        rw [hload.chunkLengths, hmessage, hrow, hmanager.messageOffset, hmanaged, hrows]
      refine ⟨s :: loads, manager :: managed, .step hne hloads, .step (by omega) hmanageds, ?_, ?_, ?_⟩
      · rw [List.map_cons, List.map_cons, hwindow, hwindows]
      · intro load hmem
        rcases List.mem_cons.1 hmem with rfl | hmem
        · exact ⟨hne, by omega, length, hlength, by omega⟩
        · exact hproper load hmem
      · have hfirst : s.window = (row, s.numRows) := by
          unfold BatchLoadState.window
          rw [hload.chunkLengths, hmessage, hrow]
        have hcount : rest = s.numRows + (chunks.sum - (row + s.numRows)) := by omega
        unfold windowRows at hall ⊢
        rw [List.map_cons, List.flatMap_cons, hall, hfirst, hcount]
        rw [List.range'_append_1]
    · refine ⟨[], [], .done hrows, .done (hmanager.numRows_of_end hrow), rfl, by simp, ?_⟩
      have hnone : rest = 0 := by omega
      rw [hnone]
      rfl

end

/-- Both machines send the same batches: each has rows, at most as many as a batch may have, and stays within a chunk,
and the batches have every row once and in order. -/
theorem schedulers_agree {chunks : List Nat} {batchSize : Nat} (htotal : chunks.sum < 2 ^ 32) (hpos : 0 < batchSize)
    (hsize : batchSize < 2 ^ 32) :
    ∃ load manager loads managed, BatchLoadState.new chunks batchSize = .ok load ∧
      ExecutemanyManager.withChunks chunks.sum batchSize chunks = .ok manager ∧
      Runs BatchLoadState.numRows BatchLoadState.nextBatch load loads ∧
      Runs ExecutemanyManager.numRows ExecutemanyManager.nextBatch manager managed ∧
      loads.map BatchLoadState.window = managed.map ExecutemanyManager.window ∧
      (∀ load ∈ loads, load.Proper chunks batchSize) ∧
      windowRows (loads.map BatchLoadState.window) = List.range chunks.sum := by
  obtain ⟨ends, hends, hfind⟩ := ExecutemanyManager.endsFrom_eq (show 0 + chunks.sum < 2 ^ 32 by omega)
  have hload : LoadAt chunks batchSize (BatchLoadState.advanceBatch ⟨chunks, batchSize, 0, 0, 0, 0⟩) 0 := by
    refine BatchLoadState.loadAt_advanceBatch hpos hsize rfl rfl ?_
    cases chunks with
    | nil => exact Or.inr ⟨le_rfl, rfl⟩
    | cons length chunks => exact Or.inl ⟨length, rfl, Nat.zero_le _, rfl⟩
  have hnew :
      BatchLoadState.new chunks batchSize = .ok (BatchLoadState.advanceBatch ⟨chunks, batchSize, 0, 0, 0, 0⟩) := by
    rw [BatchLoadState.new, if_neg (by omega)]
  have hwith : ∃ manager, ExecutemanyManager.withChunks chunks.sum batchSize chunks = .ok manager ∧
      ManagerAt chunks batchSize manager 0 := by
    unfold ExecutemanyManager.withChunks
    rw [if_neg (not_not.2 htotal), if_neg (by omega), hends]
    refine ⟨_, rfl, rfl, rfl, ?_, rfl, rfl⟩
    intro offset index length hlength hlow hhigh
    have h := hfind offset index length hlength (by omega) (by omega)
    rwa [Nat.zero_add] at h
  obtain ⟨manager, hmanager, hat⟩ := hwith
  obtain ⟨loads, managed, hloads, hmanaged, hwindows, hproper, hrows⟩ := runs_agree htotal hpos hsize hload hat
  rw [Nat.sub_zero, ← List.range_eq_range'] at hrows
  exact ⟨_, manager, loads, managed, hnew, hmanager, hloads, hmanaged, hwindows, hproper, hrows⟩

theorem schedulers_agree_emptyChunks :
    [0, 3, 0, 0, 5, 0].sum < 2 ^ 32 ∧ 0 < 2 ∧ 2 < 2 ^ 32 ∧
    ∃ load manager loads managed, BatchLoadState.new [0, 3, 0, 0, 5, 0] 2 = .ok load ∧
      ExecutemanyManager.withChunks [0, 3, 0, 0, 5, 0].sum 2 [0, 3, 0, 0, 5, 0] = .ok manager ∧
      Runs BatchLoadState.numRows BatchLoadState.nextBatch load loads ∧
      Runs ExecutemanyManager.numRows ExecutemanyManager.nextBatch manager managed ∧
      loads.map BatchLoadState.window = managed.map ExecutemanyManager.window ∧
      (∀ load ∈ loads, load.Proper [0, 3, 0, 0, 5, 0] 2) ∧
      windowRows (loads.map BatchLoadState.window) = List.range [0, 3, 0, 0, 5, 0].sum :=
  ⟨by decide, by decide, by decide, schedulers_agree (by decide) (by decide) (by decide)⟩

end OracleThin.Load
