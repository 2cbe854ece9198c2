import Mathlib

/-!
# Bytes in network order and lists cut into chunks

`toBe width n` writes a number with a fixed number of bytes, most significant first, and `ofBe` reads such a number
back. `chunks size xs` cuts a list into pieces of `size` elements, the last one possibly shorter.
-/

namespace Lib

/-! ### Network order -/

/-- The number that a list of bytes stands for, most significant byte first. -/
def ofBe (bytes : List UInt8) : Nat := bytes.foldl (fun n byte => 256 * n + byte.toNat) 0

/-- The lowest `width` bytes of a number, most significant byte first. -/
def toBe : Nat → Nat → List UInt8
  | 0, _ => []
  | width + 1, n => toBe width (n / 256) ++ [UInt8.ofNat n]

@[simp] theorem ofBe_nil : ofBe [] = 0 := rfl

theorem ofBe_append_singleton (bytes : List UInt8) (byte : UInt8) :
    ofBe (bytes ++ [byte]) = 256 * ofBe bytes + byte.toNat := by
  simp [ofBe]

theorem ofBe_lt (bytes : List UInt8) : ofBe bytes < 256 ^ bytes.length := by
  induction bytes using List.reverseRecOn with
  | nil => simp
  | append_singleton bytes byte ih =>
    have hbyte := byte.toNat_lt
    rw [ofBe_append_singleton, List.length_append, List.length_singleton, pow_succ]
    omega

@[simp] theorem length_toBe (width n : Nat) : (toBe width n).length = width := by
  induction width generalizing n with
  | zero => rfl
  | succ width ih => simp [toBe, ih]

theorem ofBe_toBe (width n : Nat) : ofBe (toBe width n) = n % 256 ^ width := by
  induction width generalizing n with
  | zero => simp [toBe, Nat.mod_one]
  | succ width ih =>
    have hbyte : (UInt8.ofNat n).toNat = n % 256 := by simp
    rw [toBe, ofBe_append_singleton, ih, hbyte, pow_succ', Nat.mod_mul, Nat.add_comm]

theorem ofBe_toBe_of_lt {width n : Nat} (h : n < 256 ^ width) : ofBe (toBe width n) = n := by
  rw [ofBe_toBe, Nat.mod_eq_of_lt h]

/-! ### Chunks -/

variable {α : Type*}

/-- Cuts a list into pieces of `size` elements; `fuel` bounds the number of pieces. -/
def chunksAux (size : Nat) : Nat → List α → List (List α)
  | 0, _ => []
  | _ + 1, [] => []
  | fuel + 1, x :: xs => (x :: xs).take size :: chunksAux size fuel ((x :: xs).drop size)

/-- Cuts a list into pieces of `size` elements, the last one possibly shorter. -/
def chunks (size : Nat) (xs : List α) : List (List α) := chunksAux size xs.length xs

variable {size : Nat}

theorem flatten_chunksAux (hsize : 0 < size) {fuel : Nat} {xs : List α} (h : xs.length ≤ fuel) :
    (chunksAux size fuel xs).flatten = xs := by
  induction fuel generalizing xs with
  | zero => simp [chunksAux, List.eq_nil_of_length_eq_zero (Nat.le_zero.1 h)]
  | succ fuel ih =>
    cases xs with
    | nil => rfl
    | cons x xs =>
      have hdrop : ((x :: xs).drop size).length ≤ fuel := by
        rw [List.length_drop]
        omega
      rw [chunksAux, List.flatten_cons, ih hdrop, List.take_append_drop]

/-- Every piece but the last has the full size. -/
theorem length_eq_of_mem_dropLast_chunksAux {fuel : Nat} {xs piece : List α}
    (h : piece ∈ (chunksAux size fuel xs).dropLast) : piece.length = size := by
  induction fuel generalizing xs with
  | zero => simp [chunksAux] at h
  | succ fuel ih =>
    cases xs with
    | nil => simp [chunksAux] at h
    | cons x xs =>
      rw [chunksAux] at h
      cases hrest : chunksAux size fuel ((x :: xs).drop size) with
      | nil => simp [hrest] at h
      | cons p ps =>
        -- There is a further piece, so the list goes on after this one.
        have hlong : size < (x :: xs).length := by
          by_contra hle
          rw [List.drop_eq_nil_of_le (by omega)] at hrest
          cases fuel <;> simp [chunksAux] at hrest
        rw [hrest, List.dropLast_cons_of_ne_nil (by simp), List.mem_cons, ← hrest] at h
        rcases h with rfl | h
        · rw [List.length_take]
          omega
        · exact ih h

theorem chunks_ne_nil (size : Nat) {xs : List α} (h : xs ≠ []) : chunks size xs ≠ [] := by
  cases xs with
  | nil => exact absurd rfl h
  | cons x xs => simp [chunks, chunksAux]

/-! ### The library's chunks -/

/-- The pieces that the loop of `toChunks` adds to those it has, with the piece it is filling. -/
private theorem toChunks_go_spec (xs : List α) (acc₁ : Array α) (acc₂ : Array (List α)) (hpos : 0 < acc₁.size)
    (hle : acc₁.size ≤ size) :
    ∃ pieces, List.toChunks.go size xs acc₁ acc₂ = acc₂.toList ++ pieces ∧ pieces.flatten = acc₁.toList ++ xs ∧
      (∀ piece ∈ pieces, piece ≠ [] ∧ piece.length ≤ size) ∧
      pieces.length = (acc₁.size + xs.length + (size - 1)) / size := by
  have hne : acc₁.toList ≠ [] := by
    intro h
    rw [← Array.length_toList, h] at hpos
    exact absurd hpos (Nat.lt_irrefl 0)
  induction xs generalizing acc₁ acc₂ with
  | nil =>
    refine ⟨[acc₁.toList], by simp [List.toChunks.go], by simp, ?_, ?_⟩
    · intro piece hpiece
      rw [List.mem_singleton.1 hpiece]
      exact ⟨hne, by simpa using hle⟩
    · rw [List.length_singleton, List.length_nil]
      exact (Nat.div_eq_of_lt_le (by omega) (by omega)).symm
  | cons x xs ih =>
    by_cases hfull : acc₁.size = size
    · obtain ⟨pieces, hgo, hflat, hmem, hlen⟩ :=
        ih #[x] (acc₂.push acc₁.toList) (by simp) (by simp; omega) (by simp)
      refine ⟨acc₁.toList :: pieces, ?_, ?_, ?_, ?_⟩
      · simp [List.toChunks.go, hfull, hgo]
      · simp [hflat]
      · intro piece hpiece
        rcases List.mem_cons.1 hpiece with rfl | hpiece
        · exact ⟨hne, by simpa using hle⟩
        · exact hmem piece hpiece
      · have hsum : acc₁.size + (x :: xs).length + (size - 1) = 1 + xs.length + (size - 1) + size := by
          rw [List.length_cons]
          omega
        rw [List.length_cons, hlen, hsum, Nat.add_div_right _ (by omega)]
        simp
    · obtain ⟨pieces, hgo, hflat, hmem, hlen⟩ := ih (acc₁.push x) acc₂ (by simp) (by simp; omega) (by simp)
      refine ⟨pieces, ?_, by simp [hflat], hmem, ?_⟩
      · simp [List.toChunks.go, hfull, hgo]
      · rw [hlen, Array.size_push, List.length_cons]
        congr 1
        omega

theorem toChunks_spec (hsize : 0 < size) (xs : List α) :
    (xs.toChunks size).flatten = xs ∧ (∀ piece ∈ xs.toChunks size, piece ≠ [] ∧ piece.length ≤ size) ∧
      (xs.toChunks size).length = (xs.length + (size - 1)) / size := by
  cases xs with
  | nil => simp [List.toChunks, Nat.div_eq_of_lt (show size - 1 < size by omega)]
  | cons x xs =>
    obtain ⟨size, rfl⟩ := Nat.exists_eq_succ_of_ne_zero (by omega : size ≠ 0)
    obtain ⟨pieces, hgo, hflat, hmem, hlen⟩ :=
      toChunks_go_spec xs #[x] #[] (by simp) (show #[x].size ≤ size + 1 by simp)
    rw [show (x :: xs).toChunks (size + 1) = pieces by simpa [List.toChunks] using hgo]
    exact ⟨by simpa using hflat, hmem, by simpa [Nat.add_comm] using hlen⟩

end Lib
