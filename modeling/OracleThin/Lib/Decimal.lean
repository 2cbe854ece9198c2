import Mathlib

/-!
# Decimal digits

`decimal ds` is the number that a list of digits stands for, the first one being the most significant. The digits of
the list need not be below ten. `dropZeros` takes away the zeros at the front.
-/

namespace Lib

def decimal (ds : List Nat) : Nat := ds.foldl (fun n d => 10 * n + d) 0

@[simp] theorem decimal_nil : decimal [] = 0 := rfl

@[simp] theorem decimal_append_singleton (ds : List Nat) (d : Nat) : decimal (ds ++ [d]) = 10 * decimal ds + d := by
  simp [decimal]

theorem decimal_eq_ofDigits (ds : List Nat) : decimal ds = Nat.ofDigits 10 ds.reverse := by
  induction ds using List.reverseRecOn with
  | nil => rfl
  | append_singleton ds d ih =>
    rw [decimal_append_singleton, ih, List.reverse_append, List.reverse_singleton, List.singleton_append,
      Nat.ofDigits_cons]
    ring

theorem decimal_append (ds es : List Nat) : decimal (ds ++ es) = decimal ds * 10 ^ es.length + decimal es := by
  simp only [decimal_eq_ofDigits, List.reverse_append, Nat.ofDigits_append, List.length_reverse]
  ring

theorem decimal_cons (d : Nat) (ds : List Nat) : decimal (d :: ds) = d * 10 ^ ds.length + decimal ds := by
  have h := decimal_append [d] ds
  simpa [decimal] using h

theorem decimal_eq_zero_iff {ds : List Nat} : decimal ds = 0 ↔ ∀ d ∈ ds, d = 0 := by
  induction ds with
  | nil => simp
  | cons d ds ih => simp [decimal_cons, ih]

theorem decimal_replicate_zero (n : Nat) : decimal (List.replicate n 0) = 0 :=
  decimal_eq_zero_iff.2 fun _ => List.eq_of_mem_replicate

/-- Digits below ten without a leading zero are the digits of their number. -/
theorem digits_decimal {ds : List Nat} (h : ∀ d ∈ ds, d < 10) (hlead : ds.head? ≠ some 0) :
    (Nat.digits 10 (decimal ds)).reverse = ds := by
  rw [decimal_eq_ofDigits, Nat.digits_ofDigits 10 (by decide) _ (by simpa using h), List.reverse_reverse]
  intro hne hlast
  refine hlead ?_
  rw [← List.getLast?_reverse, List.getLast?_eq_some_getLast hne, hlast]

/-! ### Leading zeros -/

def dropZeros (ds : List Nat) : List Nat := ds.dropWhile (· = 0)

theorem dropZeros_zero_cons (ds : List Nat) : dropZeros (0 :: ds) = dropZeros ds := by
  simp [dropZeros]

theorem dropZeros_of_head {ds : List Nat} (h : ds.head? ≠ some 0) : dropZeros ds = ds := by
  cases ds with
  | nil => rfl
  | cons d ds => simp_all [dropZeros]

theorem head_dropZeros (ds : List Nat) : (dropZeros ds).head? ≠ some 0 := by
  have h := List.head?_dropWhile_not (fun d => decide (d = 0)) ds
  intro hzero
  rw [← dropZeros, hzero] at h
  cases h

/-- The zeros that are taken away, and the digits that remain. -/
theorem exists_zeros_append_dropZeros (ds : List Nat) : ∃ n, ds = List.replicate n 0 ++ dropZeros ds := by
  refine ⟨(ds.takeWhile (· = 0)).length, ?_⟩
  rw [← List.eq_replicate_of_mem fun d hd => by simpa using List.mem_takeWhile_imp hd]
  exact List.takeWhile_append_dropWhile.symm

theorem dropZeros_dropZeros_append (ds es : List Nat) : dropZeros (dropZeros ds ++ es) = dropZeros (ds ++ es) := by
  obtain ⟨n, hn⟩ := exists_zeros_append_dropZeros ds
  nth_rewrite 2 [hn]
  rw [List.append_assoc]
  exact (List.dropWhile_append_of_pos fun d hd => by simpa using List.eq_of_mem_replicate hd).symm

theorem decimal_dropZeros (ds : List Nat) : decimal (dropZeros ds) = decimal ds := by
  obtain ⟨n, hn⟩ := exists_zeros_append_dropZeros ds
  nth_rewrite 2 [hn]
  rw [decimal_append, decimal_replicate_zero, Nat.zero_mul, Nat.zero_add]

theorem mem_of_mem_dropZeros {ds : List Nat} {d : Nat} (h : d ∈ dropZeros ds) : d ∈ ds :=
  (List.dropWhile_sublist _).mem h

end Lib
