import Mathlib

/-!
# Updating the first element that satisfies a predicate

`modifyFirst p f l` replaces the first `x` of `l` with `p x` by `f x`.  A table of records keyed by an identifier is
read with `find?`, written with `modifyFirst` and shrunk with `eraseP`; the lemmas below say what each of the three
does to a total `(l.map g).sum` over the records and to the keys.
-/

namespace Lib

variable {α β M : Type*}

/-- Replace the first element satisfying `p` by its image under `f`. -/
def modifyFirst (p : α → Bool) (f : α → α) : List α → List α
  | [] => []
  | x :: xs => if p x then f x :: xs else x :: modifyFirst p f xs

variable {p : α → Bool} {f : α → α} {l : List α} {x y : α}

theorem modifyFirst_cons (x : α) (xs : List α) :
    modifyFirst p f (x :: xs) = if p x then f x :: xs else x :: modifyFirst p f xs := rfl

theorem modifyFirst_of_find?_eq_none (h : l.find? p = none) : modifyFirst p f l = l := by
  induction l with
  | nil => rfl
  | cons x xs ih =>
    rw [List.find?_cons] at h
    cases hx : p x with
    | true => rw [hx] at h; cases h
    | false => rw [hx] at h; rw [modifyFirst_cons, hx, ih h]; rfl

/-- The element that is found splits the list where it is removed or replaced. -/
theorem find?_eq_some_split (h : l.find? p = some x) :
    ∃ a b, l = a ++ x :: b ∧ l.eraseP p = a ++ b ∧ ∀ f, modifyFirst p f l = a ++ f x :: b := by
  induction l with
  | nil => cases h
  | cons y ys ih =>
    rw [List.find?_cons] at h
    cases hy : p y with
    | true =>
      rw [hy] at h
      cases h
      exact ⟨[], ys, rfl, List.eraseP_cons_of_pos hy, fun f => by rw [modifyFirst_cons, if_pos hy]; rfl⟩
    | false =>
      rw [hy] at h
      have hy : ¬p y = true := by simp [hy]
      obtain ⟨a, b, rfl, herase, hmodify⟩ := ih h
      refine ⟨y :: a, b, rfl, ?_, fun f => ?_⟩
      · rw [List.eraseP_cons_of_neg hy, herase]
        rfl
      · rw [modifyFirst_cons, if_neg hy, hmodify]
        rfl

/-- The total of `g` changes by the one element that is replaced. -/
theorem sum_map_modifyFirst [AddCommMonoid M] (g : α → M) (h : l.find? p = some x) :
    ((modifyFirst p f l).map g).sum + g x = (l.map g).sum + g (f x) := by
  obtain ⟨a, b, rfl, -, hmodify⟩ := find?_eq_some_split h
  simp only [hmodify, List.map_append, List.map_cons, List.sum_append, List.sum_cons]
  abel

/-- The total of `g` is unchanged when the replacement keeps `g` on the elements satisfying `p`. -/
theorem sum_map_modifyFirst_of_eq [AddCommMonoid M] (g : α → M) (h : ∀ x, p x = true → g (f x) = g x) :
    ((modifyFirst p f l).map g).sum = (l.map g).sum := by
  cases hfind : l.find? p with
  | none => rw [modifyFirst_of_find?_eq_none hfind]
  | some x =>
    obtain ⟨a, b, rfl, -, hmodify⟩ := find?_eq_some_split hfind
    simp [hmodify, h x (List.find?_some hfind)]

/-- Removing the first element satisfying `p` removes its share of the total. -/
theorem sum_map_eraseP [AddCommMonoid M] (g : α → M) (h : l.find? p = some x) :
    ((l.eraseP p).map g).sum + g x = (l.map g).sum := by
  obtain ⟨a, b, rfl, herase, -⟩ := find?_eq_some_split h
  simp only [herase, List.map_append, List.map_cons, List.sum_append, List.sum_cons]
  abel

theorem map_modifyFirst_of_eq (g : α → β) (h : ∀ x, g (f x) = g x) : (modifyFirst p f l).map g = l.map g := by
  induction l with
  | nil => rfl
  | cons y ys ih => rw [modifyFirst_cons]; split <;> simp [h, ih]

/-- An update depends only on what it makes of the element it finds. -/
theorem modifyFirst_congr {g : α → α} (h : l.find? p = some x) (hx : f x = g x) :
    modifyFirst p f l = modifyFirst p g l := by
  obtain ⟨a, b, rfl, -, hmodify⟩ := find?_eq_some_split h
  rw [hmodify, hmodify, hx]

theorem modifyFirst_id : modifyFirst p (fun x => x) l = l := by
  induction l with
  | nil => rfl
  | cons y ys ih => rw [modifyFirst_cons, ih]; split <;> rfl

/-- Two updates of the first element are one. -/
theorem modifyFirst_modifyFirst {g : α → α} (hf : ∀ x, p (f x) = p x) :
    modifyFirst p g (modifyFirst p f l) = modifyFirst p (fun x => g (f x)) l := by
  induction l with
  | nil => rfl
  | cons y ys ih =>
    rw [modifyFirst_cons, modifyFirst_cons]
    split
    · rename_i hy; rw [modifyFirst_cons, hf y, if_pos hy]
    · rename_i hy; rw [modifyFirst_cons, if_neg hy, ih]

/-- An element that is updated and then removed is removed. -/
theorem eraseP_modifyFirst (hf : ∀ x, p (f x) = p x) : (modifyFirst p f l).eraseP p = l.eraseP p := by
  induction l with
  | nil => rfl
  | cons y ys ih =>
    rw [modifyFirst_cons]
    split
    · rename_i hy; rw [List.eraseP_cons_of_pos (by rw [hf y]; exact hy), List.eraseP_cons_of_pos hy]
    · rename_i hy; rw [List.eraseP_cons_of_neg hy, List.eraseP_cons_of_neg hy, ih]

/-- The number of elements with `q` changes by the one element that is replaced. -/
theorem countP_modifyFirst (q : α → Bool) (h : l.find? p = some x) :
    (modifyFirst p f l).countP q + (q x).toNat = l.countP q + (q (f x)).toNat := by
  obtain ⟨a, b, rfl, -, hmodify⟩ := find?_eq_some_split h
  simp only [hmodify, List.countP_append, List.countP_cons]
  cases q x <;> cases q (f x) <;> simp [Nat.add_assoc]

/-- An element of the updated list is an old one or the image of the first element satisfying `p`. -/
theorem mem_modifyFirst (h : y ∈ modifyFirst p f l) : y ∈ l ∨ ∃ x, l.find? p = some x ∧ y = f x := by
  cases hfind : l.find? p with
  | none => exact Or.inl (by rwa [modifyFirst_of_find?_eq_none hfind] at h)
  | some x =>
    obtain ⟨a, b, rfl, -, hmodify⟩ := find?_eq_some_split hfind
    rw [hmodify, List.mem_append, List.mem_cons] at h
    rcases h with h | rfl | h
    · exact Or.inl (List.mem_append_left _ h)
    · exact Or.inr ⟨x, rfl, rfl⟩
    · exact Or.inl (List.mem_append_right _ (List.mem_cons_of_mem _ h))

theorem mem_modifyFirst_of_mem (h : x ∈ l) : x ∈ modifyFirst p f l ∨ f x ∈ modifyFirst p f l ∧
    l.find? p = some x := by
  cases hfind : l.find? p with
  | none => exact Or.inl (by rwa [modifyFirst_of_find?_eq_none hfind])
  | some z =>
    obtain ⟨a, b, rfl, -, hmodify⟩ := find?_eq_some_split hfind
    rw [hmodify]
    rcases List.mem_append.1 h with h | h
    · exact Or.inl (List.mem_append_left _ h)
    · rcases List.mem_cons.1 h with rfl | h
      · exact Or.inr ⟨by simp, rfl⟩
      · exact Or.inl (List.mem_append_right _ (List.mem_cons_of_mem _ h))

theorem find?_modifyFirst_self (hf : ∀ x, p (f x) = p x) :
    (modifyFirst p f l).find? p = (l.find? p).map f := by
  induction l with
  | nil => rfl
  | cons y ys ih =>
    rw [modifyFirst_cons]
    cases hy : p y with
    | true => simp [hf, hy]
    | false => simp [hy, ih]

end Lib
