import Mathlib

/-!
# Computations that may fail

What a successful computation in `Except` says about its parts, and when two computations fail alike.
-/

namespace Lib

variable {ε α β : Type}

variable {xs : List α} {ys : List β} {f : α → Except ε β} {R : α → β → Prop}

theorem except_bind_eq_ok {x : Except ε α} {b : β} : (x >>= f) = .ok b ↔ ∃ a, x = .ok a ∧ f a = .ok b := by
  cases x with
  | error e => simp [bind, Except.bind]
  | ok a => simp [bind, Except.bind]

theorem except_map_eq_ok {x : Except ε α} {g : α → β} {b : β} : g <$> x = .ok b ↔ ∃ a, x = .ok a ∧ g a = b := by
  cases x with
  | error e => simp [Functor.map, Except.map]
  | ok a => simp [Functor.map, Except.map]

theorem except_pure_eq_ok {a b : α} : (pure a : Except ε α) = .ok b ↔ a = b := by
  simp [pure, Except.pure]

/-- Where every element of a list goes through. -/
theorem forall₂_of_mapM_eq_ok (h : xs.mapM f = .ok ys) : List.Forall₂ (fun x y => f x = .ok y) xs ys := by
  induction xs generalizing ys with
  | nil =>
    cases h
    exact .nil
  | cons x xs ih =>
    rw [List.mapM_cons] at h
    obtain ⟨y, hy, hrest⟩ := except_bind_eq_ok.1 h
    obtain ⟨zs, hzs, hpure⟩ := except_bind_eq_ok.1 hrest
    cases hpure
    exact .cons hy (ih hzs)

theorem mapM_eq_ok_iff : xs.mapM f = .ok ys ↔ List.Forall₂ (fun x y => f x = .ok y) xs ys := by
  refine ⟨forall₂_of_mapM_eq_ok, fun h => ?_⟩
  induction h with
  | nil => rfl
  | cons hx _ ih =>
    rw [List.mapM_cons, hx, ih]
    rfl

/-- A list of fallible computations fails only at one of its elements. -/
theorem exists_mapM_eq_ok (h : ∀ x ∈ xs, ∃ y, f x = .ok y) : ∃ ys, xs.mapM f = .ok ys := by
  induction xs with
  | nil => exact ⟨[], rfl⟩
  | cons x xs ih =>
    obtain ⟨y, hy⟩ := h x (List.mem_cons_self ..)
    obtain ⟨ys, hys⟩ := ih fun x' hx' => h x' (List.mem_cons_of_mem _ hx')
    exact ⟨y :: ys, mapM_eq_ok_iff.2 (.cons hy (mapM_eq_ok_iff.1 hys))⟩

/-- Every element on the right stands in the relation to one on the left. -/
theorem exists_left_of_forall₂ (h : List.Forall₂ R xs ys) {y : β} (hy : y ∈ ys) : ∃ x ∈ xs, R x y := by
  induction h with
  | nil => cases hy
  | cons hx _ ih =>
    rcases List.mem_cons.1 hy with rfl | hy
    · exact ⟨_, List.mem_cons_self .., hx⟩
    · obtain ⟨x, hmem, hx⟩ := ih hy
      exact ⟨x, List.mem_cons_of_mem _ hmem, hx⟩

theorem exists_right_of_forall₂ (h : List.Forall₂ R xs ys) {x : α} (hx : x ∈ xs) : ∃ y ∈ ys, R x y := by
  have hflip : List.Forall₂ (flip R) ys xs := List.Forall₂.flip h
  exact exists_left_of_forall₂ hflip hx

theorem forall₂_mem_left (h : List.Forall₂ R xs ys) : List.Forall₂ (fun x y => x ∈ xs ∧ R x y) xs ys := by
  induction h with
  | nil => exact .nil
  | cons hx _ ih =>
    refine .cons ⟨List.mem_cons_self .., hx⟩ (ih.imp fun x y hxy => ?_)
    exact ⟨List.mem_cons_of_mem _ hxy.1, hxy.2⟩

theorem forall₂_concat_left_iff {x : α} : List.Forall₂ R (xs ++ [x]) ys ↔
    ∃ init last, List.Forall₂ R xs init ∧ R x last ∧ ys = init ++ [last] := by
  constructor
  · intro h
    induction xs generalizing ys with
    | nil =>
      obtain ⟨last, _, hlast, ⟨⟩, rfl⟩ := List.forall₂_cons_left_iff.1 h
      exact ⟨[], last, .nil, hlast, rfl⟩
    | cons x' xs ih =>
      obtain ⟨y, rest, hy, hrest, rfl⟩ := List.forall₂_cons_left_iff.1 h
      obtain ⟨init, last, hinit, hlast, rfl⟩ := ih hrest
      exact ⟨y :: init, last, .cons hy hinit, hlast, rfl⟩
  · rintro ⟨init, last, hinit, hlast, rfl⟩
    exact List.rel_append hinit (.cons hlast .nil)

/-- Every result comes from an element. -/
theorem exists_of_mem_mapM (h : xs.mapM f = .ok ys) {y : β} (hy : y ∈ ys) : ∃ x ∈ xs, f x = .ok y :=
  exists_left_of_forall₂ (forall₂_of_mapM_eq_ok h) hy

/-! ### Two computations -/

section

variable {ε' γ δ τ : Type} {S : γ → δ → Prop}

/-- Both fail, or both succeed with related results. -/
def Agree (R : α → β → Prop) : Except ε α → Except ε' β → Prop
  | .ok a, .ok b => R a b
  | .error _, .error _ => True
  | _, _ => False

theorem Agree.bind {x : Except ε α} {y : Except ε' β} {f : α → Except ε γ} {g : β → Except ε' δ} (h : Agree R x y)
    (hrest : ∀ a b, x = .ok a → y = .ok b → R a b → Agree S (f a) (g b)) : Agree S (x >>= f) (y >>= g) := by
  cases x with
  | error e => cases y with
    | error e' => trivial
    | ok b => exact h.elim
  | ok a => cases y with
    | error e' => exact h.elim
    | ok b => exact hrest a b rfl rfl h

theorem agree_refl (x : Except ε α) : Agree (· = ·) x x := by
  cases x with
  | error e => trivial
  | ok a => exact rfl

theorem Agree.mapM {xs : List τ} {f : τ → Except ε α} {g : τ → Except ε' β} (h : ∀ x ∈ xs, Agree R (f x) (g x)) :
    Agree (List.Forall₂ R) (xs.mapM f) (xs.mapM g) := by
  induction xs with
  | nil => exact .nil
  | cons x xs ih =>
    rw [List.mapM_cons, List.mapM_cons]
    refine (h x (List.mem_cons_self ..)).bind fun a b _ _ hab => ?_
    exact (ih fun x' hx' => h x' (List.mem_cons_of_mem _ hx')).bind fun as bs _ _ hrest => .cons hab hrest

theorem Agree.mapError {x : Except ε α} {y : Except ε β} (wrap : ε → ε') (h : Agree R x y) :
    Agree R (x.mapError wrap) (y.mapError wrap) := by
  cases x <;> cases y <;> exact h

end

end Lib
