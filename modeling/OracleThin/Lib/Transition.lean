import Mathlib

/-!
# Runs of a partial transition function

A system is a partial step function `step : σ → α → Option σ`: `step s a` is `none` when the action `a` is not enabled
in `s`.  `exec` runs a list of actions.  `Along` says that a property holds in every state a run visits and `EachStep`
that every step the run takes meets a condition on the state it starts in.

The induction rules are `exec_induct` (an invariant kept by every step holds after every run), `along_of_eachStep` (a
property kept by the steps that meet a condition holds along every run of such steps), `along_iff_eachStep` (if in
addition a step that violates the condition destroys the property, the two are equivalent) and `stays_iff_eachStep`
(the same for a property that is to stay once it holds).
-/

namespace Lib

variable {σ α : Type*}

/-- Run the actions from `s`; `none` as soon as one of them is not enabled. -/
def exec (step : σ → α → Option σ) : σ → List α → Option σ
  | s, [] => some s
  | s, a :: as => (step s a).bind fun t => exec step t as

/-- `P` holds in every state visited by the run, the first one included. -/
def Along (step : σ → α → Option σ) (P : σ → Prop) : σ → List α → Prop
  | s, [] => P s
  | s, a :: as => P s ∧ ∀ t, step s a = some t → Along step P t as

/-- Once `P` holds in a state that the run visits, it holds in every later one. -/
def Stays (step : σ → α → Option σ) (P : σ → Prop) (s : σ) (as : List α) : Prop :=
  ∀ before after rest u v, as = before ++ after ++ rest → exec step s before = some u → P u →
    exec step u after = some v → P v

/-- Every step the run takes meets `ok` in the state before it. -/
def EachStep (step : σ → α → Option σ) (ok : σ → α → Prop) : σ → List α → Prop
  | _, [] => True
  | s, a :: as => ∀ t, step s a = some t → ok s a ∧ EachStep step ok t as

variable {step : σ → α → Option σ} {I P : σ → Prop} {ok : σ → α → Prop}

@[simp] theorem exec_nil (s : σ) : exec step s [] = some s := rfl

variable {s t : σ} {as : List α} {a : α}

theorem exec_cons_eq_some : exec step s (a :: as) = some t ↔ ∃ u, step s a = some u ∧ exec step u as = some t := by
  exact Option.bind_eq_some_iff

theorem EachStep.cons (hs : step s a = some t) (hok : ok s a) (h : EachStep step ok t as) :
    EachStep step ok s (a :: as) := by
  intro u hu
  rw [hs] at hu
  cases hu
  exact ⟨hok, h⟩

instance EachStep.decidable [∀ s a, Decidable (ok s a)] : ∀ s as, Decidable (EachStep step ok s as)
  | _, [] => isTrue trivial
  | s, a :: as =>
    match hs : step s a with
    | none => isTrue fun _ ht => absurd (hs.symm.trans ht) nofun
    | some t =>
      have : Decidable (EachStep step ok t as) := EachStep.decidable t as
      decidable_of_iff (ok s a ∧ EachStep step ok t as)
        ⟨fun h => .cons hs h.1 h.2, fun h => h t hs⟩

instance Along.decidable [DecidablePred P] : ∀ s as, Decidable (Along step P s as)
  | s, [] => inferInstanceAs (Decidable (P s))
  | s, a :: as =>
    match hs : step s a with
    | none => decidable_of_iff (P s) ⟨fun h => ⟨h, fun _ ht => absurd (hs.symm.trans ht) nofun⟩, And.left⟩
    | some t =>
      have : Decidable (Along step P t as) := Along.decidable t as
      decidable_of_iff (P s ∧ Along step P t as)
        ⟨fun h => ⟨h.1, fun _ hu => Option.some.inj (hs.symm.trans hu) ▸ h.2⟩, fun h => ⟨h.1, h.2 t hs⟩⟩

/-- An invariant of the steps is an invariant of the runs. -/
theorem exec_induct (hstep : ∀ s a t, I s → step s a = some t → I t) (hs : I s) (h : exec step s as = some t) :
    I t := by
  induction as generalizing s with
  | nil => cases h; exact hs
  | cons a as ih =>
    obtain ⟨u, hu, h⟩ := exec_cons_eq_some.1 h
    exact ih (hstep s a u hs hu) h

theorem Along.head (h : Along step P s as) : P s := by
  cases as with
  | nil => exact h
  | cons a as => exact h.1

theorem Along.mono {Q : σ → Prop} (hPQ : ∀ s, P s → Q s) (h : Along step P s as) : Along step Q s as := by
  induction as generalizing s with
  | nil => exact hPQ s h
  | cons a as ih => exact ⟨hPQ s h.1, fun t ht => ih (h.2 t ht)⟩

/-- What holds of every step from a state satisfying `P` holds of every step of a run along which `P` holds. -/
theorem Along.eachStep (hok : ∀ s a t, P s → step s a = some t → ok s a) (h : Along step P s as) :
    EachStep step ok s as := by
  induction as generalizing s with
  | nil => trivial
  | cons a as ih => exact fun t ht => ⟨hok s a t h.1 ht, ih (h.2 t ht)⟩

/-- A property that holds at first and is kept by the steps meeting `ok`, in states satisfying the invariant `I`,
holds along every run of such steps. -/
theorem along_of_eachStep (hI : ∀ s a t, I s → step s a = some t → I t)
    (hP : ∀ s a t, I s → P s → ok s a → step s a = some t → P t) (hs : I s) (hp : P s) (h : EachStep step ok s as) :
    Along step P s as := by
  induction as generalizing s with
  | nil => exact hp
  | cons a as ih =>
    refine ⟨hp, fun t ht => ?_⟩
    obtain ⟨hok, hrest⟩ := h t ht
    exact ih (hI s a t hs ht) (hP s a t hs hp hok ht) hrest

/-- If moreover every step that violates `ok` destroys `P`, then `P` holds along a run exactly when all its steps meet
`ok`. -/
theorem along_iff_eachStep (hI : ∀ s a t, I s → step s a = some t → I t)
    (hP : ∀ s a t, I s → P s → step s a = some t → (P t ↔ ok s a)) (hs : I s) (hp : P s) :
    Along step P s as ↔ EachStep step ok s as := by
  constructor
  · intro h
    induction as generalizing s with
    | nil => trivial
    | cons a as ih =>
      intro t ht
      have hrest := h.2 t ht
      exact ⟨(hP s a t hs hp ht).1 hrest.head, ih (hI s a t hs ht) hrest.head hrest⟩
  · exact along_of_eachStep hI (fun s a t hs hp hok ht => (hP s a t hs hp ht).2 hok) hs hp

theorem Stays.tail (h : Stays step P s (a :: as)) (ht : step s a = some t) : Stays step P t as := by
  intro before after rest u v has hbefore hu hafter
  refine h (a :: before) after rest u v ?_ (exec_cons_eq_some.2 ⟨t, ht, hbefore⟩) hu hafter
  rw [has]
  rfl

theorem EachStep.of_append {bs : List α} (h : EachStep step ok s (as ++ bs)) (he : exec step s as = some t) :
    EachStep step ok t bs := by
  induction as generalizing s with
  | nil => cases he; exact h
  | cons a as ih =>
    obtain ⟨u, hu, he⟩ := exec_cons_eq_some.1 he
    exact ih (h u hu).2 he

/-- If, in states satisfying the invariant `I`, a step keeps `P` exactly when it meets `ok`, then `P` stays along a
run exactly when all its steps meet `ok`. -/
theorem stays_iff_eachStep (hI : ∀ s a t, I s → step s a = some t → I t)
    (hP : ∀ s a t, I s → step s a = some t → ((P s → P t) ↔ ok s a)) (hs : I s) :
    Stays step P s as ↔ EachStep step ok s as := by
  constructor
  · intro h
    induction as generalizing s with
    | nil => trivial
    | cons a as ih =>
      refine fun t ht => ⟨(hP s a t hs ht).1 fun hp => ?_, ih (hI s a t hs ht) (h.tail ht)⟩
      exact h [] [a] as s t rfl rfl hp (exec_cons_eq_some.2 ⟨t, ht, rfl⟩)
  · intro h before after rest u v has hbefore hu hafter
    rw [has, List.append_assoc] at h
    have hinv := exec_induct hI hs hbefore
    have hrest := h.of_append hbefore
    clear h has hbefore
    induction after generalizing u with
    | nil => cases hafter; exact hu
    | cons a after ih =>
      obtain ⟨t, ht, hafter⟩ := exec_cons_eq_some.1 hafter
      obtain ⟨hok, hrest⟩ := hrest t ht
      exact ih t ((hP u a t hinv ht).2 hok hu) hafter (hI u a t hinv ht) hrest

end Lib
