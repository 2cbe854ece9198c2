import OracleThin.Lib.Fallible

/-!
# Reading at positions

A reader of an image that holds offsets goes back and forth: its state is the position it reads at next. What it finds
depends on what stands at that position.
-/

namespace Lib

/-! ### What stands at a position -/

/-- The part stands in the data at the position. -/
def StandsAt (data : List α) (pos : Nat) (part : List α) : Prop :=
  ∃ front back, data = front ++ (part ++ back) ∧ front.length = pos

namespace StandsAt

variable {data part front back : List α} {pos : Nat}

theorem of_append (front part back : List α) : StandsAt (front ++ (part ++ back)) front.length part :=
  ⟨front, back, rfl, rfl⟩

theorem append_iff {part' : List α} :
    StandsAt data pos (part ++ part') ↔ StandsAt data pos part ∧ StandsAt data (pos + part.length) part' := by
  constructor
  · rintro ⟨front, back, rfl, rfl⟩
    refine ⟨⟨front, part' ++ back, by rw [List.append_assoc], rfl⟩, ⟨front ++ part, back, by simp, by simp⟩⟩
  · rintro ⟨⟨front, back, rfl, rfl⟩, ⟨front', back', heq, hlen⟩⟩
    rw [← List.append_assoc] at heq
    have hback := (List.append_inj heq (by simpa using hlen.symm)).2
    exact ⟨front, back', by rw [hback, List.append_assoc], rfl⟩

theorem length_le (h : StandsAt data pos part) : pos + part.length ≤ data.length := by
  obtain ⟨front, back, rfl, rfl⟩ := h
  simp only [List.length_append]
  omega

theorem take_drop (h : StandsAt data pos part) : (data.drop pos).take part.length = part := by
  obtain ⟨front, back, rfl, rfl⟩ := h
  simp

theorem append_right (h : StandsAt data pos part) (more : List α) : StandsAt (data ++ more) pos part := by
  obtain ⟨front, back, rfl, rfl⟩ := h
  exact ⟨front, back ++ more, by simp, rfl⟩

end StandsAt

/-! ### Readers -/

/-- A reader whose state is the position it reads at. -/
abbrev Seek (ε α : Type) := StateT Nat (Except ε) α

namespace Seek

variable {ε α β : Type} {p : Seek ε α} {f : α → Seek ε β} {pos pos' : Nat} {a : α}

theorem bind_of_ok (h : p pos = .ok (a, pos')) : (p >>= f) pos = f a pos' := by
  simp only [bind, StateT.bind, h, Except.bind]

theorem bind_of_error {e : ε} (h : p pos = .error e) : (p >>= f) pos = .error e := by
  simp only [bind, StateT.bind, h, Except.bind]

theorem bind_eq_ok {b : β} {pos'' : Nat} :
    (p >>= f) pos = .ok (b, pos'') ↔ ∃ a pos', p pos = .ok (a, pos') ∧ f a pos' = .ok (b, pos'') := by
  cases h : p pos with
  | error e => simp [bind_of_error h]
  | ok found =>
    obtain ⟨a, pos'⟩ := found
    simp [bind_of_ok h]

@[simp] theorem pure_apply (a : α) (pos : Nat) : (pure a : Seek ε α) pos = .ok (a, pos) := rfl

@[simp] theorem throw_apply (e : ε) (pos : Nat) : (throw e : Seek ε α) pos = .error e := rfl

@[simp] theorem get_apply (pos : Nat) : (get : Seek ε Nat) pos = .ok (pos, pos) := rfl

@[simp] theorem set_apply (pos pos' : Nat) : (set pos' : Seek ε PUnit) pos = .ok (.unit, pos') := rfl

@[simp] theorem lift_apply (result : Except ε α) (pos : Nat) :
    (liftM result : Seek ε α) pos = result.map (·, pos) := by
  cases result <;> rfl

theorem lift_of_ok {result : Except ε α} (h : result = .ok a) : (liftM result : Seek ε α) pos = .ok (a, pos) := by
  rw [lift_apply, h]
  rfl

/-- The reader gives this result at the position, wherever it ends. -/
def Gives (p : Seek ε α) (pos : Nat) (result : Except ε α) : Prop := (p pos).map Prod.fst = result

theorem gives_pure (a : α) (pos : Nat) : Gives (pure a : Seek ε α) pos (.ok a) := rfl

/-- What follows a reader gives its result at every position. -/
theorem Gives.bind {result : Except ε α} {g : α → Except ε β} (hp : Gives p pos result)
    (hf : ∀ a pos', Gives (f a) pos' (g a)) : Gives (p >>= f) pos (result >>= g) := by
  unfold Gives at hp
  cases h : p pos with
  | error e =>
    rw [h] at hp
    rw [Gives, bind_of_error h, ← hp]
    rfl
  | ok found =>
    obtain ⟨a, pos'⟩ := found
    rw [h] at hp
    rw [Gives, bind_of_ok h, ← hp]
    exact hf a pos'

theorem Gives.of_ok {result : Except ε β} (hp : p pos = .ok (a, pos')) (hf : Gives (f a) pos' result) :
    Gives (p >>= f) pos result := by
  rw [Gives, bind_of_ok hp]
  exact hf

/-! ### What a reader may give -/

/-- Whatever the reader gives is of this kind. -/
def OnlyGives (p : Seek ε α) (P : α → Prop) : Prop := ∀ pos a pos', p pos = .ok (a, pos') → P a

variable {P : β → Prop}

theorem onlyGives_pure {b : β} (h : P b) : OnlyGives (pure b : Seek ε β) P := by
  rintro pos _ _ ⟨⟩
  exact h

theorem onlyGives_throw (e : ε) : OnlyGives (throw e : Seek ε β) P := by
  rintro pos _ _ ⟨⟩

theorem onlyGives_lift {result : Except ε β} (h : ∀ b, result = .ok b → P b) :
    OnlyGives (liftM result : Seek ε β) P := by
  intro pos b pos' hread
  obtain ⟨found, hfound, hpair⟩ := except_map_eq_ok.1 hread
  cases hpair
  exact h b hfound

theorem onlyGives_bind (h : ∀ a, OnlyGives (f a) P) : OnlyGives (p >>= f) P := by
  intro pos b pos' hread
  obtain ⟨a, pos₁, -, hread⟩ := Seek.bind_eq_ok.1 hread
  exact h a pos₁ b pos' hread

theorem onlyGives_ite {c : Prop} [Decidable c] {q q' : Seek ε β} (h : OnlyGives q P) (h' : OnlyGives q' P) :
    OnlyGives (if c then q else q') P := by
  split
  · exact h
  · exact h'

end Seek

end Lib
