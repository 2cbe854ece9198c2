import OracleThin.Lib.Fallible

/-!
# Parsers on the prefixes of their input

A parser takes items off the front of a list. `Tracks strict lax q p` compares two parsers on the inputs that `q`
accepts: `p` does the same as `q` on every prefix that contains all that `q` has consumed, and, if `strict`, starves
on every shorter one. To starve is to fail with an error that asks for more input; `lax` allows some results that used
up the whole prefix instead. The relation is closed under sequencing, case distinction and repetition, so it is proved
for a composed parser from its parts.

`scan` is the loop of a message parser: it reads one message after the other until the input is used up.
-/

namespace Lib

/-- Takes items off the front of a list, or fails. -/
abbrev Parser (τ ε : Type) := StateT (List τ) (Except ε)

namespace Parser

variable {τ ε α β : Type}

/-! ### Basic parsers -/

/-- Takes one item, or fails with `e` at the end of the input. -/
def item (e : ε) : Parser τ ε τ
  | [] => .error e
  | x :: xs => .ok (x, xs)

/-- Takes `n` items, or fails with `e`. -/
def take (e : ε) (n : Nat) : Parser τ ε (List τ) := fun xs =>
  if n ≤ xs.length then .ok (xs.take n, xs.drop n) else .error e

/-- Runs a parser `n` times. -/
def many (p : Parser τ ε α) : Nat → Parser τ ε (List α)
  | 0 => pure []
  | n + 1 => do
    let a ← p
    let as ← many p n
    return a :: as

/-- Runs a parser for each element of a list. -/
def each {γ : Type} (p : γ → Parser τ ε α) : List γ → Parser τ ε (List α)
  | [] => pure []
  | x :: xs => do
    let a ← p x
    let as ← each p xs
    return a :: as

/-- Runs `body` until it has a result, with `fuel` rounds at most. -/
def iterateFuel {σ : Type} (body : σ → Parser τ ε (σ ⊕ α)) (e : ε) : Nat → σ → Parser τ ε α
  | 0, _ => throw e
  | fuel + 1, s => do
    match ← body s with
    | .inl s => iterateFuel body e fuel s
    | .inr a => return a

/-- Runs `body` until it has a result. Every round takes at least one item, so the length of the input is enough
fuel. -/
def iterate {σ : Type} (body : σ → Parser τ ε (σ ⊕ α)) (e : ε) (s : σ) : Parser τ ε α := fun b =>
  iterateFuel body e (b.length + 1) s b

/-- Runs a parser and counts the items that it takes. -/
def counted (p : Parser τ ε α) : Parser τ ε (α × Nat) := fun b =>
  (p b).map fun (a, r) => ((a, b.length - r.length), r)

@[simp] theorem pure_apply (a : α) (b : List τ) : (pure a : Parser τ ε α) b = .ok (a, b) := rfl

theorem bind_apply (p : Parser τ ε α) (f : α → Parser τ ε β) (b : List τ) :
    (p >>= f) b = (p b).bind fun x => f x.1 x.2 := rfl

theorem map_apply (f : α → β) (p : Parser τ ε α) (b : List τ) :
    (f <$> p) b = (p b).bind fun x => .ok (f x.1, x.2) := rfl

@[simp] theorem throw_apply (e : ε) (b : List τ) : (throw e : Parser τ ε α) b = .error e := rfl

@[simp] theorem lift_ok_apply (a : α) (b : List τ) :
    (liftM (Except.ok a : Except ε α) : Parser τ ε α) b = .ok (a, b) := rfl

@[simp] theorem lift_error_apply (e : ε) (b : List τ) :
    (liftM (Except.error e : Except ε α) : Parser τ ε α) b = .error e := rfl

variable {r : List τ} {n : Nat} {ms : List (List τ)} {γ : Type} {lax₁ : α → Prop}

theorem bind_apply_ok {p : Parser τ ε α} {f : α → Parser τ ε β} {a : α} {b : List τ} (h : p b = .ok (a, r)) :
    (p >>= f) b = f a r := by
  rw [bind_apply, h]
  rfl

theorem bind_eq_ok {p : Parser τ ε α} {f : α → Parser τ ε β} {b : List τ} {x : β} (h : (p >>= f) b = .ok (x, r)) :
    ∃ a s, p b = .ok (a, s) ∧ f a s = .ok (x, r) := by
  rw [bind_apply] at h
  cases hp : p b with
  | error e => rw [hp] at h; cases h
  | ok y => rw [hp] at h; exact ⟨y.1, y.2, rfl, h⟩

theorem map_eq_ok {h : α → β} {p : Parser τ ε α} {b : List τ} {x : β} (hmap : (h <$> p) b = .ok (x, r)) :
    ∃ a, x = h a ∧ p b = .ok (a, r) := by
  rw [map_apply] at hmap
  cases hp : p b with
  | error e => rw [hp] at hmap; cases hmap
  | ok y => rw [hp] at hmap; cases hmap; exact ⟨y.1, rfl, rfl⟩

theorem lift_eq_ok {x : Except ε α} {b : List τ} {a : α} (h : (liftM x : Parser τ ε α) b = .ok (a, r)) :
    x = .ok a ∧ r = b := by
  cases x with
  | error e => cases h
  | ok y => cases h; exact ⟨rfl, rfl⟩

theorem each_cons_eq_ok_iff {p : γ → Parser τ ε α} {x : γ} {xs : List γ} {b t : List τ} {a : α} {as : List α}
    (h : p x b = .ok (a, r)) : each p (x :: xs) b = .ok (a :: as, t) ↔ each p xs r = .ok (as, t) := by
  rw [each, bind_apply_ok h, bind_apply]
  cases each p xs r with
  | error e => simp [Except.bind]
  | ok y => simp [Except.bind, Prod.ext_iff]

theorem counted_eq_ok {p : Parser τ ε α} {b : List τ} {a : α} (h : counted p b = .ok ((a, n), r)) :
    p b = .ok (a, r) ∧ n = b.length - r.length := by
  unfold counted at h
  cases hp : p b with
  | error e => rw [hp] at h; cases h
  | ok x => rw [hp] at h; cases h; exact ⟨rfl, rfl⟩

/-- What holds of the last round and is passed back over the others holds of the loop. -/
theorem iterate_induct {σ : Type} {body : σ → Parser τ ε (σ ⊕ α)} {e : ε} {P : σ → List τ → α → List τ → Prop}
    (hdone : ∀ s b a r, body s b = .ok (.inr a, r) → P s b a r)
    (hnext : ∀ s b s' b' a r, body s b = .ok (.inl s', b') → P s' b' a r → P s b a r) {s : σ} {b : List τ} {a : α}
    (h : iterate body e s b = .ok (a, r)) : P s b a r := by
  unfold iterate at h
  generalize b.length + 1 = fuel at h
  induction fuel generalizing s b with
  | zero => cases h
  | succ fuel ih =>
    obtain ⟨x, b', hround, hrest⟩ := bind_eq_ok h
    cases x with
    | inl s' => exact hnext s b s' b' a r hround (ih hrest)
    | inr a' => cases hrest; exact hdone s b a r hround

/-! ### What is returned -/

/-- Whatever the parser returns has the property. -/
def Yields (P : α → Prop) (p : Parser τ ε α) : Prop := ∀ b a r, p b = .ok (a, r) → P a

variable {P : α → Prop} {P' : β → Prop}

theorem yields_pure {a : α} (h : P a) : Yields P (pure a : Parser τ ε α) := by
  rintro b _ r ⟨⟩
  exact h

theorem yields_throw (e : ε) : Yields P (throw e : Parser τ ε α) := nofun

theorem yields_bind {p : Parser τ ε α} {f : α → Parser τ ε β} (h : ∀ a, Yields P' (f a)) : Yields P' (p >>= f) := by
  intro b x r hbind
  obtain ⟨a, s, -, hf⟩ := bind_eq_ok hbind
  exact h a s x r hf

/-- What the first parser returns may be used. -/
theorem Yields.bind {p : Parser τ ε α} {f : α → Parser τ ε β} (hp : Yields P p) (hf : ∀ a, P a → Yields P' (f a)) :
    Yields P' (p >>= f) := by
  intro b x r hbind
  obtain ⟨a, s, ha, hx⟩ := bind_eq_ok hbind
  exact hf a (hp b a s ha) s x r hx

theorem yields_map {h : α → β} {p : Parser τ ε α} (hp : Yields (fun a => P' (h a)) p) : Yields P' (h <$> p) := by
  intro b x r hmap
  obtain ⟨a, rfl, ha⟩ := map_eq_ok hmap
  exact hp b a r ha

theorem yields_ite {c : Prop} [Decidable c] {p q : Parser τ ε α} (hp : c → Yields P p) (hq : ¬c → Yields P q) :
    Yields P (if c then p else q) := by
  split
  · exact hp ‹_›
  · exact hq ‹_›

theorem yields_many {p : Parser τ ε α} (n : Nat) : Yields (fun as => as.length = n) (many p n) := by
  induction n with
  | zero => exact yields_pure rfl
  | succ n ih => exact yields_bind fun a => ih.bind fun as has => yields_pure (by rw [List.length_cons, has])

theorem yields_take (e : ε) (n : Nat) : Yields (fun c => c.length = n) (take e n : Parser τ ε (List τ)) := by
  intro b c r h
  rw [take] at h
  split at h
  · cases h
    rw [List.length_take]
    omega
  · cases h

/-! ### Two parsers -/

section

variable {δ : Type} {R : α → β → Prop} {S : γ → δ → Prop} {p : Parser τ ε α} {q : Parser τ ε β} {b : List τ}

/-- On the input, both parsers fail, or both succeed with related results and end at the same place. -/
abbrev AgreeAt (R : α → β → Prop) (p : Parser τ ε α) (q : Parser τ ε β) (b : List τ) : Prop :=
  Agree (fun x y => R x.1 y.1 ∧ x.2 = y.2) (p b) (q b)

theorem AgreeAt.bind {f : α → Parser τ ε γ} {g : β → Parser τ ε δ} (h : AgreeAt R p q b)
    (hrest : ∀ x y r, q b = .ok (y, r) → R x y → AgreeAt S (f x) (g y) r) : AgreeAt S (p >>= f) (q >>= g) b := by
  refine Agree.bind h fun ⟨x, r⟩ ⟨y, r'⟩ _ hq ⟨hxy, heq⟩ => ?_
  obtain rfl : r = r' := heq
  exact hrest x y r hq hxy

theorem agreeAt_lift {x : Except ε α} {y : Except ε β} (h : Agree R x y) :
    AgreeAt R (liftM x : Parser τ ε α) (liftM y : Parser τ ε β) b := by
  cases x <;> cases y <;> first | exact h | exact ⟨h, rfl⟩

theorem agreeAt_map (f : α → β) (p : Parser τ ε α) (b : List τ) : AgreeAt (fun x y => y = f x) p (f <$> p) b := by
  unfold AgreeAt
  rw [map_apply]
  cases p b with
  | error e => trivial
  | ok x => exact ⟨rfl, rfl⟩

theorem agreeAt_refl (p : Parser τ ε α) (b : List τ) : AgreeAt (· = ·) p p b := by
  unfold AgreeAt
  cases p b with
  | error e => trivial
  | ok x => exact ⟨rfl, rfl⟩

end

/-! ### Starving -/

/-- The parser asks for more input, or has a `lax` result with nothing left. -/
def Starved (short : ε → Prop) (lax : α → Prop) (x : Except ε (α × List τ)) : Prop :=
  (∃ e, x = .error e ∧ short e) ∨ ∃ a, lax a ∧ x = .ok (a, [])

variable {short : ε → Prop} {lax : α → Prop} {lax' : β → Prop}

theorem Starved.error {e : ε} (h : short e) : Starved short lax (.error e : Except ε (α × List τ)) :=
  Or.inl ⟨e, rfl, h⟩

theorem Starved.pure {a : α} (h : lax a) : Starved short lax ((pure a : Parser τ ε α) []) :=
  Or.inr ⟨a, h, rfl⟩

theorem Starved.mono {lax₂ : α → Prop} {x : Except ε (α × List τ)} (h : Starved short lax₁ x)
    (hlax : ∀ a, lax₁ a → lax₂ a) : Starved short lax₂ x := by
  rcases h with herror | ⟨a, ha, hx⟩
  · exact Or.inl herror
  · exact Or.inr ⟨a, hlax a ha, hx⟩

theorem Starved.bind {p : Parser τ ε α} {f : α → Parser τ ε β} {b : List τ} (h : Starved short lax (p b))
    (hf : ∀ a, lax a → Starved short lax' (f a [])) : Starved short lax' ((p >>= f) b) := by
  rcases h with ⟨e, he, hshort⟩ | ⟨a, ha, hok⟩
  · exact Or.inl ⟨e, by rw [bind_apply, he]; rfl, hshort⟩
  · rw [bind_apply_ok hok]
    exact hf a ha

/-! ### Tracking -/

/-- On the prefixes of an input that `q` accepts, `p` does as `q` if it finds all that `q` consumed; if `strict`, it
starves if it does not. -/
class Tracks (short : ε → Prop) (strict : Prop) (lax : α → Prop) (q p : Parser τ ε α) : Prop where
  follows : ∀ b a r, q b = .ok (a, r) → ∃ c, b = c ++ r ∧ (∀ s, s <+: r → p (c ++ s) = .ok (a, s)) ∧
    (strict → ∀ t, t <+: c → t ≠ c → Starved short lax (p t))

variable {strict : Prop} {p q : Parser τ ε α} {f g : α → Parser τ ε β}

theorem Tracks.mono {lax₂ : α → Prop} (h : Tracks short strict lax₁ q p) (hlax : ∀ a, lax₁ a → lax₂ a) :
    Tracks short strict lax₂ q p := by
  refine ⟨fun b a r hq => ?_⟩
  obtain ⟨c, hc, hsame, hstarved⟩ := h.follows b a r hq
  exact ⟨c, hc, hsame, fun hs t ht hne => (hstarved hs t ht hne).mono hlax⟩

/-- A strong tracker is a lax one. -/
theorem Tracks.weaken (h : Tracks short strict (fun _ => False) q p) : Tracks short strict lax q p :=
  h.mono fun _ hfalse => hfalse.elim

theorem Tracks.strictly (h : Tracks short strict lax q p) (hstrict : strict) : Tracks short True lax q p := by
  refine ⟨fun b a r hq => ?_⟩
  obtain ⟨c, hc, hsame, hstarved⟩ := h.follows b a r hq
  exact ⟨c, hc, hsame, fun _ => hstarved hstrict⟩

/-- A tracker that need not starve. -/
theorem Tracks.loosen (h : Tracks short strict lax q p) : Tracks short False lax₁ q p := by
  refine ⟨fun b a r hq => ?_⟩
  obtain ⟨c, hc, hsame, -⟩ := h.follows b a r hq
  exact ⟨c, hc, hsame, False.elim⟩

/-- The rest of the input is no longer than the input. -/
theorem Tracks.length_le {b : List τ} {a : α} (h : Tracks short strict lax q p) (hq : q b = .ok (a, r)) :
    r.length ≤ b.length := by
  obtain ⟨c, rfl, -⟩ := h.follows b a r hq
  rw [List.length_append]
  omega

theorem tracks_of_nothing_consumed (h : ∀ b a r, q b = .ok (a, r) → r = b ∧ ∀ s, p s = .ok (a, s)) :
    Tracks short strict lax q p := by
  refine ⟨fun b a r hq => ?_⟩
  obtain ⟨rfl, hp⟩ := h b a r hq
  refine ⟨[], rfl, fun s _ => hp s, fun _ t ht hne => ?_⟩
  exact absurd (List.prefix_nil.1 ht) hne

instance tracks_pure (a : α) : Tracks short strict lax (pure a) (pure a : Parser τ ε α) :=
  tracks_of_nothing_consumed fun b x r h => by cases h; exact ⟨rfl, fun _ => rfl⟩

instance tracks_lift (x : Except ε α) : Tracks short strict lax (liftM x) (liftM x : Parser τ ε α) :=
  tracks_of_nothing_consumed fun b a r h => by
    obtain ⟨rfl, rfl⟩ := lift_eq_ok h
    exact ⟨rfl, fun _ => rfl⟩

instance tracks_throw (e : ε) : Tracks short strict lax (throw e) p := ⟨nofun⟩

theorem tracks_ite {c : Prop} [Decidable c] {p' q' : Parser τ ε α} (h : c → Tracks short strict lax q p)
    (h' : ¬c → Tracks short strict lax q' p') :
    Tracks short strict lax (if c then q else q') (if c then p else p') := by
  split
  · exact h ‹_›
  · exact h' ‹_›

theorem tracks_item {e : ε} (he : short e) {lax : τ → Prop} :
    Tracks short strict lax (item e) (item e : Parser τ ε τ) := by
  refine ⟨fun b a r h => ?_⟩
  cases b with
  | nil => cases h
  | cons x xs =>
    cases h
    refine ⟨[a], rfl, fun _ _ => rfl, fun _ t ht hne => ?_⟩
    have hnil : t = [] := by
      rcases List.prefix_cons_iff.1 ht with rfl | ⟨t', rfl, ht'⟩
      · rfl
      · exact absurd (by rw [List.prefix_nil.1 ht']) hne
    rw [hnil]
    exact .error he

theorem take_append {e : ε} {c : List τ} (hlen : c.length = n) (s : List τ) : take e n (c ++ s) = .ok (c, s) := by
  subst hlen
  rw [take, if_pos (by simp), List.take_left, List.drop_left]

theorem take_eq_ok {e : ε} {b c : List τ} (h : take e n b = .ok (c, r)) : b = c ++ r ∧ c.length = n := by
  unfold take at h
  split at h
  · cases h
    exact ⟨(List.take_append_drop n b).symm, by rw [List.length_take]; omega⟩
  · cases h

theorem tracks_take {e : ε} (he : short e) (n : Nat) {lax : List τ → Prop} :
    Tracks short strict lax (take e n) (take e n : Parser τ ε (List τ)) := by
  refine ⟨fun b c r h => ?_⟩
  obtain ⟨hb, hlen⟩ := take_eq_ok h
  refine ⟨c, hb, fun s _ => take_append hlen s, fun _ t ht hne => ?_⟩
  have hlt : t.length < n := by
    have hle := ht.length_le
    have hne' : t.length ≠ c.length := fun heq => hne (ht.eq_of_length heq)
    omega
  rw [take, if_neg (by omega)]
  exact .error he

/-- Sequencing. What a lax result of the first parser leaves, nothing, has to starve the second. -/
theorem Tracks.bind_lax (hp : Tracks short strict lax q p) (hf : ∀ a, Tracks short strict lax' (g a) (f a))
    (hnil : strict → ∀ a, lax a → Starved short lax' (f a [])) : Tracks short strict lax' (q >>= g) (p >>= f) := by
  refine ⟨fun b x r h => ?_⟩
  obtain ⟨a, r₁, hq, hg⟩ := bind_eq_ok h
  obtain ⟨c₁, rfl, hsame₁, hstarved₁⟩ := hp.follows b a r₁ hq
  obtain ⟨c₂, rfl, hsame₂, hstarved₂⟩ := (hf a).follows r₁ x r hg
  refine ⟨c₁ ++ c₂, (List.append_assoc ..).symm, fun s hs => ?_, fun hstrict t ht hne => ?_⟩
  · rw [List.append_assoc, bind_apply_ok (hsame₁ (c₂ ++ s) (List.prefix_append_right_inj c₂ |>.2 hs))]
    exact hsame₂ s hs
  · -- The cut is in what the second parser consumed, or in what the first did.
    rcases List.prefix_or_prefix_of_prefix ht (List.prefix_append c₁ c₂) with ht | ⟨t', rfl⟩
    · by_cases hc : t = c₁
      · subst hc
        have hrest : p t = .ok (a, []) := by simpa using hsame₁ [] (List.nil_prefix)
        rw [bind_apply_ok hrest]
        refine hstarved₂ hstrict [] List.nil_prefix fun hnil' => hne ?_
        rw [← hnil', List.append_nil]
      · exact (hstarved₁ hstrict t ht hc).bind (hnil hstrict)
    · have ht' : t' <+: c₂ := (List.prefix_append_right_inj c₁).1 ht
      have hprefix : t' <+: c₂ ++ r := ht'.trans (List.prefix_append c₂ r)
      rw [bind_apply_ok (hsame₁ t' hprefix)]
      exact hstarved₂ hstrict t' ht' fun heq => hne (by rw [heq])

/-- Sequencing after a parser that always starves. -/
theorem Tracks.bind (hp : Tracks short strict (fun _ => False) q p) (hf : ∀ a, Tracks short strict lax' (g a) (f a)) :
    Tracks short strict lax' (q >>= g) (p >>= f) :=
  hp.bind_lax hf fun _ _ hfalse => hfalse.elim

instance [hp : Tracks short strict (fun _ => False) q p] [hf : ∀ a, Tracks short strict lax' (g a) (f a)] :
    Tracks short strict lax' (q >>= g) (p >>= f) :=
  hp.bind hf

instance {c : Prop} [Decidable c] {p' q' : Parser τ ε α} [h : Tracks short strict lax q p]
    [h' : Tracks short strict lax q' p'] : Tracks short strict lax (if c then q else q') (if c then p else p') :=
  tracks_ite (fun _ => h) fun _ => h'

/-- Sequencing after a check. -/
theorem tracks_lift_bind {x : Except ε α} (hf : ∀ a, x = .ok a → Tracks short strict lax' (g a) (f a)) :
    Tracks short strict lax' (liftM x >>= g) (liftM x >>= f) := by
  refine ⟨fun b y r h => ?_⟩
  obtain ⟨a, s, hx, hg⟩ := bind_eq_ok h
  obtain ⟨rfl, rfl⟩ := lift_eq_ok hx
  exact (hf a rfl).follows s y r hg

theorem Tracks.map (h : β → α) {q p : Parser τ ε β} (hp : Tracks short strict (fun x => lax (h x)) q p) :
    Tracks short strict lax (h <$> q) (h <$> p) :=
  hp.bind_lax (fun x => tracks_pure (h x)) fun _ x hx => Or.inr ⟨h x, hx, rfl⟩

instance (h : β → α) {q p : Parser τ ε β} [hp : Tracks short strict (fun _ => False) q p] :
    Tracks short strict lax (h <$> q) (h <$> p) :=
  .map h hp.weaken

theorem tracks_counted (hp : Tracks short strict lax q p) :
    Tracks short strict (fun x => lax x.1) (counted q) (counted p) := by
  refine ⟨fun b ⟨a, n⟩ r h => ?_⟩
  obtain ⟨hq, rfl⟩ := counted_eq_ok h
  obtain ⟨c, rfl, hsame, hstarved⟩ := hp.follows b a r hq
  refine ⟨c, rfl, fun s hs => ?_, fun hstrict t ht hne => ?_⟩
  · simp [counted, hsame s hs, Except.map]
  · rcases hstarved hstrict t ht hne with ⟨e, he, hshort⟩ | ⟨a', hlax, hok⟩
    · exact Or.inl ⟨e, by rw [counted, he]; rfl, hshort⟩
    · exact Or.inr ⟨_, hlax, by rw [counted, hok]; rfl⟩

instance tracks_many [Tracks short strict (fun _ => False) q p] {lax : List α → Prop} (n : Nat) :
    Tracks short strict lax (many q n) (many p n) := by
  induction n generalizing lax with
  | zero => exact tracks_pure []
  | succ n ih =>
    unfold many
    infer_instance

instance tracks_each {q p : γ → Parser τ ε α} [∀ x, Tracks short strict (fun _ => False) (q x) (p x)]
    {lax : List α → Prop} (xs : List γ) : Tracks short strict lax (each q xs) (each p xs) := by
  induction xs generalizing lax with
  | nil => exact tracks_pure []
  | cons x xs ih =>
    unfold each
    infer_instance

/-- Repetition of a lax parser. -/
theorem tracks_many_lax (hp : Tracks short strict (fun _ => True) q p)
    (hnil : strict → Starved short (fun _ => True) (p [])) (n : Nat) :
    Tracks short strict (fun _ => True) (many q n) (many p n) ∧
      (strict → Starved short (fun _ => True) (many p n [])) := by
  induction n with
  | zero => exact ⟨tracks_pure [], fun _ => Or.inr ⟨[], trivial, rfl⟩⟩
  | succ n ih =>
    have hrest : strict → ∀ a : α, Starved short (fun _ => True) ((many p n >>= fun as => pure (a :: as)) []) :=
      fun hs a => (ih.2 hs).bind fun as _ => Or.inr ⟨a :: as, trivial, rfl⟩
    refine ⟨hp.bind_lax (fun a => ih.1.bind_lax (fun as => tracks_pure _) fun _ as _ =>
      Or.inr ⟨a :: as, trivial, rfl⟩)
      fun hs a _ => hrest hs a, fun hs => (hnil hs).bind fun a _ => hrest hs a⟩

section

variable {σ : Type} {qbody body : σ → Parser τ ε (σ ⊕ α)} {e : ε}
  (hbody : ∀ s, Tracks short strict (fun _ => False) (qbody s) (body s))
  (htakes : ∀ s b s' r, qbody s b = .ok (.inl s', r) → r.length < b.length)
include hbody htakes

/-- The rounds of a loop that track and take items make the loop track. -/
private theorem iterateFuel_tracks (n : Nat) (s : σ) (b : List τ) (a : α) (r : List τ)
    (h : iterateFuel qbody e n s b = .ok (a, r)) :
    ∃ c, b = c ++ r ∧ (∀ s', s' <+: r → ∀ m, (c ++ s').length < m → iterateFuel body e m s (c ++ s') = .ok (a, s')) ∧
      (strict → ∀ t, t <+: c → t ≠ c → ∀ m, t.length < m → Starved short lax (iterateFuel body e m s t)) := by
  induction n generalizing s b with
  | zero => cases h
  | succ n ih =>
    obtain ⟨x, r₁, hround, hrest⟩ := bind_eq_ok h
    obtain ⟨c₁, rfl, hsame₁, hcut₁⟩ := (hbody s).follows b x r₁ hround
    -- A prefix that cuts the first round starves it.
    have hfirst : strict → ∀ t, t <+: c₁ → t ≠ c₁ → ∀ m, t.length < m →
      Starved short lax (iterateFuel body e m s t) := by
      intro hs t ht hne m hm
      obtain ⟨m, rfl⟩ := Nat.exists_eq_succ_of_ne_zero (Nat.ne_zero_of_lt hm)
      exact (hcut₁ hs t ht hne).bind fun _ => False.elim
    cases x with
    | inr a' =>
      cases hrest
      refine ⟨c₁, rfl, fun s' hs' m hm => ?_, hfirst⟩
      obtain ⟨m, rfl⟩ := Nat.exists_eq_succ_of_ne_zero (Nat.ne_zero_of_lt hm)
      exact bind_apply_ok (hsame₁ s' hs')
    | inl s₁ =>
      have hpos := htakes s _ s₁ r₁ hround
      rw [List.length_append] at hpos
      obtain ⟨c₂, rfl, hsame₂, hcut₂⟩ := ih s₁ r₁ hrest
      refine ⟨c₁ ++ c₂, (List.append_assoc ..).symm, fun s' hs' m hm => ?_, fun hs t ht hne m hm => ?_⟩
      · obtain ⟨m, rfl⟩ := Nat.exists_eq_succ_of_ne_zero (Nat.ne_zero_of_lt hm)
        rw [List.append_assoc] at hm ⊢
        refine (bind_apply_ok (hsame₁ (c₂ ++ s') ((List.prefix_append_right_inj c₂).2 hs'))).trans
          (hsame₂ s' hs' m ?_)
        rw [List.length_append] at hm
        omega
      · by_cases hc : c₁ <+: t
        · obtain ⟨t', rfl⟩ := hc
          have ht' : t' <+: c₂ := (List.prefix_append_right_inj c₁).1 ht
          obtain ⟨m, rfl⟩ := Nat.exists_eq_succ_of_ne_zero (Nat.ne_zero_of_lt hm)
          have hstep : iterateFuel body e (m + 1) s (c₁ ++ t') = iterateFuel body e m s₁ t' :=
            bind_apply_ok (hsame₁ t' (ht'.trans (List.prefix_append c₂ r)))
          rw [hstep]
          refine hcut₂ hs t' ht' (fun heq => hne (by rw [heq])) m ?_
          rw [List.length_append] at hm
          omega
        · have htc := (List.prefix_or_prefix_of_prefix ht (List.prefix_append c₁ c₂)).resolve_right hc
          exact hfirst hs t htc (fun heq => hc (heq ▸ List.prefix_rfl)) m hm

theorem tracks_iterate (s : σ) : Tracks short strict lax (iterate qbody e s) (iterate body e s) := by
  refine ⟨fun b a r h => ?_⟩
  obtain ⟨c, hc, hsame, hcut⟩ := iterateFuel_tracks hbody htakes _ s b a r h
  exact ⟨c, hc, fun s' hs' => hsame s' hs' _ (Nat.lt_succ_self _),
    fun hs t ht hne => hcut hs t ht hne _ (Nat.lt_succ_self _)⟩

end

/-! ### Reading back what was written -/

/-- The parser reads `a` from `c`, whatever follows. -/
def Reads (p : Parser τ ε α) (c : List τ) (a : α) : Prop := ∀ s, p (c ++ s) = .ok (a, s)

variable {c d : List τ} {a : α} {x : β}

theorem reads_pure (a : α) : Reads (pure a : Parser τ ε α) [] a := fun _ => rfl

theorem Reads.bind (hp : Reads p c a) (hf : Reads (f a) d x) : Reads (p >>= f) (c ++ d) x := by
  intro s
  rw [List.append_assoc, bind_apply_ok (hp (d ++ s))]
  exact hf s

theorem Reads.map (h : α → β) (hp : Reads p c a) : Reads (h <$> p) c (h a) := by
  intro s
  rw [map_apply, hp s]
  rfl

theorem Reads.nil (h : Reads p c a) : p c = .ok (a, []) := by
  simpa using h []

/-- Reading on after something that takes no input. -/
theorem Reads.after {q : Parser τ ε β} {g : β → Parser τ ε α} (hq : Reads q [] x) (hp : Reads (g x) c a) :
    Reads (q >>= g) c a := by
  simpa using hq.bind hp

theorem reads_lift {e : Except ε α} (h : e = .ok a) : Reads (liftM e : Parser τ ε α) [] a := by
  subst h
  exact fun _ => rfl

theorem reads_item (e : ε) (y : τ) : Reads (item e : Parser τ ε τ) [y] y := fun _ => rfl

theorem reads_take (e : ε) (h : c.length = n) : Reads (take e n : Parser τ ε (List τ)) c c := take_append h

theorem reads_many {write : α → List τ} {as : List α} (h : ∀ a ∈ as, Reads p (write a) a) :
    Reads (many p as.length) (as.flatMap write) as := by
  induction as with
  | nil => exact reads_pure []
  | cons a as ih =>
    have hrest := ih fun b hb => h b (List.mem_cons_of_mem a hb)
    have htail : Reads (many p as.length >>= fun as => pure (a :: as)) (as.flatMap write) (a :: as) := by
      simpa using hrest.bind (f := fun as => pure (a :: as)) (reads_pure (a :: as))
    exact (h a (List.mem_cons_self ..)).bind htail

theorem reads_each {δ : Type} {p : γ → Parser τ ε α} {kind : δ → γ} {value : δ → α} {xs : List δ}
    {parts : List (List τ)} (h : List.Forall₂ (fun x part => Reads (p (kind x)) part (value x)) xs parts) :
    Reads (each p (xs.map kind)) parts.flatten (xs.map value) := by
  induction h with
  | nil => exact reads_pure []
  | @cons x part xs parts hx _ ih =>
    have htail : Reads (each p (xs.map kind) >>= fun as => pure (value x :: as)) parts.flatten
        (value x :: xs.map value) := by
      simpa using ih.bind (f := fun as => pure (value x :: as)) (reads_pure (value x :: xs.map value))
    exact hx.bind htail

section

variable {σ : Type} {body : σ → Parser τ ε (σ ⊕ α)} {e : ε} {s s' : σ}

/-- More fuel does not change what the loop returns. -/
theorem iterateFuel_mono {m : Nat} {b : List τ} (hle : n ≤ m) (h : iterateFuel body e n s b = .ok (a, r)) :
    iterateFuel body e m s b = .ok (a, r) := by
  induction n generalizing m s b with
  | zero => cases h
  | succ n ih =>
    obtain ⟨m, rfl⟩ := Nat.exists_eq_succ_of_ne_zero (Nat.ne_zero_of_lt hle)
    obtain ⟨x, r₁, hround, hrest⟩ := bind_eq_ok h
    refine (bind_apply_ok hround).trans ?_
    cases x with
    | inl s₁ => exact ih (Nat.le_of_succ_le_succ hle) hrest
    | inr a' => exact hrest

/-- The loop goes on after a round that takes something. -/
theorem reads_iterate_next (h : Reads (body s) c (.inl s')) (hc : c ≠ []) (hrest : Reads (iterate body e s') d a) :
    Reads (iterate body e s) (c ++ d) a := by
  intro t
  rw [List.append_assoc]
  have hpos : 0 < c.length := List.length_pos_of_ne_nil hc
  have hlen : (d ++ t).length + 1 ≤ (c ++ (d ++ t)).length := by
    have hsum : (c ++ (d ++ t)).length = c.length + (d ++ t).length := List.length_append
    omega
  exact (bind_apply_ok (h (d ++ t))).trans (iterateFuel_mono hlen (hrest t))

/-- A loop with another state and another result that does the same in every round. -/
theorem iterate_map {ρ : Type} {body' : ρ → Parser τ ε (ρ ⊕ β)} (g : σ → ρ) (f : α → β)
    (h : ∀ s, body' (g s) = Sum.map g f <$> body s) (s : σ) : iterate body' e (g s) = f <$> iterate body e s := by
  have hfuel (n : Nat) (s : σ) : iterateFuel body' e n (g s) = f <$> iterateFuel body e n s := by
    induction n generalizing s with
    | zero => rfl
    | succ n ih =>
      rw [iterateFuel, iterateFuel, h, map_bind, bind_map_left]
      congr 1
      funext round
      cases round with
      | inl s' => exact ih s'
      | inr a => rfl
  funext b
  exact congrFun (hfuel _ s) b

end

/-! ### Extending the input -/

/-- What the parser accepts it accepts whatever follows. -/
def Extends (p : Parser τ ε α) : Prop := ∀ b a r s, p b = .ok (a, r) → p (b ++ s) = .ok (a, r ++ s)

theorem extends_pure (a : α) : Extends (pure a : Parser τ ε α) := by
  intro b x r s h
  cases h
  rfl

theorem extends_lift (x : Except ε α) : Extends (liftM x : Parser τ ε α) := by
  intro b a r s h
  obtain ⟨rfl, rfl⟩ := lift_eq_ok h
  rfl

theorem extends_item (e : ε) : Extends (item e : Parser τ ε τ) := by
  intro b a r s h
  cases b with
  | nil => cases h
  | cons x xs => cases h; rfl

theorem extends_take (e : ε) (n : Nat) : Extends (take e n : Parser τ ε (List τ)) := by
  intro b c r s h
  obtain ⟨rfl, hlen⟩ := take_eq_ok h
  rw [List.append_assoc]
  exact take_append hlen (r ++ s)

theorem Extends.bind (hp : Extends p) (hf : ∀ a, Extends (f a)) : Extends (p >>= f) := by
  intro b x r s h
  obtain ⟨a, r₁, hp₁, hf₁⟩ := bind_eq_ok h
  rw [bind_apply_ok (hp b a r₁ s hp₁)]
  exact hf a r₁ x r s hf₁

theorem extends_iterate {σ : Type} {body : σ → Parser τ ε (σ ⊕ α)} {e : ε} (hbody : ∀ s, Extends (body s)) (s : σ) :
    Extends (iterate body e s) := by
  have hfuel : ∀ n m s b a r s', n ≤ m → iterateFuel body e n s b = .ok (a, r) →
      iterateFuel body e m s (b ++ s') = .ok (a, r ++ s') := by
    intro n
    induction n with
    | zero => intro m s b a r s' _ h; cases h
    | succ n ih =>
      intro m s b a r s' hnm h
      obtain ⟨m, rfl⟩ := Nat.exists_eq_succ_of_ne_zero (Nat.ne_zero_of_lt hnm)
      obtain ⟨x, r₁, hround, hrest⟩ := bind_eq_ok h
      refine (bind_apply_ok (hbody s b x r₁ s' hround)).trans ?_
      cases x with
      | inl s₁ => exact ih m s₁ r₁ a r s' (Nat.le_of_succ_le_succ hnm) hrest
      | inr a' => cases hrest; rfl
  intro b a r s' h
  exact hfuel _ _ s b a r s' (by rw [List.length_append]; omega) h

/-! ### The loop over the messages of an input -/

/-- What a message does to the loop: read the next one, stop, or fail. -/
inductive Flow (ε σ : Type)
  | next (s : σ)
  | stop (s : σ)
  | fail (e : ε)

variable {σ : Type}

/-- Reads messages until the input is used up. A message has at least one item, so the length of the input is enough
fuel. -/
def scan (step : σ → Parser τ ε (Flow ε σ)) : Nat → σ → List τ → Except ε σ
  | 0, s, _ => .ok s
  | _ + 1, s, [] => .ok s
  | fuel + 1, s, x :: xs =>
    match step s (x :: xs) with
    | .error e => .error e
    | .ok (.next s, rest) => scan step fuel s rest
    | .ok (.stop s, _) => .ok s
    | .ok (.fail e, _) => .error e

/-- The loop reads the messages one after the other and ends with the result. -/
inductive Run (step : σ → Parser τ ε (Flow ε σ)) : σ → List (List τ) → Except ε σ → Prop
  | nil {s} : Run step s [] (.ok s)
  | next {s s' m ms result} (hm : m ≠ []) (h : step s (m ++ ms.flatten) = .ok (.next s', ms.flatten))
      (hrest : Run step s' ms result) : Run step s (m :: ms) result
  | stop {s s' m} (hm : m ≠ []) (h : step s m = .ok (.stop s', [])) : Run step s [m] (.ok s')
  | fail {s m e} (hm : m ≠ []) (h : step s m = .ok (.fail e, [])) : Run step s [m] (.error e)

variable {step : σ → Parser τ ε (Flow ε σ)} {s s' : σ} {b rest : List τ} {fuel : Nat}

@[simp] theorem scan_nil : scan step fuel s [] = .ok s := by
  cases fuel <;> rfl

theorem scan_next (hb : b ≠ []) (h : step s b = .ok (.next s', rest)) :
    scan step (fuel + 1) s b = scan step fuel s' rest := by
  cases b with
  | nil => exact absurd rfl hb
  | cons x xs => rw [scan, h]

private theorem exists_fuel (hb : b ≠ []) (hfuel : b.length ≤ fuel) : ∃ n, fuel = n + 1 := by
  have := List.length_pos_iff.2 hb
  exact ⟨fuel - 1, by omega⟩

theorem Run.ne_nil {result : Except ε σ} (h : Run step s ms result) : ∀ m ∈ ms, m ≠ [] := by
  induction h with
  | nil => exact nofun
  | next hm _ _ ih => exact List.forall_mem_cons.2 ⟨hm, ih⟩
  | stop hm _ | fail hm _ => exact List.forall_mem_singleton.2 hm

theorem scan_of_run {result : Except ε σ} (h : Run step s ms result) (hfuel : ms.flatten.length ≤ fuel) :
    scan step fuel s ms.flatten = result := by
  induction h generalizing fuel with
  | nil => exact scan_nil
  | @next s s' m ms result hm h _ ih =>
    rw [List.flatten_cons] at hfuel ⊢
    have hb : m ++ ms.flatten ≠ [] := by simp [hm]
    obtain ⟨n, rfl⟩ := exists_fuel hb hfuel
    rw [scan_next hb h]
    refine ih ?_
    have := List.length_pos_iff.2 hm
    rw [List.length_append] at hfuel
    omega
  | stop hm h | fail hm h =>
    rw [List.flatten_singleton] at hfuel ⊢
    obtain ⟨n, rfl⟩ := exists_fuel hm hfuel
    obtain ⟨x, xs, rfl⟩ := List.exists_cons_of_ne_nil hm
    rw [scan, h]

/-- A loop whose quiet messages do not depend on how much of the input follows ends normally after every message but
the last. -/
theorem scan_take {quiet : List τ → Prop} {whole step : σ → Parser τ ε (Flow ε σ)}
    (hquiet : ∀ s m r s', quiet m → whole s (m ++ r) = .ok (.next s', r) → ∀ r', r' <+: r →
      step s (m ++ r') = .ok (.next s', r')) {result : Except ε σ} (h : Run whole s ms result)
    (hms : ∀ m ∈ ms.dropLast, quiet m) {k : Nat} (hk : k < ms.length) (hfuel : (ms.take k).flatten.length ≤ fuel) :
    ∃ s', scan step fuel s (ms.take k).flatten = .ok s' := by
  induction h generalizing fuel k with
  | nil => exact absurd hk (Nat.not_lt_zero k)
  | @next s s' m ms result hm h _ ih =>
    cases k with
    | zero => exact ⟨s, scan_nil⟩
    | succ k =>
      have hk : k < ms.length := Nat.lt_of_succ_lt_succ hk
      have hne : ms ≠ [] := List.ne_nil_of_length_pos (Nat.zero_lt_of_lt hk)
      rw [List.dropLast_cons_of_ne_nil hne] at hms
      rw [List.take_succ_cons, List.flatten_cons] at hfuel ⊢
      have hprefix : (ms.take k).flatten <+: ms.flatten :=
        ⟨(ms.drop k).flatten, by rw [← List.flatten_append, List.take_append_drop]⟩
      have hstep := hquiet s m _ s' (hms m (List.mem_cons_self ..)) h _ hprefix
      have hb : m ++ (ms.take k).flatten ≠ [] := by simp [hm]
      obtain ⟨n, rfl⟩ := exists_fuel hb hfuel
      rw [scan_next hb hstep]
      refine ih (fun m' hm' => hms m' (List.mem_cons_of_mem _ hm')) hk ?_
      have := List.length_pos_iff.2 hm
      rw [List.length_append] at hfuel
      omega
  | stop hm h | fail hm h =>
    obtain rfl : k = 0 := by simpa using hk
    exact ⟨_, scan_nil⟩

/-- The loop asks for more input, or has used it up without having seen an end. -/
def Unfinished (short : ε → Prop) (pending : σ → Prop) (result : Except ε σ) : Prop :=
  (∃ e, result = .error e ∧ short e) ∨ ∃ s, pending s ∧ result = .ok s

section

variable {pending : σ → Prop} {quiet : List τ → Prop} {strictStep step : σ → Parser τ ε (Flow ε σ)}

/-- Of a message that is cut the loop makes no end. -/
private theorem unfinished_of_cut (hs : pending s)
    (hstarved : Starved short (fun flow => ∃ s', flow = .next s' ∧ pending s') (step s b)) (hfuel : b.length ≤ fuel) :
    Unfinished short pending (scan step fuel s b) := by
  by_cases hb : b = []
  · subst hb
    exact Or.inr ⟨s, hs, scan_nil⟩
  · obtain ⟨n, rfl⟩ := exists_fuel hb hfuel
    rcases hstarved with ⟨e, he, hshort⟩ | ⟨flow, ⟨s', rfl, hs'⟩, hok⟩
    · obtain ⟨x, xs, rfl⟩ := List.exists_cons_of_ne_nil hb
      exact Or.inl ⟨e, by rw [scan, he], hshort⟩
    · exact Or.inr ⟨s', hs', (scan_next hb hok).trans scan_nil⟩

/-- If the bodies track and no message but the last makes an end, then no proper prefix of the input does. -/
theorem unfinished_of_prefix
    (htracks : ∀ s, pending s →
      Tracks short True (fun flow => ∃ s', flow = .next s' ∧ pending s') (strictStep s) (step s))
    (hquiet : ∀ s m r s', pending s → quiet m → strictStep s (m ++ r) = .ok (.next s', r) → pending s')
    {result : Except ε σ} (h : Run strictStep s ms result) (hs : pending s) (hms : ∀ m ∈ ms.dropLast, quiet m)
    {t : List τ} (ht : t <+: ms.flatten) (hne : t ≠ ms.flatten) (hfuel : t.length ≤ fuel) :
    Unfinished short pending (scan step fuel s t) := by
  induction h generalizing fuel t with
  | nil => exact absurd (List.prefix_nil.1 ht) hne
  | @next s s' m ms result hm h _ ih =>
    obtain ⟨c, hc, hsame, hcut⟩ := (htracks s hs).follows _ _ _ h
    obtain rfl : m = c := List.append_cancel_right hc
    rw [List.flatten_cons] at ht hne
    by_cases hmt : m <+: t
    · obtain ⟨t', rfl⟩ := hmt
      have ht' : t' <+: ms.flatten := (List.prefix_append_right_inj m).1 ht
      have hne' : t' ≠ ms.flatten := fun heq => hne (by rw [heq])
      have hmore : ms ≠ [] := by
        rintro rfl
        exact hne' (List.prefix_nil.1 ht')
      rw [List.dropLast_cons_of_ne_nil hmore] at hms
      have hs' := hquiet s m _ s' hs (hms m (List.mem_cons_self ..)) h
      have hb : m ++ t' ≠ [] := by simp [hm]
      obtain ⟨n, rfl⟩ := exists_fuel hb hfuel
      rw [scan_next hb (hsame t' ht')]
      refine ih hs' (fun m' hm' => hms m' (List.mem_cons_of_mem _ hm')) ht' hne' ?_
      have := List.length_pos_iff.2 hm
      rw [List.length_append] at hfuel
      omega
    · have htm := (List.prefix_or_prefix_of_prefix ht (List.prefix_append m ms.flatten)).resolve_right hmt
      exact unfinished_of_cut hs (hcut trivial t htm fun heq => hmt (heq ▸ List.prefix_rfl)) hfuel
  | @stop s _ m hm h | @fail s m _ hm h =>
    rw [List.flatten_singleton] at ht hne
    obtain ⟨c, hc, _, hcut⟩ := (htracks s hs).follows m _ _ h
    obtain rfl : m = c := by simpa using hc
    exact unfinished_of_cut hs (hcut trivial t ht hne) hfuel

end

end Parser

end Lib
