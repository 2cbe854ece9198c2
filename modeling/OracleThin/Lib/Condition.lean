import Mathlib

/-!
# Conditions as text

The condition of a query is text: predicates with AND, OR, NOT and parentheses between them. `value` reads it as a
query processor does, with AND tighter than OR and NOT tighter than both, and computes its truth value from the truth
values of the predicates. It first cuts the text into tokens (`lex`) and then runs a machine with a stack over them
(`run`).

Text that is put together from parts keeps the values of the parts if each part has the right level: an operand stands
anywhere, a conjunction stands in a conjunction, and any condition stands in parentheses.
-/

namespace Lib.Condition

/-! ### Tokens -/

inductive Token
  | atom (text : List Char)
  | leftParen
  | rightParen
  | and
  | or
  | not
deriving DecidableEq, Repr

/-- The way a token is written. -/
def Token.spell : Token → List Char
  | .atom text => text
  | .leftParen => ['(']
  | .rightParen => [')']
  | .and => [' ', 'A', 'N', 'D', ' ']
  | .or => [' ', 'O', 'R', ' ']
  | .not => ['N', 'O', 'T', ' ']

def spell (ts : List Token) : List Char := ts.flatMap Token.spell

@[simp] theorem spell_nil : spell [] = [] := rfl

@[simp] theorem spell_cons (t : Token) (ts : List Token) : spell (t :: ts) = t.spell ++ spell ts := rfl

@[simp] theorem spell_append (ts us : List Token) : spell (ts ++ us) = spell ts ++ spell us := List.flatMap_append

/-- Whether the text begins with AND or OR between blanks. -/
def startsConnective (text : List Char) : Bool :=
  [' ', 'A', 'N', 'D', ' '].isPrefixOf text || [' ', 'O', 'R', ' '].isPrefixOf text

def nextDepth (depth : Nat) (c : Char) : Nat :=
  if c = '(' then depth + 1 else if c = ')' then depth - 1 else depth

def nextQuote (c : Char) : Option Char := if c = '\'' ∨ c = '"' then some c else none

/-- Splits off a predicate. It ends at a closing parenthesis that it has not opened or at a connective, but not in
quotes or in its own parentheses. -/
def takePredicate : Nat → Option Char → List Char → List Char × List Char
  | _, _, [] => ([], [])
  | depth, some quote, c :: cs =>
    let (text, rest) := takePredicate depth (if c = quote then none else some quote) cs
    (c :: text, rest)
  | depth, none, c :: cs =>
    if depth = 0 ∧ (c = ')' ∨ startsConnective (c :: cs)) then ([], c :: cs)
    else
      let (text, rest) := takePredicate (nextDepth depth c) (nextQuote c) cs
      (c :: text, rest)

/-- Cuts a text into tokens. Every round takes at least one character. -/
def lexFuel : Nat → List Char → Option (List Token)
  | _, [] => some []
  | 0, _ => none
  | fuel + 1, c :: cs =>
    if c = ' ' then lexFuel fuel cs
    else if c = '(' then (.leftParen :: ·) <$> lexFuel fuel cs
    else if c = ')' then (.rightParen :: ·) <$> lexFuel fuel cs
    else if ['A', 'N', 'D', ' '].isPrefixOf (c :: cs) then (.and :: ·) <$> lexFuel fuel (cs.drop 3)
    else if ['O', 'R', ' '].isPrefixOf (c :: cs) then (.or :: ·) <$> lexFuel fuel (cs.drop 2)
    else if ['N', 'O', 'T', ' '].isPrefixOf (c :: cs) then (.not :: ·) <$> lexFuel fuel (cs.drop 3)
    else
      let (text, rest) := takePredicate 0 none (c :: cs)
      (.atom text :: ·) <$> lexFuel fuel rest

def lex (text : List Char) : Option (List Token) := lexFuel text.length text

/-! ### The value of a condition -/

/-- What has been read of a condition: whether a disjunct before the current one holds, whether the conjuncts of the
current one hold, and whether the next operand is negated. -/
structure Reading where
  any : Bool := false
  all : Bool := true
  negated : Bool := false
deriving DecidableEq, Repr

namespace Reading

def push (r : Reading) (b : Bool) : Reading := { r with all := r.all && (r.negated ^^ b), negated := false }

def disjoin (r : Reading) : Reading := { any := r.any || r.all }

def value (r : Reading) : Bool := r.any || r.all

end Reading

/-- The conditions around the current one, the current one, and whether an operand is expected. -/
structure State where
  outer : List Reading := []
  inner : Reading := {}
  expects : Bool := true
deriving DecidableEq, Repr

variable (v : List Char → Bool)

def step : Token → State → Option State
  | .atom text, ⟨outer, r, true⟩ => some ⟨outer, r.push (v text), false⟩
  | .not, ⟨outer, r, true⟩ => some ⟨outer, { r with negated := !r.negated }, true⟩
  | .leftParen, ⟨outer, r, true⟩ => some ⟨r :: outer, {}, true⟩
  | .rightParen, ⟨r' :: outer, r, false⟩ => some ⟨outer, r'.push r.value, false⟩
  | .and, ⟨outer, r, false⟩ => some ⟨outer, r, true⟩
  | .or, ⟨outer, r, false⟩ => some ⟨outer, r.disjoin, true⟩
  | _, _ => none

def run : List Token → State → Option State
  | [], s => some s
  | t :: ts, s => (step v t s).bind (run ts)

/-- The value of a text, if it is a condition. -/
def value (text : List Char) : Option Bool := do
  let ts ← lex text
  match ← run v ts {} with
  | ⟨[], r, false⟩ => some r.value
  | _ => none

variable {v}

theorem run_append (ts us : List Token) (s : State) : run v (ts ++ us) s = (run v ts s).bind (run v us) := by
  induction ts generalizing s with
  | nil => rfl
  | cons t ts ih =>
    rw [List.cons_append, run, run]
    cases step v t s with
    | none => rfl
    | some s' => exact ih s'

/-! ### Predicates -/

/-- Where the reader of a predicate is after a text that it reads without stopping: in how many parentheses and in
which quotes. A blank outside of both is followed by something that is not the beginning of a connective. -/
def track : Nat → Option Char → List Char → Option (Nat × Option Char)
  | depth, quote, [] => some (depth, quote)
  | depth, some quote, c :: cs => track depth (if c = quote then none else some quote) cs
  | depth, none, c :: cs =>
    if depth = 0 ∧ (c = ')' ∨ c = ' ' ∧ cs.head?.all fun c => c = 'A' ∨ c = 'O') then none
    else track (nextDepth depth c) (nextQuote c) cs

theorem track_append {depth : Nat} {quote : Option Char} {text : List Char} {place : Nat × Option Char}
    (h : track depth quote text = some place) (rest : List Char) :
    track depth quote (text ++ rest) = track place.1 place.2 rest := by
  induction text generalizing depth quote with
  | nil =>
    cases h
    rfl
  | cons c cs ih =>
    cases quote with
    | some quote => exact ih h
    | none =>
      rw [track] at h
      split at h
      · cases h
      · rename_i hgo
        rw [List.cons_append, track, if_neg, ih h]
        -- What follows a blank is the same with the rest behind it.
        rintro ⟨hdepth, hclose | ⟨hblank, hnext⟩⟩
        · exact hgo ⟨hdepth, Or.inl hclose⟩
        · refine hgo ⟨hdepth, Or.inr ⟨hblank, ?_⟩⟩
          cases cs with
          | nil => rfl
          | cons c' cs => exact hnext

/-- The text begins so that a predicate before it has ended. -/
def Stops (rest : List Char) : Prop := rest = [] ∨ rest.head? = some ')' ∨ startsConnective rest = true

private theorem startsConnective_second {c : Char} {cs : List Char} (h : startsConnective (c :: cs) = true) :
    c = ' ' ∧ cs.head?.all fun c => c = 'A' ∨ c = 'O' := by
  unfold startsConnective at h
  rw [Bool.or_eq_true, List.isPrefixOf_iff_prefix, List.isPrefixOf_iff_prefix] at h
  rcases h with h | h
  · obtain ⟨rest, h⟩ := h
    cases h
    exact ⟨rfl, rfl⟩
  · obtain ⟨rest, h⟩ := h
    cases h
    exact ⟨rfl, rfl⟩

theorem takePredicate_append {depth : Nat} {quote : Option Char} {text rest : List Char}
    (h : track depth quote text = some (0, none)) (hrest : Stops rest) :
    takePredicate depth quote (text ++ rest) = (text, rest) := by
  induction text generalizing depth quote with
  | nil =>
    cases h
    cases rest with
    | nil => rfl
    | cons c cs =>
      rw [List.nil_append, takePredicate, if_pos]
      rcases hrest with hnil | hclose | hconnective
      · cases hnil
      · exact ⟨rfl, Or.inl (by simpa using hclose)⟩
      · exact ⟨rfl, Or.inr hconnective⟩
  | cons c cs ih =>
    cases quote with
    | some quote =>
      rw [List.cons_append, takePredicate, ih h]
    | none =>
      rw [track] at h
      split at h
      · cases h
      · rename_i hgo
        rw [List.cons_append, takePredicate, if_neg, ih h]
        rintro ⟨hdepth, hclose | hconnective⟩
        · exact hgo ⟨hdepth, Or.inl hclose⟩
        · obtain ⟨hblank, hnext⟩ := startsConnective_second hconnective
          refine hgo ⟨hdepth, Or.inr ⟨hblank, ?_⟩⟩
          cases cs with
          | nil => rfl
          | cons c' cs => exact hnext

/-- A character that neither opens nor closes anything and is no blank. -/
structure Plain (c : Char) : Prop where
  not_open : c ≠ '('
  not_close : c ≠ ')'
  not_single : c ≠ '\''
  not_double : c ≠ '"'
  not_blank : c ≠ ' '

private theorem track_cons_plain {c : Char} (h : Plain c) (depth : Nat) (cs : List Char) :
    track depth none (c :: cs) = track depth none cs := by
  have hdepth : nextDepth depth c = depth := by rw [nextDepth, if_neg h.not_open, if_neg h.not_close]
  have hquote : nextQuote c = none := if_neg (by simp [h.not_single, h.not_double])
  rw [track, if_neg (by simp [h.not_close, h.not_blank]), hdepth, hquote]

theorem track_plain {cs : List Char} (h : ∀ c ∈ cs, Plain c) (depth : Nat) :
    track depth none cs = some (depth, none) := by
  induction cs with
  | nil => rfl
  | cons c cs ih =>
    rw [track_cons_plain (h c (by simp))]
    exact ih fun c hc => h c (List.mem_cons_of_mem _ hc)

/-- The text is one predicate, whatever stands around it. -/
structure IsPredicate (text : List Char) : Prop where
  tracks : track 0 none text = some (0, none)
  starts : ∃ c ∈ text.head?, c ∉ [' ', '(', ')', 'A', 'O', 'N']

/-! ### Tokens and their spelling -/

variable {ts : List Token} {texts : List (List Char)} {bs : List Bool}

/-- After an operand comes a connective, a closing parenthesis or nothing. -/
private theorem stops_spell {outer : List Reading} {r : Reading} (h : (run v ts ⟨outer, r, false⟩).isSome) :
    Stops (spell ts) := by
  cases ts with
  | nil => exact Or.inl rfl
  | cons t ts =>
    cases t with
    | atom | leftParen | not => cases h
    | rightParen => exact Or.inr (Or.inl rfl)
    | and => exact Or.inr (Or.inr rfl)
    | or => exact Or.inr (Or.inr rfl)

private theorem lexFuel_atom {text rest : List Char} (h : IsPredicate text) (hrest : Stops rest) (fuel : Nat) :
    lexFuel (fuel + 1) (text ++ rest) = (.atom text :: ·) <$> lexFuel fuel rest := by
  obtain ⟨c, hc, hstart⟩ := h.starts
  cases text with
  | nil => cases hc
  | cons c' cs =>
    obtain rfl : c' = c := by simpa using hc
    simp only [List.mem_cons, List.not_mem_nil, or_false, not_or] at hstart
    have htake := takePredicate_append h.tracks hrest
    rw [List.cons_append] at htake ⊢
    have hA : ¬['A', 'N', 'D', ' '].isPrefixOf (c' :: (cs ++ rest)) = true := by
      simp [Ne.symm hstart.2.2.2.1]
    have hO : ¬['O', 'R', ' '].isPrefixOf (c' :: (cs ++ rest)) = true := by
      simp [Ne.symm hstart.2.2.2.2.1]
    have hN : ¬['N', 'O', 'T', ' '].isPrefixOf (c' :: (cs ++ rest)) = true := by
      simp [Ne.symm hstart.2.2.2.2.2]
    rw [lexFuel, if_neg hstart.1, if_neg hstart.2.1, if_neg hstart.2.2.1, if_neg hA, if_neg hO, if_neg hN, htake]

/-- Tokens that the machine accepts are found again in their spelling. -/
theorem lexFuel_spell (hatoms : ∀ text, .atom text ∈ ts → IsPredicate text) {s : State} (h : (run v ts s).isSome)
    {fuel : Nat} (hfuel : (spell ts).length ≤ fuel) : lexFuel fuel (spell ts) = some ts := by
  induction ts generalizing s fuel with
  | nil =>
    cases fuel <;> rfl
  | cons t ts ih =>
    have htail : ∀ text, .atom text ∈ ts → IsPredicate text :=
      fun text hmem => hatoms text (List.mem_cons_of_mem t hmem)
    obtain ⟨s', hs', hrun⟩ : ∃ s', step v t s = some s' ∧ (run v ts s').isSome := by
      rw [run] at h
      cases hstep : step v t s with
      | none => rw [hstep] at h; cases h
      | some s' => rw [hstep] at h; exact ⟨s', rfl, h⟩
    have hrest : ∀ n, (spell ts).length ≤ n → lexFuel n (spell ts) = some ts := fun n hn => ih htail hrun hn
    rw [spell_cons, List.length_append] at hfuel
    cases t with
    | atom text =>
      have hpredicate := hatoms text (List.mem_cons_self ..)
      have hpos : 0 < text.length := by
        obtain ⟨c, hc, -⟩ := hpredicate.starts
        cases text with
        | nil => cases hc
        | cons c cs => exact Nat.succ_pos _
      have hstops : Stops (spell ts) := by
        obtain ⟨outer, r, expects⟩ := s
        cases expects with
        | false => cases hs'
        | true => cases hs'; exact stops_spell hrun
      simp only [Token.spell] at hfuel
      obtain ⟨fuel, rfl⟩ := Nat.exists_eq_succ_of_ne_zero (show fuel ≠ 0 by omega)
      rw [spell_cons, Token.spell, lexFuel_atom hpredicate hstops, hrest fuel (by omega)]
      rfl
    | leftParen | rightParen | not =>
      simp only [Token.spell, List.length_cons, List.length_nil] at hfuel
      obtain ⟨fuel, rfl⟩ := Nat.exists_eq_succ_of_ne_zero (show fuel ≠ 0 by omega)
      simp [Token.spell, lexFuel, hrest fuel (by omega)]
    | and | or =>
      simp only [Token.spell, List.length_cons, List.length_nil] at hfuel
      obtain ⟨fuel, rfl⟩ := Nat.exists_eq_add_of_le (show 2 ≤ fuel by omega)
      simp [Token.spell, lexFuel, Nat.add_comm 2 fuel, hrest fuel (by omega)]

/-! ### Levels -/

/-- The text is the spelling of the tokens. -/
structure Spelling (text : List Char) (ts : List Token) : Prop where
  eq : text = spell ts
  atoms : ∀ predicate, .atom predicate ∈ ts → IsPredicate predicate

theorem Spelling.append {text text' : List Char} {ts' : List Token} (h : Spelling text ts) (h' : Spelling text' ts') :
    Spelling (text ++ text') (ts ++ ts') where
  eq := by rw [h.eq, h'.eq, spell_append]
  atoms := fun predicate hmem => (List.mem_append.1 hmem).elim (h.atoms predicate) (h'.atoms predicate)

theorem spelling_predicate {text : List Char} (h : IsPredicate text) : Spelling text [.atom text] where
  eq := (List.append_nil text).symm
  atoms := fun predicate hmem => by
    cases List.mem_singleton.1 hmem
    exact h

theorem spelling_word (t : Token) (h : ∀ predicate, .atom predicate ≠ t) : Spelling t.spell [t] where
  eq := (List.append_nil t.spell).symm
  atoms := fun predicate hmem => absurd (List.mem_singleton.1 hmem) (h predicate)

variable (v) in
/-- The text has the value `b` and stands anywhere, also behind NOT. -/
def IsOperand (text : List Char) (b : Bool) : Prop :=
  ∃ ts, Spelling text ts ∧ ∀ outer r, run v ts ⟨outer, r, true⟩ = some ⟨outer, r.push b, false⟩

variable (v) in
/-- The text has the value `b` and stands between ANDs. -/
def IsConjunction (text : List Char) (b : Bool) : Prop :=
  ∃ ts, Spelling text ts ∧ ∀ outer r, r.negated = false → run v ts ⟨outer, r, true⟩ = some ⟨outer, r.push b, false⟩

variable (v) in
/-- The text has the value `b` if it stands alone or in parentheses. -/
def IsCondition (text : List Char) (b : Bool) : Prop :=
  ∃ ts, Spelling text ts ∧ ∀ outer, ∃ r, run v ts ⟨outer, {}, true⟩ = some ⟨outer, r, false⟩ ∧ r.value = b

section

variable {text : List Char} {b : Bool}

theorem IsOperand.isConjunction (h : IsOperand v text b) : IsConjunction v text b := by
  obtain ⟨ts, hts, hrun⟩ := h
  exact ⟨ts, hts, fun outer r _ => hrun outer r⟩

theorem IsConjunction.isCondition (h : IsConjunction v text b) : IsCondition v text b := by
  obtain ⟨ts, hts, hrun⟩ := h
  refine ⟨ts, hts, fun outer => ⟨_, hrun outer {} rfl, ?_⟩⟩
  simp [Reading.push, Reading.value]

theorem IsOperand.isCondition (h : IsOperand v text b) : IsCondition v text b := h.isConjunction.isCondition

theorem isOperand_predicate (h : IsPredicate text) : IsOperand v text (v text) :=
  ⟨[.atom text], spelling_predicate h, fun _ _ => rfl⟩

theorem IsCondition.paren (h : IsCondition v text b) : IsOperand v (['('] ++ text ++ [')']) b := by
  obtain ⟨ts, hts, hrun⟩ := h
  have hspelling := ((spelling_word .leftParen nofun).append hts).append (spelling_word .rightParen nofun)
  refine ⟨_, hspelling, fun outer r => ?_⟩
  obtain ⟨r', hr', hvalue⟩ := hrun (r :: outer)
  show run v (ts ++ [.rightParen]) ⟨r :: outer, {}, true⟩ = _
  rw [run_append, hr', ← hvalue]
  rfl

theorem IsOperand.not (h : IsOperand v text b) : IsOperand v (['N', 'O', 'T', ' '] ++ text) (!b) := by
  obtain ⟨ts, hts, hrun⟩ := h
  refine ⟨[.not] ++ ts, (spelling_word .not nofun).append hts, fun outer r => ?_⟩
  show run v ts ⟨outer, { r with negated := !r.negated }, true⟩ = _
  rw [hrun]
  simp [Reading.push]

end

/-! ### Joining -/

theorem intercalate_cons_cons {α : Type} (sep x y : List α) (xs : List (List α)) :
    sep.intercalate (x :: y :: xs) = x ++ sep ++ sep.intercalate (y :: xs) := by
  simp [List.intercalate, List.intersperse]

/-- Conjunctions with AND between them. -/
theorem isConjunction_join (h : List.Forall₂ (IsConjunction v) texts bs) (hne : texts ≠ []) :
    IsConjunction v ([' ', 'A', 'N', 'D', ' '].intercalate texts) (bs.all id) := by
  induction h with
  | nil => exact absurd rfl hne
  | @cons text b texts bs h htail ih =>
    cases htail with
    | nil => simpa [List.intercalate, List.intersperse] using h
    | @cons text' b' texts bs h' htail =>
      obtain ⟨ts, hts, hrun⟩ := h
      obtain ⟨us, hus, hrun'⟩ := ih (List.cons_ne_nil _ _)
      rw [intercalate_cons_cons]
      refine ⟨ts ++ [.and] ++ us, (hts.append (spelling_word .and nofun)).append hus, fun outer r hr => ?_⟩
      rw [List.append_assoc, run_append, hrun outer r hr]
      show run v us ⟨outer, r.push b, true⟩ = _
      rw [hrun' outer _ rfl]
      simp [Reading.push, hr, Bool.and_assoc]

/-- Operands with OR between them. The disjuncts before the first one are kept. -/
private theorem run_join_or (h : List.Forall₂ (IsOperand v) texts bs) (hne : texts ≠ []) :
    ∃ ts, Spelling ([' ', 'O', 'R', ' '].intercalate texts) ts ∧
      ∀ outer any, ∃ r, run v ts ⟨outer, { any }, true⟩ = some ⟨outer, r, false⟩ ∧ r.value = (any || bs.any id) := by
  induction h with
  | nil => exact absurd rfl hne
  | @cons text b texts bs h htail ih =>
    obtain ⟨ts, hts, hrun⟩ := h
    cases htail with
    | nil =>
      refine ⟨ts, by simpa [List.intercalate, List.intersperse] using hts, fun outer any => ⟨_, hrun outer _, ?_⟩⟩
      simp [Reading.push, Reading.value]
    | @cons text' b' texts bs h' htail =>
      obtain ⟨us, hus, hrun'⟩ := ih (List.cons_ne_nil _ _)
      rw [intercalate_cons_cons]
      refine ⟨ts ++ [.or] ++ us, (hts.append (spelling_word .or nofun)).append hus, fun outer any => ?_⟩
      obtain ⟨r, hr, hvalue⟩ := hrun' outer (any || b)
      refine ⟨r, ?_, ?_⟩
      · rw [List.append_assoc, run_append, hrun outer]
        show run v us ⟨outer, (Reading.push { any } b).disjoin, true⟩ = _
        simpa [Reading.push, Reading.disjoin] using hr
      · rw [hvalue]
        simp [Bool.or_assoc]

theorem isCondition_join (h : List.Forall₂ (IsOperand v) texts bs) (hne : texts ≠ []) :
    IsCondition v ([' ', 'O', 'R', ' '].intercalate texts) (bs.any id) := by
  obtain ⟨ts, hts, hrun⟩ := run_join_or h hne
  refine ⟨ts, hts, fun outer => ?_⟩
  obtain ⟨r, hr, hvalue⟩ := hrun outer false
  exact ⟨r, hr, by rw [hvalue, Bool.false_or]⟩

/-- A condition has the value that is read off its text. -/
theorem value_of_isCondition {text : List Char} {b : Bool} (h : IsCondition v text b) : value v text = some b := by
  obtain ⟨ts, hts, hrun⟩ := h
  obtain ⟨r, hr, hvalue⟩ := hrun []
  have hsome : (run v ts {}).isSome := by
    show (run v ts ⟨[], {}, true⟩).isSome
    rw [hr]
    rfl
  have hlex : lex text = some ts := by
    rw [hts.eq]
    exact lexFuel_spell hts.atoms hsome le_rfl
  have hr' : run v ts {} = some ⟨[], r, false⟩ := hr
  simp only [value, hlex, hr', hvalue, bind, Option.bind]

end Lib.Condition
