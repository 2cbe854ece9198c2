import OracleThin.Lib.Transition
import OracleThin.Ttc.Value

/-!
# The cache of statement shapes

All connections share a cache of the column shapes of statements, under keys that are texts without superfluous white
space. Every description of a statement is observed in the cache: a shape that differs from the recorded one replaces
it with the next generation. As long as a statement is not forgotten, the generations of its observations identify
their shapes.
-/

namespace OracleThin.ShapeCache

open Lib Ttc

/-! ### Keys -/

def isAsciiWhitespace (c : Char) : Bool := c = ' ' ∨ c = '\t' ∨ c = '\n' ∨ c.toNat = 12 ∨ c = '\r'

/-- The loop of `normalize_sql`, with the quote of the literal it is in and whether a space is pending. -/
def normalize : Option Char → Bool → List Char → List Char
  | _, _, [] => []
  | some _, _, [c] => [c]
  | some quote, _, c :: d :: cs =>
    if c = quote then
      if d = quote then c :: d :: normalize (some quote) false cs else c :: normalize none false (d :: cs)
    else c :: normalize (some quote) false (d :: cs)
  | none, pending, c :: cs =>
    if c = '\'' ∨ c = '"' then (if pending then [' '] else []) ++ c :: normalize (some c) false cs
    else if isAsciiWhitespace c then normalize none true cs
    else (if pending then [' '] else []) ++ c :: normalize none false cs

def normalizeSql (sql : String) : List Char := normalize none false (sql.toList.dropWhile isAsciiWhitespace)

example : normalizeSql " select\t'a  ''b'  from \"t  u\" " = "select 'a  ''b' from \"t  u\"".toList := by decide

/-! ### Observations -/

structure ColumnShapeEntry where
  name : String
  oraTypeNum : UInt8
  csfrm : UInt8
  precision : Int
  scale : Int
  maxSize : Nat
  nullsAllowed : Bool
  vectorFormat : UInt8
  vectorFlags : UInt8
  vectorDimensions : Option Nat
deriving DecidableEq

def ColumnShapeEntry.fromColumn (column : ColumnMetadata) : ColumnShapeEntry :=
  { column with }

abbrev ColumnShape := List ColumnShapeEntry

structure CachedShape where
  shape : ColumnShape
  generation : Nat

structure ShapeObservation where
  generation : Nat
  selfHealed : Bool := false
  firstSeen : Bool := false

abbrev Cache := List Char → Option CachedShape

-- The counter is of 64 bits.
def observe (cache : Cache) (sql : String) (columns : List ColumnMetadata) : ShapeObservation × Cache :=
  let shape := columns.map .fromColumn
  if shape = [] then (⟨0, false, false⟩, cache)
  else
    let key := normalizeSql sql
    match cache key with
    | none => (⟨1, false, true⟩, Function.update cache key (some ⟨shape, 1⟩))
    | some entry =>
      if entry.shape = shape then (⟨entry.generation, false, false⟩, cache)
      else
        let generation := (entry.generation + 1) % 2 ^ 64
        (⟨generation, true, false⟩, Function.update cache key (some ⟨shape, generation⟩))

def invalidate (cache : Cache) (sql : String) : Bool × Cache :=
  ((cache (normalizeSql sql)).isSome, Function.update cache (normalizeSql sql) none)

/-! ### Histories -/

inductive Call
  | observe (sql : String) (columns : List ColumnMetadata)
  | invalidate (sql : String)

/-- The cache, and what the observations of one key saw and reported so far. -/
structure World where
  cache : Cache := fun _ => none
  seen : List CachedShape := []

def step (key : List Char) (w : World) : Call → Option World
  | .observe sql columns => some {
      cache := (observe w.cache sql columns).2
      seen :=
        if normalizeSql sql = key then
          w.seen ++ [⟨columns.map .fromColumn, (observe w.cache sql columns).1.generation⟩]
        else w.seen }
  | .invalidate sql => some { w with cache := (invalidate w.cache sql).2 }

/-- The generation does not go down, and stays the same only with the shape. -/
def CachedShape.Precedes (a b : CachedShape) : Prop :=
  a.generation ≤ b.generation ∧ (a.generation = b.generation → a.shape = b.shape)

instance (a b : CachedShape) : Decidable (a.Precedes b) := inferInstanceAs (Decidable (_ ∧ _))

theorem CachedShape.Precedes.refl (a : CachedShape) : a.Precedes a := ⟨le_rfl, fun _ => rfl⟩

theorem CachedShape.Precedes.trans {a b c : CachedShape} (h : a.Precedes b) (h' : b.Precedes c) : a.Precedes c := by
  refine ⟨h.1.trans h'.1, fun heq => ?_⟩
  have hab : a.generation = b.generation := le_antisymm h.1 (heq ▸ h'.1)
  exact (h.2 hab).trans (h'.2 (hab ▸ heq))

/-- The generations of the key do not decrease, and observations with the same one saw the same shape. -/
def Identifies (w : World) : Prop := w.seen.Pairwise CachedShape.Precedes

instance : DecidablePred Identifies := fun w => inferInstanceAs (Decidable (w.seen.Pairwise _))

/-- The key is not forgotten once it is recorded, its statement is not described without columns then, and the
generation can go up. -/
def Remembers (key : List Char) (w : World) : Call → Prop
  | .observe sql columns =>
    normalizeSql sql = key → ∀ entry ∈ w.cache key, columns ≠ [] ∧ entry.generation + 1 < 2 ^ 64
  | .invalidate sql => normalizeSql sql = key → w.cache key = none

/-- What is recorded under a key, or no columns in generation 0. -/
def Cache.recorded (cache : Cache) (key : List Char) : CachedShape := (cache key).getD ⟨[], 0⟩

variable {cache : Cache} {sql : String} {columns : List ColumnMetadata} {key : List Char}

private theorem recorded_observe
    (h : ∀ entry ∈ cache (normalizeSql sql), columns ≠ [] ∧ entry.generation + 1 < 2 ^ 64) :
    (cache.recorded (normalizeSql sql)).Precedes ⟨columns.map .fromColumn, (observe cache sql columns).1.generation⟩ ∧
      Cache.recorded (observe cache sql columns).2 (normalizeSql sql) =
        ⟨columns.map .fromColumn, (observe cache sql columns).1.generation⟩ := by
  unfold observe Cache.recorded
  dsimp only
  cases hentry : cache (normalizeSql sql) with
  | none =>
    by_cases hcolumns : columns = []
    · subst hcolumns
      simp [hentry, CachedShape.Precedes]
    · simp [hcolumns, CachedShape.Precedes]
  | some entry =>
    obtain ⟨hcolumns, hlt⟩ := h entry hentry
    rw [if_neg (by simpa using hcolumns)]
    dsimp only
    split <;> dsimp only
    · rename_i hshape
      rw [← hshape, hentry]
      exact ⟨.refl _, rfl⟩
    · rw [Nat.mod_eq_of_lt hlt, Function.update_self]
      exact ⟨⟨Nat.le_succ _, fun heq => absurd heq (Nat.lt_succ_self _).ne⟩, rfl⟩

private theorem observe_of_ne (h : normalizeSql sql ≠ key) : (observe cache sql columns).2 key = cache key := by
  unfold observe
  dsimp only
  repeat' split
  all_goals first | rfl | exact Function.update_of_ne h.symm ..

/-- Every observation so far precedes what is recorded. -/
def Recorded (key : List Char) (w : World) : Prop := ∀ o ∈ w.seen, o.Precedes (w.cache.recorded key)

private theorem identifies_step {w w' : World} {call : Call} (hok : Remembers key w call)
    (h : Identifies w ∧ Recorded key w) (hs : step key w call = some w') : Identifies w' ∧ Recorded key w' := by
  obtain ⟨hid, hrec⟩ := h
  cases call with
  | invalidate sql =>
    obtain rfl := Option.some.inj hs
    have hcache : (invalidate w.cache sql).2 key = w.cache key := by
      by_cases hkey : normalizeSql sql = key
      · rw [hok hkey, ← hkey]
        exact Function.update_self ..
      · exact Function.update_of_ne (Ne.symm hkey) ..
    exact ⟨hid, by simpa only [Recorded, Cache.recorded, hcache] using hrec⟩
  | observe sql columns =>
    obtain rfl := Option.some.inj hs
    by_cases hkey : normalizeSql sql = key
    · subst hkey
      obtain ⟨hnext, hnew⟩ := recorded_observe (hok rfl)
      have hold := fun o ho => (hrec o ho).trans hnext
      simp only [Identifies, Recorded, hnew, if_true]
      refine ⟨List.pairwise_append.2 ⟨hid, List.pairwise_singleton .., by simpa using hold⟩, ?_⟩
      intro o ho
      rcases List.mem_append.1 ho with ho | ho
      · exact hold o ho
      · rw [List.mem_singleton.1 ho]
        exact .refl _
    · simp only [Identifies, Recorded, Cache.recorded, if_neg hkey, observe_of_ne hkey]
      exact ⟨hid, hrec⟩

end OracleThin.ShapeCache
