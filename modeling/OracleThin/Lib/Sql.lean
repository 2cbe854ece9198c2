import Mathlib

/-!
# Tokens of SQL texts

`tokenize` cuts an SQL text into words, quoted names, literals and symbols. The contents of literals are left out. It
fails at the end of the text inside quotes, and at characters that it does not know outside of quotes: those that
begin a comment are among them, and so is a quote directly behind a word, which may begin a literal with quotes of its
own choice.
-/

namespace Lib.Sql

inductive Token
  | word (text : List Char)
  | name (text : List Char)
  | literal
  | symbol (c : Char)
deriving DecidableEq, Repr

/-- Where the reader of a text is. A quote that ends a literal or a name may also be the first of two. -/
inductive Mode
  | plain
  | word (text : List Char)
  | literal
  | literalEnd
  | name (text : List Char)
  | nameEnd (text : List Char)
deriving DecidableEq, Repr

def isWordChar (c : Char) : Bool := c.isAlphanum || c == '_' || c == '$' || c == '#'

/-- A character outside of words and quotes. -/
def begin (c : Char) : Option (Mode × List Token) :=
  if c = '\'' then some (.literal, [])
  else if c = '"' then some (.name [], [])
  else if isWordChar c then some (.word [c], [])
  else if c = ' ' then some (.plain, [])
  else if c = '(' ∨ c = ')' ∨ c = ',' ∨ c = '=' then some (.plain, [.symbol c])
  else none

/-- A character that ends a token. -/
def beginAfter (token : Token) (c : Char) : Option (Mode × List Token) :=
  (begin c).map fun (mode, tokens) => (mode, token :: tokens)

namespace Mode

def step : Mode → Char → Option (Mode × List Token)
  | plain, c => begin c
  | word text, c =>
    if isWordChar c then some (word (text ++ [c]), [])
    else if c = '\'' ∨ c = '"' then none
    else beginAfter (.word text) c
  | literal, c => if c = '\'' then some (literalEnd, []) else some (literal, [])
  | literalEnd, c => if c = '\'' then some (literal, []) else beginAfter .literal c
  | name text, c => if c = '"' then some (nameEnd text, []) else some (name (text ++ [c]), [])
  | nameEnd text, c => if c = '"' then some (name (text ++ ['"']), []) else beginAfter (.name text) c

def finish : Mode → Option (List Token)
  | plain => some []
  | word text => some [.word text]
  | literalEnd => some [.literal]
  | nameEnd text => some [.name text]
  | _ => none

end Mode

def scan : Mode → List Char → Option (List Token)
  | mode, [] => mode.finish
  | mode, c :: cs => do
    let (mode, tokens) ← mode.step c
    let rest ← scan mode cs
    return tokens ++ rest

def tokenize (text : String) : Option (List Token) := scan .plain text.toList

example : tokenize "NOT (JSON_EXISTS(\"DATA\", '$.a?(@ == ''x'')'))" =
    some [.word "NOT".toList, .symbol '(', .word "JSON_EXISTS".toList, .symbol '(', .name "DATA".toList, .symbol ',',
      .literal, .symbol ')', .symbol ')'] := by decide

/-! ### Texts and their tokens -/

/-- The text begins with a character that ends every token. -/
def Delimits : List Char → Prop
  | [] => True
  | c :: _ => c = ' ' ∨ c = ')' ∨ c = ','

/-- The text has these tokens wherever something follows that ends a token. -/
def Spells (text : List Char) (tokens : List Token) : Prop :=
  ∀ rest, Delimits rest → scan .plain (text ++ rest) = (scan .plain rest).map (tokens ++ ·)

/-- The text has these tokens whatever follows. -/
def Fixed (text : List Char) (tokens : List Token) : Prop :=
  ∀ rest, scan .plain (text ++ rest) = (scan .plain rest).map (tokens ++ ·)

variable {text text' : List Char} {tokens tokens' : List Token}

theorem Fixed.spells (h : Fixed text tokens) : Spells text tokens := fun rest _ => h rest

theorem Spells.tokenize {s : String} (h : Spells s.toList tokens) : tokenize s = some tokens := by
  have hend := h [] trivial
  rw [List.append_nil] at hend
  rw [Sql.tokenize, hend]
  simp [scan, Mode.finish]

theorem Fixed.append (h : Fixed text tokens) (h' : Fixed text' tokens') :
    Fixed (text ++ text') (tokens ++ tokens') := by
  intro rest
  rw [List.append_assoc, h, h', Option.map_map]
  congr 1
  funext ts
  simp

theorem Fixed.spells_append (h : Fixed text tokens) (h' : Spells text' tokens') :
    Spells (text ++ text') (tokens ++ tokens') := by
  intro rest hrest
  rw [List.append_assoc, h, h' rest hrest, Option.map_map]
  congr 1
  funext ts
  simp

theorem Spells.fixed_append (h : Spells text tokens) (h' : Fixed text' tokens') (hne : text' ≠ [])
    (hdelimits : Delimits text') : Fixed (text ++ text') (tokens ++ tokens') := by
  intro rest
  have hrest : Delimits (text' ++ rest) := by
    cases text' with
    | nil => exact absurd rfl hne
    | cons c text' => exact hdelimits
  rw [List.append_assoc, h _ hrest, h', Option.map_map]
  congr 1
  funext ts
  simp

/-- Texts with a separator between them. -/
theorem spells_intercalate {sep : List Char} {mid : List Token} (hsep : Fixed sep mid) (hne : sep ≠ [])
    (hdelimits : Delimits sep) {texts : List (List Char)} {tokenss : List (List Token)}
    (h : List.Forall₂ Spells texts tokenss) : Spells (sep.intercalate texts) (mid.intercalate tokenss) := by
  induction h with
  | nil => intro rest _; simp [List.intercalate]
  | @cons text tokens texts tokenss hfirst hrest ih =>
    cases hrest with
    | nil => simpa [List.intercalate] using hfirst
    | cons =>
      have hjoined := (hfirst.fixed_append hsep hne hdelimits).spells_append ih
      simpa [List.intercalate, List.intersperse] using hjoined

/-! ### Constant texts -/

variable {mode mode' : Mode} {rest : List Char} {c : Char}

theorem scan_cons {tokens : List Token} (h : mode.step c = some (mode', tokens)) (rest : List Char) :
    scan mode (c :: rest) = (scan mode' rest).map (tokens ++ ·) := by
  rw [scan, h]
  cases hrest : scan mode' rest <;> simp [hrest]

theorem scan_silent (h : mode.step c = some (mode', [])) (rest : List Char) :
    scan mode (c :: rest) = scan mode' rest := by
  rw [scan_cons h]
  cases scan mode' rest <;> rfl

/-- Reads a part of a text. -/
def run : Mode → List Char → Option (Mode × List Token)
  | mode, [] => some (mode, [])
  | mode, c :: cs => do
    let (mode, tokens) ← mode.step c
    let (mode, rest) ← run mode cs
    return (mode, tokens ++ rest)

theorem scan_append (h : run mode text = some (mode', tokens)) (rest : List Char) :
    scan mode (text ++ rest) = (scan mode' rest).map (tokens ++ ·) := by
  induction text generalizing mode tokens with
  | nil =>
    cases h
    simp
  | cons c cs ih =>
    obtain ⟨⟨mode₁, tokens₁⟩, hstep, h⟩ := Option.bind_eq_some_iff.1 h
    obtain ⟨⟨mode₂, tokens₂⟩, hrun, h⟩ := Option.bind_eq_some_iff.1 h
    cases h
    rw [List.cons_append, scan_cons hstep, ih hrun, Option.map_map]
    congr 1
    funext ts
    simp

theorem fixed_of_run (h : run .plain text = some (.plain, tokens)) : Fixed text tokens := scan_append h

/-! ### Quotes -/

/-- A character that ends a token is read as if nothing were before it. -/
theorem scan_beginAfter {token : Token} (h : mode.step c = beginAfter token c) (rest : List Char) :
    scan mode (c :: rest) = (scan .plain (c :: rest)).map (token :: ·) := by
  rw [scan, scan, h, beginAfter, Mode.step]
  cases begin c with
  | none => rfl
  | some next =>
    obtain ⟨mode', tokens⟩ := next
    cases hrest : scan mode' rest with
    | none => simp [hrest]
    | some ts => simp [hrest]

theorem scan_word (word : List Char) (hrest : Delimits rest) :
    scan (.word word) rest = (scan .plain rest).map (.word word :: ·) := by
  cases rest with
  | nil => rfl
  | cons c rest =>
    have hstep : Mode.step (.word word) c = beginAfter (.word word) c := by
      rcases hrest with rfl | rfl | rfl
      · rfl
      · rfl
      · rfl
    exact scan_beginAfter hstep rest

/-- A text that ends in a word the run is still reading. -/
theorem spells_of_run {text word : List Char} {tokens : List Token}
    (h : run .plain text = some (.word word, tokens)) : Spells text (tokens ++ [.word word]) := by
  intro rest hrest
  rw [scan_append h, scan_word word hrest, Option.map_map]
  congr 1
  funext later
  simp

/-- Behind a token that has its last character, everything but one more quote is read as if nothing were before it. -/
theorem scan_finished {quote : Char} {token : Token} (hfinish : mode.finish = some [token])
    (hstep : ∀ c, c ≠ quote → mode.step c = beginAfter token c) (hrest : rest.head? ≠ some quote) :
    scan mode rest = (scan .plain rest).map (token :: ·) := by
  cases rest with
  | nil =>
    rw [scan, hfinish]
    rfl
  | cons c rest => exact scan_beginAfter (hstep c (by simpa using hrest)) rest

/-- Quoted contents with every quote doubled. The modes and the token know what has been read of the contents. -/
theorem scan_quoted {quote : Char} (inside ending : List Char → Mode) (token : List Char → Token)
    (hquote : ∀ text, (inside text).step quote = some (ending text, []))
    (htwo : ∀ text, (ending text).step quote = some (inside (text ++ [quote]), []))
    (hinside : ∀ text c, c ≠ quote → (inside text).step c = some (inside (text ++ [c]), []))
    (hfinish : ∀ text, (ending text).finish = some [token text])
    (hend : ∀ text c, c ≠ quote → (ending text).step c = beginAfter (token text) c)
    (text contents : List Char) (hrest : rest.head? ≠ some quote) :
    scan (inside text) ((contents.flatMap fun c => if c = quote then [quote, quote] else [c]) ++ quote :: rest) =
      (scan .plain rest).map (token (text ++ contents) :: ·) := by
  induction contents generalizing text with
  | nil =>
    rw [List.flatMap_nil, List.nil_append, scan_silent (hquote text), List.append_nil]
    exact scan_finished (hfinish text) (hend text) hrest
  | cons d contents ih =>
    rw [List.flatMap_cons, List.append_assoc, List.append_cons text d contents]
    by_cases hd : d = quote
    · rw [if_pos hd, List.cons_append, List.cons_append, List.nil_append, scan_silent (hquote text),
        scan_silent (htwo text), ih, hd]
    · rw [if_neg hd, List.cons_append, List.nil_append, scan_silent (hinside text d hd), ih]

theorem scan_literal (contents : List Char) (hrest : rest.head? ≠ some '\'') :
    scan .literal ((contents.flatMap fun c => if c = '\'' then ['\'', '\''] else [c]) ++ '\'' :: rest) =
      (scan .plain rest).map (.literal :: ·) :=
  scan_quoted (fun _ => .literal) (fun _ => .literalEnd) (fun _ => .literal) (fun _ => rfl) (fun _ => rfl)
    (fun _ _ h => if_neg h) (fun _ => rfl) (fun _ _ h => if_neg h) [] contents hrest

theorem scan_name (text contents : List Char) (hrest : rest.head? ≠ some '"') :
    scan (.name text) ((contents.flatMap fun c => if c = '"' then ['"', '"'] else [c]) ++ '"' :: rest) =
      (scan .plain rest).map (.name (text ++ contents) :: ·) :=
  scan_quoted .name .nameEnd .name (fun _ => rfl) (fun _ => rfl) (fun _ _ h => if_neg h) (fun _ => rfl)
    (fun _ _ h => if_neg h) text contents hrest

end Lib.Sql
