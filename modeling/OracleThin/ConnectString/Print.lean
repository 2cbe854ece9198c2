import OracleThin.ConnectString.Clauses

/-!
# Printed pairs are read back

A line is a pair as it is printed, with the key that is read from it. A list of lines is read back to the node that
its pairs make up, if the values are read back: a plain text under a key that takes one, or a node that is not empty,
and not too deep.
-/

namespace OracleThin.ConnectString

open Lib

/-- What is needed of the characters of keywords. -/
structure Library.Lawful {δ : Type} (lib : Library δ) : Prop where
  letters : ∀ c : Char, c.isAlpha = true → lib.isAlphanumeric c = true
  equals : lib.isAlphanumeric '=' = false
  visible : ∀ c, lib.isAlphanumeric c = true → isWhitespace c = false

section

variable {δ : Type} {lib : Library δ} {raw : Text}

/-! ### White space -/

/-- The text does not start with white space, and neither does nothing before a parenthesis. -/
def Visible (cs : Text) : Prop := ∀ c ∈ cs.head?, isWhitespace c = false

variable {cs : Text}

theorem skipSpaces_of_visible (h : Visible cs) : skipSpaces cs = cs := by
  cases cs with
  | nil => rfl
  | cons c cs =>
    have hc : isWhitespace c = false := h c rfl
    simp [skipSpaces, hc]

theorem visible_cons {c : Char} (h : isWhitespace c = false) : Visible (c :: cs) := by
  intro c' hc'
  cases hc'
  exact h

theorem visible_append {rest : Text} (h : Visible cs) (hrest : Visible rest) : Visible (cs ++ rest) := by
  cases cs with
  | nil => exact hrest
  | cons c cs => exact visible_cons (h c rfl)

private theorem visible_of_trim (h : trim cs = cs) : Visible cs := by
  intro c hc
  cases cs with
  | nil => cases hc
  | cons c' cs =>
    cases hc
    by_contra hspace
    rw [Bool.not_eq_false] at hspace
    have hskip : skipSpaces (c :: cs) = skipSpaces cs := by simp [skipSpaces, hspace]
    have hle : (trim (c :: cs)).length ≤ cs.length := by
      calc (trim (c :: cs)).length ≤ (skipSpaces cs).length := by
            rw [trim, hskip]
            exact (List.rdropWhile_prefix _ _).length_le
        _ ≤ cs.length := (List.dropWhile_suffix _).length_le
    rw [h, List.length_cons] at hle
    omega

/-- A text in parentheses has no white space around it. -/
theorem trim_parens (body : Text) : trim (['('] ++ body ++ [')']) = ['('] ++ body ++ [')'] := by
  have hskip : skipSpaces (['('] ++ body ++ [')']) = ['('] ++ body ++ [')'] :=
    skipSpaces_of_visible (visible_cons (by decide))
  rw [trim, hskip]
  exact List.rdropWhile_concat_neg _ _ _ (by decide)

/-! ### Keys -/

/-- A key as it is written, and the key that is read. -/
structure ReadsKey (lib : Library δ) (written key : Text) : Prop where
  ne_nil : written ≠ []
  keyword : ∀ c ∈ written, isKeyword lib c = true
  name : canonicalParamName (toAsciiLowercase written) = key

private theorem isKeyword_visible (hlib : lib.Lawful) {c : Char} (h : isKeyword lib c = true) :
    isWhitespace c = false := by
  simp only [isKeyword, Bool.or_eq_true, decide_eq_true_eq] at h
  rcases h with (halpha | rfl) | rfl
  · exact hlib.visible c halpha
  · decide
  · decide

private theorem isKeyword_equals (hlib : lib.Lawful) : isKeyword lib '=' = false := by
  simp [isKeyword, hlib.equals]

/-- A key in letters. -/
def IsSpelling (written key : Text) : Prop :=
  (written.all fun c => c.isAlpha || c = '_') = true ∧ written ≠ [] ∧
  canonicalParamName (toAsciiLowercase written) = key

instance (written key : Text) : Decidable (IsSpelling written key) := inferInstanceAs (Decidable (_ ∧ _))

/-- The keys of the clauses are made of letters and underscores. -/
theorem readsKey_of_isSpelling (hlib : lib.Lawful) {written key : Text} (h : IsSpelling written key) :
    ReadsKey lib written key where
  ne_nil := h.2.1
  keyword := by
    intro c hc
    have hletter := List.all_eq_true.1 h.1 c hc
    rw [Bool.or_eq_true, decide_eq_true_eq] at hletter
    simp only [isKeyword, Bool.or_eq_true, decide_eq_true_eq]
    rcases hletter with halpha | hunderscore
    · exact Or.inl (Or.inl (hlib.letters c halpha))
    · exact Or.inl (Or.inr hunderscore)
  name := h.2.2

/-- A pair is read if the value behind its key is. -/
theorem parsePairWith_written (hlib : lib.Lawful) {read : Text → Text → Result (Option ArgValue × Text)}
    {written key text rest : Text} {value : Option ArgValue} (hkey : ReadsKey lib written key)
    (hvisible : Visible (text ++ ')' :: rest)) (hread : read key (text ++ ')' :: rest) = .ok (value, ')' :: rest)) :
    parsePairWith lib raw read (written ++ '=' :: (text ++ ')' :: rest)) = .ok ((key, value), skipSpaces rest) := by
  obtain ⟨c, cs, rfl⟩ : ∃ c cs, written = c :: cs := List.exists_cons_of_ne_nil hkey.ne_nil
  have hstart : skipSpaces ((c :: cs) ++ '=' :: (text ++ ')' :: rest)) = (c :: cs) ++ '=' :: (text ++ ')' :: rest) :=
    skipSpaces_of_visible (visible_cons (isKeyword_visible hlib (hkey.keyword c (List.mem_cons_self ..))))
  have htake : ((c :: cs) ++ '=' :: (text ++ ')' :: rest)).takeWhile (isKeyword lib) = c :: cs := by
    rw [List.takeWhile_append_of_pos hkey.keyword]
    simp [isKeyword_equals hlib]
  have hdrop : ((c :: cs) ++ '=' :: (text ++ ')' :: rest)).dropWhile (isKeyword lib) = '=' :: (text ++
    ')' :: rest) := by
    rw [List.dropWhile_append_of_pos hkey.keyword]
    simp [isKeyword_equals hlib]
  have hequals : skipSpaces ('=' :: (text ++ ')' :: rest)) = '=' :: (text ++ ')' :: rest) :=
    skipSpaces_of_visible (visible_cons (by decide))
  have hclose : parseClose raw (')' :: rest) = .ok (skipSpaces rest) := by
    rfl
  unfold parsePairWith
  simp only [hstart, htake, hdrop, hequals, List.tail_cons, skipSpaces_of_visible hvisible, hkey.name, hread]
  simp [hclose, bind, Except.bind, pure, Except.pure]

/-! ### Values -/

/-- A text that is read as it is. -/
def plain (text : Text) : Bool := text ≠ [] ∧ trim text = text ∧ text.all fun c => c ≠ '"' ∧ c ≠ '(' ∧ c ≠ ')'

private theorem parseSimpleValue_plain {text rest : Text}
    (h : (text.all fun c => c ≠ '"' ∧ c ≠ '(' ∧ c ≠ ')') = true) :
    parseSimpleValue raw (text ++ ')' :: rest) = .ok (text, ')' :: rest) := by
  induction text with
  | nil => rfl
  | cons c cs ih =>
    rw [List.all_cons, Bool.and_eq_true, decide_eq_true_eq] at h
    obtain ⟨⟨hquote, hopen, hclose⟩, hcs⟩ := h
    rw [List.cons_append, parseSimpleValue, if_neg hquote, if_neg hopen, if_neg hclose, ih hcs]
    rfl

/-- The text of the value of a key is read as the value, at a depth and with enough fuel. -/
structure ReadsValue (lib : Library δ) (raw : Text) (depth : Nat) (key text : Text) (value : Option ArgValue) :
    Prop where
  visible : Visible text
  reads : ∀ fuel, text.length < fuel → ∀ rest,
    parseValue lib raw fuel depth none key (text ++ ')' :: rest) = .ok (value, ')' :: rest)

theorem readsValue_nothing (depth : Nat) (key : Text) : ReadsValue lib raw depth key [] none where
  visible := nofun
  reads := by
    intro fuel hfuel rest
    cases fuel with
    | zero => exact absurd hfuel (by simp)
    | succ fuel => rfl

theorem readsValue_plain {text key : Text} (hplain : plain text = true) (hkey : isContainerParam key = false)
    (depth : Nat) :
    ReadsValue lib raw depth key text (some (.simple text)) := by
  simp only [plain, decide_eq_true_eq] at hplain
  obtain ⟨hne, htrim, hall⟩ := hplain
  have hvisible := visible_of_trim htrim
  refine ⟨hvisible, ?_⟩
  intro fuel hfuel rest
  obtain ⟨c, cs, rfl⟩ := List.exists_cons_of_ne_nil hne
  obtain ⟨fuel, rfl⟩ : ∃ n, fuel = n + 1 := ⟨fuel - 1, by omega⟩
  have hsimple : parseSimpleValue raw (c :: cs ++ ')' :: rest) = .ok (c :: cs,
    ')' :: rest) := parseSimpleValue_plain hall
  rw [List.all_cons, Bool.and_eq_true, decide_eq_true_eq] at hall
  obtain ⟨⟨hquote, hopen, hclose⟩, -⟩ := hall
  rw [List.cons_append] at hsimple ⊢
  rw [parseValue, if_neg hquote, if_neg hopen, if_neg hclose, if_neg (by simp [hvisible c rfl]),
    if_neg (by simp [hkey]),
    hsimple]
  simp only [bind, Except.bind, pure, Except.pure, htrim]

/-! ### Lines -/

/-- A pair that is printed: its key as it is written, the key that is read, and its value as it is written and
read. -/
structure Line where
  written : Text
  key : Text
  valueText : Text
  value : Option ArgValue

def Line.text (line : Line) : Text := ['('] ++ line.written ++ ['='] ++ line.valueText ++ [')']

def Line.pair (line : Line) : Text × Option ArgValue := (line.key, line.value)

def linesText (lines : List Line) : Text := lines.flatMap Line.text

/-- The line is read back at a depth. -/
structure ReadsLine (lib : Library δ) (raw : Text) (depth : Nat) (line : Line) : Prop where
  key : ReadsKey lib line.written line.key
  value : ReadsValue lib raw depth line.key line.valueText line.value

/-- The node that lines make up, after the pairs that are there. -/
def collectLines (node : Option ArgMap) (lines : List Line) : Option ArgMap :=
  if lines = [] then node else some ((lines.map Line.pair).foldl setPair (node.getD []))

private theorem collectLines_cons (node : Option ArgMap) (line : Line) (lines : List Line) :
    collectLines node (line :: lines) = collectLines (some (setPair (node.getD []) line.pair)) lines := by
  unfold collectLines
  rw [if_neg (List.cons_ne_nil _ _), List.map_cons, List.foldl_cons]
  split
  · rename_i hnil
    subst hnil
    rfl
  · rfl

private theorem visible_linesText (lines : List Line) (rest : Text) : Visible (linesText lines ++ ')' :: rest) := by
  cases lines with
  | nil => exact visible_cons (by decide)
  | cons line lines => exact visible_cons (by decide)

private theorem linesText_cons_append (line : Line) (lines : List Line) (rest : Text) :
    linesText (line :: lines) ++ rest =
      '(' :: (line.written ++ '=' :: (line.valueText ++ ')' :: (linesText lines ++ rest))) := by
  simp [linesText, Line.text]

private theorem parseValue_lines (hlib : lib.Lawful) {depth : Nat} {lines : List Line}
    (hdepth : depth < maxDescriptorDepth)
    (h : ∀ line ∈ lines, ReadsLine lib raw (depth + 1) line) {node : Option ArgMap} {fuel : Nat}
    (hfuel : (linesText lines).length < fuel) (key rest : Text) :
    parseValue lib raw fuel depth node key (linesText lines ++ ')' :: rest) =
      .ok ((collectLines node lines).map .node, ')' :: rest) := by
  induction lines generalizing node fuel with
  | nil =>
    obtain ⟨fuel, rfl⟩ : ∃ n, fuel = n + 1 := ⟨fuel - 1, by omega⟩
    rfl
  | cons line lines ih =>
    obtain ⟨fuel, rfl⟩ : ∃ n, fuel = n + 1 := ⟨fuel - 1, by omega⟩
    obtain ⟨hkey, hvalue⟩ := h line (List.mem_cons_self ..)
    have hlength : (linesText (line :: lines)).length =
        line.written.length + line.valueText.length + 3 + (linesText lines).length := by
      simp [linesText, Line.text]
      omega
    have hread := hvalue.reads fuel (by omega) (linesText lines ++ ')' :: rest)
    have hpair : parsePairWith lib raw (parseValue lib raw fuel (depth + 1) none)
        (line.written ++ '=' :: (line.valueText ++ ')' :: (linesText lines ++ ')' :: rest))) =
          .ok (line.pair, linesText lines ++ ')' :: rest) := by
      have hclose : Visible (')' :: (linesText lines ++ ')' :: rest)) := visible_cons (by decide)
      rw [parsePairWith_written hlib hkey (visible_append hvalue.visible hclose) hread,
        skipSpaces_of_visible (visible_linesText lines rest)]
      rfl
    rw [linesText_cons_append, parseValue, if_neg (by decide), if_pos rfl, if_neg (by omega), hpair,
      collectLines_cons]
    exact ih (fun line hline => h line (List.mem_cons_of_mem _ hline)) (by omega)

/-- A node of lines is read back. -/
theorem readsValue_lines (hlib : lib.Lawful) {depth : Nat} {lines : List Line} (hdepth : depth < maxDescriptorDepth)
    (h : ∀ line ∈ lines, ReadsLine lib raw (depth + 1) line) (key : Text) :
    ReadsValue lib raw depth key (linesText lines) ((collectLines none lines).map .node) where
  visible := by
    cases lines with
    | nil => exact nofun
    | cons line lines => exact visible_cons (by decide)
  reads := fun _ hfuel rest => parseValue_lines hlib hdepth h hfuel key rest

end

end OracleThin.ConnectString
