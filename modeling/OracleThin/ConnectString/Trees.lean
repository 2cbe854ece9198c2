import OracleThin.ConnectString.Collect

/-!
# The trees of the parser

Every tree that the parser builds is well formed: its nodes are collected, and its keys are read again from upper
case. A well formed tree whose texts are plain and whose nodes are not empty is printed to a text that is read back as
the tree.
-/

namespace OracleThin.ConnectString

open Lib

section

variable {δ : Type} {lib : Library δ} {raw : Text}

/-! ### Keys -/

/-- A key that was read is written in upper case and read again. -/
def IsKey (lib : Library δ) (key : Text) : Prop := ReadsKey lib (toAsciiUppercase key) key

private theorem isKeyword_toUpper_toLower (hlib : lib.Lawful) {c : Char} (h : isKeyword lib c = true) :
    isKeyword lib c.toLower.toUpper = true := by
  by_cases halpha : c.isAlpha = true
  · have hletter : c.toLower.toUpper.isAlpha = true := by simpa using halpha
    simp only [isKeyword, hlib.letters _ hletter, Bool.true_or]
  · -- Other characters have no case.
    simp only [Char.isAlpha, Bool.or_eq_true, not_or] at halpha
    rwa [Char.toLower_eq_of_not_isUpper halpha.1, Char.toUpper_eq_of_not_isLower halpha.2]

/-- The names that stand for other names. -/
private theorem canonicalParamName_cases (name : Text) : canonicalParamName name = name ∨
    canonicalParamName name ∈
      ["cclass".toList, "purity".toList, "server_type".toList, "tcp_connect_timeout".toList,
        "wallet_location".toList] := by
  unfold canonicalParamName
  split_ifs <;> simp

variable {cs rest key name : Text} {depth fuel n : Nat} {value : ArgValue} {pair : Text × Option ArgValue}
  {read : Text → Text → Result (Option ArgValue × Text)} {node : Option ArgMap}

private theorem isKey_canonical (hlib : lib.Lawful) {rawName : Text} (hne : rawName ≠ [])
    (hkeyword : ∀ c ∈ rawName, isKeyword lib c = true) :
    IsKey lib (canonicalParamName (toAsciiLowercase rawName)) := by
  rcases canonicalParamName_cases (toAsciiLowercase rawName) with hsame | hother
  · refine ⟨?_, ?_, ?_⟩
    · rw [hsame]
      simpa [toAsciiUppercase, toAsciiLowercase] using hne
    · rw [hsame]
      intro c hc
      simp only [toAsciiUppercase, toAsciiLowercase, List.map_map, List.mem_map, Function.comp_apply] at hc
      obtain ⟨c, hc, rfl⟩ := hc
      exact isKeyword_toUpper_toLower hlib (hkeyword c hc)
    · have hlower : toAsciiLowercase (toAsciiUppercase (toAsciiLowercase rawName)) = toAsciiLowercase rawName := by
        simp [toAsciiLowercase, toAsciiUppercase, Function.comp_def]
      rw [hsame, hlower, hsame]
  · simp only [List.mem_cons, List.not_mem_nil, or_false] at hother
    rcases hother with hother | hother | hother | hother | hother <;> rw [hother] <;>
      exact readsKey_of_isSpelling hlib (by decide)

/-! ### Well formed trees -/

inductive WellFormed (lib : Library δ) : ArgValue → Prop
  | simple (text : Text) : WellFormed lib (.simple text)
  | node {entries : ArgMap} (collected : Collected entries)
      (isKey : ∀ entry ∈ entries, ∀ value ∈ entry.2, IsKey lib entry.1)
      (wellFormed : ∀ entry ∈ entries, ∀ value ∈ entry.2, WellFormed lib value) :
      WellFormed lib (.node entries)

private theorem collected_nil : Collected [] := ⟨List.nodup_nil, nofun, nofun⟩

theorem wellFormed_nil : WellFormed lib (.node []) := .node collected_nil nofun nofun

private theorem wellFormed_addressWrapper (hlib : lib.Lawful) (h : WellFormed lib value) :
    WellFormed lib (addressWrapper value) := by
  have hkey : IsKey lib "address".toList := readsKey_of_isSpelling hlib (by decide)
  have hapart : ¬ ("address".toList ∈ ["address".toList] ∧ "address_list".toList ∈ ["address".toList]) := by decide
  refine .node ⟨by simp [keys], by simp, hapart⟩ ?_ ?_
  · intro entry hentry v hv
    rw [List.mem_singleton] at hentry
    subst hentry
    exact hkey
  · intro entry hentry v hv
    rw [List.mem_singleton] at hentry
    subst hentry
    rw [List.mem_singleton] at hv
    subst hv
    exact h

/-- A pair with a good key and a good value. -/
def WellFormedPair (lib : Library δ) (pair : Text × Option ArgValue) : Prop :=
  IsKey lib pair.1 ∧ ∀ value ∈ pair.2, WellFormed lib value

theorem wellFormed_setPair (hlib : lib.Lawful) {map : ArgMap} (h : WellFormed lib (.node map))
    (hpair : WellFormedPair lib pair) : WellFormed lib (.node (setPair map pair)) := by
  obtain ⟨key, value⟩ := pair
  cases value with
  | none => exact h
  | some value =>
    cases h with
    | node collected isKey wellFormed =>
      have hlist : IsKey lib "address_list".toList := readsKey_of_isSpelling hlib (by decide)
      obtain ⟨hcollected, hvalues⟩ := setDescriptorArg_keeps
        (P := fun key value => IsKey lib key ∧ WellFormed lib value)
        (fun value hvalue => ⟨hlist, wellFormed_addressWrapper hlib hvalue.2⟩) collected
        (fun entry hentry v hv => ⟨isKey entry hentry v hv, wellFormed entry hentry v hv⟩)
          ⟨hpair.1, hpair.2 value rfl⟩
      exact .node hcollected (fun entry hentry v hv => (hvalues entry hentry v hv).1)
        fun entry hentry v hv => (hvalues entry hentry v hv).2

/-! ### What the parser reads -/

private theorem length_skipSpaces_le (cs : Text) : (skipSpaces cs).length ≤ cs.length :=
  (List.dropWhile_suffix _).length_le

private theorem parseQuotedString_length {body : Text} (h : parseQuotedString raw cs = .ok (body, rest)) :
    rest.length ≤ cs.length := by
  induction cs generalizing body with
  | nil => cases h
  | cons c cs ih =>
    rw [parseQuotedString] at h
    split at h
    · cases h
      simp
    · obtain ⟨⟨body₁, rest₁⟩, hbody, h⟩ := except_bind_eq_ok.1 h
      cases h
      have := ih hbody
      simp only [List.length_cons]
      omega

private theorem parseSimpleValue_length {body : Text} (h : parseSimpleValue raw cs = .ok (body, rest)) :
    rest.length ≤ cs.length := by
  induction cs generalizing body with
  | nil =>
    cases h
    exact le_rfl
  | cons c cs ih =>
    rw [parseSimpleValue] at h
    split at h
    · cases h
    · split at h
      · cases h
      · split at h
        · cases h
          exact le_rfl
        · obtain ⟨⟨body₁, rest₁⟩, hbody, h⟩ := except_bind_eq_ok.1 h
          cases h
          have := ih hbody
          simp only [List.length_cons]
          omega

private theorem parseClose_length (h : parseClose raw cs = .ok rest) : rest.length ≤ cs.length := by
  have hskip := length_skipSpaces_le cs
  unfold parseClose at h
  split at h
  · cases h
  · rename_i c cs' heq
    split at h
    · cases h
      have hrest := length_skipSpaces_le cs'
      rw [heq, List.length_cons] at hskip
      omega
    · cases h

/-- Where the value of a pair starts. -/
private theorem length_afterName (cs : Text) :
    (skipSpaces (skipSpaces ((skipSpaces cs).dropWhile (isKeyword lib))).tail).length ≤ cs.length := by
  have h₁ := length_skipSpaces_le (skipSpaces ((skipSpaces cs).dropWhile (isKeyword lib))).tail
  have h₂ := length_skipSpaces_le ((skipSpaces cs).dropWhile (isKeyword lib))
  have h₃ : ((skipSpaces cs).dropWhile (isKeyword lib)).length ≤ (skipSpaces cs).length :=
    (List.dropWhile_suffix _).length_le
  have h₄ := length_skipSpaces_le cs
  rw [List.length_tail] at h₁
  omega

/-- A reader of values that does not go back in the text, and only reads well formed values. -/
def ReadsWellFormed (lib : Library δ) (read : Text → Text → Result (Option ArgValue × Text)) : Prop :=
  ∀ name cs value rest, read name cs = .ok (value, rest) →
    rest.length ≤ cs.length ∧ (lib.Lawful → ∀ v ∈ value, WellFormed lib v)

theorem wellFormedPair_parsePairWith (hread : ReadsWellFormed lib read)
    (h : parsePairWith lib raw read cs = .ok (pair, rest)) :
    rest.length ≤ cs.length ∧ (lib.Lawful → WellFormedPair lib pair) := by
  have hstart : (skipSpaces (skipSpaces ((skipSpaces cs).dropWhile (isKeyword lib))).tail).length ≤ cs.length :=
    length_afterName cs
  unfold parsePairWith at h
  dsimp only at h
  split at h
  · cases h
  · rename_i hne
    split at h
    · obtain ⟨⟨value, rest₁⟩, hvalue, h⟩ := except_bind_eq_ok.1 h
      obtain ⟨rest₂, hclose, h⟩ := except_bind_eq_ok.1 h
      cases h
      obtain ⟨hrest, hwell⟩ := hread _ _ _ _ hvalue
      have hclosed : rest.length ≤ rest₁.length := parseClose_length hclose
      exact ⟨by omega, fun hlib => ⟨isKey_canonical hlib hne fun c hc => List.mem_takeWhile_imp hc, hwell hlib⟩⟩
    · cases h

/-- Whatever the parser reads as a value is well formed, if the pairs that are there are. -/
theorem wellFormed_parseValue {value : Option ArgValue}
    (hnode : lib.Lawful → ∀ map ∈ node, WellFormed lib (.node map))
    (h : parseValue lib raw fuel depth node name cs = .ok (value, rest)) :
    rest.length ≤ cs.length ∧ (lib.Lawful → ∀ v ∈ value, WellFormed lib v) := by
  induction fuel generalizing depth node name cs rest value with
  | zero => cases h
  | succ fuel ih =>
    have hdone : lib.Lawful → ∀ v ∈ node.map ArgValue.node, WellFormed lib v := by
      intro hlib v hv
      obtain ⟨map, hmap, rfl⟩ := Option.map_eq_some_iff.1 hv
      exact hnode hlib map hmap
    cases cs with
    | nil =>
      cases h
      exact ⟨le_rfl, hdone⟩
    | cons c cs =>
      rw [parseValue] at h
      split at h
      · obtain ⟨⟨body, rest₁⟩, hbody, h⟩ := except_bind_eq_ok.1 h
        cases h
        refine ⟨Nat.le_succ_of_le (parseQuotedString_length hbody), fun hlib v hv => ?_⟩
        split at hv
        · exact hdone hlib v hv
        · cases hv
          exact .simple body
      · split at h
        · split at h
          · cases h
          · obtain ⟨⟨pair, rest₁⟩, hpair, h⟩ := except_bind_eq_ok.1 h
            obtain ⟨hfirst, hwell⟩ := wellFormedPair_parsePairWith
              (fun _ _ _ _ hvalue => ih (fun _ _ hmap => by cases hmap) hvalue) hpair
            have hnext : lib.Lawful → ∀ map ∈ some (setPair (node.getD []) pair), WellFormed lib (.node map) := by
              rintro hlib _ ⟨⟩
              refine wellFormed_setPair hlib ?_ (hwell hlib)
              cases node with
              | none => exact wellFormed_nil
              | some map => exact hnode hlib map rfl
            obtain ⟨hrest, hvalue⟩ := ih hnext h
            exact ⟨by rw [List.length_cons]; omega, hvalue⟩
        · split at h
          · cases h
            exact ⟨le_rfl, hdone⟩
          · split at h
            · exact ⟨Nat.le_succ_of_le (ih hnode h).1, (ih hnode h).2⟩
            · split at h
              · cases h
              · obtain ⟨⟨body, rest₁⟩, hbody, h⟩ := except_bind_eq_ok.1 h
                cases h
                refine ⟨parseSimpleValue_length hbody, ?_⟩
                rintro - _ ⟨⟩
                exact .simple _

theorem readsWellFormed_parseValue (lib : Library δ) (raw : Text) (fuel depth : Nat) :
    ReadsWellFormed lib (parseValue lib raw fuel depth none) :=
  fun _ _ _ _ => wellFormed_parseValue fun _ _ hmap => by cases hmap

/-! ### Clean trees -/

mutual

/-- The texts are plain and stand under keys that take a text, no node is empty, and the nodes are at most `n`
deep. -/
def clean (n : Nat) (key : Text) : ArgValue → Bool
  | .simple text => plain text && !isContainerParam key
  | .node entries => 0 < n && entries ≠ [] && entriesClean (n - 1) entries

def entriesClean (n : Nat) : List (Text × List ArgValue) → Bool
  | [] => true
  | (key, values) :: entries => valuesClean n key values && entriesClean n entries

def valuesClean (n : Nat) (key : Text) : List ArgValue → Bool
  | [] => true
  | value :: values => clean n key value && valuesClean n key values

end

private theorem valuesClean_iff {values : List ArgValue} :
    valuesClean n key values = true ↔ ∀ value ∈ values, clean n key value = true := by
  induction values with
  | nil => simp [valuesClean]
  | cons value values ih => simp [valuesClean, ih]

theorem entriesClean_iff {entries : ArgMap} :
    entriesClean n entries = true ↔ ∀ entry ∈ entries, ∀ value ∈ entry.2, clean n entry.1 value = true := by
  induction entries with
  | nil => simp [entriesClean]
  | cons entry entries ih => simp [entriesClean, valuesClean_iff, ih]

theorem mem_linesOf {map : ArgMap} {line : Line} :
    line ∈ linesOf map ↔ ∃ entry ∈ map, ∃ value ∈ entry.2,
      ⟨toAsciiUppercase entry.1, entry.1, valueRepr value, some value⟩ = line := by
  simp [linesOf]

/-- A clean tree is read back from its text. -/
theorem readsValue_clean (hlib : lib.Lawful) (h : WellFormed lib value) (hclean : clean n key value = true)
    (hdepth : depth + n ≤ maxDescriptorDepth) : ReadsValue lib raw depth key (valueRepr value) (some value) := by
  induction h generalizing n depth key with
  | simple text =>
    rw [clean, Bool.and_eq_true, Bool.not_eq_true'] at hclean
    exact readsValue_plain hclean.1 hclean.2 depth
  | @node entries collected isKey wellFormed ih =>
    simp only [clean, Bool.and_eq_true, decide_eq_true_eq] at hclean
    obtain ⟨⟨hpos, hne⟩, hentries⟩ := hclean
    have hlines : ∀ line ∈ linesOf entries, ReadsLine lib raw (depth + 1) line := by
      intro line hline
      obtain ⟨entry, hentry, value, hvalue, rfl⟩ := mem_linesOf.1 hline
      have hclean := entriesClean_iff.1 hentries entry hentry value hvalue
      exact ⟨isKey entry hentry value hvalue, ih entry hentry value hvalue hclean (by omega)⟩
    have hreads : ReadsValue lib raw depth key (linesText (linesOf entries))
        ((collectLines none (linesOf entries)).map .node) := readsValue_lines hlib (by omega) hlines key
    rw [collectLines_linesOf collected hne, linesText_linesOf] at hreads
    exact hreads

end

end OracleThin.ConnectString
