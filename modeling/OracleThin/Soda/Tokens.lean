import OracleThin.Lib.Fallible
import OracleThin.Lib.Sql
import OracleThin.Soda.Operation

/-!
# The tokens of a translated filter

Names of fields and values reach the SQL text only inside literals. So the tokens of the text are those of the erased
filter: `Value.erase` replaces every field name, string, number and truth value, and keeps the operators, the kinds of
values, the direction of each `$orderby` entry and whether `$exists` is denied.
-/

namespace OracleThin.Soda

open Lib Lib.Sql

set_option linter.unusedSectionVars false

/-! ### Erasing -/

/-- The keys of operators are kept. -/
def eraseKey (key : String) : String := if key.toList.head? = some '$' then key else "field"

/-- The direction of an `$orderby` entry. -/
def orderDirection (entry : Value) : String :=
  String.ofList ((((entry.get "order").bind Value.asStr).getD "asc").toList.map Char.toLower)

/-- The entries of `$orderby` without their paths. -/
def eraseOrderby : Value → Value
  | .array entries => .array (entries.map fun entry => .string (orderDirection entry))
  | _ => .null

mutual

def Value.erase : Value → Value
  | .null => .null
  | .bool _ => .bool true
  | .number _ => .number "0"
  | .string _ => .string ""
  | .array items => .array (eraseItems items)
  | .object members => .object (eraseMembers members)

def eraseItems : List Value → List Value
  | [] => []
  | item :: items => item.erase :: eraseItems items

def eraseMembers : List (String × Value) → List (String × Value)
  | [] => []
  | (key, value) :: members =>
    (eraseKey key,
      if key = "$orderby" then eraseOrderby value
      else if key = "$exists" ∧ asBool value = some false then .bool false
      else value.erase) :: eraseMembers members

end

/-! ### Tokens -/

section

variable (col : List Token)

def existsTokens : List Token :=
  [.word "JSON_EXISTS".toList, .symbol '('] ++ col ++ [.symbol ',', .literal, .symbol ')']

def negateTokens (tokens : List Token) : List Token :=
  [.word "NOT".toList, .symbol '('] ++ tokens ++ [.symbol ')']

def joinAndTokens : List (List Token) → List Token
  | [tokens] => tokens
  | parts => [.symbol '('] ++ [Token.word "AND".toList].intercalate parts ++ [.symbol ')']

def trueTokens : List Token := [.word ['1'], .symbol '=', .word ['1']]

/-- The tokens of the operators other than `$not`. -/
def plainTokens (op : String) (operand : Value) : List Token :=
  if op = "$upper" ∨ op = "$lower" then
    match operand with
    | .object ops => joinAndTokens (ops.map fun _ => existsTokens col)
    | _ => []
  else if op = "$exists" then
    if (asBool operand).getD true then existsTokens col else negateTokens (existsTokens col)
  else existsTokens col

mutual

def operatorTokens (op : String) : Value → List Token
  | .object ops =>
    if op = "$not" then negateTokens (joinAndTokens (operatorsTokens ops)) else plainTokens col op (.object ops)
  | operand => if op = "$not" then negateTokens (existsTokens col) else plainTokens col op operand

def operatorsTokens : List (String × Value) → List (List Token)
  | [] => []
  | (op, operand) :: ops => operatorTokens op operand :: operatorsTokens ops

end

def fieldTokens : Value → List Token
  | .object [] => existsTokens col
  | .object ops => joinAndTokens (operatorsTokens col ops)
  | _ => existsTokens col

def combineTokens (joiner : String) (parts : List (List Token)) : List Token :=
  if parts = [] then trueTokens
  else [.symbol '('] ++ [Token.symbol ')', .word joiner.toList, .symbol '('].intercalate parts ++ [.symbol ')']

mutual

def whereTokens : Value → List Token
  | .object members =>
    if membersTokens members = [] then trueTokens
    else [Token.word "AND".toList].intercalate (membersTokens members)
  | _ => []

def membersTokens : List (String × Value) → List (List Token)
  | [] => []
  | (key, val) :: members =>
    if key = "$orderby" then membersTokens members else topLevelTokens key val :: membersTokens members

def topLevelTokens (key : String) : Value → List Token
  | .array items =>
    if key = "$and" then combineTokens "AND" (itemsTokens items)
    else if key = "$or" then combineTokens "OR" (itemsTokens items)
    else if key = "$nor" then negateTokens (combineTokens "OR" (itemsTokens items))
    else existsTokens col
  | val => fieldTokens col val

def itemsTokens : List Value → List (List Token)
  | [] => []
  | item :: items => whereTokens item :: itemsTokens items

end

/-- The tokens of an `$orderby` entry with that direction. -/
def orderTokens (direction : String) : List Token :=
  [.word "JSON_VALUE".toList, .symbol '('] ++ (col ++ [.symbol ',', .literal, .symbol ')']) ++
    [.word (if direction = "asc" then "ASC" else "DESC").toList]

def orderbyTokens (filter : Value) : List Token :=
  match filter.get "$orderby" with
  | some (.array entries) =>
    [Token.symbol ','].intercalate (entries.map fun entry => orderTokens col (orderDirection entry))
  | _ => []

end

/-! ### The tokens of a text -/

theorem spells_quoteIdent (name : String) : Spells (quoteIdent name).toList [.name name.toList] := by
  intro rest hrest
  have hopen : run .plain ['"'] = some (.name [], []) := by decide
  have htext : (quoteIdent name).toList ++ rest =
      ['"'] ++ ((name.toList.flatMap fun c => if c = '"' then ['"', '"'] else [c]) ++ '"' :: rest) := by
    simp [quoteIdent, mapChars]
  have hhead : rest.head? ≠ some '"' := by
    cases rest with
    | nil => simp
    | cons c rest => rcases hrest with rfl | rfl | rfl <;> simp
  rw [htext, scan_append hopen, scan_name [] name.toList hhead, Option.map_map]
  rfl

variable {text key op : String} {operand : Value} {parts : List String} {tokenss : List (List Token)}

section

variable {lib : Library} {contentCol : String} {col : List Token} (hcol : Spells contentCol.toList col)

private theorem toList_escapeSqlLiteral (s : String) :
    (escapeSqlLiteral s).toList = s.toList.flatMap fun c => if c = '\'' then ['\'', '\''] else [c] := by
  simp [escapeSqlLiteral, mapChars]

include hcol in
/-- The call of a function on the column and a literal. -/
theorem fixed_call {function : List Char} {word : List Token}
    (hfunction : run .plain function = some (.plain, word)) (s : String) :
    Fixed (function ++ (contentCol.toList ++ ([',', ' ', '\''] ++ ((escapeSqlLiteral s).toList ++ ['\'', ')']))))
      (word ++ (col ++ [.symbol ',', .literal, .symbol ')'])) := by
  refine (fixed_of_run hfunction).append (hcol.fixed_append (fun rest => ?_) (by simp) (Or.inr (Or.inr rfl)))
  have hcomma : run .plain [',', ' ', '\''] = some (.literal, [.symbol ',']) := by decide
  have hclose : run .plain [')'] = some (.plain, [.symbol ')']) := by decide
  have hliteral : scan .literal ((escapeSqlLiteral s).toList ++ '\'' :: ([')'] ++ rest)) =
      (scan .plain ([')'] ++ rest)).map (.literal :: ·) := by
    rw [toList_escapeSqlLiteral]
    exact scan_literal s.toList (by simp)
  rw [List.append_assoc, scan_append hcomma, List.append_assoc]
  simp only [List.cons_append, List.nil_append] at hliteral ⊢
  have hparen := scan_append hclose rest
  rw [List.singleton_append] at hparen
  rw [hliteral, hparen, Option.map_map, Option.map_map]
  rfl

include hcol in
theorem fixed_jsonExists (path pred : String) :
    Fixed (jsonExists contentCol path pred).toList (existsTokens col) := by
  have hfunction : run .plain "JSON_EXISTS(".toList = some (.plain, [.word "JSON_EXISTS".toList, .symbol '(']) := by
    decide
  have h := fixed_call hcol hfunction (path ++ pred)
  rw [existsTokens, List.append_assoc]
  convert h using 1
  simp [jsonExists]

/-- Something in parentheses. -/
theorem Spells.paren {text front : List Char} {tokens mid : List Token} (h : Spells text tokens)
    (hfront : run .plain front = some (.plain, mid)) :
    Fixed (front ++ (text ++ [')'])) (mid ++ (tokens ++ [.symbol ')'])) := by
  have hclose : run .plain [')'] = some (.plain, [.symbol ')']) := by decide
  exact (fixed_of_run hfront).append (h.fixed_append (fixed_of_run hclose) (by simp) (Or.inr (Or.inl rfl)))

theorem spells_negate {tokens : List Token} (h : Spells text.toList tokens) :
    Spells (negate text).toList (negateTokens tokens) := by
  have hfront : run .plain "NOT (".toList = some (.plain, [.word "NOT".toList, .symbol '(']) := by decide
  have hparen := (Spells.paren h hfront).spells
  rw [negateTokens, List.append_assoc]
  convert hparen using 1
  simp [negate]

/-- The parts of a list have the tokens beside them. -/
abbrev AllSpell (parts : List String) (tokenss : List (List Token)) : Prop :=
  List.Forall₂ (fun part tokens => Spells part.toList tokens) parts tokenss

theorem spells_and (h : AllSpell parts tokenss) :
    Spells (String.intercalate " AND " parts).toList ([Token.word "AND".toList].intercalate tokenss) := by
  have hsep : run .plain " AND ".toList = some (.plain, [.word "AND".toList]) := by decide
  rw [String.toList_intercalate]
  exact spells_intercalate (fixed_of_run hsep) (by decide) (Or.inl rfl) (List.forall₂_map_left_iff.2 h)

theorem spells_joinAnd (h : AllSpell parts tokenss) : Spells (joinAnd parts).toList (joinAndTokens tokenss) := by
  have hparen : Spells ("(" ++ String.intercalate " AND " parts ++ ")").toList
      ([.symbol '('] ++ [Token.word "AND".toList].intercalate tokenss ++ [.symbol ')']) := by
    have hopen : run .plain ['('] = some (.plain, [.symbol '(']) := by decide
    have hfixed := (Spells.paren (spells_and h) hopen).spells
    simpa using hfixed
  cases h with
  | nil => exact hparen
  | cons hfirst hrest =>
    cases hrest with
    | nil => exact hfirst
    | cons => exact hparen

theorem spells_true : Spells "1=1".toList trueTokens := by
  have hrun : run .plain "1=1".toList = some (.word ['1'], [.word ['1'], .symbol '=']) := by decide
  exact spells_of_run hrun

theorem spells_combineLogical {joiner : String} (hjoiner : run .plain (") " ++ joiner ++ " (").toList =
      some (.plain, [.symbol ')', .word joiner.toList, .symbol '('])) (h : AllSpell parts tokenss) :
    Spells (combineLogical joiner parts).toList (combineTokens joiner tokenss) := by
  have hopen : run .plain ['('] = some (.plain, [.symbol '(']) := by decide
  have hparts : Spells (String.intercalate (") " ++ joiner ++ " (") parts).toList
      ([Token.symbol ')', .word joiner.toList, .symbol '('].intercalate tokenss) := by
    rw [String.toList_intercalate]
    exact spells_intercalate (fixed_of_run hjoiner) (by simp) (by simp [Delimits]) (List.forall₂_map_left_iff.2 h)
  unfold combineLogical combineTokens
  cases h with
  | nil => exact spells_true
  | cons hfirst hrest =>
    have hparen := (Spells.paren hparts hopen).spells
    simpa using hparen

include hcol

theorem spells_predicate {path : String} {pred : Result String} (h : jsonExists contentCol path <$> pred = .ok text) :
    Spells text.toList (existsTokens col) := by
  obtain ⟨pred, -, rfl⟩ := except_map_eq_ok.1 h
  exact (fixed_jsonExists hcol path pred).spells

theorem spells_foldCase {path func : String} (h : foldCase lib contentCol path operand func = .ok text) :
    ∃ ops, operand = .object ops ∧ Spells text.toList (joinAndTokens (ops.map fun _ => existsTokens col)) := by
  cases operand with
  | object ops =>
    obtain ⟨parts, hparts, hpure⟩ := except_bind_eq_ok.1 h
    cases hpure
    have hall := forall₂_of_mapM_eq_ok hparts
    refine ⟨ops, rfl, spells_joinAnd (List.forall₂_map_right_iff.2 (hall.flip.imp fun part entry hpart => ?_))⟩
    exact spells_predicate hcol hpart
  | _ => cases h

theorem spells_plainOperator {path : String} (h : plainOperator lib contentCol path op operand = .ok text) :
    Spells text.toList (plainTokens col op operand) := by
  unfold plainOperator at h
  unfold plainTokens
  by_cases hupper : op = "$upper"
  · rw [if_pos hupper] at h
    obtain ⟨ops, rfl, hspells⟩ := spells_foldCase hcol h
    rwa [if_pos (Or.inl hupper)]
  rw [if_neg hupper] at h
  by_cases hlower : op = "$lower"
  · rw [if_pos hlower] at h
    obtain ⟨ops, rfl, hspells⟩ := spells_foldCase hcol h
    rwa [if_pos (Or.inr hlower)]
  rw [if_neg hlower] at h
  rw [if_neg (not_or.2 ⟨hupper, hlower⟩)]
  have hexists (pred : String) := (fixed_jsonExists hcol path pred).spells
  by_cases hop : op = "$exists"
  · rw [if_pos hop] at h ⊢
    cases h
    split
    · exact hexists ""
    · exact spells_negate (hexists "")
  · rw [if_neg hop] at h ⊢
    exact spells_predicate hcol h

end

section

variable {lib : Library} {contentCol path : String} {col : List Token} (hcol : Spells contentCol.toList col)
include hcol

mutual

theorem spells_translateOperator : ∀ (operand : Value) (op text : String),
    translateOperator lib contentCol path op operand = .ok text → Spells text.toList (operatorTokens col op operand)
  | .object ops, op, text, h => by
    rw [translateOperator] at h
    rw [operatorTokens]
    by_cases hnot : op = "$not"
    · rw [if_pos hnot] at h ⊢
      obtain ⟨parts, hparts, hpure⟩ := except_bind_eq_ok.1 h
      cases hpure
      exact spells_negate (spells_joinAnd (spells_translateOperators ops parts hparts))
    · rw [if_neg hnot] at h ⊢
      exact spells_plainOperator hcol h
  | .null, op, text, h | .bool _, op, text, h | .number _, op, text, h | .string _, op, text, h
  | .array _, op, text, h => by
    rw [translateOperator] at h
    · rw [operatorTokens]
      · by_cases hnot : op = "$not"
        · rw [if_pos hnot] at h ⊢
          obtain ⟨inner, hinner, rfl⟩ := except_map_eq_ok.1 h
          exact spells_negate (spells_predicate hcol hinner)
        · rw [if_neg hnot] at h ⊢
          exact spells_plainOperator hcol h
      · nofun
    · nofun

theorem spells_translateOperators : ∀ (ops : List (String × Value)) (parts : List String),
    translateOperators lib contentCol path ops = .ok parts → AllSpell parts (operatorsTokens col ops)
  | [], parts, h => by
    cases h
    exact .nil
  | (op, operand) :: ops, parts, h => by
    obtain ⟨part, hpart, h⟩ := except_bind_eq_ok.1 h
    obtain ⟨parts, hparts, h⟩ := except_bind_eq_ok.1 h
    cases h
    exact .cons (spells_translateOperator operand op part hpart) (spells_translateOperators ops parts hparts)

end

theorem spells_translateField {val : Value}
    (h : translateField lib contentCol key val = .ok text) : Spells text.toList (fieldTokens col val) := by
  unfold translateField at h
  split at h
  · cases h
  cases val with
  | object ops =>
    obtain ⟨parts, hparts, hpure⟩ := except_bind_eq_ok.1 h
    cases hpure
    have hall := spells_translateOperators hcol ops parts hparts
    cases ops with
    | nil =>
      cases hall
      exact (fixed_jsonExists hcol _ _).spells
    | cons entry ops =>
      cases hall with
      | cons hfirst hrest =>
        exact spells_joinAnd (.cons hfirst hrest)
  | _ => exact spells_predicate hcol h

mutual

/-- The text of a filter has the tokens of the filter. -/
theorem spells_qbeToWhereClause : ∀ (filter : Value) (text : String),
    qbeToWhereClause lib contentCol filter = .ok text → Spells text.toList (whereTokens col filter)
  | .object members, text, h => by
    obtain ⟨clauses, hclauses, hpure⟩ := except_bind_eq_ok.1 h
    cases hpure
    have hall := spells_translateMembers members clauses hclauses
    rw [whereTokens]
    by_cases hnil : clauses = []
    · rw [hnil] at hall ⊢
      rw [List.forall₂_nil_left_iff.1 hall]
      exact spells_true
    · have htokens : membersTokens col members ≠ [] := fun h => hnil (List.forall₂_nil_right_iff.1 (h ▸ hall))
      rw [if_neg hnil, if_neg htokens]
      exact spells_and hall
  | .null, _, h | .bool _, _, h | .number _, _, h | .string _, _, h | .array _, _, h => by cases h

theorem spells_translateMembers : ∀ (members : List (String × Value)) (clauses : List String),
    translateMembers lib contentCol members = .ok clauses → AllSpell clauses (membersTokens col members)
  | [], clauses, h => by
    cases h
    exact .nil
  | (key, val) :: members, clauses, h => by
    rw [translateMembers] at h
    rw [membersTokens]
    by_cases horder : key = "$orderby"
    · rw [if_pos horder] at h ⊢
      exact spells_translateMembers members clauses h
    · rw [if_neg horder] at h ⊢
      obtain ⟨clause, hclause, h⟩ := except_bind_eq_ok.1 h
      obtain ⟨clauses, hclauses, h⟩ := except_bind_eq_ok.1 h
      cases h
      exact .cons (spells_translateTopLevel val key clause hclause)
        (spells_translateMembers members clauses hclauses)

theorem spells_translateTopLevel : ∀ (val : Value) (key text : String),
    translateTopLevel lib contentCol key val = .ok text → Spells text.toList (topLevelTokens col key val)
  | .array items, key, text, h => by
    have hand : run .plain (") " ++ "AND" ++ " (").toList =
        some (.plain, [.symbol ')', .word "AND".toList, .symbol '(']) := by decide
    have hor : run .plain (") " ++ "OR" ++ " (").toList =
        some (.plain, [.symbol ')', .word "OR".toList, .symbol '(']) := by decide
    rw [translateTopLevel] at h
    rw [topLevelTokens]
    split at h
    · rw [if_pos ‹_›]
      obtain ⟨parts, hparts, rfl⟩ := except_map_eq_ok.1 h
      exact spells_combineLogical hand (spells_translateItems items parts hparts)
    rw [if_neg ‹_›]
    split at h
    · rw [if_pos ‹_›]
      obtain ⟨parts, hparts, rfl⟩ := except_map_eq_ok.1 h
      exact spells_combineLogical hor (spells_translateItems items parts hparts)
    rw [if_neg ‹_›]
    split at h
    · rw [if_pos ‹_›]
      obtain ⟨parts, hparts, rfl⟩ := except_map_eq_ok.1 h
      exact spells_negate (spells_combineLogical hor (spells_translateItems items parts hparts))
    · rw [if_neg ‹_›]
      exact spells_translateField hcol h
  | .null, key, text, h | .bool _, key, text, h | .number _, key, text, h | .string _, key, text, h
  | .object _, key, text, h => by
    rw [translateTopLevel] at h
    · rw [topLevelTokens]
      · split at h
        · cases h
        split at h
        · cases h
        exact spells_translateField hcol h
      · nofun
    · nofun

theorem spells_translateItems : ∀ (items : List Value) (parts : List String),
    translateItems lib contentCol items = .ok parts → AllSpell parts (itemsTokens col items)
  | [], parts, h => by
    cases h
    exact .nil
  | item :: items, parts, h => by
    obtain ⟨part, hpart, h⟩ := except_bind_eq_ok.1 h
    obtain ⟨parts, hparts, h⟩ := except_bind_eq_ok.1 h
    cases h
    exact .cons (spells_qbeToWhereClause item part hpart) (spells_translateItems items parts hparts)

end

theorem spells_orderbyEntry {entry : Value} {part : String}
    (h : orderbyEntry contentCol entry = .ok part) :
    Spells part.toList (orderTokens col (orderDirection entry)) := by
  have hvalue : run .plain "JSON_VALUE(".toList = some (.plain, [.word "JSON_VALUE".toList, .symbol '(']) := by
    decide
  have hasc : run .plain " ASC".toList = some (.word "ASC".toList, []) := by decide
  have hdesc : run .plain " DESC".toList = some (.word "DESC".toList, []) := by decide
  unfold orderbyEntry at h
  split at h
  · cases h
  next path _ =>
    have hcall := fixed_call hcol hvalue (fieldToJsonPath path)
    dsimp only at h
    unfold orderTokens
    split at h
    · rw [if_pos ‹_›]
      cases h
      have hpart := hcall.spells_append (spells_of_run hasc)
      simpa using hpart
    rw [if_neg ‹_›]
    split at h
    · cases h
      have hpart := hcall.spells_append (spells_of_run hdesc)
      simpa using hpart
    · cases h

/-- The text of an order has the tokens of the order. -/
theorem spells_extractOrderby {filter : Value}
    (h : extractOrderby filter contentCol = .ok (some text)) : Spells text.toList (orderbyTokens col filter) := by
  unfold extractOrderby at h
  unfold orderbyTokens
  split at h
  · cases h
  next entries hentries =>
    obtain ⟨parts, hparts, h⟩ := except_bind_eq_ok.1 h
    have hall : AllSpell parts (entries.map fun entry => orderTokens col (orderDirection entry)) := by
      have hentry := (forall₂_of_mapM_eq_ok hparts).flip
      exact List.forall₂_map_right_iff.2 (hentry.imp fun _ _ h => spells_orderbyEntry hcol h)
    have hcomma : run .plain ", ".toList = some (.plain, [.symbol ',']) := by decide
    split at h
    · cases h
    · cases h
      rw [hentries, String.toList_intercalate]
      exact spells_intercalate (fixed_of_run hcomma) (by decide) (Or.inr (Or.inr rfl))
        (List.forall₂_map_left_iff.2 hall)
  · cases h

end

/-! ### What the tokens depend on -/

section

variable (col : List Token)

theorem eraseKey_eq_iff {word : String} (hword : word.toList.head? = some '$') :
    eraseKey key = word ↔ key = word := by
  have hfield : "field" ≠ word := by
    rintro rfl
    cases hword
  unfold eraseKey
  split
  · rfl
  next hkey =>
    refine ⟨fun h => (hfield h).elim, ?_⟩
    rintro rfl
    exact (hkey hword).elim

/-- What stands for the value of a member. -/
def eraseOperand (key : String) (value : Value) : Value :=
  if key = "$orderby" then eraseOrderby value
  else if key = "$exists" ∧ asBool value = some false then .bool false
  else value.erase

theorem eraseMembers_cons (key : String) (value : Value) (members : List (String × Value)) :
    eraseMembers ((key, value) :: members) = (eraseKey key, eraseOperand key value) :: eraseMembers members :=
  rfl

theorem length_eraseMembers (members : List (String × Value)) : (eraseMembers members).length = members.length := by
  induction members with
  | nil => rfl
  | cons member members ih => exact congrArg (· + 1) ih

theorem eraseOperand_of_ne (horder : key ≠ "$orderby") {value : Value} (hbool : asBool value = none) :
    eraseOperand key value = value.erase := by
  simp [eraseOperand, horder, hbool]

/-- A value without parts stays one, and `false` of `$exists` stays `false`. -/
theorem eraseOperand_cases (horder : key ≠ "$orderby") (value : Value) :
    (∃ b, value = .bool b ∧ eraseOperand key value = .bool (b || key ≠ "$exists")) ∨
      (∀ b, value ≠ .bool b) ∧ eraseOperand key value = value.erase := by
  unfold eraseOperand
  rw [if_neg horder]
  cases value with
  | bool b => cases b <;> by_cases hkey : key = "$exists" <;> simp [hkey, asBool, Value.erase]
  | _ => simp [asBool]

theorem plainTokens_eraseOperand (horder : op ≠ "$orderby") (operand : Value) :
    plainTokens col (eraseKey op) (eraseOperand op operand) = plainTokens col op operand := by
  simp (disch := decide) only [plainTokens, eraseKey_eq_iff]
  rcases eraseOperand_cases horder operand with ⟨b, rfl, herase⟩ | ⟨hbool, herase⟩
  · rw [herase]
    cases b <;> by_cases hop : op = "$exists" <;> simp [hop, asBool]
  · rw [herase]
    cases operand with
    | bool b => exact (hbool b rfl).elim
    | object ops => simp [Value.erase, length_eraseMembers, asBool]
    | null | number _ | string _ | array _ => simp [Value.erase, asBool]

theorem operatorTokens_orderby (operand : Value) : operatorTokens col "$orderby" operand = existsTokens col := by
  cases operand with
  | object ops => rfl
  | null | bool _ | number _ | string _ | array _ => rfl

mutual

theorem operatorTokens_eraseOperand : ∀ (operand : Value) (op : String),
    operatorTokens col (eraseKey op) (eraseOperand op operand) = operatorTokens col op operand
  | operand, op => by
    by_cases horder : op = "$orderby"
    · subst horder
      exact (operatorTokens_orderby col _).trans (operatorTokens_orderby col _).symm
    have hplain := plainTokens_eraseOperand col horder operand
    rcases eraseOperand_cases horder operand with ⟨b, rfl, herase⟩ | ⟨hbool, herase⟩
    · rw [herase] at hplain ⊢
      simp (disch := decide) only [operatorTokens, eraseKey_eq_iff, hplain]
    · rw [herase] at hplain ⊢
      cases operand with
      | object ops =>
        rw [Value.erase] at hplain ⊢
        simp (disch := decide) only [operatorTokens, eraseKey_eq_iff, hplain, operatorsTokens_eraseMembers ops]
      | null | bool _ | number _ | string _ | array _ =>
        rw [Value.erase] at hplain ⊢
        simp (disch := decide) only [operatorTokens, eraseKey_eq_iff, hplain]

theorem operatorsTokens_eraseMembers : ∀ ops : List (String × Value),
    operatorsTokens col (eraseMembers ops) = operatorsTokens col ops
  | [] => rfl
  | (op, operand) :: ops => by
    rw [eraseMembers_cons, operatorsTokens, operatorsTokens, operatorTokens_eraseOperand operand op,
      operatorsTokens_eraseMembers ops]

end

theorem fieldTokens_erase (val : Value) : fieldTokens col val.erase = fieldTokens col val := by
  cases val with
  | object ops =>
    cases ops with
    | nil => rfl
    | cons member ops => exact congrArg joinAndTokens (operatorsTokens_eraseMembers col (member :: ops))
  | null | bool _ | number _ | string _ | array _ => rfl

mutual

theorem whereTokens_erase : ∀ filter : Value, whereTokens col filter.erase = whereTokens col filter
  | .object members => by
    rw [Value.erase, whereTokens, whereTokens, membersTokens_eraseMembers members]
  | .null | .bool _ | .number _ | .string _ | .array _ => rfl

theorem membersTokens_eraseMembers : ∀ members : List (String × Value),
    membersTokens col (eraseMembers members) = membersTokens col members
  | [] => rfl
  | (key, val) :: members => by
    have hkey : eraseKey key = "$orderby" ↔ key = "$orderby" := eraseKey_eq_iff (by decide)
    rw [eraseMembers_cons, membersTokens, membersTokens, membersTokens_eraseMembers members]
    by_cases horder : key = "$orderby"
    · rw [if_pos horder, if_pos (hkey.2 horder)]
    · rw [if_neg horder, if_neg (horder ∘ hkey.1), topLevelTokens_eraseOperand val horder]

theorem topLevelTokens_eraseOperand : ∀ (val : Value) {key : String}, key ≠ "$orderby" →
    topLevelTokens col (eraseKey key) (eraseOperand key val) = topLevelTokens col key val
  | .array items, key, horder => by
    rw [eraseOperand_of_ne horder rfl, Value.erase, topLevelTokens, topLevelTokens, itemsTokens_eraseItems items]
    simp (disch := decide) only [eraseKey_eq_iff]
  | .object ops, key, horder => by
    rw [eraseOperand_of_ne horder rfl, Value.erase, topLevelTokens, topLevelTokens]
    · exact fieldTokens_erase col (.object ops)
    · nofun
    · nofun
  | .null, key, horder | .bool _, key, horder | .number _, key, horder | .string _, key, horder => by
    rcases eraseOperand_cases horder _ with ⟨b, -, herase⟩ | ⟨-, herase⟩ <;> rw [herase] <;> rfl

theorem itemsTokens_eraseItems : ∀ items : List Value, itemsTokens col (eraseItems items) = itemsTokens col items
  | [] => rfl
  | item :: items => by
    rw [eraseItems, itemsTokens, itemsTokens, whereTokens_erase item, itemsTokens_eraseItems items]

end

theorem find?_eraseMembers (members : List (String × Value)) :
    (eraseMembers members).find? (fun member => member.1 = "$orderby") =
      (members.find? fun member => member.1 = "$orderby").map fun member => ("$orderby", eraseOrderby member.2) := by
  induction members with
  | nil => rfl
  | cons member members ih =>
    have hkey : eraseKey member.1 = "$orderby" ↔ member.1 = "$orderby" := eraseKey_eq_iff (by decide)
    rw [eraseMembers_cons]
    by_cases horder : member.1 = "$orderby"
    · rw [List.find?_cons_of_pos (by simpa using hkey.2 horder), List.find?_cons_of_pos (by simpa using horder)]
      rw [Option.map_some, hkey.2 horder, eraseOperand, if_pos horder]
    · rw [List.find?_cons_of_neg (by simpa using horder ∘ hkey.1), List.find?_cons_of_neg (by simpa using horder), ih]

theorem get_erase (filter : Value) : filter.erase.get "$orderby" = (filter.get "$orderby").map eraseOrderby := by
  cases filter with
  | object members =>
    rw [Value.erase, Value.get, Value.get, find?_eraseMembers, Option.map_map, Option.map_map]
    rfl
  | null | bool _ | number _ | string _ | array _ => rfl

/-- The tokens of the order, from what is left of `$orderby`. -/
def erasedTokens : Value → List Token
  | .array entries => [Token.symbol ','].intercalate (entries.map fun entry => orderTokens col (entry.asStr.getD ""))
  | _ => []

theorem orderbyTokens_eq (filter : Value) :
    orderbyTokens col filter = (filter.erase.get "$orderby").elim [] (erasedTokens col) := by
  rw [get_erase, orderbyTokens]
  cases filter.get "$orderby" with
  | none => rfl
  | some order =>
    cases order with
    | array entries =>
      rw [Option.map_some, Option.elim_some, eraseOrderby, erasedTokens, List.map_map]
      rfl
    | null | bool _ | number _ | string _ | object _ => rfl

end

/-- The tokens of two accepted filters, and those of their orders, are the same as soon as the filters have the same
operators and kinds of values, and every literal is closed. -/
theorem tokenize_eq_of_erase_eq {filter other : Value} (h : filter.erase = other.erase) (lib : Library)
    (name : String) :
    (∀ text text', qbeToWhereClause lib (quoteIdent name) filter = .ok text →
      qbeToWhereClause lib (quoteIdent name) other = .ok text' →
      ∃ tokens, tokenize text = some tokens ∧ tokenize text' = some tokens) ∧
    (∀ order order', extractOrderby filter (quoteIdent name) = .ok (some order) →
      extractOrderby other (quoteIdent name) = .ok (some order') →
      ∃ tokens, tokenize order = some tokens ∧ tokenize order' = some tokens) := by
  have hcol := spells_quoteIdent name
  refine ⟨fun text text' htext htext' => ?_, fun order order' horder horder' => ?_⟩
  · refine ⟨whereTokens [.name name.toList] filter, (spells_qbeToWhereClause hcol filter text htext).tokenize, ?_⟩
    rw [← whereTokens_erase, h, whereTokens_erase]
    exact (spells_qbeToWhereClause hcol other text' htext').tokenize
  · refine ⟨orderbyTokens [.name name.toList] filter, (spells_extractOrderby hcol horder).tokenize, ?_⟩
    rw [orderbyTokens_eq, h, ← orderbyTokens_eq]
    exact (spells_extractOrderby hcol horder').tokenize

/-- A filter on one field with an order. -/
def oneField (field value path order : String) : Value :=
  .object [(field, .object [("$eq", .string value), ("$not", .object [("$startsWith", .string path)])]),
    ("$orderby", .array [.object [("path", .string path), ("order", .string order)]])]

theorem tokenize_quoted_eq :
    ∃ text text' order order',
      qbeToWhereClause ⟨id, id, fun _ => .ok .null⟩ (quoteIdent "DATA") (oneField "a" "b" "c" "asc") = .ok text ∧
      qbeToWhereClause ⟨id, id, fun _ => .ok .null⟩ (quoteIdent "DATA") (oneField "a'b" "x') OR 1=1 --" "'" "ASC") =
        .ok text' ∧
      extractOrderby (oneField "a" "b" "c" "asc") (quoteIdent "DATA") = .ok (some order) ∧
      extractOrderby (oneField "a'b" "x') OR 1=1 --" "'" "ASC") (quoteIdent "DATA") = .ok (some order') ∧
      (∃ tokens, tokenize text = some tokens ∧ tokenize text' = some tokens) ∧
      ∃ tokens, tokenize order = some tokens ∧ tokenize order' = some tokens := by
  have h := tokenize_eq_of_erase_eq (show (oneField "a" "b" "c" "asc").erase =
    (oneField "a'b" "x') OR 1=1 --" "'" "ASC").erase from rfl) ⟨id, id, fun _ => .ok .null⟩ "DATA"
  exact ⟨_, _, _, _, rfl, rfl, rfl, rfl, h.1 _ _ rfl rfl, h.2 _ _ rfl rfl⟩

/-- The direction of an order is a token, and so is what another name of a field brings to another place of the
map. -/
theorem tokenize_renamed_ne :
    (∃ order order', extractOrderby (oneField "a" "b" "c" "asc") (quoteIdent "DATA") = .ok (some order) ∧
      extractOrderby (oneField "a" "b" "c" "desc") (quoteIdent "DATA") = .ok (some order') ∧
      tokenize order ≠ tokenize order') ∧
    ∃ text text',
      qbeToWhereClause ⟨id, id, fun _ => .ok .null⟩ (quoteIdent "DATA")
        (.object [("a", .object [("$exists", .bool false)]), ("b", .null)]) = .ok text ∧
      qbeToWhereClause ⟨id, id, fun _ => .ok .null⟩ (quoteIdent "DATA")
        (.object [("b", .null), ("c", .object [("$exists", .bool false)])]) = .ok text' ∧
      tokenize text ≠ tokenize text' :=
  ⟨⟨_, _, rfl, rfl, by decide⟩, _, _, rfl, rfl, by decide +kernel⟩

end OracleThin.Soda
