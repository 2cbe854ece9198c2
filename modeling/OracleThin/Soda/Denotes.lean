import OracleThin.Soda.Meaning

/-!
# The text of a filter has its meaning

The text of every operator is an operand of its value, the text of a member is a conjunction unless it is a wide
`$or`, and the text of a well grouped filter is a condition. Nothing is assumed about names and values: whatever
stands in a predicate stands in quotes there.
-/

namespace OracleThin.Soda

open Lib Lib.Condition

variable {parts : List String}

set_option linter.unusedSectionVars false

variable {v : List Char → Bool} {lib : Library} {contentCol : String}

/-! ### Predicates -/

/-- In quotes, doubled quotes leave the reader of a predicate where it is. -/
private theorem track_doubled {quote : Char} (hquote : quote = '\'' ∨ quote = '"') (depth : Nat) (cs : List Char) :
    track depth (some quote) (cs.flatMap fun c => if c = quote then [quote, quote] else [c]) =
      some (depth, some quote) := by
  induction cs with
  | nil => rfl
  | cons c cs ih =>
    have hfirst :
        track depth (some quote) (if c = quote then [quote, quote] else [c]) = some (depth, some quote) := by
      by_cases hc : c = quote
      · rw [if_pos hc]
        rcases hquote with rfl | rfl
        · simp [track, nextDepth, nextQuote]
        · simp [track, nextDepth, nextQuote]
      · simp [track, hc]
    rw [List.flatMap_cons, track_append hfirst]
    exact ih

/-- The column stands between parentheses without closing them. -/
def IsColumn (contentCol : String) : Prop := track 1 none contentCol.toList = some (1, none)

private theorem toList_mapChars (f : Char → List Char) (s : String) : (mapChars f s).toList = s.toList.flatMap f := by
  simp [mapChars]

theorem track_quoteIdent (depth : Nat) (name : String) :
    track depth none (quoteIdent name).toList = some (depth, none) := by
  have htext : (quoteIdent name).toList =
      ['"'] ++ ((name.toList.flatMap fun c => if c = '"' then ['"', '"'] else [c]) ++ ['"']) := by
    simp [quoteIdent, toList_mapChars]
  have hopen : track depth none ['"'] = some (depth, some '"') := by simp [track, nextDepth, nextQuote]
  rw [htext, track_append hopen, track_append (track_doubled (Or.inr rfl) depth name.toList)]
  simp [track]

theorem isColumn_quoteIdent (name : String) : IsColumn (quoteIdent name) := track_quoteIdent 1 name

private theorem isPredicate_jsonExists (hcol : IsColumn contentCol) (path pred : String) :
    IsPredicate (jsonExists contentCol path pred).toList := by
  have htext : (jsonExists contentCol path pred).toList = "JSON_EXISTS(".toList ++
    (contentCol.toList ++ ([',', ' ', '\''] ++
      (((path ++ pred).toList.flatMap fun c => if c = '\'' then ['\'', '\''] else [c]) ++ ['\'', ')']))) := by
    simp [jsonExists, escapeSqlLiteral, toList_mapChars]
  constructor
  · have hopen : track 0 none "JSON_EXISTS(".toList = some (1, none) := by decide
    have hcomma : track 1 none [',', ' ', '\''] = some (1, some '\'') := by decide
    have hclose : track 1 (some '\'') ['\'', ')'] = some (0, none) := by decide
    rw [htext, track_append hopen, track_append hcol, track_append hcomma,
      track_append (track_doubled (Or.inl rfl) 1 _)]
    exact hclose
  · rw [htext]
    exact ⟨'J', rfl, by decide⟩

/-- The constant predicates have their values. -/
structure Interprets (v : List Char → Bool) : Prop where
  one_eq_one : v "1=1".toList = true
  one_eq_zero : v "1=0".toList = false

theorem isOperand_true (hv : Interprets v) : IsOperand v "1=1".toList true := by
  have h : IsOperand v "1=1".toList (v "1=1".toList) := isOperand_predicate ⟨by decide, '1', rfl, by decide⟩
  rwa [hv.one_eq_one] at h

theorem isOperand_false (hv : Interprets v) : IsOperand v "1=0".toList false := by
  have h : IsOperand v "1=0".toList (v "1=0".toList) := isOperand_predicate ⟨by decide, '1', rfl, by decide⟩
  rwa [hv.one_eq_zero] at h

variable {text : String} {b : Bool} {val : Value}

private theorem isOperand_negate (h : IsCondition v text.toList b) : IsOperand v (negate text).toList (!b) := by
  have htext : (negate text).toList = ['N', 'O', 'T', ' '] ++ (['('] ++ text.toList ++ [')']) := by simp [negate]
  rw [htext]
  exact h.paren.not

/-- Each part is an operand of the value beside it. -/
abbrev Operands (v : List Char → Bool) (parts : List String) (bs : List Bool) : Prop :=
  List.Forall₂ (fun part b => IsOperand v part.toList b) parts bs

private theorem forall₂_toList {R : List Char → Bool → Prop} {bs : List Bool}
    (h : List.Forall₂ (fun part b => R part.toList b) parts bs) : List.Forall₂ R (parts.map String.toList) bs :=
  List.forall₂_map_left_iff.2 h

private theorem toList_intercalate_and (parts : List String) :
    (String.intercalate " AND " parts).toList = [' ', 'A', 'N', 'D', ' '].intercalate (parts.map String.toList) := by
  simp

private theorem isOperand_joinAnd {bs : List Bool} (h : Operands v parts bs) (hne : parts ≠ []) :
    IsOperand v (joinAnd parts).toList (bs.all id) := by
  unfold joinAnd
  split
  · obtain ⟨b, bs', hb, hbs, rfl⟩ := List.forall₂_cons_left_iff.1 h
    cases hbs
    simpa using hb
  · have hconj : List.Forall₂ (fun part b => IsConjunction v part.toList b) parts bs :=
      h.imp fun _ _ hpart => hpart.isConjunction
    have hjoin := isConjunction_join (forall₂_toList hconj) (by simpa using hne)
    rw [← toList_intercalate_and] at hjoin
    have htext : ("(" ++ String.intercalate " AND " parts ++ ")").toList =
        ['('] ++ (String.intercalate " AND " parts).toList ++ [')'] := by simp
    rw [htext]
    exact hjoin.isCondition.paren

/-! ### Logical operators -/

/-- Parentheses around the whole and in the separators are parentheses around each part. -/
private theorem paren_intercalate {sep : List Char} {texts : List (List Char)} (hne : texts ≠ []) :
    ['('] ++ ([')'] ++ sep ++ ['(']).intercalate texts ++ [')'] =
      sep.intercalate (texts.map fun text => ['('] ++ text ++ [')']) := by
  induction texts with
  | nil => exact absurd rfl hne
  | cons text texts ih =>
    cases texts with
    | nil => simp [List.intercalate, List.intersperse]
    | cons text' texts =>
      have htail := ih (List.cons_ne_nil _ _)
      rw [List.map_cons] at htail
      rw [List.map_cons, List.map_cons, intercalate_cons_cons, intercalate_cons_cons, ← htail]
      simp [List.append_assoc]

private theorem toList_combineLogical {joiner : String} (hne : parts ≠ []) :
    (combineLogical joiner parts).toList =
      ([' '] ++ joiner.toList ++ [' ']).intercalate
      ((parts.map String.toList).map fun text => ['('] ++ text ++ [')']) := by
  rw [← paren_intercalate (by simpa using hne), combineLogical, if_neg hne]
  simp

section

variable {bs : List Bool}

/-- Each part is a condition of the value beside it. -/
abbrev Conditions (v : List Char → Bool) (parts : List String) (bs : List Bool) : Prop :=
  List.Forall₂ (fun part b => IsCondition v part.toList b) parts bs

private theorem operands_paren (h : Conditions v parts bs) :
    List.Forall₂ (IsOperand v) ((parts.map String.toList).map fun text => ['('] ++ text ++ [')']) bs := by
  rw [List.map_map, List.forall₂_map_left_iff]
  exact h.imp fun _ _ hpart => hpart.paren

private theorem isConjunction_combineAnd (hv : Interprets v) (h : Conditions v parts bs) :
    IsConjunction v (combineLogical "AND" parts).toList (bs.all id) := by
  by_cases hne : parts = []
  · subst hne
    cases h
    exact (isOperand_true hv).isConjunction
  · rw [toList_combineLogical hne]
    refine isConjunction_join ((operands_paren h).imp fun _ _ hpart => hpart.isConjunction) ?_
    simpa using hne

private theorem isCondition_combineOr (hne : parts ≠ []) (h : Conditions v parts bs) :
    IsCondition v (combineLogical "OR" parts).toList (bs.any id) := by
  rw [toList_combineLogical hne]
  exact isCondition_join (operands_paren h) (by simpa using hne)

/-- An `$or` of one item is an operand. -/
private theorem isOperand_combineOr_singleton {part : String} (h : IsCondition v part.toList b) :
    IsOperand v (combineLogical "OR" [part]).toList b := by
  rw [toList_combineLogical (List.cons_ne_nil _ _)]
  have hparen := h.paren
  simpa [List.intercalate, List.intersperse] using hparen

end

/-! ### Operators -/

section

variable {path op : String}

/-- With operators there are parts. -/
private theorem translateOperators_ne_nil {entry : String × Value} {ops : List (String × Value)}
    (h : translateOperators lib contentCol path (entry :: ops) = .ok parts) : parts ≠ [] := by
  obtain ⟨part, -, hrest⟩ := except_bind_eq_ok.1 h
  obtain ⟨tail, -, hpure⟩ := except_bind_eq_ok.1 hrest
  cases hpure
  exact List.cons_ne_nil part tail

variable (hcol : IsColumn contentCol)
include hcol

/-- A predicate is an operand of its truth value. -/
private theorem isOperand_holds {pred : Result String}
    (h : jsonExists contentCol path <$> pred = .ok text) :
    IsOperand v text.toList (holds v (jsonExists contentCol path <$> pred)) := by
  rw [h]
  obtain ⟨pred, -, rfl⟩ := except_map_eq_ok.1 h
  exact isOperand_predicate (isPredicate_jsonExists hcol path pred)

variable {operand : Value}

private theorem isOperand_foldCase {func : String}
    (h : foldCase lib contentCol path operand func = .ok text) (hne : ∀ ops, operand = .object ops → ops ≠ []) :
    IsOperand v text.toList (foldMeaning v lib contentCol path operand func) := by
  cases operand with
  | object ops =>
    obtain ⟨parts, hparts, hpure⟩ := except_bind_eq_ok.1 h
    obtain rfl := except_pure_eq_ok.1 hpure
    have hforall := forall₂_of_mapM_eq_ok hparts
    have hoperands :
      Operands v parts (ops.map fun entry => holds v (foldPredicate lib contentCol path func entry)) := by
      refine List.Forall₂.flip ?_
      rw [List.forall₂_map_left_iff]
      exact hforall.imp fun entry part hpart => isOperand_holds hcol hpart
    have hparts_ne : parts ≠ [] := by
      rintro rfl
      exact hne ops rfl (List.forall₂_nil_right_iff.1 hforall)
    have hjoin := isOperand_joinAnd hoperands hparts_ne
    rwa [List.all_map] at hjoin
  | null | bool | number | string | array => cases h

private theorem isOperand_plainOperator (h : plainOperator lib contentCol path op operand = .ok text)
    (hne : op = "$upper" ∨ op = "$lower" → ∀ ops, operand = .object ops → ops ≠ []) :
    IsOperand v text.toList (plainMeaning v lib contentCol path op operand) := by
  unfold plainOperator at h
  unfold plainMeaning
  split
  · rename_i hop
    rw [if_pos hop] at h
    exact isOperand_foldCase hcol h (hne (Or.inl hop))
  rename_i hupper
  rw [if_neg hupper] at h
  split
  · rename_i hop
    rw [if_pos hop] at h
    exact isOperand_foldCase hcol h (hne (Or.inr hop))
  rename_i hlower
  rw [if_neg hlower] at h
  split
  · rename_i hop
    rw [if_pos hop] at h
    have hexists : IsOperand v (jsonExists contentCol path "").toList (v (jsonExists contentCol path "").toList) :=
      isOperand_predicate (isPredicate_jsonExists hcol path "")
    split at h
    · rename_i hyes
      rw [if_pos hyes]
      cases h
      exact hexists
    · rename_i hno
      rw [if_neg hno]
      cases h
      exact isOperand_negate hexists.isCondition
  · rename_i hop
    rw [if_neg hop] at h
    exact isOperand_holds hcol h

/-- An operator whose operand is no operator object. -/
private theorem isOperand_scalar (hobject : ∀ ops, operand ≠ .object ops)
    (h : translateOperator lib contentCol path op operand = .ok text) :
    IsOperand v text.toList (operatorMeaning v lib contentCol path op operand) := by
  have hplain : ∀ ops, operand = .object ops → ops ≠ [] := fun ops heq => absurd heq (hobject ops)
  rw [translateOperator.eq_def] at h
  rw [operatorMeaning.eq_def]
  split
  · exact absurd rfl (hobject _)
  · split at h
    · exact absurd rfl (hobject _)
    · split at h
      · rename_i hop
        rw [if_pos hop]
        obtain ⟨inner, hinner, rfl⟩ := except_map_eq_ok.1 h
        exact isOperand_negate (isOperand_holds hcol hinner).isCondition
      · rename_i hop
        rw [if_neg hop]
        exact isOperand_plainOperator hcol h fun _ => hplain

mutual

theorem isOperand_operator : ∀ (operand : Value) (op text : String),
    translateOperator lib contentCol path op operand = .ok text → operatorGrouped op operand = true →
      IsOperand v text.toList (operatorMeaning v lib contentCol path op operand)
  | .object ops, op, text, h, hgrouped => by
    rw [translateOperator] at h
    rw [operatorMeaning]
    rw [operatorGrouped] at hgrouped
    split at h
    · rename_i hop
      rw [if_pos hop] at hgrouped ⊢
      obtain ⟨parts, hparts, hpure⟩ := except_bind_eq_ok.1 h
      obtain rfl := except_pure_eq_ok.1 hpure
      rw [Bool.and_eq_true] at hgrouped
      obtain ⟨bs, hoperands, hall⟩ := operands_operators ops parts hparts hgrouped.2
      have hne : parts ≠ [] := by
        cases ops with
        | nil => exact absurd hgrouped.1 (by decide)
        | cons entry ops => exact translateOperators_ne_nil hparts
      rw [← hall]
      exact isOperand_negate (isOperand_joinAnd hoperands hne).isCondition
    · rename_i hop
      rw [if_neg hop] at hgrouped ⊢
      refine isOperand_plainOperator hcol h fun hfold ops' heq => ?_
      cases heq
      rw [if_pos hfold] at hgrouped
      simpa using hgrouped
  | .null, _, _, h, _ | .bool _, _, _, h, _ | .number _, _, _, h, _ | .string _, _, _, h, _ | .array _, _, _, h, _ =>
    isOperand_scalar hcol nofun h

theorem operands_operators : ∀ (ops : List (String × Value)) (parts : List String),
    translateOperators lib contentCol path ops = .ok parts → operatorsGrouped ops = true →
      ∃ bs, Operands v parts bs ∧ bs.all id = operatorsMeaning v lib contentCol path ops
  | [], parts, h, _ => by
    cases h
    exact ⟨[], .nil, rfl⟩
  | (op, operand) :: ops, parts, h, hgrouped => by
    rw [translateOperators] at h
    rw [operatorsGrouped, Bool.and_eq_true] at hgrouped
    obtain ⟨part, hpart, hrest⟩ := except_bind_eq_ok.1 h
    obtain ⟨tail, htail, hpure⟩ := except_bind_eq_ok.1 hrest
    obtain rfl := except_pure_eq_ok.1 hpure
    obtain ⟨bs, hoperands, hall⟩ := operands_operators ops tail htail hgrouped.2
    refine ⟨_ :: bs, .cons (isOperand_operator operand op part hpart hgrouped.1) hoperands, ?_⟩
    rw [List.all_cons, hall, operatorsMeaning]
    rfl

end

end

/-- The text of a member, as a condition and, unless it is a wide `$or`, as a conjunction. -/
structure MemberText (v : List Char → Bool) (text : String) (wide : Bool) (b : Bool) : Prop where
  condition : IsCondition v text.toList b
  conjunction : wide = false → IsConjunction v text.toList b

theorem MemberText.of_conjunction {wide : Bool} (h : IsConjunction v text.toList b) : MemberText v text wide b :=
  ⟨h.isCondition, fun _ => h⟩

private theorem ne_nil_of_items {items : List Value} (hlength : parts.length = items.length)
    (h : (!items.isEmpty) = true) : parts ≠ [] := by
  rintro rfl
  simp [List.length_eq_zero_iff.1 hlength.symm] at h

variable (hv : Interprets v) (hcol : IsColumn contentCol)
include hcol

private theorem isOperand_fieldPredicate {field : String}
    (h : translateFieldPredicate lib contentCol field val = .ok text)
    (hgrouped : ∀ ops, val = .object ops → operatorsGrouped ops = true) :
    IsOperand v text.toList (fieldMeaning v lib contentCol field val) := by
  unfold fieldMeaning
  cases val with
  | object ops =>
    obtain ⟨parts, hparts, hpure⟩ := except_bind_eq_ok.1 h
    obtain rfl := except_pure_eq_ok.1 hpure
    cases ops with
    | nil =>
      cases hparts
      exact isOperand_predicate (isPredicate_jsonExists hcol _ "")
    | cons entry ops =>
      have hne := translateOperators_ne_nil hparts
      obtain ⟨bs, hoperands, hall⟩ := operands_operators hcol _ parts hparts (hgrouped _ rfl)
      rw [if_neg hne]
      dsimp only
      rw [← hall]
      exact isOperand_joinAnd hoperands hne
  | null | bool | number | string | array => exact isOperand_holds hcol h

/-! ### Filters -/

/-- A member whose key is none of the logical operators. -/
private theorem isOperand_field {key : String}
    (h : translateField lib contentCol key val = .ok text)
    (hgrouped : ∀ ops, val = .object ops → operatorsGrouped ops = true) :
    IsOperand v text.toList (fieldMeaning v lib contentCol key val) := by
  unfold translateField at h
  split at h
  · cases h
  · exact isOperand_fieldPredicate hcol h hgrouped

/-- A member whose value is no array. -/
private theorem isOperand_member {key : String} (harray : ∀ items, val ≠ .array items)
    (h : translateTopLevel lib contentCol key val = .ok text) (hgrouped : memberGrouped key val = true) :
    IsOperand v text.toList (memberMeaning v lib contentCol key val) := by
  have hoperators : ∀ ops, val = .object ops → operatorsGrouped ops = true := by
    rintro ops rfl
    rwa [memberGrouped] at hgrouped
  rw [translateTopLevel.eq_def] at h
  rw [memberMeaning.eq_def]
  split
  · exact absurd rfl (harray _)
  · split at h
    · exact absurd rfl (harray _)
    · split at h
      · cases h
      split at h
      · cases h
      · exact isOperand_field hcol h hoperators

include hv

mutual

/-- The text of a well grouped filter has the value of the filter, and stands in a conjunction if that is safe. -/
theorem isCondition_filter : ∀ (filter : Value) (text : String),
    qbeToWhereClause lib contentCol filter = .ok text → wellGrouped filter = true →
      MemberText v text (!andSafe filter) (meaning v lib contentCol filter)
  | .object members, text, h, hgrouped => by
    rw [qbeToWhereClause] at h
    rw [wellGrouped, Bool.and_eq_true, Bool.or_eq_true, decide_eq_true_eq] at hgrouped
    rw [meaning]
    obtain ⟨clauses, hclauses, hpure⟩ := except_bind_eq_ok.1 h
    obtain rfl := except_pure_eq_ok.1 hpure
    obtain ⟨bs, hconditions, hconjunctions, hall, hlength⟩ := conditions_members members clauses hclauses hgrouped.1
    rw [← hall]
    by_cases hnil : clauses = []
    · rw [if_pos hnil]
      subst hnil
      cases hconditions
      exact .of_conjunction (isOperand_true hv).isConjunction
    · rw [if_neg hnil]
      have hjoin : andSafe (.object members) = true →
          IsConjunction v (String.intercalate " AND " clauses).toList (bs.all id) := by
        intro hsafe
        rw [toList_intercalate_and]
        exact isConjunction_join (forall₂_toList (hconjunctions hsafe)) (by simpa using hnil)
      refine ⟨?_, fun hsafe => hjoin (by simpa using hsafe)⟩
      rcases hgrouped.2 with hsafe | hone
      · exact (hjoin hsafe).isCondition
      · -- The only clause stands alone.
        rw [← hlength] at hone
        obtain ⟨clause, rfl⟩ := List.length_eq_one_iff.1 hone
        obtain ⟨b, bs', hb, hbs, rfl⟩ := List.forall₂_cons_left_iff.1 hconditions
        cases hbs
        simpa using hb
  | .null, _, h, _ | .bool _, _, h, _ | .number _, _, h, _ | .string _, _, h, _ | .array _, _, h, _ => by cases h

theorem conditions_members : ∀ (members : List (String × Value)) (clauses : List String),
    translateMembers lib contentCol members = .ok clauses → membersGrouped members = true →
      ∃ bs, Conditions v clauses bs ∧
        (andSafe (.object members) = true →
          List.Forall₂ (fun clause b => IsConjunction v clause.toList b) clauses bs) ∧
        bs.all id = membersMeaning v lib contentCol members ∧
        clauses.length = (members.filter fun member => member.1 ≠ "$orderby").length
  | [], clauses, h, _ => by
    cases h
    exact ⟨[], .nil, fun _ => .nil, rfl, rfl⟩
  | (key, val) :: members, clauses, h, hgrouped => by
    rw [translateMembers] at h
    rw [membersGrouped, Bool.and_eq_true, Bool.or_eq_true, decide_eq_true_eq] at hgrouped
    rw [membersMeaning]
    split at h
    · rename_i hkey
      rw [if_pos hkey, List.filter_cons_of_neg (by simpa using hkey)]
      obtain ⟨bs, hconditions, hconjunctions, hall, hlength⟩ := conditions_members members clauses h hgrouped.2
      refine ⟨bs, hconditions, fun hsafe => hconjunctions ?_, hall, hlength⟩
      rw [andSafe, List.all_cons, Bool.and_eq_true] at hsafe
      exact hsafe.2
    · rename_i hkey
      rw [if_neg hkey, List.filter_cons_of_pos (by simpa using hkey)]
      obtain ⟨clause, hclause, hrest⟩ := except_bind_eq_ok.1 h
      obtain ⟨tail, htail, hpure⟩ := except_bind_eq_ok.1 hrest
      obtain rfl := except_pure_eq_ok.1 hpure
      obtain ⟨bs, hconditions, hconjunctions, hall, hlength⟩ := conditions_members members tail htail hgrouped.2
      have hmember := isCondition_member val key clause hclause (hgrouped.1.resolve_left hkey)
      refine ⟨_ :: bs, .cons hmember.condition hconditions, fun hsafe => ?_, ?_, by simp [hlength]⟩
      · rw [andSafe, List.all_cons, Bool.and_eq_true] at hsafe
        exact .cons (hmember.conjunction (by simpa using hsafe.1)) (hconjunctions hsafe.2)
      · rw [List.all_cons, hall]
        rfl

theorem isCondition_member : ∀ (val : Value) (key text : String),
    translateTopLevel lib contentCol key val = .ok text → memberGrouped key val = true →
      MemberText v text (isWideOr (key, val)) (memberMeaning v lib contentCol key val)
  | .array items, key, text, h, hgrouped => by
    rw [translateTopLevel] at h
    rw [memberGrouped] at hgrouped
    rw [memberMeaning]
    split at h
    · rename_i hand
      rw [if_pos hand] at hgrouped ⊢
      obtain ⟨parts, hparts, rfl⟩ := except_map_eq_ok.1 h
      obtain ⟨bs, hconditions, hall, -, -⟩ := conditions_items items parts hparts hgrouped
      rw [← hall]
      exact .of_conjunction (isConjunction_combineAnd hv hconditions)
    rename_i hand
    rw [if_neg hand] at hgrouped ⊢
    by_cases hor : key = "$or"
    · rw [if_pos hor] at h ⊢
      rw [if_pos (Or.inl hor), Bool.and_eq_true] at hgrouped
      obtain ⟨parts, hparts, rfl⟩ := except_map_eq_ok.1 h
      obtain ⟨bs, hconditions, -, hany, hlength⟩ := conditions_items items parts hparts hgrouped.2
      have hne := ne_nil_of_items hlength hgrouped.1
      rw [← hany]
      refine ⟨isCondition_combineOr hne hconditions, fun hwide => ?_⟩
      -- An `$or` that is not wide has one item.
      have hone : parts.length = 1 := by
        have hpos := List.length_pos_iff.2 hne
        have hshort : ¬2 ≤ items.length := by simpa [isWideOr, hor] using hwide
        omega
      obtain ⟨part, rfl⟩ := List.length_eq_one_iff.1 hone
      obtain ⟨b, bs', hb, hbs, rfl⟩ := List.forall₂_cons_left_iff.1 hconditions
      cases hbs
      simpa using (isOperand_combineOr_singleton hb).isConjunction
    rw [if_neg hor] at h ⊢
    by_cases hnor : key = "$nor"
    · rw [if_pos hnor] at h ⊢
      rw [if_pos (Or.inr hnor), Bool.and_eq_true] at hgrouped
      obtain ⟨parts, hparts, rfl⟩ := except_map_eq_ok.1 h
      obtain ⟨bs, hconditions, -, hany, hlength⟩ := conditions_items items parts hparts hgrouped.2
      have hne := ne_nil_of_items hlength hgrouped.1
      rw [← hany]
      exact .of_conjunction (isOperand_negate (isCondition_combineOr hne hconditions)).isConjunction
    · rw [if_neg hnor] at h ⊢
      exact .of_conjunction (isOperand_field hcol h nofun).isConjunction
  | .object _, _, _, h, hgrouped | .null, _, _, h, hgrouped | .bool _, _, _, h, hgrouped
  | .number _, _, _, h, hgrouped
  | .string _, _, _, h, hgrouped => .of_conjunction (isOperand_member hcol (by nofun) h hgrouped).isConjunction

theorem conditions_items : ∀ (items : List Value) (parts : List String),
    translateItems lib contentCol items = .ok parts → itemsGrouped items = true →
      ∃ bs, Conditions v parts bs ∧ bs.all id = allMeaning v lib contentCol items ∧
        bs.any id = anyMeaning v lib contentCol items ∧ parts.length = items.length
  | [], parts, h, _ => by
    cases h
    exact ⟨[], .nil, rfl, rfl, rfl⟩
  | item :: items, parts, h, hgrouped => by
    rw [translateItems] at h
    rw [itemsGrouped, Bool.and_eq_true] at hgrouped
    obtain ⟨part, hpart, hrest⟩ := except_bind_eq_ok.1 h
    obtain ⟨tail, htail, hpure⟩ := except_bind_eq_ok.1 hrest
    obtain rfl := except_pure_eq_ok.1 hpure
    obtain ⟨bs, hconditions, hall, hany, hlength⟩ := conditions_items items tail htail hgrouped.2
    have hitem := isCondition_filter item part hpart hgrouped.1
    refine ⟨_ :: bs, .cons hitem.condition hconditions, ?_, ?_, by simp [hlength]⟩
    · rw [List.all_cons, hall, allMeaning]
      rfl
    · rw [List.any_cons, hany, anyMeaning]
      rfl

end

end OracleThin.Soda
