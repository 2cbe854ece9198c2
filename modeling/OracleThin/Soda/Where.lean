import OracleThin.Soda.Operation

/-!
# What the condition of a statement means

The condition of an operation is the conjunction of its selector (key, keys or filter) and its version. The text that
is built denotes it if the filter is well grouped and, with a version behind it, has no wide `$or` among its members.
-/

namespace OracleThin.Soda

open Lib Lib.Condition

variable {v : List Char → Bool} {lib : Library} {metadata : SodaCollectionMetadata}

/-! ### Predicates with binds -/

/-- The placeholders of `count` binds from the `n`th on. -/
def placeholdersFrom (n count : Nat) : List String := (List.range' n count).map fun n => ":" ++ toString n

def keysPredicate (metadata : SodaCollectionMetadata) (count : Nat) : String :=
  quoteIdent metadata.keyColumn ++ " IN (" ++ String.intercalate ", " (placeholdersFrom 1 count) ++ ")"

private theorem digits_plain {n : Nat} {c : Char} (hc : c ∈ (toString n).toList) : Plain c := by
  have hdigit : c.isDigit = true :=
    @Nat.isDigit_of_mem_toDigits 10 n c (by decide) (by decide) (by simpa [toString, Nat.repr] using hc)
  refine ⟨?_, ?_, ?_, ?_, ?_⟩ <;> (rintro rfl; revert hdigit; decide)

private theorem isPredicate_quoted {column : String} {rest : List Char} (h : track 0 none rest = some (0, none)) :
    IsPredicate ((quoteIdent column).toList ++ rest) where
  tracks := by rw [track_append (track_quoteIdent 0 column), h]
  starts := ⟨'"', by simp [quoteIdent], by decide⟩

private theorem isPredicate_columnEquals (column : String) (n : Nat) :
    IsPredicate (columnEquals column n).toList := by
  have htext : (columnEquals column n).toList =
      (quoteIdent column).toList ++ ([' ', '=', ' ', ':'] ++ (toString n).toList) := by
    simp [columnEquals]
  have hequals : track 0 none [' ', '=', ' ', ':'] = some (0, none) := by decide
  rw [htext]
  refine isPredicate_quoted ?_
  exact track_plain (fun c hc => digits_plain hc) 0

private theorem track_placeholders (n count : Nat) :
    track 1 none (String.intercalate ", " (placeholdersFrom n count)).toList = some (1, none) := by
  have hplaceholder : ∀ n : Nat, track 1 none (":" ++ toString n).toList = some (1, none) := by
    intro n
    refine track_plain (fun c hc => ?_) 1
    rw [String.toList_append, List.mem_append] at hc
    rcases hc with hcolon | hdigit
    · obtain rfl : c = ':' := by simpa using hcolon
      exact ⟨by decide, by decide, by decide, by decide, by decide⟩
    · exact digits_plain hdigit
  have hcomma : track 1 none [',', ' '] = some (1, none) := by decide
  rw [String.toList_intercalate]
  induction count generalizing n with
  | zero => rfl
  | succ count ih =>
    cases count with
    | zero => simpa [placeholdersFrom] using hplaceholder n
    | succ count =>
      have htail := ih (n + 1)
      simp only [placeholdersFrom, List.range'_succ, List.map_cons] at htail ⊢
      rw [intercalate_cons_cons, List.append_assoc, track_append (hplaceholder n),
        track_append (by simpa using hcomma)]
      exact htail

private theorem isPredicate_keysPredicate (count : Nat) : IsPredicate (keysPredicate metadata count).toList := by
  have htext : (keysPredicate metadata count).toList = (quoteIdent metadata.keyColumn).toList ++
      ([' ', 'I', 'N', ' ', '('] ++ ((String.intercalate ", " (placeholdersFrom 1 count)).toList ++ [')'])) := by
    simp [keysPredicate]
  have hopen : track 0 none [' ', 'I', 'N', ' ', '('] = some (1, none) := by decide
  rw [htext]
  refine isPredicate_quoted ?_
  rw [track_append hopen, track_append (track_placeholders 1 count)]
  decide

variable {binds binds' : List BindValue} {text : String} {op : SodaOperation}

/-- The loop over the keys numbers the placeholders on from the binds that are there. -/
theorem keyPlaceholders_ok {keys placeholders : List String}
    (h : keyPlaceholders metadata binds keys = .ok (placeholders, binds')) :
    placeholders = placeholdersFrom (binds.length + 1) keys.length ∧ binds'.length = binds.length + keys.length := by
  induction keys generalizing binds placeholders with
  | nil =>
    cases h
    exact ⟨rfl, rfl⟩
  | cons key keys ih =>
    obtain ⟨⟨placeholder, more⟩, hfirst, h⟩ := except_bind_eq_ok.1 h
    obtain ⟨⟨rest, all⟩, hrest, h⟩ := except_bind_eq_ok.1 h
    cases h
    obtain ⟨bind, -, hpure⟩ := except_bind_eq_ok.1 hfirst
    cases hpure
    obtain ⟨hplaceholders, hlength⟩ := ih hrest
    rw [List.length_append, List.length_singleton] at hplaceholders hlength
    refine ⟨?_, by rw [hlength, List.length_cons]; omega⟩
    rw [hplaceholders]
    simp [placeholdersFrom, List.range'_succ]

/-! ### Conditions -/

/-- The binds of the selector. -/
def bindCount (op : SodaOperation) : Nat :=
  match op.key, op.keys with
  | some _, _ => 1
  | none, some keys => keys.length
  | none, none => 0

def selectorMeaning (v : List Char → Bool) (lib : Library) (metadata : SodaCollectionMetadata) (op : SodaOperation) :
    Bool :=
  match op.key, op.keys, op.filter with
  | some _, _, _ => v (columnEquals metadata.keyColumn 1).toList
  | none, some [], _ => false
  | none, some keys, _ => v (keysPredicate metadata keys.length).toList
  | none, none, some filter =>
    match lib.parseJson filter with
    | .ok value => meaning v lib (quoteIdent metadata.contentColumn) value
    | .error _ => false
  | none, none, none => true

/-- The version predicate with the `n`th bind, if the operation asks for a version. -/
def versionMeaning (v : List Char → Bool) (metadata : SodaCollectionMetadata) (op : SodaOperation) (n : Nat) : Bool :=
  match op.version, metadata.versionColumn with
  | some _, some column => v (columnEquals column n).toList
  | _, _ => true

def operationMeaning (v : List Char → Bool) (lib : Library) (metadata : SodaCollectionMetadata) (op : SodaOperation) :
    Bool :=
  selectorMeaning v lib metadata op && versionMeaning v metadata op (bindCount op + 1)

/-- The filter that is written out, if there is one, is well grouped, and no wide `$or` stands before a version. -/
def grouped (lib : Library) (op : SodaOperation) : Bool :=
  match op.key, op.keys, op.filter with
  | none, none, some filter =>
    match lib.parseJson filter with
    | .ok value => wellGrouped value && (op.version.isNone || andSafe value)
    | .error _ => true
  | _, _, _ => true

private theorem isOperand_columnEquals (column : String) (n : Nat) :
    IsOperand v (columnEquals column n).toList (v (columnEquals column n).toList) :=
  isOperand_predicate (isPredicate_columnEquals column n)

/-- What a list of clauses means: nothing is asked, or one clause has the value. -/
inductive ClausesMean (v : List Char → Bool) (versioned : Bool) : List String → Bool → Prop
  | nothing : ClausesMean v versioned [] true
  | clause {text : String} {wide b : Bool} (h : MemberText v text wide b) (hwide : versioned = true → wide = false) :
      ClausesMean v versioned [text] b

private theorem ClausesMean.operand {versioned b : Bool} (h : IsOperand v text.toList b) :
    ClausesMean v versioned [text] b :=
  .clause (.of_conjunction h.isConjunction) fun _ => rfl

private theorem keyPredicate_ok {key clause : String} (h : keyPredicate metadata [] key = .ok (clause, binds)) :
    clause = columnEquals metadata.keyColumn 1 ∧ binds.length = 1 := by
  obtain ⟨⟨placeholder, more⟩, hfirst, h⟩ := except_bind_eq_ok.1 h
  obtain ⟨bind, -, hpure⟩ := except_bind_eq_ok.1 hfirst
  cases hpure
  cases h
  refine ⟨?_, rfl⟩
  rw [← String.toList_inj]
  simp [columnEquals]

private theorem parseFilter_ok {filter : String} {value : Value} (h : parseFilter lib filter = .ok value) :
    lib.parseJson filter = .ok value := by
  unfold parseFilter at h
  split at h
  · rename_i hparse
    cases h
    exact hparse
  · cases h

private theorem selectorClauses_ok (hv : Interprets v) {clauses : List String}
    (h : selectorClauses lib metadata op = .ok (clauses, binds)) (hgrouped : grouped lib op = true) :
    ClausesMean v op.version.isSome clauses (selectorMeaning v lib metadata op) ∧ binds.length = bindCount op := by
  obtain ⟨key, keys, filter, version, skip, limit, hint, lock⟩ := op
  rcases key with _ | key
  · rcases keys with _ | _ | ⟨key, keys⟩
    · rcases filter with _ | filter
      · cases h
        exact ⟨.nothing, rfl⟩
      · obtain ⟨value, hvalue, h⟩ := except_bind_eq_ok.1 h
        obtain ⟨clause, hclause, h⟩ := except_bind_eq_ok.1 h
        cases h
        have hparse := parseFilter_ok hvalue
        simp only [grouped, hparse, Bool.and_eq_true, Bool.or_eq_true] at hgrouped
        simp only [selectorMeaning, hparse]
        refine ⟨.clause (isCondition_filter hv (isColumn_quoteIdent _) value clause hclause hgrouped.1) ?_, rfl⟩
        -- A version rules out the first alternative of the grouping.
        intro hversion
        rcases hgrouped.2 with hnone | hsafe
        · rw [Option.isNone_iff_eq_none] at hnone
          rw [hnone] at hversion
          cases hversion
        · rw [hsafe]
          rfl
    · cases h
      exact ⟨.operand (isOperand_false hv), rfl⟩
    · obtain ⟨⟨placeholders, more⟩, hkeys, h⟩ := except_bind_eq_ok.1 h
      cases h
      obtain ⟨rfl, hlength⟩ := keyPlaceholders_ok hkeys
      refine ⟨.operand (isOperand_predicate (isPredicate_keysPredicate _)), ?_⟩
      rw [hlength]
      exact Nat.zero_add _
  · obtain ⟨⟨clause, more⟩, hkey, h⟩ := except_bind_eq_ok.1 h
    cases h
    obtain ⟨rfl, hlength⟩ := keyPredicate_ok hkey
    exact ⟨.operand (isOperand_columnEquals _ _), hlength⟩

private theorem versionPredicate_ok {version clause : String}
    (h : versionPredicate metadata binds version = .ok (clause, binds')) :
    ∃ column, metadata.versionColumn = some column ∧ clause = columnEquals column (binds.length + 1) := by
  unfold versionPredicate at h
  split at h
  · cases h
  · rename_i column hcolumn
    obtain ⟨bind, -, hpure⟩ := except_bind_eq_ok.1 h
    cases hpure
    exact ⟨column, hcolumn, rfl⟩

/-- Two conjunctions joined by `AND`. -/
private theorem isConjunction_and {text' : String} {b b' : Bool} (h : IsConjunction v text.toList b)
    (h' : IsConjunction v text'.toList b') :
    IsConjunction v (String.intercalate " AND " [text, text']).toList (b && b') := by
  have hjoin := isConjunction_join (.cons h (.cons h' .nil)) (List.cons_ne_nil _ _)
  simpa using hjoin

/-- The condition that is built for an operation has the value of the operation. -/
theorem buildWhere_ok (hv : Interprets v) (h : buildWhere lib metadata op = .ok (text, binds))
    (hgrouped : grouped lib op = true) : value v text.toList = some (operationMeaning v lib metadata op) := by
  obtain ⟨⟨clauses, binds₁⟩, hselector, h⟩ := except_bind_eq_ok.1 h
  obtain ⟨⟨clauses', binds₂⟩, hversion, h⟩ := except_bind_eq_ok.1 h
  cases h
  obtain ⟨hclauses, hlength⟩ := selectorClauses_ok hv hselector hgrouped
  refine value_of_isCondition ?_
  unfold operationMeaning versionMeaning
  unfold versionClauses at hversion
  generalize selectorMeaning v lib metadata op = b at hclauses ⊢
  cases hop : op.version with
  | none =>
    rw [hop] at hversion hclauses
    cases hversion
    cases hclauses with
    | nothing => exact (isOperand_true hv).isCondition
    | clause hmember _ => simpa using hmember.condition
  | some version =>
    rw [hop] at hversion hclauses
    obtain ⟨⟨clause, binds₃⟩, hpredicate, hpure⟩ := except_bind_eq_ok.1 hversion
    cases hpure
    obtain ⟨column, hcolumn, rfl⟩ := versionPredicate_ok hpredicate
    rw [hcolumn, hlength]
    have hpart := (isOperand_columnEquals (v := v) column (bindCount op + 1)).isConjunction
    cases hclauses with
    | nothing => simpa using hpart.isCondition
    | clause hmember hwide => exact (isConjunction_and (hmember.conjunction (hwide rfl)) hpart).isCondition

private theorem replaceWhere_ok (h : replaceWhere metadata op binds = .ok (text, binds')) :
    value v text.toList = some (v (columnEquals metadata.keyColumn 2).toList && versionMeaning v metadata op 3) := by
  have hkey := (isOperand_columnEquals (v := v) metadata.keyColumn 2).isConjunction
  refine value_of_isCondition ?_
  unfold replaceWhere at h
  unfold versionMeaning
  cases hop : op.version with
  | none =>
    rw [hop] at h
    cases h
    simpa using hkey.isCondition
  | some version =>
    simp only [hop] at h
    cases hcolumn : metadata.versionColumn with
    | none =>
      rw [hcolumn] at h
      cases h
    | some column =>
      simp only [hcolumn] at h
      obtain ⟨bind, -, hpure⟩ := except_bind_eq_ok.1 h
      obtain ⟨rfl, -⟩ := Prod.mk.inj (except_pure_eq_ok.1 hpure)
      have hjoin := isConjunction_and hkey (isOperand_columnEquals (v := v) column 3).isConjunction
      have htext : String.intercalate " AND " [columnEquals metadata.keyColumn 2, columnEquals column 3] =
          columnEquals metadata.keyColumn 2 ++ " AND " ++ columnEquals column 3 := by
        simp
      exact hjoin.isCondition

/-! ### Statements -/

/-- For well grouped filters, the text of a filter and the conditions of the statements of an operation mean what the
filter and the criteria mean. -/
theorem statements_keep_meaning (hv : Interprets v) (lib : Library) (metadata : SodaCollectionMetadata) :
    (∀ (column : String) (filter : Value) (text : String), wellGrouped filter = true →
      qbeToWhereClause lib (quoteIdent column) filter = .ok text →
        value v text.toList = some (meaning v lib (quoteIdent column) filter)) ∧
    (∀ (op : SodaOperation) (sql : String) (binds : List BindValue), grouped lib op = true →
      (buildSelectSql lib metadata op = .ok (sql, binds) →
        ∃ condition order, sql = selectHead metadata op ++ condition ++ selectTail op order ∧
          value v condition.toList = some (operationMeaning v lib metadata op)) ∧
      (buildCountSql lib metadata op = .ok (sql, binds) →
        ∃ condition, sql = "SELECT COUNT(*) FROM " ++ quotedTable metadata ++ " WHERE " ++ condition ∧
          value v condition.toList = some (operationMeaning v lib metadata op)) ∧
      (buildDeleteSql lib metadata op = .ok (sql, binds) →
        ∃ condition, sql = "DELETE FROM " ++ quotedTable metadata ++ " WHERE " ++ condition ∧
          value v condition.toList = some (operationMeaning v lib metadata op))) ∧
    (∀ (op : SodaOperation) (contentBind : Result BindValue) (withReturning : Bool) (sql : String)
        (binds : List BindValue),
      buildReplaceSql metadata op contentBind withReturning = .ok (sql, binds) →
        ∃ condition, sql = replaceHead metadata ++ condition ++
            (if withReturning then returningClause metadata binds.length else "") ∧
          value v condition.toList =
            some (v (columnEquals metadata.keyColumn 2).toList && versionMeaning v metadata op 3)) := by
  refine ⟨?_, ?_, ?_⟩
  · intro column filter text hgrouped h
    exact value_of_isCondition (isCondition_filter hv (isColumn_quoteIdent column) filter text h hgrouped).condition
  · intro op sql binds hgrouped
    refine ⟨?_, ?_, ?_⟩
    · intro h
      obtain ⟨⟨condition, binds'⟩, hwhere, h⟩ := except_bind_eq_ok.1 h
      obtain ⟨order, -, h⟩ := except_bind_eq_ok.1 h
      cases h
      exact ⟨condition, order, rfl, buildWhere_ok hv hwhere hgrouped⟩
    · intro h
      unfold buildCountSql at h
      split at h
      · cases h
      · obtain ⟨⟨condition, binds'⟩, hwhere, h⟩ := except_bind_eq_ok.1 h
        cases h
        exact ⟨condition, rfl, buildWhere_ok hv hwhere hgrouped⟩
    · intro h
      obtain ⟨⟨condition, binds'⟩, hwhere, h⟩ := except_bind_eq_ok.1 h
      cases h
      exact ⟨condition, rfl, buildWhere_ok hv hwhere hgrouped⟩
  · intro op contentBind withReturning sql binds h
    unfold buildReplaceSql at h
    cases hkey : op.key with
    | none =>
      rw [hkey] at h
      cases h
    | some key =>
      simp only [hkey] at h
      obtain ⟨content, -, h⟩ := except_bind_eq_ok.1 h
      obtain ⟨keyBind, -, h⟩ := except_bind_eq_ok.1 h
      obtain ⟨⟨condition, binds'⟩, hwhere, h⟩ := except_bind_eq_ok.1 h
      cases h
      exact ⟨condition, rfl, replaceWhere_ok hwhere⟩

/-- The metadata of a native collection. -/
def nativeMeta : SodaCollectionMetadata where
  tableName := "MYCOLL"
  keyColumn := "RESID"
  keySqlType := "RAW"
  contentColumn := "DATA"
  contentSqlType := .json
  versionColumn := some "ETAG"
  versionMethod := .none
  lastModifiedColumn := none
  creationTimeColumn := none
  mediaTypeColumn := none
  native := true

/-- A JSON library that reads every text as one document. -/
def readsAs (filter : Value) : Library := ⟨id, id, fun _ => .ok filter⟩

def equals (field display : String) : Value := .object [(field, .number display)]

/-- Either field has its value. -/
def eitherFilter : Value := .object [("$or", .array [equals "a" "1", equals "b" "2"])]

/-- Every predicate is true but `1=0`. -/
def allTrue (text : List Char) : Bool := text ≠ "1=0".toList

theorem statements_keep_meaning_either : grouped (readsAs eitherFilter) { filter := some "" } = true ∧
    ∃ condition, "DELETE FROM \"MYCOLL\" WHERE (JSON_EXISTS(\"DATA\", '$.a?(@ == 1)')) OR " ++
          "(JSON_EXISTS(\"DATA\", '$.b?(@ == 2)'))" =
        "DELETE FROM " ++ quotedTable nativeMeta ++ " WHERE " ++ condition ∧
      value allTrue condition.toList =
        some (operationMeaning allTrue (readsAs eitherFilter) nativeMeta { filter := some "" }) :=
  ⟨by decide, (((statements_keep_meaning ⟨by decide, by decide⟩ (readsAs eitherFilter) nativeMeta).2.1
    { filter := some "" } _ [] (by decide)).2.2 (by decide +kernel))⟩

/-- Only the predicate of the first field is true, beside `1=1`. -/
def firstOnly (text : List Char) : Bool :=
  text = "JSON_EXISTS(\"DATA\", '$.a?(@ == 1)')".toList || text = "1=1".toList

/-- A wide `$or` beside another member. -/
def eitherAndFilter : Value := .object [("$or", .array [equals "a" "1", equals "b" "2"]), ("c", .number "3")]

def emptyOr : Value := .object [("$or", .array [])]

def emptyNor : Value := .object [("$nor", .array [])]

def emptyNot : Value := .object [("a", .object [("$not", .object [])])]

/-- A version behind a wide `$or` restricts the last alternative only, and so does another member of the filter.
An empty `$or` is true, an empty `$nor` is false, and an empty `$not` is no condition at all. -/
theorem filters_lose_meaning : Interprets firstOnly ∧
    (buildDeleteSql (readsAs eitherFilter) nativeMeta { filter := some "", version := some "01" } =
        .ok ("DELETE FROM \"MYCOLL\" WHERE (JSON_EXISTS(\"DATA\", '$.a?(@ == 1)')) OR " ++
          "(JSON_EXISTS(\"DATA\", '$.b?(@ == 2)')) AND \"ETAG\" = :1", [.raw [1]]) ∧
      value firstOnly ("(JSON_EXISTS(\"DATA\", '$.a?(@ == 1)')) OR (JSON_EXISTS(\"DATA\", '$.b?(@ == 2)')) " ++
          "AND \"ETAG\" = :1").toList = some true ∧
      operationMeaning firstOnly (readsAs eitherFilter) nativeMeta
        { filter := some "", version := some "01" } = false) ∧
    ((qbeToWhereClause (readsAs .null) (quoteIdent "DATA") eitherAndFilter).toOption.map
          (fun text => value firstOnly text.toList) = some (some true) ∧
        meaning firstOnly (readsAs .null) (quoteIdent "DATA") eitherAndFilter = false) ∧
    (qbeToWhereClause (readsAs .null) (quoteIdent "DATA") emptyOr = .ok "1=1" ∧
        value firstOnly "1=1".toList = some true ∧
        meaning firstOnly (readsAs .null) (quoteIdent "DATA") emptyOr = false) ∧
    (qbeToWhereClause (readsAs .null) (quoteIdent "DATA") emptyNor = .ok "NOT (1=1)" ∧
        value firstOnly "NOT (1=1)".toList = some false ∧
        meaning firstOnly (readsAs .null) (quoteIdent "DATA") emptyNor = true) ∧
    (qbeToWhereClause (readsAs .null) (quoteIdent "DATA") emptyNot = .ok "NOT (())" ∧
        value firstOnly "NOT (())".toList = none) := by
  refine ⟨⟨by decide, by decide⟩, ⟨?_, ?_, ?_⟩, ⟨?_, ?_⟩, ⟨?_, ?_, ?_⟩, ⟨?_, ?_, ?_⟩, ⟨?_, ?_⟩⟩ <;> decide +kernel

end OracleThin.Soda
