import OracleThin.Soda.Denotes

/-!
# The statements of SODA operations

The criteria of a find chain become the condition of a statement: a key, several keys or a filter, and then the
version. Keys and versions are bound, and a filter is written out. The clauses are joined by `AND` without
parentheses, so a filter that is followed by the version predicate has to stand in a conjunction.
-/

namespace OracleThin.Soda

open Lib Lib.Condition

/-! ### Collections and criteria -/

inductive ContentSqlType
  | blob
  | clob
  | varchar2
  | json
  | raw
deriving DecidableEq, Repr

inductive VersionMethod
  | uuid
  | timestamp
  | hash (name : String)
  | sequential
  | none
deriving DecidableEq, Repr

/-- What the statements need of the metadata of a collection. -/
structure SodaCollectionMetadata where
  tableName : String
  keyColumn : String
  keySqlType : String
  contentColumn : String
  contentSqlType : ContentSqlType
  versionColumn : Option String
  versionMethod : VersionMethod
  lastModifiedColumn : Option String
  creationTimeColumn : Option String
  mediaTypeColumn : Option String
  native : Bool
deriving DecidableEq, Repr

inductive BindValue
  | raw (bytes : List UInt8)
  | text (value : String)
  | json (image : List UInt8)
deriving DecidableEq, Repr

/-- The criteria of a find chain. -/
structure SodaOperation where
  key : Option String := none
  keys : Option (List String) := none
  filter : Option String := none
  version : Option String := none
  skip : Option Nat := none
  limit : Option Nat := none
  hint : Option String := none
  lock : Bool := false
deriving DecidableEq, Repr

/-! ### Keys and versions -/

def invalidHexIdentifier : SodaError :=
  .invalidArgument "native RAW key/version must contain an even number of hexadecimal digits"

def hexNibble (c : Char) : Option UInt8 :=
  if '0' ≤ c ∧ c ≤ '9' then some (c.toUInt8 - '0'.toUInt8)
  else if 'a' ≤ c ∧ c ≤ 'f' then some (c.toUInt8 - 'a'.toUInt8 + 10)
  else if 'A' ≤ c ∧ c ≤ 'F' then some (c.toUInt8 - 'A'.toUInt8 + 10)
  else none

def hexPairs : List Char → Option (List UInt8)
  | [] => some []
  | [_] => none
  | hi :: lo :: rest => do
    let hi ← hexNibble hi
    let lo ← hexNibble lo
    let bytes ← hexPairs rest
    return (hi <<< 4 ||| lo) :: bytes

-- The source reads bytes. A character of several bytes has no byte that is a digit: both refuse it, with one error.
def hexDecode (s : String) : Result (List UInt8) :=
  if s.toList = [] then .error invalidHexIdentifier
  else
    match hexPairs s.toList with
    | some bytes => .ok bytes
    | none => .error invalidHexIdentifier

variable (lib : Library) (metadata : SodaCollectionMetadata)

def keyIsRaw : Bool := metadata.keySqlType.toList.map Char.toUpper = ['R', 'A', 'W']

def versionIsRaw : Bool := metadata.versionMethod = .none && metadata.native

def identifierBind (isRaw : Bool) (identifier : String) : Result BindValue :=
  if isRaw then .raw <$> hexDecode identifier else .ok (.text identifier)

def columnEquals (column : String) (n : Nat) : String := quoteIdent column ++ " = :" ++ toString n

def keyBindPlaceholder (binds : List BindValue) (key : String) : Result (String × List BindValue) := do
  let bind ← identifierBind (keyIsRaw metadata) key
  return (":" ++ toString (binds.length + 1), binds ++ [bind])

def keyPredicate (binds : List BindValue) (key : String) : Result (String × List BindValue) := do
  let (placeholder, binds) ← keyBindPlaceholder metadata binds key
  return (quoteIdent metadata.keyColumn ++ " = " ++ placeholder, binds)

/-- The loop over several keys. -/
def keyPlaceholders : List BindValue → List String → Result (List String × List BindValue)
  | binds, [] => return ([], binds)
  | binds, key :: keys => do
    let (placeholder, binds) ← keyBindPlaceholder metadata binds key
    let (placeholders, binds) ← keyPlaceholders binds keys
    return (placeholder :: placeholders, binds)

def versionPredicate (binds : List BindValue) (version : String) : Result (String × List BindValue) :=
  match metadata.versionColumn with
  | none => .error (.notSupported "collection has no version column")
  | some column => do
    let bind ← identifierBind (versionIsRaw metadata) version
    return (columnEquals column (binds.length + 1), binds ++ [bind])

/-! ### The condition -/

def parseFilter (filter : String) : Result Value :=
  match lib.parseJson filter with
  | .ok value => .ok value
  | .error e => .error (.qbe ("invalid filter JSON: " ++ e))

/-- The clause of the key, else of the keys, else of the filter. -/
def selectorClauses (op : SodaOperation) : Result (List String × List BindValue) :=
  match op.key, op.keys, op.filter with
  | some key, _, _ => do
    let (clause, binds) ← keyPredicate metadata [] key
    return ([clause], binds)
  | none, some [], _ => return (["1=0"], [])
  | none, some keys, _ => do
    let (placeholders, binds) ← keyPlaceholders metadata [] keys
    return ([quoteIdent metadata.keyColumn ++ " IN (" ++ String.intercalate ", " placeholders ++ ")"], binds)
  | none, none, some filter => do
    let value ← parseFilter lib filter
    let clause ← qbeToWhereClause lib (quoteIdent metadata.contentColumn) value
    return ([clause], [])
  | none, none, none => return ([], [])

/-- The clauses with the one of the version behind them. -/
def versionClauses (op : SodaOperation) (clauses : List String) (binds : List BindValue) :
    Result (List String × List BindValue) :=
  match op.version with
  | some version => do
    let (clause, binds) ← versionPredicate metadata binds version
    return (clauses ++ [clause], binds)
  | none => return (clauses, binds)

def buildWhere (op : SodaOperation) : Result (String × List BindValue) := do
  let (clauses, binds) ← selectorClauses lib metadata op
  let (clauses, binds) ← versionClauses metadata op clauses binds
  return (String.intercalate " AND " (if clauses = [] then ["1=1"] else clauses), binds)

/-! ### Statements -/

def quotedTable : String := quoteIdent metadata.tableName

/-- A column of raw bytes is read as hexadecimal digits. -/
def hexColumn (isRaw : Bool) (column : String) : String :=
  if isRaw then "RAWTOHEX(" ++ quoteIdent column ++ ")" else quoteIdent column

def timestampIso (col : String) : String := "TO_CHAR(" ++ col ++ ", 'YYYY-MM-DD\"T\"HH24:MI:SS.FF6')"

def contentExpr : String :=
  if (metadata.contentSqlType = .blob ∨ metadata.contentSqlType = .clob) ∧ metadata.mediaTypeColumn = none then
    "JSON_SERIALIZE(" ++ quoteIdent metadata.contentColumn ++ " RETURNING VARCHAR2(32767))"
  else quoteIdent metadata.contentColumn

def selectColumnList : String :=
  String.intercalate ", " ([hexColumn (keyIsRaw metadata) metadata.keyColumn, contentExpr metadata] ++
    (metadata.versionColumn.map (hexColumn (versionIsRaw metadata))).toList ++
    (metadata.creationTimeColumn.map fun column => timestampIso (quoteIdent column)).toList ++
    (metadata.lastModifiedColumn.map fun column => timestampIso (quoteIdent column)).toList ++
    (metadata.mediaTypeColumn.map quoteIdent).toList)

/-- The member of an object. -/
def Value.get (name : String) : Value → Option Value
  | .object members => (members.find? fun member => member.1 = name).map Prod.snd
  | _ => none

def Value.asStr : Value → Option String
  | .string s => some s
  | _ => none

def orderbyEntry (contentCol : String) (entry : Value) : Result String :=
  match (entry.get "path").bind Value.asStr with
  | none => .error (.qbe "$orderby entry requires a string 'path'")
  | some path =>
    let order := String.ofList ((((entry.get "order").bind Value.asStr).getD "asc").toList.map Char.toLower)
    let part (dir : String) :=
      "JSON_VALUE(" ++ contentCol ++ ", '" ++ escapeSqlLiteral (fieldToJsonPath path) ++ "') " ++ dir
    if order = "asc" then .ok (part "ASC")
    else if order = "desc" then .ok (part "DESC")
    else .error (.qbe ("invalid $orderby order: " ++ order))

def extractOrderby (filter : Value) (contentCol : String) : Result (Option String) :=
  match filter.get "$orderby" with
  | none => return none
  | some (.array entries) => do
    let parts ← entries.mapM (orderbyEntry contentCol)
    return if parts = [] then none else some (String.intercalate ", " parts)
  | some _ => .error (.notSupported "$orderby object form is not supported in thin mode")

def orderBy (op : SodaOperation) : Result (Option String) :=
  match op.filter with
  | none => return none
  | some filter => do
    let value ← parseFilter lib filter
    extractOrderby value (quoteIdent metadata.contentColumn)

/-- What stands before the condition of a `SELECT`. -/
def selectHead (op : SodaOperation) : String :=
  "SELECT " ++ (op.hint.elim "" fun hint => "/*+ " ++ hint ++ " */ ") ++ selectColumnList metadata ++
    " FROM " ++ quotedTable metadata ++ " WHERE "

/-- What stands behind the condition of a `SELECT`. -/
def selectTail (op : SodaOperation) (order : Option String) : String :=
  (order.elim "" fun order => " ORDER BY " ++ order) ++
    (op.skip.elim "" fun skip => " OFFSET " ++ toString skip ++ " ROWS") ++
    (op.limit.elim "" fun limit => " FETCH NEXT " ++ toString limit ++ " ROWS ONLY") ++
    (if op.lock then " FOR UPDATE" else "")

def buildSelectSql (op : SodaOperation) : Result (String × List BindValue) := do
  let (whereClause, binds) ← buildWhere lib metadata op
  let order ← orderBy lib metadata op
  return (selectHead metadata op ++ whereClause ++ selectTail op order, binds)

def buildCountSql (op : SodaOperation) : Result (String × List BindValue) :=
  if op.skip.isSome || op.limit.isSome then
    .error (.driver "ORA-40748: SKIP and LIMIT cannot be specified with count operation")
  else do
    let (whereClause, binds) ← buildWhere lib metadata op
    return ("SELECT COUNT(*) FROM " ++ quotedTable metadata ++ " WHERE " ++ whereClause, binds)

def buildDeleteSql (op : SodaOperation) : Result (String × List BindValue) := do
  let (whereClause, binds) ← buildWhere lib metadata op
  return ("DELETE FROM " ++ quotedTable metadata ++ " WHERE " ++ whereClause, binds)

def returningClause (existingBinds : Nat) : String :=
  let columns := [hexColumn (keyIsRaw metadata) metadata.keyColumn] ++
    (metadata.versionColumn.map (hexColumn (versionIsRaw metadata))).toList ++
    (metadata.creationTimeColumn.map fun column => timestampIso (quoteIdent column)).toList ++
    (metadata.lastModifiedColumn.map fun column => timestampIso (quoteIdent column)).toList
  let into := (List.range columns.length).map fun index => ":" ++ toString (existingBinds + index + 1)
  " RETURNING " ++ String.intercalate ", " columns ++ " INTO " ++ String.intercalate ", " into

/-- What stands before the condition of an `UPDATE`. -/
def replaceHead : String :=
  "UPDATE " ++ quotedTable metadata ++ " SET " ++
    String.intercalate ", " ([quoteIdent metadata.contentColumn ++ " = :1"] ++
      (metadata.lastModifiedColumn.map fun column => quoteIdent column ++ " = SYSTIMESTAMP").toList ++
      (if metadata.versionMethod = .uuid then
        (metadata.versionColumn.map fun column => quoteIdent column ++ " = SYS_GUID()").toList
      else [])) ++ " WHERE "

/-- The condition of an `UPDATE` and the binds, from those of the document and the key. -/
def replaceWhere (op : SodaOperation) (binds : List BindValue) : Result (String × List BindValue) :=
  match op.version with
  | none => return (columnEquals metadata.keyColumn 2, binds)
  | some version =>
    match metadata.versionColumn with
    | none => .error (.notSupported "collection has no version column")
    | some column => do
      let bind ← identifierBind (versionIsRaw metadata) version
      return (columnEquals metadata.keyColumn 2 ++ " AND " ++ columnEquals column 3, binds ++ [bind])

-- The bind of the document comes from its encoder, whose result is given. A filter of the operation is not read.
def buildReplaceSql (op : SodaOperation) (contentBind : Result BindValue) (withReturning : Bool) :
    Result (String × List BindValue) :=
  match op.key with
  | none => .error (.driver "ORA-40734: key not specified for SODA replaceOne")
  | some key => do
    let content ← contentBind
    let keyBind ← identifierBind (keyIsRaw metadata) key
    let (whereClause, binds) ← replaceWhere metadata op [content, keyBind]
    let returning := if withReturning then returningClause metadata binds.length else ""
    return (replaceHead metadata ++ whereClause ++ returning, binds)

end OracleThin.Soda
