import Mathlib

/-!
# Query-by-example filters

A SODA filter is a JSON document. It is translated to the text of an SQL condition over `JSON_EXISTS` predicates on
the content column. Values stand inside the path expression of a predicate, with their quotes escaped.
-/

namespace OracleThin.Soda

/-- A JSON document. A number is given by the way it is displayed, an object by its members in the order of the
map. -/
inductive Value
  | null
  | bool (value : Bool)
  | number (display : String)
  | string (value : String)
  | array (items : List Value)
  | object (members : List (String × Value))

inductive SodaError
  | invalidArgument (message : String)
  | qbe (message : String)
  | notSupported (message : String)
  | driver (message : String)
deriving DecidableEq, Repr

abbrev Result := Except SodaError

/-- The functions of the standard library and of the JSON library that the translation calls. -/
structure Library where
  toUppercase : String → String
  toLowercase : String → String
  parseJson : String → Except String Value

/-! ### Escaping -/

def mapChars (f : Char → List Char) (s : String) : String := String.ofList (s.toList.flatMap f)

/-- Doubles the single quotes. -/
def escapeSqlLiteral (s : String) : String := mapChars (fun c => if c = '\'' then ['\'', '\''] else [c]) s

def escapePathDoubleQuoted (s : String) : String :=
  mapChars (fun c => if c = '\\' then ['\\', '\\'] else if c = '"' then ['\\', '"'] else [c]) s

def regexSpecials : List Char := ['\\', '^', '$', '.', '|', '?', '*', '+', '(', ')', '[', ']', '\x7b', '\x7d']

def regexEscape (s : String) : String := mapChars (fun c => if c ∈ regexSpecials then ['\\', c] else [c]) s

/-- Doubles the double quotes and puts the name between double quotes. -/
def quoteIdent (name : String) : String :=
  "\"" ++ mapChars (fun c => if c = '"' then ['"', '"'] else [c]) name ++ "\""

/-! ### Predicates -/

def fieldToJsonPath (field : String) : String :=
  if field.toList.head? = some '$' then field
  else String.join ("$" :: (field.toList.splitOn '.').map fun segment => "." ++ String.ofList segment)

def jsonExists (contentCol path pred : String) : String :=
  "JSON_EXISTS(" ++ contentCol ++ ", '" ++ escapeSqlLiteral (path ++ pred) ++ "')"

def quoted (s : String) : String := "\"" ++ escapePathDoubleQuoted s ++ "\""

def boolText (b : Bool) : String := if b then "true" else "false"

def scalarToPathLiteral : Value → Result String
  | .string s => .ok (quoted s)
  | .number display => .ok display
  | .bool b => .ok (boolText b)
  | .null => .ok "null"
  | _ => .error (.qbe "comparison operand must be a scalar (string, number, bool, null)")

def operandAsStr (v : Value) (op : String) : Result String :=
  match v with
  | .string s => .ok s
  | .number display => .ok display
  | .bool b => .ok (boolText b)
  | _ => .error (.qbe (op ++ " operand must be a string or number"))

def substringOperators : List String := ["$hasSubstring", "$instr", "$contains"]

def dateSymbol (op : String) : Result String :=
  if op = "$eq" then .ok "=="
  else if op = "$gt" then .ok ">"
  else if op = "$gte" then .ok ">="
  else if op = "$lt" then .ok "<"
  else if op = "$lte" then .ok "<="
  else if op = "$ne" then .ok "!="
  else .error (.notSupported ("$date with inner operator " ++ op ++ " is not supported"))

def dateComparison (entry : String × Value) : Result String := do
  let s ← operandAsStr entry.2 entry.1
  let sym ← dateSymbol entry.1
  return "@ " ++ sym ++ " " ++ quoted s

/-- Several comparisons of a date are one predicate. -/
def datePredicate : Value → Result String
  | .string s => .ok ("?(@ == " ++ quoted s ++ ")")
  | .object ops => (fun sub => "?(" ++ String.intercalate " && " sub ++ ")") <$> ops.mapM dateComparison
  | _ => .error (.qbe "$date operand must be a string or operator object")

def comparison (sym : String) (operand : Value) : Result String :=
  (fun lit => "?(@ " ++ sym ++ " " ++ lit ++ ")") <$> scalarToPathLiteral operand

/-- The path predicate of the operators that have one. -/
def operatorPredicate (op : String) (operand : Value) : Result String :=
  let text (pred : String → String) : Result String := pred <$> operandAsStr operand op
  if op = "$eq" then comparison "==" operand
  else if op = "$ne" then comparison "!=" operand
  else if op = "$gt" then comparison ">" operand
  else if op = "$gte" then comparison ">=" operand
  else if op = "$lt" then comparison "<" operand
  else if op = "$lte" then comparison "<=" operand
  else if op = "$like" then text fun s => "?(@ like " ++ quoted s ++ ")"
  else if op = "$regex" then text fun s => "?(@ like_regex " ++ quoted s ++ ")"
  else if op = "$startsWith" then text fun s => "?(@ starts with " ++ quoted s ++ ")"
  else if op ∈ substringOperators then text fun s => "?(@ like_regex " ++ quoted (regexEscape s) ++ ")"
  else if op = "$type" then text fun s => "?(@.type() == " ++ quoted s ++ ")"
  else if op = "$date" then datePredicate operand
  else .error (.notSupported ("QBE operator " ++ op ++ " is not supported"))

def atomicOperator (contentCol path op : String) (operand : Value) : Result String :=
  jsonExists contentCol path <$> operatorPredicate op operand

/-! ### Operators on a field -/

/-- Puts AND between the parts, and parentheses around them if there is not exactly one. -/
def joinAnd : List String → String
  | [part] => part
  | parts => "(" ++ String.intercalate " AND " parts ++ ")"

/-- The path predicate of one comparison under `$upper` or `$lower`. -/
def foldedPredicate (lib : Library) (func op : String) (inner : Value) : Result String := do
  let s ← operandAsStr inner op
  let folded := if func = "upper" then lib.toUppercase s else lib.toLowercase s
  if op = "$eq" then return "?(@." ++ func ++ "() == " ++ quoted folded ++ ")"
  else if op = "$startsWith" then return "?(@." ++ func ++ "() starts with " ++ quoted folded ++ ")"
  else if op = "$like" then return "?(@." ++ func ++ "() like " ++ quoted folded ++ ")"
  else if op ∈ substringOperators then return "?(@." ++ func ++ "() like_regex " ++ quoted (regexEscape folded) ++ ")"
  else throw (.notSupported ("$" ++ func ++ " with inner operator " ++ op ++ " is not supported"))

def foldPredicate (lib : Library) (contentCol path func : String) (entry : String × Value) : Result String :=
  jsonExists contentCol path <$> foldedPredicate lib func entry.1 entry.2

def foldCase (lib : Library) (contentCol path : String) (operand : Value) (func : String) : Result String :=
  match operand with
  | .object ops => do
    let parts ← ops.mapM (foldPredicate lib contentCol path func)
    return joinAnd parts
  | _ => .error (.qbe ("$" ++ func ++ " requires an operator object"))

def negate (condition : String) : String := "NOT (" ++ condition ++ ")"

def asBool : Value → Option Bool
  | .bool b => some b
  | _ => none

/-- The operators other than `$not`. -/
def plainOperator (lib : Library) (contentCol path op : String) (operand : Value) : Result String :=
  if op = "$upper" then foldCase lib contentCol path operand "upper"
  else if op = "$lower" then foldCase lib contentCol path operand "lower"
  else if op = "$exists" then
    let inner := jsonExists contentCol path ""
    .ok (if (asBool operand).getD true then inner else negate inner)
  else atomicOperator contentCol path op operand

def equality (contentCol path : String) (val : Value) : Result String :=
  jsonExists contentCol path <$> comparison "==" val

section

variable (lib : Library) (contentCol path : String)

mutual

/-- `$not` takes an operator object, whose operators are joined, or a scalar. -/
def translateOperator (op : String) : Value → Result String
  | .object ops =>
    if op = "$not" then do
      let parts ← translateOperators ops
      return negate (joinAnd parts)
    else plainOperator lib contentCol path op (.object ops)
  | operand =>
    if op = "$not" then negate <$> equality contentCol path operand
    else plainOperator lib contentCol path op operand

def translateOperators : List (String × Value) → Result (List String)
  | [] => return []
  | (op, operand) :: ops => do
    let part ← translateOperator op operand
    let parts ← translateOperators ops
    return part :: parts

end

end

def translateFieldPredicate (lib : Library) (contentCol field : String) (val : Value) : Result String :=
  let path := fieldToJsonPath field
  match val with
  | .object ops => do
    let parts ← translateOperators lib contentCol path ops
    return if parts = [] then jsonExists contentCol path "" else joinAnd parts
  | val => equality contentCol path val

/-! ### Filters -/

/-- The parts in parentheses with the joiner between them. -/
def combineLogical (joiner : String) (parts : List String) : String :=
  if parts = [] then "1=1" else "(" ++ String.intercalate (") " ++ joiner ++ " (") parts ++ ")"

/-- A member whose key is none of the logical operators. -/
def translateField (lib : Library) (contentCol key : String) (val : Value) : Result String :=
  if key.toList.head? = some '$' then .error (.notSupported ("top-level operator " ++ key ++ " is not supported"))
  else translateFieldPredicate lib contentCol key val

section

variable (lib : Library) (contentCol : String)

mutual

def qbeToWhereClause : Value → Result String
  | .object members => do
    let clauses ← translateMembers members
    return if clauses = [] then "1=1" else String.intercalate " AND " clauses
  | _ => .error (.qbe "filter must be a JSON object")

/-- The members but for `$orderby`. -/
def translateMembers : List (String × Value) → Result (List String)
  | [] => return []
  | (key, val) :: members =>
    if key = "$orderby" then translateMembers members
    else do
      let clause ← translateTopLevel key val
      let clauses ← translateMembers members
      return clause :: clauses

def translateTopLevel (key : String) : Value → Result String
  | .array items =>
    if key = "$and" then combineLogical "AND" <$> translateItems items
    else if key = "$or" then combineLogical "OR" <$> translateItems items
    else if key = "$nor" then (fun parts => negate (combineLogical "OR" parts)) <$> translateItems items
    else translateField lib contentCol key (.array items)
  | val =>
    if key = "$and" then .error (.qbe "$and requires an array")
    else if key = "$or" ∨ key = "$nor" then .error (.qbe "$or requires an array")
    else translateField lib contentCol key val

def translateItems : List Value → Result (List String)
  | [] => return []
  | item :: items => do
    let part ← qbeToWhereClause item
    let parts ← translateItems items
    return part :: parts

end

end

end OracleThin.Soda
