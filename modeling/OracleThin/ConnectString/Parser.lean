import OracleThin.Lib.Fallible

/-!
# Connect descriptors

A connect descriptor is a tree of `(KEY=value)` pairs. A value is a text, plain or in double quotes, or a list of
pairs. The parser reads a pair at a time and collects the pairs of a node under their keys, in lower case.
-/

namespace OracleThin.ConnectString

open Lib

abbrev Text := List Char

scoped instance : LawfulBEq Text := inferInstance

abbrev Result := Except Text

/-! ### Characters -/

/-- The white space of Unicode. -/
def isWhitespace (c : Char) : Bool :=
  (9 ≤ c.toNat && c.toNat ≤ 13) || c.toNat = 0x20 || c.toNat = 0x85 || c.toNat = 0xa0 || c.toNat = 0x1680 ||
    (0x2000 ≤ c.toNat && c.toNat ≤ 0x200a) || c.toNat = 0x2028 || c.toNat = 0x2029 || c.toNat = 0x202f ||
    c.toNat = 0x205f || c.toNat = 0x3000

/-- The control characters of Unicode. -/
def isControl (c : Char) : Bool := c.toNat ≤ 0x1f || (0x7f ≤ c.toNat && c.toNat ≤ 0x9f)

def skipSpaces (cs : Text) : Text := cs.dropWhile isWhitespace

def trim (cs : Text) : Text := (skipSpaces cs).rdropWhile isWhitespace

def toAsciiLowercase (cs : Text) : Text := cs.map Char.toLower

def toAsciiUppercase (cs : Text) : Text := cs.map Char.toUpper

/-! ### Trees -/

inductive ArgValue
  | simple (text : Text)
  | node (entries : List (Text × List ArgValue))

/-- The values under each key, in the order in which the keys came up. -/
abbrev ArgMap := List (Text × List ArgValue)

namespace ArgMap

def get (map : ArgMap) (key : Text) : Option (List ArgValue) := (map.find? fun entry => entry.1 = key).map Prod.snd

def remove (map : ArgMap) (key : Text) : ArgMap := map.eraseP fun entry => entry.1 = key

def push : ArgMap → Text → ArgValue → ArgMap
  | [], key, value => [(key, [value])]
  | (k, values) :: rest, key, value =>
    if k = key then (k, values ++ [value]) :: rest else (k, values) :: push rest key value

end ArgMap

def canonicalParamName (name : Text) : Text :=
  if name = "pool_connection_class".toList then "cclass".toList
  else if name = "pool_purity".toList then "purity".toList
  else if name = "server".toList then "server_type".toList
  else if name = "transport_connect_timeout".toList ∨ name = "connect_timeout".toList then
    "tcp_connect_timeout".toList
  else if name = "my_wallet_directory".toList then "wallet_location".toList
  else name

def containerParams : List Text :=
  ["address".toList, "address_list".toList, "connect_data".toList, "description".toList, "description_list".toList,
    "security".toList]

def isContainerParam (name : Text) : Bool := name ∈ containerParams

/-- An address in a list of its own. -/
def addressWrapper (address : ArgValue) : ArgValue := .node [("address".toList, [address])]

-- Once there is an address list the source calls itself on it, and then the key is there.
def setDescriptorArg (args : ArgMap) (name : Text) (value : ArgValue) : ArgMap :=
  if (args.get name).isNone then
    if name = "address".toList ∧ (args.get "address_list".toList).isSome then
      args.push "address_list".toList (addressWrapper value)
    else if name = "address_list".toList ∧ (args.get "address".toList).isSome then
      let addresses := (args.get "address".toList).getD []
      let wrapped := addresses.foldl (fun args address => args.push "address_list".toList (addressWrapper address))
        (args.remove "address".toList)
      wrapped.push name value
    else args.push name value
  else args.push name value

/-- A pair without a value leaves the node as it is. -/
def setPair (args : ArgMap) (pair : Text × Option ArgValue) : ArgMap :=
  pair.2.elim args (setDescriptorArg args pair.1)

/-! ### Errors -/

def contextSnippet (trimmed : Text) (offset : Nat) : Text :=
  let start := offset - 20
  let window := (trimmed.take (min (offset + 20) trimmed.length)).drop start
  "  ".toList ++ window ++ "\n  ".toList ++ List.replicate (offset - start) ' ' ++ ['^']

def errDescriptor (raw : Text) (offset : Nat) (reason : String) : Text :=
  "invalid connect descriptor \"".toList ++ raw ++ "\": ".toList ++ reason.toList ++ " at offset ".toList ++
    (toString offset).toList ++ "\n".toList ++ contextSnippet (trim raw) offset

def errCannotParse (raw : Text) : Text := "cannot parse connect string \"".toList ++ raw ++ "\"".toList

/-- The error at the place where `rest` is still to be read. -/
def errAt (raw rest : Text) (reason : String) : Text := errDescriptor raw ((trim raw).length - rest.length) reason

/-! ### The parser -/

/-- What the parsers call of the standard library, and the parser of the other form of connect strings. -/
structure Library (δ : Type) where
  isAlphanumeric : Char → Bool
  isF64 : Text → Bool
  easyConnect : Text → Result δ

section

variable {δ : Type} (lib : Library δ) (raw : Text)

def isKeyword (c : Char) : Bool := lib.isAlphanumeric c || c = '_' || c = '.'

/-- The body of a quoted string and what follows the closing quote. -/
def parseQuotedString : Text → Result (Text × Text)
  | [] => .error (errAt raw [] "missing ending quote (\")")
  | c :: cs =>
    if c = '"' then .ok ([], cs)
    else do
      let (body, rest) ← parseQuotedString cs
      return (c :: body, rest)

/-- A plain value goes on to the closing parenthesis. -/
def parseSimpleValue : Text → Result (Text × Text)
  | [] => .ok ([], [])
  | c :: cs =>
    if c = '"' then .error (errAt raw (c :: cs) "unexpected quote inside a simple value")
    else if c = '(' then .error (errAt raw (c :: cs) "unexpected '(' inside a simple value")
    else if c = ')' then .ok ([], c :: cs)
    else do
      let (body, rest) ← parseSimpleValue cs
      return (c :: body, rest)

/-- The closing parenthesis of a pair. -/
def parseClose (rest : Text) : Result Text :=
  match skipSpaces rest with
  | [] => .error (errAt raw [] "unbalanced parenthesis: expected ')'")
  | c :: cs =>
    if c = ')' then .ok (skipSpaces cs) else .error (errAt raw (c :: cs) "expected ')' to close the keyword")

/-- One `(KEY=VALUE)` pair from behind its opening parenthesis, with a reader for the value of a key. -/
def parsePairWith (parseValue : Text → Text → Result (Option ArgValue × Text)) (cs : Text) :
    Result ((Text × Option ArgValue) × Text) :=
  let start := skipSpaces cs
  let rawName := start.takeWhile (isKeyword lib)
  let afterName := skipSpaces (start.dropWhile (isKeyword lib))
  if rawName = [] then .error (errAt raw start "expected a keyword")
  else if afterName.head? = some '=' then do
    let name := canonicalParamName (toAsciiLowercase rawName)
    let (value, rest) ← parseValue name (skipSpaces afterName.tail)
    let rest ← parseClose raw rest
    return ((name, value), rest)
  else .error (errAt raw afterName "expected '=' after keyword")

def maxDescriptorDepth : Nat := 128

/-- The value of a key. The first argument bounds the characters that are read and is never used up. -/
def parseValue : Nat → Nat → Option ArgMap → Text → Text → Result (Option ArgValue × Text)
  | 0, _, _, _, rest => .error (errAt raw rest "")
  | _ + 1, _, node, _, [] => .ok (node.map .node, [])
  | fuel + 1, depth, node, name, c :: cs =>
    if c = '"' then do
      let (body, rest) ← parseQuotedString raw cs
      return (if body = [] then node.map .node else some (.simple body), rest)
    else if c = '(' then
      if depth + 1 > maxDescriptorDepth then .error (errAt raw cs "connect descriptor nesting too deep")
      else do
        let (pair, rest) ← parsePairWith lib raw (parseValue fuel (depth + 1) none) cs
        parseValue fuel depth (some (setPair (node.getD []) pair)) name rest
    else if c = ')' then .ok (node.map .node, c :: cs)
    else if isWhitespace c then parseValue fuel depth node name cs
    else if node.isSome ∨ isContainerParam name then
      .error (errAt raw (c :: cs) "unexpected simple value for a container keyword")
    else do
      let (body, rest) ← parseSimpleValue raw (c :: cs)
      return (some (.simple (trim body)), rest)

def parseKeyValuePair (depth : Nat) (cs : Text) : Result ((Text × Option ArgValue) × Text) :=
  parsePairWith lib raw (parseValue lib raw (cs.length + 1) depth none) cs

end

end OracleThin.ConnectString
