import OracleThin.Lib.Decimal
import OracleThin.Wire.Packet

/-!
# Oracle NUMBER

The wire form of a NUMBER is a byte for the exponent in base 100 and a byte for each digit of the mantissa in base
100. `encodeNumberText` makes it from decimal text. It is decoded in two ways: the owned path folds the decimal digits
into a 128-bit coefficient with a scale, the zero-copy path writes the decimal text, from which the same value is
built later.
-/

namespace OracleThin.Ttc

open Lib Wire

/-- A decimal number: `coefficient * 10 ^ (-scale)`, or its text if it has no such form. -/
inductive OracleNumber
  | inline (coefficient scale : Int) (isInteger : Bool)
  | text (text : String) (isInteger : Bool)
deriving DecidableEq, Repr

/-- The result of an operation on 128-bit integers, if it does not overflow. -/
def checkedI128 (n : Int) : Option Int := if -2 ^ 127 ≤ n ∧ n < 2 ^ 127 then some n else none

def pushDigit (acc : Int) (digit : Nat) : Option Int := do
  let acc ← checkedI128 (acc * 10)
  checkedI128 (acc + digit)

/-! ### Encoding -/

def numberAsTextChars : Nat := 172
def numberMaxDigits : Nat := 40

def digitOf (byte : UInt8) : Option Nat := if 48 ≤ byte ∧ byte ≤ 57 then some (byte.toNat - 48) else none

def isExponentMark (byte : UInt8) : Bool := byte == 101 || byte == 69

/-- The digits before the point or the exponent, without leading zeros, and what follows them. -/
def integerDigits (digits : List Nat) : List UInt8 → Result (List Nat × List UInt8)
  | [] => .ok (digits, [])
  | byte :: rest =>
    if byte == 46 || isExponentMark byte then .ok (digits, byte :: rest)
    else
      match digitOf byte with
      | none => .error (.ttcDecode "invalid NUMBER bind")
      | some digit => integerDigits (if digit = 0 ∧ digits = [] then [] else digits ++ [digit]) rest

/-- The digits behind the point. A leading zero moves the point. -/
def fractionDigits (digits : List Nat) (decimalPointIndex : Int) : List UInt8 → Result (List Nat × Int × List UInt8)
  | [] => .ok (digits, decimalPointIndex, [])
  | byte :: rest =>
    if isExponentMark byte then .ok (digits, decimalPointIndex, byte :: rest)
    else
      match digitOf byte with
      | none => .error (.ttcDecode "invalid NUMBER bind")
      | some digit =>
        if digit = 0 ∧ digits = [] then fractionDigits [] (decimalPointIndex - 1) rest
        else fractionDigits (digits ++ [digit]) decimalPointIndex rest

/-- The exponent: a sign and digits up to the end. -/
def parseExponent (text : List UInt8) : Result Int :=
  let (isNegative, digits) := match text with
    | 45 :: rest => (true, rest)
    | 43 :: rest => (false, rest)
    | rest => (false, rest)
  match digits.mapM digitOf with
  | none => .error (.ttcDecode "invalid NUMBER exponent")
  | some [] => .error (.ttcDecode "empty NUMBER exponent")
  | some digits =>
    let exponent : Nat := digits.foldl (fun n digit => 10 * n + digit) 0
    if 2 ^ 31 ≤ exponent then .error (.ttcDecode "invalid NUMBER exponent")
    else .ok (if isNegative then -(exponent : Int) else exponent)

/-- The significant digits of a text and the position of the point in them. -/
def parseNumberText (text : List UInt8) : Result (List Nat × Int) := do
  let (digits, rest) ← integerDigits [] text
  let (digits, decimalPointIndex, rest) ← match rest with
    | 46 :: rest => fractionDigits digits digits.length rest
    | rest => pure (digits, (digits.length : Int), rest)
  match rest with
  | [] => return (digits, decimalPointIndex)
  | byte :: rest =>
    if isExponentMark byte then do
      let exponent ← parseExponent rest
      let decimalPointIndex := decimalPointIndex + exponent
      if -2 ^ 31 ≤ decimalPointIndex ∧ decimalPointIndex < 2 ^ 31 then return (digits, decimalPointIndex)
      else throw (.ttcDecode "NUMBER bind out of range")
    else throw (.ttcDecode "invalid NUMBER bind suffix")

/-- Drops the zeros at the end. -/
def trimZeros (digits : List Nat) : List Nat := (digits.reverse.dropWhile (· = 0)).reverse

/-- Takes the digits two by two. -/
def digitPairs : List Nat → List Nat
  | first :: second :: rest => (10 * first + second) :: digitPairs rest
  | _ => []

def encodeMantissaDigit (isNegative : Bool) (digit : Nat) : UInt8 :=
  UInt8.ofNat (if isNegative then 101 - digit else digit + 1)

/-- The wire form of significant digits. Before an odd position of the point the first digit stands alone; the padding
keeps the pairs complete. -/
def encodeDigits (isNegative : Bool) (digits : List Nat) (decimalPointIndex : Int) : Result (List UInt8) :=
  let prependZero : Bool := decimalPointIndex % 2 ≠ 0
  let (digits, decimalPointIndex) :=
    if prependZero ∧ digits ≠ [] then (digits ++ [0], decimalPointIndex + 1) else (digits, decimalPointIndex)
  let digits := if digits.length % 2 = 1 then digits ++ [0] else digits
  if digits = [] then .ok [128]
  else
    let exponentOnWire := decimalPointIndex / 2 + 192
    if 0 ≤ exponentOnWire ∧ exponentOnWire ≤ 255 then
      let exponentByte := UInt8.ofNat exponentOnWire.toNat
      let mantissa := (digitPairs (if prependZero then 0 :: digits else digits)).take (digits.length / 2)
      .ok ((if isNegative then ~~~exponentByte else exponentByte) :: mantissa.map (encodeMantissaDigit isNegative) ++
        if isNegative ∧ digits.length < numberMaxDigits then [102] else [])
    else .error (.ttcDecode "NUMBER bind exponent out of range")

def encodeNumberText (value : List UInt8) : Result (List UInt8) := do
  if value = [] then throw (.ttcDecode "empty NUMBER bind")
  if numberAsTextChars < value.length then throw (.ttcDecode "NUMBER bind text too long")
  let (isNegative, text) := match value with
    | 45 :: rest => (true, rest)
    | rest => (false, rest)
  let (digits, decimalPointIndex) ← parseNumberText text
  let digits := trimZeros digits
  if numberMaxDigits < digits.length ∨ decimalPointIndex < -129 ∨ 126 < decimalPointIndex then
    throw (.ttcDecode "NUMBER bind out of range")
  encodeDigits isNegative digits decimalPointIndex

/-! ### Decoding -/

/-- The digits of a mantissa so far, and the position of the point in them. -/
structure DigitWalk where
  digits : List Nat := []
  decimalPointIndex : Int

/-- One byte of the mantissa. A leading zero moves the point; the last digit of the last byte is left out if it is
zero. -/
def DigitWalk.step (isPositive isLast : Bool) (walk : DigitWalk) (encoded : UInt8) : DigitWalk :=
  let value := if isPositive then encoded.toNat - 1 else 101 - encoded.toNat
  let firstDigit := value / 10
  let secondDigit := value % 10
  let walk : DigitWalk :=
    if firstDigit = 0 ∧ walk.digits = [] then { walk with decimalPointIndex := walk.decimalPointIndex - 1 }
    else if firstDigit = 10 then ⟨walk.digits ++ [1, 0], walk.decimalPointIndex + 1⟩
    else { walk with digits := walk.digits ++ [firstDigit] }
  if secondDigit ≠ 0 ∨ ¬isLast then { walk with digits := walk.digits ++ [secondDigit] } else walk

def DigitWalk.run (isPositive : Bool) (walk : DigitWalk) : List UInt8 → DigitWalk
  | [] => walk
  | encoded :: rest => DigitWalk.run isPositive (walk.step isPositive rest.isEmpty encoded) rest

/-- The bytes of the mantissa: a negative number may end in 102. -/
def mantissaBytes (isPositive : Bool) (bytes : List UInt8) : List UInt8 :=
  if ¬isPositive ∧ bytes.getLast? = some 102 then bytes.dropLast else bytes

/-- What the walk over the wire form gives: a fixed text, or digits. -/
inductive DecodedNumber
  | sentinel (text : String)
  | parts (digits : List Nat) (isNegative : Bool) (decimalPointIndex : Int)
deriving DecidableEq, Repr

def decodeNumberParts (bytes : List UInt8) : Result DecodedNumber :=
  if 21 < bytes.length then .error (.ttcDecode "encoded NUMBER too long")
  else
    match bytes with
    | [] => .error (.ttcDecode "empty NUMBER")
    | first :: rest =>
      let isPositive : Bool := first &&& 0x80 ≠ 0
      if rest = [] then .ok (.sentinel (if isPositive then "0" else "-1e126"))
      else
        let exponentByte := if isPositive then first else ~~~first
        let exponent : Int := exponentByte.toNat - 193
        let walk := DigitWalk.run isPositive { decimalPointIndex := exponent * 2 + 2 } (mantissaBytes isPositive rest)
        .ok (.parts walk.digits (!isPositive) walk.decimalPointIndex)

/-- Whether the text of the digits has no point. -/
def isIntegral (digits : List Nat) (decimalPointIndex : Int) : Bool :=
  0 < decimalPointIndex ∧ (digits.length : Int) ≤ decimalPointIndex

def digitChar (digit : Nat) : Char := Char.ofNat (48 + digit)

def formatNumberDigits (digits : List Nat) (isNegative : Bool) (decimalPointIndex : Int) : List Char :=
  (if isNegative then ['-'] else []) ++
  (if decimalPointIndex ≤ 0 then '0' :: '.' :: List.replicate (-decimalPointIndex).toNat '0' else []) ++
  (digits.zipIdx.flatMap fun (digit, index) =>
    if 0 < index ∧ (index : Int) = decimalPointIndex then ['.', digitChar digit] else [digitChar digit]) ++
  List.replicate (decimalPointIndex - digits.length).toNat '0'

/-- The text of a NUMBER and whether it is an integer. -/
def decodeNumberTextInto (bytes : List UInt8) : Result (String × Bool) := do
  match ← decodeNumberParts bytes with
  | .sentinel text => return (text, true)
  | .parts digits isNegative decimalPointIndex =>
    return (String.ofList (formatNumberDigits digits isNegative decimalPointIndex),
      isIntegral digits decimalPointIndex)

/-! ### The owned decoder -/

def maxDigits : Nat := 42

/-- The walk of the owned decoder. Its digit buffer has room for `maxDigits`, its coefficient takes all digits unless
it overflows. -/
structure StackWalk where
  digits : List Nat := []
  coefficient : Option Int := some 0
  decimalPointIndex : Int

def StackWalk.push (walk : StackWalk) (digit : Nat) : StackWalk :=
  { walk with
    digits := if walk.digits.length < maxDigits then walk.digits ++ [digit] else walk.digits
    coefficient := walk.coefficient.bind (pushDigit · digit) }

def StackWalk.step (isPositive isLast : Bool) (walk : StackWalk) (encoded : UInt8) : StackWalk :=
  let value := if isPositive then encoded.toNat - 1 else 101 - encoded.toNat
  let firstDigit := value / 10
  let secondDigit := value % 10
  let walk : StackWalk :=
    if firstDigit = 0 ∧ walk.digits = [] then { walk with decimalPointIndex := walk.decimalPointIndex - 1 }
    else if firstDigit = 10 then
      { (walk.push 1).push 0 with decimalPointIndex := walk.decimalPointIndex + 1 }
    else walk.push firstDigit
  if secondDigit ≠ 0 ∨ ¬isLast then walk.push secondDigit else walk

def StackWalk.run (isPositive : Bool) (walk : StackWalk) : List UInt8 → StackWalk
  | [] => walk
  | encoded :: rest => StackWalk.run isPositive (walk.step isPositive rest.isEmpty encoded) rest

inductive DecodedNumberStack
  | sentinel (text : String) (isInteger : Bool)
  | parts (digits : List Nat) (isNegative : Bool) (decimalPointIndex : Int) (isInteger : Bool)
      (coefficient : Option Int)
deriving DecidableEq, Repr

def decodeNumberPartsStack (bytes : List UInt8) : Result DecodedNumberStack :=
  if 21 < bytes.length then .error (.ttcDecode "encoded NUMBER too long")
  else
    match bytes with
    | [] => .error (.ttcDecode "empty NUMBER")
    | first :: rest =>
      let isPositive : Bool := first &&& 0x80 ≠ 0
      if rest = [] then .ok (.sentinel (if isPositive then "0" else "-1e126") true)
      else
        let exponentByte := if isPositive then first else ~~~first
        let exponent : Int := exponentByte.toNat - 193
        let walk := StackWalk.run isPositive { decimalPointIndex := exponent * 2 + 2 } (mantissaBytes isPositive rest)
        let isInteger := isIntegral walk.digits walk.decimalPointIndex
        let coefficient := walk.coefficient.map fun acc => if isPositive then acc else -acc
        .ok (.parts walk.digits (!isPositive) walk.decimalPointIndex isInteger coefficient)

namespace OracleNumber

def spillText (digits : List Nat) (isNegative : Bool) (decimalPointIndex : Int) (isInteger : Bool) : OracleNumber :=
  .text (String.ofList (formatNumberDigits digits isNegative decimalPointIndex)) isInteger

def fromWire (bytes : List UInt8) : Result OracleNumber := do
  match ← decodeNumberPartsStack bytes with
  | .sentinel fixed isInteger => return .text fixed isInteger
  | .parts digits isNegative decimalPointIndex isInteger coefficient =>
    match coefficient with
    | some coefficient =>
      let scale := (digits.length : Int) - decimalPointIndex
      if -2 ^ 15 ≤ scale ∧ scale < 2 ^ 15 then return .inline coefficient scale isInteger
      else return spillText digits isNegative decimalPointIndex isInteger
    | none => return spillText digits isNegative decimalPointIndex isInteger

def isInteger : OracleNumber → Bool
  | inline _ _ isInteger => isInteger
  | text _ isInteger => isInteger

/-- The text of a coefficient and a scale. Zero is written without a sign and a point. -/
def fmtInlineInto (coefficient scale : Int) : List Char :=
  if coefficient = 0 then ['0']
  else
    let digits := (Nat.digits 10 coefficient.natAbs).reverse
    let decimalPointIndex := (digits.length : Int) - scale
    (if coefficient < 0 then ['-'] else []) ++
    if decimalPointIndex ≤ 0 then
      '0' :: '.' :: List.replicate (-decimalPointIndex).toNat '0' ++ digits.map digitChar
    else
      (digits.zipIdx.flatMap fun (digit, index) =>
        if (index : Int) = decimalPointIndex then ['.', digitChar digit] else [digitChar digit]) ++
      List.replicate (decimalPointIndex - digits.length).toNat '0'

def fmtInto : OracleNumber → String
  | text stored _ => stored
  | inline coefficient scale _ => String.ofList (fmtInlineInto coefficient scale)

end OracleNumber

/-! ### From text -/

def charDigit (c : Char) : Option Nat := if c.isDigit then some (c.toNat - 48) else none

/-- Moves the zeros at the end of an integer into a negative scale. A 128-bit integer has at most 38 of them. -/
def trimIntegerZeros : Nat → Int → Int → Int × Int
  | 0, coefficient, scale => (coefficient, scale)
  | fuel + 1, coefficient, scale =>
    if coefficient.tmod 10 = 0 then trimIntegerZeros fuel (coefficient.tdiv 10) (scale - 1) else (coefficient, scale)

/-- What `parse_canonical_inline` does behind the sign. -/
def readCanonical (isNegative : Bool) (rest : List Char) : Option (Int × Int) := do
  if rest = [] then none
  let intPart := rest.takeWhile (· ≠ '.')
  let fracPart := (rest.dropWhile (· ≠ '.')).drop 1
  let digits ← (intPart ++ fracPart).mapM charDigit
  let acc ← digits.foldlM pushDigit 0
  let coefficient ← checkedI128 (if isNegative then -acc else acc)
  let scale : Int := fracPart.length
  if 2 ^ 15 ≤ scale then none
  if coefficient = 0 ∧ scale = 0 then none
  if scale = 0 then return trimIntegerZeros 39 coefficient 0 else return (coefficient, scale)

def parseCanonicalInline : List Char → Option (Int × Int)
  | '-' :: rest => readCanonical true rest
  | rest => readCanonical false rest

def OracleNumber.fromCanonicalTextWithFlag (text : String) (isInteger : Bool) : OracleNumber :=
  match parseCanonicalInline text.toList with
  | some (coefficient, scale) => .inline coefficient scale isInteger
  | none => .text text isInteger

end OracleThin.Ttc
