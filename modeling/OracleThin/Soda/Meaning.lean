import OracleThin.Lib.Condition
import OracleThin.Lib.Fallible
import OracleThin.Soda.Qbe

/-!
# What a filter means

The meaning of a filter is a Boolean function of its atomic predicates: the members of an object are a conjunction,
`$and`, `$or`, `$nor` and `$not` are what their names say. The text of the translation has this value if the filter is
`wellGrouped`. A wide `$or`, one with at least two items, is written without parentheses around it, so beside another
member AND takes one of its items away; and the texts for an empty `$or`, an empty `$nor` and a `$not`, `$upper` or
`$lower` of no operators are wrong for any filter around them.
-/

namespace OracleThin.Soda

open Lib Lib.Condition

/-! ### The meaning -/

section

variable (v : List Char → Bool) (lib : Library) (contentCol : String)

/-- The truth value of a predicate. -/
def holds : Result String → Bool
  | .ok text => v text.toList
  | .error _ => false

def foldMeaning (path : String) (operand : Value) (func : String) : Bool :=
  match operand with
  | .object ops => ops.all fun entry => holds v (foldPredicate lib contentCol path func entry)
  | _ => true

def plainMeaning (path op : String) (operand : Value) : Bool :=
  if op = "$upper" then foldMeaning v lib contentCol path operand "upper"
  else if op = "$lower" then foldMeaning v lib contentCol path operand "lower"
  else if op = "$exists" then
    let exists' := v (jsonExists contentCol path "").toList
    if (asBool operand).getD true then exists' else !exists'
  else holds v (atomicOperator contentCol path op operand)

mutual

def operatorMeaning (path op : String) : Value → Bool
  | .object ops =>
    if op = "$not" then !operatorsMeaning path ops else plainMeaning v lib contentCol path op (.object ops)
  | operand =>
    if op = "$not" then !holds v (equality contentCol path operand) else plainMeaning v lib contentCol path op operand

def operatorsMeaning (path : String) : List (String × Value) → Bool
  | [] => true
  | (op, operand) :: ops => operatorMeaning path op operand && operatorsMeaning path ops

end

def fieldMeaning (field : String) (val : Value) : Bool :=
  let path := fieldToJsonPath field
  match val with
  | .object [] => v (jsonExists contentCol path "").toList
  | .object ops => operatorsMeaning v lib contentCol path ops
  | val => holds v (equality contentCol path val)

mutual

/-- The Boolean function of a filter. -/
def meaning : Value → Bool
  | .object members => membersMeaning members
  | _ => true

def membersMeaning : List (String × Value) → Bool
  | [] => true
  | (key, val) :: members =>
    if key = "$orderby" then membersMeaning members else memberMeaning key val && membersMeaning members

def memberMeaning (key : String) : Value → Bool
  | .array items =>
    if key = "$and" then allMeaning items
    else if key = "$or" then anyMeaning items
    else if key = "$nor" then !anyMeaning items
    else fieldMeaning v lib contentCol key (.array items)
  | val => fieldMeaning v lib contentCol key val

def allMeaning : List Value → Bool
  | [] => true
  | item :: items => meaning item && allMeaning items

def anyMeaning : List Value → Bool
  | [] => false
  | item :: items => meaning item || anyMeaning items

end

end

/-! ### Filters whose text is well grouped -/

mutual

/-- The operator is not applied to an operator object without operators. -/
def operatorGrouped (op : String) : Value → Bool
  | .object ops =>
    if op = "$not" then !ops.isEmpty && operatorsGrouped ops
    else if op = "$upper" ∨ op = "$lower" then !ops.isEmpty
    else true
  | _ => true

def operatorsGrouped : List (String × Value) → Bool
  | [] => true
  | (op, operand) :: ops => operatorGrouped op operand && operatorsGrouped ops

end

/-- The member is an `$or` of at least two items. -/
def isWideOr : String × Value → Bool
  | (key, .array items) => key = "$or" ∧ 2 ≤ items.length
  | _ => false

/-- The text of the filter stands in a conjunction. -/
def andSafe : Value → Bool
  | .object members => members.all fun member => !isWideOr member
  | _ => true

mutual

/-- A wide `$or` is the only member of its object but for `$orderby`, and there is no empty `$or`, `$nor` or operator
object. -/
def wellGrouped : Value → Bool
  | .object members =>
    membersGrouped members &&
      (andSafe (.object members) || (members.filter fun member => member.1 ≠ "$orderby").length = 1)
  | _ => true

def membersGrouped : List (String × Value) → Bool
  | [] => true
  | (key, val) :: members => (key = "$orderby" || memberGrouped key val) && membersGrouped members

def memberGrouped (key : String) : Value → Bool
  | .array items =>
    if key = "$and" then itemsGrouped items
    else if key = "$or" ∨ key = "$nor" then !items.isEmpty && itemsGrouped items
    else true
  | .object ops => operatorsGrouped ops
  | _ => true

def itemsGrouped : List Value → Bool
  | [] => true
  | item :: items => wellGrouped item && itemsGrouped items

end

end OracleThin.Soda
