import TypedData.Condition.Operand
import TypedData.Text.Blank
import TypedData.Text.LetterCase

/-!
# Functions

The functions that conditions and targets can call.  Their names are not reserved: a name means a
function only where it is called.
-/

namespace TypedData

/-- The functions of one argument. -/
inductive UnaryFunction where
  | int | float | str | bool | len | removeWhitespace | lower | upper | trim | abs
deriving DecidableEq, Repr

namespace UnaryFunction

/-- The function of a name. -/
def ofName? : String → Option UnaryFunction
  | "int" => some int
  | "float" => some float
  | "str" => some str
  | "bool" => some bool
  | "len" => some len
  | "remove_whitespace" => some removeWhitespace
  | "lower" => some lower
  | "upper" => some upper
  | "trim" => some trim
  | "abs" => some abs
  | _ => none

end UnaryFunction

/-- The functions of two arguments. -/
inductive BinaryFunction where
  | contains | startsWith | endsWith
deriving DecidableEq, Repr

/-- Which of several numbers is looked for. -/
inductive Extreme where
  | least | greatest
deriving DecidableEq, Repr

namespace Operand

/-- The operand that an integer makes, where it fits. -/
def ofInteger? (n : Option Integer) : Except EvalProblem Operand :=
  match n with
  | some n => .ok (int n)
  | none => .error .overflow

/-- A natural number as an operand. -/
def ofCount (count : Nat) : Except EvalProblem Operand := ofInteger? (Integer.ofInt? count)

/-- The problem that an operand cannot be converted. -/
def noConversion (v : Operand) (target : String) : Except EvalProblem Operand :=
  .error (.conversion v.print target)

/-- Converts to an integer: floats toward zero, where the result fits; texts by reading them. -/
def toInt (name : String) : Operand → Except EvalProblem Operand
  | int n => .ok (int n)
  | bool b => .ok (int (if b then .one else .zero))
  | float x =>
    match x.truncate?.bind Integer.ofInt? with
    | some n => .ok (int n)
    | none => noConversion (float x) "int"
  | str text =>
    match Integer.ofText? (trimBlanks text.toList) with
    | some n => .ok (int n)
    | none => noConversion (str text) "int"
  | v => .error (.badArgument name v.kind)

/-- Converts to a float: texts by reading them, where they denote a finite number. -/
def toFloat (name : String) : Operand → Except EvalProblem Operand
  | int n => .ok (float (.ofInt n.val))
  | float x => .ok (float x)
  | str text =>
    match Double.ofText? (trimBlanks text.toList) with
    | some x => if x.isFinite then .ok (float x) else noConversion (str text) "float"
    | none => noConversion (str text) "float"
  | v => .error (.badArgument name v.kind)

/-- Converts to a truth value. -/
def toBool (name : String) : Operand → Except EvalProblem Operand
  | bool b => .ok (bool b)
  | int n => .ok (bool (n.val != 0))
  | str text =>
    let word := String.ofList (trimBlanks text.toList)
    if word = "true" then .ok (bool true)
    else if word = "false" then .ok (bool false)
    else noConversion (str text) "bool"
  | v => .error (.badArgument name v.kind)

/-- Converts to a text: a text is itself, everything else as it is written. -/
def toStr : Operand → Operand
  | str text => str text
  | v => str v.print

/-- The number of characters, items or fields. -/
def length (name : String) : Operand → Except EvalProblem Operand
  | str text => ofCount text.toList.length
  | list items => ofCount items.length
  | record _ fields => ofCount fields.length
  | v => .error (.badArgument name v.kind)

/-- The absolute value. -/
def absolute (name : String) : Operand → Except EvalProblem Operand
  | int n => ofInteger? n.abs?
  | float x => .ok (float x.abs)
  | v => .error (.badArgument name v.kind)

/-- A text changed by a function. -/
def mapText (name : String) (f : String → String) : Operand → Except EvalProblem Operand
  | str text => .ok (str (f text))
  | v => .error (.badArgument name v.kind)

end Operand

/-- Applies a function of one argument, which was called by `name`. -/
def UnaryFunction.apply (name : String) (v : Operand) : UnaryFunction → Except EvalProblem Operand
  | int => v.toInt name
  | float => v.toFloat name
  | str => .ok v.toStr
  | bool => v.toBool name
  | len => v.length name
  | removeWhitespace =>
    v.mapText name fun text => String.ofList (text.toList.filter fun c => !isBlank c)
  | lower => v.mapText name lowerCase
  | upper => v.mapText name upperCase
  | trim => v.mapText name fun text => String.ofList (trimBlanks text.toList)
  | abs => v.absolute name

/-- Whether a text occurs in another. -/
def occursIn (needle : List Char) : (text : List Char) → Bool
  | [] => needle.isEmpty
  | c :: cs => needle.isPrefixOf (c :: cs) || occursIn needle cs

/-- Applies a function of two arguments, which was called by `name`. -/
def BinaryFunction.apply (f : BinaryFunction) (name : String) (whole part : Operand) :
    Except EvalProblem Operand :=
  match f, whole, part with
  | contains, .list items, part => .ok (.bool (items.any (·.equal part)))
  | contains, .str text, .str part => .ok (.bool (occursIn part.toList text.toList))
  | startsWith, .str text, .str part => .ok (.bool (part.toList.isPrefixOf text.toList))
  | endsWith, .str text, .str part => .ok (.bool (part.toList.isSuffixOf text.toList))
  | _, .str _, part => .error (.badArgument name part.kind)
  | _, whole, _ => .error (.badArgument name whole.kind)

namespace Extreme

/-- How the number that is looked for compares with the others. -/
def ordering : Extreme → Ordering
  | least => .lt
  | greatest => .gt

/-- The extreme of `best` and the operands; of equal ones the first.  All have to be numbers. -/
def among (e : Extreme) (name : String) (best : Operand) :
    List Operand → Except EvalProblem Operand
  | [] => .ok best
  | v :: vs =>
    if v.number?.isNone then .error (.badArgument name v.kind)
    else among e name (if v.compare? best = some e.ordering then v else best) vs

/-- The extreme of the operands, or of the items of the only operand if that is a list. -/
def apply (e : Extreme) (name : String) (args : List Operand) : Except EvalProblem Operand :=
  let candidates := match args with
    | [.list items] => items
    | _ => args
  match candidates with
  | [] => .error (.arity name (.atLeast 1) 0)
  | v :: vs => if v.number?.isNone then .error (.badArgument name v.kind) else e.among name v vs

end Extreme

/-- Applies a function of one argument.  The number of arguments is looked at before the name. -/
def applyUnary (name : String) : List Operand → Except EvalProblem Operand
  | [v] =>
    match UnaryFunction.ofName? name with
    | some f => f.apply name v
    | none => .error (.unknownFunction name)
  | args => .error (.arity name (.exactly 1) args.length)

/-- Applies a function of two arguments. -/
def applyBinary (f : BinaryFunction) (name : String) : List Operand → Except EvalProblem Operand
  | [whole, part] => f.apply name whole part
  | args => .error (.arity name (.exactly 2) args.length)

/-- Applies the function of a name. -/
def applyFunction (name : String) (args : List Operand) : Except EvalProblem Operand :=
  match name with
  | "min" => Extreme.least.apply name args
  | "max" => Extreme.greatest.apply name args
  | "contains" => applyBinary .contains name args
  | "starts_with" => applyBinary .startsWith name args
  | "ends_with" => applyBinary .endsWith name args
  | _ => applyUnary name args

end TypedData
