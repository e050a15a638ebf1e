import TypedData.Export.Tree
import TypedData.Export.Yaml.Scalar
import TypedData.Number.Layout
import TypedData.Document.Printer

/-!
# Trees as YAML

Block style: each member of a map and each item of a list starts a line.  What belongs to a member
stands two spaces further in, except that the items of a list have the same indentation as the key
above them.  A map or list inside an item starts on the line of its dash.  Empty lists and maps are
written as a pair of brackets.

Every part is written with the line break that ends it, and without regard to its place; indentation
is added by what contains it.
-/

namespace TypedData

namespace Yaml

/-- Puts two spaces before each line that is not empty.  `fresh` tells whether a line begins here. -/
def indentFrom (fresh : Bool) : List Char → List Char
  | [] => []
  | c :: cs =>
    if isBreak c then c :: indentFrom true cs
    else if fresh then ' ' :: ' ' :: c :: indentFrom false cs
    else c :: indentFrom false cs

/-- Puts two spaces before each line that is not empty. -/
def indented (lines : List Char) : List Char := indentFrom true lines

/-- Puts two spaces before each line that is not empty, but for the first. -/
def hanging (lines : List Char) : List Char := indentFrom false lines

/-- The text with a line break at its end. -/
def closed (text : List Char) : List Char := if endsWith isBreak text then text else text ++ ['\n']

/-- Whether a key can stand before a colon on one line.  Others get a line of their own after a
question mark. -/
def isSimpleKey (key : String) : Bool := !key.toList.any isBreak && key.utf8ByteSize ≤ 128

/-- What follows the colon after a key, where the value `t` is written as `value`. -/
def afterColon (t : PlainTree) (value : List Char) : List Char :=
  match t with
  | .list (_ :: _) => '\n' :: value
  | .map (_ :: _) => '\n' :: indented value
  | _ => ' ' :: hanging value

/-- A member of a map, where its value `t` is written as `value`. -/
def member (key : String) (t : PlainTree) (value : List Char) : List Char :=
  let name := scalar key.toList
  if isSimpleKey key then name ++ ':' :: afterColon t value
  else '?' :: ' ' :: hanging (closed name) ++ ':' :: ' ' :: hanging value

/-- An item of a list, where its value is written as `value`. -/
def item (value : List Char) : List Char := '-' :: ' ' :: hanging value

mutual

/-- How a tree is written. -/
def render : PlainTree → List Char
  | .null => closed "null".toList
  | .bool b => closed (boolText b).toList
  | .int n => closed n.text.toList
  | .float x => closed (x.text .yaml).toList
  | .str text => closed (scalar text.toList)
  | .list items => if items.isEmpty then closed "[]".toList else renderItems items
  | .map members => if members.isEmpty then closed "\x7b\x7d".toList else renderMembers members

/-- How the items of a list are written. -/
def renderItems : List PlainTree → List Char
  | [] => []
  | t :: ts => item (render t) ++ renderItems ts

/-- How the members of a map are written. -/
def renderMembers : List (Member PlainTree) → List Char
  | [] => []
  | ⟨key, t⟩ :: members => member key t (render t) ++ renderMembers members

end

end Yaml

/-- A tree as YAML. -/
def PlainTree.toYaml (t : PlainTree) : String := String.ofList (Yaml.render t)

end TypedData
