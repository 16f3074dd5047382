-- SUMMARY: JSON values, their kinds, and the text that stands for a value where text is wanted.
import Storyboard.Decimal.Shortest
import Storyboard.OrderedMap
import Storyboard.Text.Quoted

/-!
# JSON values

A JSON value keeps the order of the members of an object. Whole numbers are
exact, all other numbers are binary floating point values.

Where a name, an id or a cell is wanted and something else than a string is
given, `Value.text` stands for it: a string as it is, any other value spelled
out (`None`, `True`, `1.5`, `['a', 1]`), with the strings inside it quoted.
-/

namespace Storyboard.Json

/-- A JSON value. -/
inductive Value where
  | null
  | bool (b : Bool)
  | integer (n : Int)
  | float (x : Binary64)
  | string (s : CodePoints)
  | array (items : List Value)
  | object (members : List (CodePoints × Value))

namespace Value

/-- The name of the kind of a value. -/
def kind : Value → String
  | null => "NoneType"
  | bool _ => "bool"
  | integer _ => "int"
  | float _ => "float"
  | string _ => "str"
  | array _ => "list"
  | object _ => "dict"

mutual

/-- A value spelled out, its strings quoted. -/
def spelled : Value → String
  | .null => "None"
  | .bool b => if b then "True" else "False"
  | .integer n => toString n
  | .float x => x.write Decimal.plainLayout
  | .string s => Text.quoted s
  | .array items => "[" ++ String.intercalate ", " (spelledItems items) ++ "]"
  | .object members => "\x7b" ++ String.intercalate ", " (spelledMembers members) ++ "\x7d"

/-- The items of an array, each spelled out. -/
def spelledItems : List Value → List String
  | [] => []
  | item :: rest => spelled item :: spelledItems rest

/-- The members of an object, each spelled out with its key. -/
def spelledMembers : List (CodePoints × Value) → List String
  | [] => []
  | (key, value) :: rest => (Text.quoted key ++ ": " ++ spelled value) :: spelledMembers rest

end

/-- The text that stands for a value: a string is its own text. -/
def text : Value → CodePoints
  | string s => s
  | v => v.spelled

@[simp]
theorem text_string (s : CodePoints) : (string s).text = s := rfl

/-- The value under a key among the members of an object. -/
def member? (key : String) (members : OrderedMap CodePoints Value) : Option Value :=
  OrderedMap.get? (CodePoints.ofString key) members

end Value

end Storyboard.Json
