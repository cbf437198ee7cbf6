import HiddenEquation.Decimal.Style
import HiddenEquation.Json.Text

/-!
# JSON documents and their two written forms

`Document.compact` writes without any space; `Document.pretty` puts every item of an array
and every member of an object on a line of its own, indented by two spaces a level.
-/

namespace HiddenEquation.Json

/-- A JSON value that is to be written. -/
inductive Document where
  | bool (b : Bool)
  | integer (n : Int)
  | double (x : Float)
  | text (s : List Char)
  | array (items : List Document)
  | object (members : List (String × Document))

namespace Document

/-- A double as JSON text; there is no numeral for infinities and NaN. -/
def doubleText (x : Float) : String := if x.isFinite then Decimal.Style.json.write x else "null"

/-- A string as JSON text. -/
def quoted (s : List Char) : String := String.ofList (quote s)

mutual

/-- The document without any space. -/
def compact : Document → String
  | bool b => if b then "true" else "false"
  | integer n => toString n
  | double x => doubleText x
  | text s => quoted s
  | array items => "[" ++ compactItems items ++ "]"
  | object members => "\x7b" ++ compactMembers members ++ "\x7d"

/-- Items with commas between them. -/
def compactItems : List Document → String
  | [] => ""
  | [d] => compact d
  | d :: ds => compact d ++ "," ++ compactItems ds

/-- Members with commas between them. -/
def compactMembers : List (String × Document) → String
  | [] => ""
  | [(k, d)] => quoted k.toList ++ ":" ++ compact d
  | (k, d) :: ds => quoted k.toList ++ ":" ++ compact d ++ "," ++ compactMembers ds

end

/-- A line break and the indentation of the given level. -/
def newline (level : Nat) : String := "\n" ++ String.ofList (List.replicate (2 * level) ' ')

mutual

/-- The document on indented lines, from the given level on. -/
def prettyAt (level : Nat) : Document → String
  | bool b => if b then "true" else "false"
  | integer n => toString n
  | double x => doubleText x
  | text s => quoted s
  | array [] => "[]"
  | array (d :: ds) => "[" ++ prettyItems level (d :: ds) ++ newline level ++ "]"
  | object [] => "\x7b\x7d"
  | object (m :: ms) => "\x7b" ++ prettyMembers level (m :: ms) ++ newline level ++ "\x7d"

/-- Items, each on a line one level deeper. -/
def prettyItems (level : Nat) : List Document → String
  | [] => ""
  | [d] => newline (level + 1) ++ prettyAt (level + 1) d
  | d :: ds => newline (level + 1) ++ prettyAt (level + 1) d ++ "," ++ prettyItems level ds

/-- Members, each on a line one level deeper. -/
def prettyMembers (level : Nat) : List (String × Document) → String
  | [] => ""
  | [(k, d)] => newline (level + 1) ++ quoted k.toList ++ ": " ++ prettyAt (level + 1) d
  | (k, d) :: ds =>
    newline (level + 1) ++ quoted k.toList ++ ": " ++ prettyAt (level + 1) d ++ ","
      ++ prettyMembers level ds

end

/-- The document on indented lines. -/
def pretty (d : Document) : String := d.prettyAt 0

end Document

end HiddenEquation.Json
