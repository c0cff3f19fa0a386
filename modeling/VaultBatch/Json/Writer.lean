import VaultBatch.Json.Text
import VaultBatch.Text.Decimal

/-!
# Writing values as JSON

Values are written without blanks, members in a fixed order.
-/

namespace VaultBatch.Json.Writer

/-- A string. -/
def text (s : String) : List Char :=
  Text.write s.toList

/-- An integer. -/
def integer (value : Int) : List Char :=
  Decimal.ofInt value

/-- Parts with commas between them. -/
def separated : List (List Char) → List Char
  | [] => []
  | [part] => part
  | part :: rest => part ++ ',' :: separated rest

/-- A sequence of written values. -/
def sequence (values : List (List Char)) : List Char :=
  '[' :: separated values ++ [']']

/-- A member of a written value. -/
def member (name : String) (value : List Char) : List Char :=
  text name ++ ':' :: value

/-- An object of named written values. -/
def object (members : List (String × List Char)) : List Char :=
  '\x7b' :: separated (members.map fun (name, value) => member name value) ++ ['\x7d']

end VaultBatch.Json.Writer
