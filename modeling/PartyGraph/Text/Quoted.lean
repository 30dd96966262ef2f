import PartyGraph.Text.Printable

/-!
# Quoted texts and records

The diagnostic form of a value: a text stands between double quotes with its unusual characters
escaped, a list between square brackets, and a record is a name followed by its fields in braces.

## Main definitions

* `quoted`: a text in quotes.
* `listed`: a list of forms in brackets.
* `record`: a name with its fields.
* `optional`: a form that may be absent.
-/

namespace PartyGraph.Text

/-- The code point in lower case hexadecimal digits, inside braces. -/
def codePointEscape (c : Char) : List Char :=
  ['\\', 'u', '\x7b'] ++ Nat.toDigits 16 c.toNat ++ ['\x7d']

/-- A character as it stands inside quotes. -/
def escaped (c : Char) : List Char :=
  if c = '"' ∨ c = '\\' then ['\\', c]
  else if c = '\n' then ['\\', 'n']
  else if c = '\r' then ['\\', 'r']
  else if c = '\t' then ['\\', 't']
  else if c.toNat = 0 then ['\\', '0']
  else if extendsGrapheme c || !isPrintable c then codePointEscape c
  else [c]

/-- The text between double quotes. -/
def quoted (s : String) : String :=
  String.ofList ('"' :: s.toList.flatMap escaped ++ ['"'])

/-- The forms between square brackets. -/
def listed (forms : List String) : String :=
  "[" ++ ", ".intercalate forms ++ "]"

/-- The form of a value that may be absent. -/
def optional : Option String → String
  | none => "None"
  | some form => "Some(" ++ form ++ ")"

/-- A named record with its fields in the order given. -/
def record (name : String) (fields : List (String × String)) : String :=
  name ++ " \x7b " ++ ", ".intercalate (fields.map fun f => f.1 ++ ": " ++ f.2) ++ " \x7d"

/-- The form of a truth value. -/
def truth (b : Bool) : String := if b then "true" else "false"

end PartyGraph.Text
