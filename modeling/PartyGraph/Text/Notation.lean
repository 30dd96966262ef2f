/-!
# Compact value notation

Values noted in a log are written in the notation of data interchange, without blanks: texts in
double quotes, lists in square brackets, truth values and numbers as words and digits.

## Main definitions

* `noteText`, `noteList`: texts and lists.
-/

namespace PartyGraph.Text

/-- `n` in four hexadecimal digits. -/
def fourHex (n : Nat) : List Char :=
  let digits := Nat.toDigits 16 n
  List.replicate (4 - digits.length) '0' ++ digits

/-- A character as it stands in a noted text: control characters are escaped. -/
def noteChar (c : Char) : List Char :=
  if c = '"' ∨ c = '\\' then ['\\', c]
  else if c = '\n' then ['\\', 'n']
  else if c = '\r' then ['\\', 'r']
  else if c = '\t' then ['\\', 't']
  else if c.toNat = 8 then ['\\', 'b']
  else if c.toNat = 12 then ['\\', 'f']
  else if c.toNat < 0x20 then ['\\', 'u'] ++ fourHex c.toNat
  else [c]

/-- A text in double quotes. -/
def noteText (s : String) : String :=
  String.ofList ('"' :: s.toList.flatMap noteChar ++ ['"'])

/-- Noted values in square brackets. -/
def noteList (items : List String) : String := "[" ++ ",".intercalate items ++ "]"

end PartyGraph.Text
