import PartyGraph.Toml.Blank

/-!
# Quoted texts

A text stands between double quotes, where a backslash introduces an escape, or between single
quotes, where every character stands for itself. Between three quotes of either sort it may have
several lines; a line break right after the opening does not count, and the text may end in one or
two of its own quotes.

## Main definitions

* `readLine`: a text of one line in either sort of quotes.
* `readText`: a text of one or several lines.
-/

namespace PartyGraph.Toml

/-- The value of hexadecimal digits. -/
def hexValue? (digits : List Char) : Option Nat :=
  digits.foldlM
    (fun n c =>
      if c.isDigit then some (16 * n + (c.toNat - '0'.toNat))
      else if 'a' ≤ c ∧ c ≤ 'f' then some (16 * n + (c.toNat - 'a'.toNat + 10))
      else if 'A' ≤ c ∧ c ≤ 'F' then some (16 * n + (c.toNat - 'A'.toNat + 10))
      else none)
    0

/-- Reads a character given by `width` hexadecimal digits. -/
def readCodePoint (width : Nat) : Reader Char := fun cs => do
  let digits := cs.take width
  if digits.length < width then none
  else
    let n ← hexValue? digits
    if n.isValidChar then some (Char.ofNat n, cs.drop width) else none

/-- Reads what follows the backslash of an escape. -/
def readEscape : Reader Char
  | 'b' :: rest => some ('\x08', rest)
  | 't' :: rest => some ('\t', rest)
  | 'n' :: rest => some ('\n', rest)
  | 'f' :: rest => some ('\x0c', rest)
  | 'r' :: rest => some ('\r', rest)
  | '"' :: rest => some ('"', rest)
  | '\\' :: rest => some ('\\', rest)
  | 'u' :: rest => readCodePoint 4 rest
  | 'U' :: rest => readCodePoint 8 rest
  | _ => none

/-- A reader whose result has `front` before it. -/
def preceded (front : List Char) : Option (List Char × List Char) → Option (List Char × List Char)
  | none => none
  | some (text, rest) => some (front ++ text, rest)

/-- Reads the rest of a line in double quotes, of at most `n` characters. -/
def readDoubleLine : Nat → Reader (List Char)
  | 0, _ => none
  | _ + 1, [] => none
  | n + 1, c :: rest =>
    if c = '"' then some ([], rest)
    else if c = '\\' then
      match readEscape rest with
      | none => none
      | some (e, rest) => preceded [e] (readDoubleLine n rest)
    else if isPlain c then preceded [c] (readDoubleLine n rest)
    else none

/-- Reads the rest of a line in single quotes. -/
def readSingleLine : Reader (List Char)
  | [] => none
  | c :: rest =>
    if c = '\'' then some ([], rest)
    else if isPlain c then preceded [c] (readSingleLine rest)
    else none

/-- What a run of `count` quotes means within a text that three quotes end: `inl` quotes that belong
to the text, or `inr` the end, perhaps after some that do. -/
def closing (quote : Char) (count : Nat) : Option (List Char ⊕ List Char) :=
  if count < 3 then some (.inl (List.replicate count quote))
  else if count ≤ 5 then some (.inr (List.replicate (count - 3) quote))
  else none

/-- Reads the rest of a text of several lines. `escapes` tells whether a backslash introduces an
escape; one at the end of a line takes away the line break and all blanks and line breaks after
it. -/
def readLines (quote : Char) (escapes : Bool) : Nat → Reader (List Char)
  | 0, _ => none
  | _ + 1, [] => none
  | n + 1, c :: rest =>
    if c = quote then
      let count := ((c :: rest).takeWhile (· == quote)).length
      let after := (c :: rest).dropWhile (· == quote)
      match closing quote count with
      | none => none
      | some (.inl quotes) => preceded quotes (readLines quote escapes n after)
      | some (.inr quotes) => some (quotes, after)
    else if escapes && c = '\\' then
      match newline? (skipBlanks rest) with
      | some after => readLines quote escapes n (skipEmptyLines after)
      | none =>
        match readEscape rest with
        | none => none
        | some (e, rest) => preceded [e] (readLines quote escapes n rest)
    else match newline? (c :: rest) with
      | some after => preceded ['\n'] (readLines quote escapes n after)
      | none => if isPlain c then preceded [c] (readLines quote escapes n rest) else none

/-- What follows a line break right after the opening quotes. -/
def skipFirstBreak (cs : List Char) : List Char := (newline? cs).getD cs

/-- The text that a list of characters makes. -/
def asText : Option (List Char × List Char) → Option (String × List Char)
  | none => none
  | some (text, rest) => some (String.ofList text, rest)

/-- Reads a text of one line. -/
def readLine : Reader String
  | '"' :: rest => asText (readDoubleLine (rest.length + 1) rest)
  | '\'' :: rest => asText (readSingleLine rest)
  | _ => none

/-- Reads a text of one or several lines. -/
def readText : Reader String
  | '"' :: '"' :: '"' :: rest =>
    asText (readLines '"' true (rest.length + 1) (skipFirstBreak rest))
  | '\'' :: '\'' :: '\'' :: rest =>
    asText (readLines '\'' false (rest.length + 1) (skipFirstBreak rest))
  | cs => readLine cs

end PartyGraph.Toml
