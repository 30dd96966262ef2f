/-!
# Blanks, comments and lines

A configuration text is read from its beginning. A reader of something tells what it read and what
follows; it reads nothing when something else stands there.

## Main definitions

* `Reader`: the type of readers.
* `skipBlanks`, `skipLines`: passing over what has no meaning within a line, and between lines.
* `endOfLine`: the end of a line, with the comment before it.
-/

namespace PartyGraph.Toml

/-- Reads something at the beginning of a text, and tells what follows it. -/
abbrev Reader (α : Type) := List Char → Option (α × List Char)

/-- Whether a character is a blank within a line. -/
def isBlankInLine (c : Char) : Bool := c = ' ' || c = '\t'

/-- Whether a character may stand in a comment or a text: no control character but the tab. -/
def isPlain (c : Char) : Bool := c = '\t' || (0x20 ≤ c.toNat && c.toNat ≠ 0x7f)

/-- What follows the blanks. -/
def skipBlanks (cs : List Char) : List Char := cs.dropWhile isBlankInLine

/-- What follows a line break, if one stands first. -/
def newline? : List Char → Option (List Char)
  | '\n' :: rest => some rest
  | '\r' :: '\n' :: rest => some rest
  | _ => none

/-- What follows blanks and a comment, as far as the comment has only plain characters. -/
def skipComment (cs : List Char) : List Char :=
  match skipBlanks cs with
  | '#' :: rest => rest.dropWhile isPlain
  | cs => cs

/-- What follows the end of the line, which may be that of the text. -/
def endOfLine (cs : List Char) : Option (List Char) :=
  match skipComment cs with
  | [] => some []
  | cs => newline? cs

/-- What follows at most `n` line breaks, with what `skip` passes over before each, and the blanks
after them. -/
def skipLinesUpTo (skip : List Char → List Char) : Nat → List Char → List Char
  | 0, cs => skipBlanks cs
  | n + 1, cs =>
    match newline? (skip cs) with
    | some rest => skipLinesUpTo skip n rest
    | none => skipBlanks cs

/-- What follows blanks, comments and line breaks. -/
def skipLines (cs : List Char) : List Char := skipLinesUpTo skipComment cs.length cs

/-- What follows blanks and line breaks. -/
def skipEmptyLines (cs : List Char) : List Char := skipLinesUpTo skipBlanks cs.length cs

end PartyGraph.Toml
