import PartyGraph.Toml.Calendar
import PartyGraph.Toml.Tree

/-!
# Configuration texts

A text is a sequence of lines. A line gives a value to a key, or is the header of a table or of an
item in an array of tables, to which the lines after it belong. Values may be arrays, which go over
several lines, and tables in braces, which do not.

## Main definitions

* `readKey`: a key, perhaps dotted.
* `readValue`: a value of any kind.
* `Statement`, `readStatement`: a line that has a meaning.
* `parse`: the table that a text describes.
-/

namespace PartyGraph.Toml

/-- How deep arrays and tables within values may be nested, and keys be dotted, less one. -/
def depthLimit : Nat := 80

/-- Whether a character may stand in a key without quotes. -/
def isBareKeyChar (c : Char) : Bool := c.isAlphanum || c = '-' || c = '_'

/-- Reads a key without dots. -/
def readSimpleKey : Reader String := fun cs =>
  match readLine cs with
  | some found => some found
  | none =>
    let name := cs.takeWhile isBareKeyChar
    if name.isEmpty then none else some (String.ofList name, cs.dropWhile isBareKeyChar)

/-- Reads at most `n` keys with dots between them; blanks around a dot have no meaning. -/
def readKeys : Nat → Reader (List String)
  | 0, _ => none
  | n + 1, cs => do
    let (key, cs) ← readSimpleKey (skipBlanks cs)
    match skipBlanks cs with
    | '.' :: rest =>
      let (keys, rest) ← readKeys n rest
      return (key :: keys, rest)
    | rest => return ([key], rest)

/-- A key: those before the last dot, and the last. -/
abbrev KeyPath := List String × String

/-- Reads a key, perhaps dotted. -/
def readKey : Reader KeyPath := fun cs => do
  let (keys, rest) ← readKeys (depthLimit - 1) cs
  let last ← keys.getLast?
  return ((keys.dropLast, last), rest)

/-- Reads a key with its value. -/
def readPair (readValue : Reader Value) : Reader (KeyPath × Value) := fun cs => do
  let (key, cs) ← readKey cs
  let cs ← readMark '=' cs
  let (v, cs) ← readValue (skipBlanks cs)
  return ((key, v), cs)

/-- Reads at most `n` items of an array up to its end. A comma may follow the last. -/
def readItems (readValue : Reader Value) : Nat → Reader (List Value)
  | 0, _ => none
  | n + 1, cs =>
    match skipLines cs with
    | ']' :: rest => some ([], rest)
    | cs => do
      let (v, cs) ← readValue cs
      match skipLines cs with
      | ',' :: rest =>
        let (vs, rest) ← readItems readValue n rest
        return (v :: vs, rest)
      | ']' :: rest => return ([v], rest)
      | _ => none

/-- Reads at most `n` pairs of a table in braces up to its end, where the entries read so far are
given. -/
def readEntries (readValue : Reader Value) : Nat → Node.Entries → Reader Node.Entries
  | 0, _, _ => none
  | n + 1, t, cs => do
    let (((path, key), v), cs) ← readPair readValue cs
    let t ← Node.insert path key v .header t
    match skipBlanks cs with
    | ',' :: rest => readEntries readValue n t rest
    | '\x7d' :: rest => return (t, rest)
    | _ => none

/-- Reads a table in braces after the opening one. -/
def readBraces (readValue : Reader Value) : Reader Value := fun cs =>
  match skipBlanks cs with
  | '\x7d' :: rest => some (.table [], rest)
  | cs => do
    let (t, rest) ← readEntries readValue cs.length [] cs
    return (.table (Node.toTable t), rest)

/-- Reads a value that holds no others. -/
def readScalar : Reader Value
  | 't' :: 'r' :: 'u' :: 'e' :: rest => some (.truth true, rest)
  | 'f' :: 'a' :: 'l' :: 's' :: 'e' :: rest => some (.truth false, rest)
  | cs =>
    match readText cs with
    | some (text, rest) => some (.text text, rest)
    | none =>
      match readMoment cs with
      | some (m, rest) => some (.moment m, rest)
      | none => readNumber cs

/-- Reads a value in which others are nested at most `depth` deep. -/
def readNested : Nat → Reader Value
  | 0, cs =>
    match cs with
    | '[' :: _ => none
    | '\x7b' :: _ => none
    | cs => readScalar cs
  | depth + 1, cs =>
    match cs with
    | '[' :: rest => do
      let (items, rest) ← readItems (readNested depth) (rest.length + 1) rest
      return (.array items, rest)
    | '\x7b' :: rest => readBraces (readNested depth) rest
    | cs => readScalar cs

/-- Reads a value. -/
def readValue : Reader Value := readNested (depthLimit - 1)

/-- A line that has a meaning. -/
inductive Statement where
  | pair (key : KeyPath) (v : Value)
  | table (key : KeyPath)
  | item (key : KeyPath)

/-- Reads a line that has a meaning, to its end. -/
def readStatement : Reader Statement
  | '[' :: '[' :: rest => do
    let (key, rest) ← readKey rest
    let rest ← readMark ']' rest
    let rest ← readMark ']' rest
    let rest ← endOfLine rest
    return (.item key, rest)
  | '[' :: rest => do
    let (key, rest) ← readKey rest
    let rest ← readMark ']' rest
    let rest ← endOfLine rest
    return (.table key, rest)
  | cs => do
    let ((key, v), rest) ← readPair readValue cs
    let rest ← endOfLine rest
    return (.pair key v, rest)

/-- A text read so far: the tree, and the keys that lead to the table of the last header. -/
structure Progress where
  root : Node.Entries
  current : List String

/-- What a line adds. -/
def Progress.add (p : Progress) : Statement → Option Progress
  | .pair (path, key) v => do
    let root ← Node.within false (fun origin t => Node.insert path key v origin t) .header p.root
      p.current
    return { p with root }
  | .table (path, key) => do
    let root ← Node.openTable path key p.root
    return ⟨root, path ++ [key]⟩
  | .item (path, key) => do
    let root ← Node.openItem path key p.root
    return ⟨root, path ++ [key]⟩

/-- Reads at most `n` lines that have a meaning, to the end of the text. -/
def readDocument : Nat → Progress → List Char → Option Progress
  | n, p, cs =>
    match skipLines cs with
    | [] => some p
    | '#' :: rest => if (rest.dropWhile isPlain).isEmpty then some p else none
    | cs =>
      match n with
      | 0 => none
      | n + 1 => do
        let (statement, rest) ← readStatement cs
        let p ← p.add statement
        readDocument n p rest

/-- A byte order mark at the beginning of a text has no meaning. -/
def skipByteOrderMark : List Char → List Char
  | '\ufeff' :: rest => rest
  | cs => cs

/-- The table that a text describes, if it is well formed. -/
def parse (text : String) : Option Table := do
  let cs := skipByteOrderMark text.toList
  let p ← readDocument cs.length ⟨[], []⟩ cs
  return Node.toTable p.root

end PartyGraph.Toml
