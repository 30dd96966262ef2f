import PartyGraph.Text.Double
import PartyGraph.Toml.Quotation
import PartyGraph.Toml.Value

/-!
# Numbers

A number is a whole number in decimal, hexadecimal, octal or binary digits, or a number in double
precision with a fraction or an exponent. Single underscores may stand between digits. Infinity and
a value that is not a number have names.

## Main definitions

* `readNumber`: a number of any sort.
-/

namespace PartyGraph.Toml

/-- Whether a character is a digit of a base up to sixteen. -/
def isDigitOf (base : Nat) (c : Char) : Bool :=
  match hexValue? [c] with
  | some d => d < base
  | none => false

/-- Reads what follows the first digit of a row: digits, each perhaps after an underscore. -/
def readMoreDigits (base : Nat) : List Char → Option (List Char × List Char)
  | [] => some ([], [])
  | '_' :: rest =>
    match rest with
    | d :: rest => if isDigitOf base d then preceded [d] (readMoreDigits base rest) else none
    | [] => none
  | d :: rest =>
    if isDigitOf base d then preceded [d] (readMoreDigits base rest) else some ([], d :: rest)

/-- Reads a row of digits. -/
def readDigits (base : Nat) : Reader (List Char)
  | d :: rest => if isDigitOf base d then preceded [d] (readMoreDigits base rest) else none
  | [] => none

/-- The value of digits in a base. -/
def digitsValue (base : Nat) (digits : List Char) : Nat :=
  digits.foldl (fun n d => base * n + (hexValue? [d]).getD 0) 0

/-- Reads a sign, if there is one, and tells whether it is a minus. -/
def readSign : List Char → Bool × List Char
  | '-' :: rest => (true, rest)
  | '+' :: rest => (false, rest)
  | cs => (false, cs)

/-- A whole number, if it has a place among those of 64 bits with sign. -/
def wholeNumber? (n : Int) : Option Value :=
  if -0x8000000000000000 ≤ n ∧ n < 0x8000000000000000 then some (.integer n) else none

/-- A number in double precision of the bits of its magnitude. -/
def floatOf (negative : Bool) (bits : Nat) : Value :=
  .float (UInt64.ofNat (if negative then Text.negatedBits bits else bits))

/-- Reads a fraction, if there is one: a point and digits. -/
def readFraction : Reader (Option (List Char))
  | '.' :: rest => do
    let (digits, rest) ← readDigits 10 rest
    return (some digits, rest)
  | cs => some (none, cs)

/-- Reads an exponent, if there is one. -/
def readExponent : Reader (Option Int)
  | c :: rest =>
    if c = 'e' ∨ c = 'E' then do
      let (negative, rest) := readSign rest
      let (digits, rest) ← readDigits 10 rest
      let n : Int := digitsValue 10 digits
      return (some (if negative then -n else n), rest)
    else some (none, c :: rest)
  | [] => some (none, [])

/-- The bits of a value that is not a number. -/
def notANumberBits : Nat := 0x7ff8000000000000

/-- Reads a decimal number after its sign. It has no needless zero in front. A number too large for
double precision is refused when it is positive and infinite when it is negative. -/
def readDecimal (negative : Bool) : Reader Value := fun cs => do
  let (digits, rest) ← readDigits 10 (if cs.head? = some '0' then cs.take 1 else cs)
  let rest := if cs.head? = some '0' then cs.drop 1 else rest
  let (fraction, rest) ← readFraction rest
  let (exponent, rest) ← readExponent rest
  match fraction, exponent with
  | none, none =>
    let n : Int := digitsValue 10 digits
    let value ← wholeNumber? (if negative then -n else n)
    return (value, rest)
  | _, _ =>
    let places := fraction.getD []
    let bits :=
      Text.nearestDouble (digitsValue 10 (digits ++ places))
        (exponent.getD 0 - (places.length : Int))
    if bits = Text.infinityBits && !negative then none
    else return (floatOf negative bits, rest)

/-- Reads a number in the digits of a base. -/
def readInBase (base : Nat) : Reader Value := fun cs => do
  let (digits, rest) ← readDigits base cs
  let value ← wholeNumber? (digitsValue base digits)
  return (value, rest)

/-- Reads a number after its sign. -/
def readMagnitude (negative : Bool) : Reader Value
  | 'i' :: 'n' :: 'f' :: rest => some (floatOf negative Text.infinityBits, rest)
  | 'n' :: 'a' :: 'n' :: rest => some (floatOf negative notANumberBits, rest)
  | cs => readDecimal negative cs

/-- Reads a number. A base other than ten is told by a mark, before which there is no sign. -/
def readNumber : Reader Value
  | '0' :: 'x' :: rest => readInBase 16 rest
  | '0' :: 'o' :: rest => readInBase 8 rest
  | '0' :: 'b' :: rest => readInBase 2 rest
  | '-' :: rest => readMagnitude true rest
  | '+' :: rest => readMagnitude false rest
  | cs => readMagnitude false cs

end PartyGraph.Toml
