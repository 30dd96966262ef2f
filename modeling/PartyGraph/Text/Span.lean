/-!
# Spans of time in words

A span is shown in the largest unit of which it has one whole, with as many decimal places as it
takes to be exact and no trailing zero.

## Main definitions

* `Span`: a length of time, to the nanosecond.
* `Span.text`: the span in words.
-/

namespace PartyGraph.Text

/-- A length of time. -/
structure Span where
  seconds : Nat
  nanos : Nat
deriving DecidableEq, Repr

namespace Span

/-- The span of whole seconds and further nanoseconds, of which a thousand million make one more. -/
def ofParts (seconds nanos : Nat) : Span := ⟨seconds + nanos / 1000000000, nanos % 1000000000⟩

/-- The span of a number of microseconds. -/
def ofMicros (us : Nat) : Span := ⟨us / 1000000, us % 1000000 * 1000⟩

/-- The digits of `part / 10 ^ width` after the point, without the zeros at their end. -/
def decimals (width part : Nat) : List Char :=
  let digits := Nat.toDigits 10 part
  ((List.replicate (width - digits.length) '0' ++ digits).reverse.dropWhile (· == '0')).reverse

/-- `whole` units and `part / 10 ^ width` of one. -/
def amount (whole width part : Nat) (unit : String) : String :=
  let places := if part = 0 then [] else decimals width part
  toString whole ++ (if places.isEmpty then "" else String.ofList ('.' :: places)) ++ unit

/-- The span in the largest unit of which it has one whole. -/
def text (s : Span) : String :=
  if 0 < s.seconds then amount s.seconds 9 s.nanos "s"
  else if 1000000 ≤ s.nanos then amount (s.nanos / 1000000) 6 (s.nanos % 1000000) "ms"
  else if 1000 ≤ s.nanos then amount (s.nanos / 1000) 3 (s.nanos % 1000) "µs"
  else amount s.nanos 0 0 "ns"

end Span

end PartyGraph.Text
