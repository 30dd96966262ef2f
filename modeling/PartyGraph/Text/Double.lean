/-!
# Decimal numbers in double precision

A decimal number becomes the double nearest to it; of two that are equally near, the one whose last
bit is zero. Doubles are given by their 64 bits.

## Main definitions

* `roundedQuotient`: the whole number nearest to a quotient.
* `nearestDouble`: the double nearest to `m * 10 ^ e`.
-/

namespace PartyGraph.Text

/-- The whole number nearest to `num / den`; a half goes to the even neighbour. -/
def roundedQuotient (num den : Nat) : Nat :=
  let q := num / den
  let r := num % den
  if den < 2 * r ∨ (2 * r = den ∧ q % 2 = 1) then q + 1 else q

/-- The bits of infinity. -/
def infinityBits : Nat := 0x7ff0000000000000

/-- The bits of the double nearest to `num / den`, both positive. A double is `q * 2 ^ k` with `q`
of 53 bits, or of fewer when `k` is as small as it can be; counting the doubles upwards, each `k`
contributes as many as there are `q` of 53 bits. -/
def nearestQuotient (num den : Nat) : Nat :=
  let scale (k : Int) : Nat × Nat :=
    (num * Nat.pow 2 (-k).toNat, den * Nat.pow 2 k.toNat)
  let guess : Int := (num.log2 : Int) - (den.log2 : Int) - 52
  let (n, d) := scale guess
  let exact := if n / d < Nat.pow 2 52 then guess - 1 else guess
  let k := max exact (-1074)
  let (n, d) := scale k
  min infinityBits ((k + 1074).toNat * Nat.pow 2 52 + roundedQuotient n d)

/-- The bits of the double nearest to `m * 10 ^ e`, infinity when it is too large for any. Numbers
beyond the reach of doubles are told by the count of their digits. -/
def nearestDouble (m : Nat) (e : Int) : Nat :=
  if m = 0 then 0
  else
    let top : Int := ((Nat.toDigits 10 m).length : Int) + e
    if 310 < top then infinityBits
    else if top < -330 then 0
    else nearestQuotient (m * Nat.pow 10 e.toNat) (Nat.pow 10 (-e).toNat)

/-- The bits with the sign bit set. -/
def negatedBits (bits : Nat) : Nat := Nat.pow 2 63 + bits

end PartyGraph.Text
