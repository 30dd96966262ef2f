import PartyGraph.Toml.Number

/-!
# Dates and times as they are written

A date is written `1979-05-27`, a time `07:32:00` with as many decimal places as one likes, of
which nine count. Between the two stands a `T` or a blank. An offset, `Z` or `+02:00`, may follow
where there are both.

Hours, of a time and of an offset, go up to 23 and minutes up to 59, whether the moment stands in a
configuration text by itself or is given as a text of its own.

## Main definitions

* `readMoment`: a date, a time, or both.
* `Moment.ofText?`: the moment that a text is as a whole.
-/

namespace PartyGraph.Toml

/-- Reads a number of exactly `width` digits, between two bounds. -/
def readField (width least greatest : Nat) : Reader Nat := fun cs =>
  let digits := cs.take width
  let n := digitsValue 10 digits
  if digits.length = width && digits.all Char.isDigit && least ≤ n && n ≤ greatest
  then some (n, cs.drop width) else none

/-- Reads a given character. -/
def readMark (mark : Char) : List Char → Option (List Char)
  | c :: rest => if c = mark then some rest else none
  | [] => none

/-- Number of days of a month. -/
def daysOf (year month : Nat) : Nat :=
  if month = 2 then
    if year % 4 = 0 && (year % 100 ≠ 0 || year % 400 = 0) then 29 else 28
  else if month = 4 ∨ month = 6 ∨ month = 9 ∨ month = 11 then 30
  else 31

/-- Reads a date. -/
def readDate : Reader Date := fun cs => do
  let (year, cs) ← readField 4 0 9999 cs
  let cs ← readMark '-' cs
  let (month, cs) ← readField 2 1 12 cs
  let cs ← readMark '-' cs
  let (day, cs) ← readField 2 1 (daysOf year month) cs
  return (⟨year, month, day⟩, cs)

/-- The nanoseconds that decimal places come to. -/
def nanosOf (places : List Char) : Nat :=
  let digits := places.take 9
  digitsValue 10 digits * Nat.pow 10 (9 - digits.length)

/-- Reads the decimal places of a second, if there are any. -/
def readSecondPlaces : List Char → Nat × List Char
  | '.' :: d :: rest =>
    if d.isDigit then
      (nanosOf (d :: rest.takeWhile Char.isDigit), rest.dropWhile Char.isDigit)
    else (0, '.' :: d :: rest)
  | cs => (0, cs)

/-- Reads a time of day. A minute may have a leap second. -/
def readTime : Reader TimeOfDay := fun cs => do
  let (hour, cs) ← readField 2 0 23 cs
  let cs ← readMark ':' cs
  let (minute, cs) ← readField 2 0 59 cs
  let cs ← readMark ':' cs
  let (second, cs) ← readField 2 0 60 cs
  let (nanos, cs) := readSecondPlaces cs
  return (⟨hour, minute, second, nanos⟩, cs)

/-- Reads an offset of hours and minutes after its sign. -/
def readDistance (negative : Bool) : Reader Offset := fun cs => do
  let (hours, cs) ← readField 2 0 23 cs
  let cs ← readMark ':' cs
  let (minutes, cs) ← readField 2 0 59 cs
  let m : Int := hours * 60 + minutes
  return (.minutes (if negative then -m else m), cs)

/-- Reads an offset, if there is one. -/
def readOffset : List Char → Option Offset × List Char
  | 'Z' :: rest => (some .zulu, rest)
  | 'z' :: rest => (some .zulu, rest)
  | c :: rest =>
    if c = '+' ∨ c = '-' then
      match readDistance (c = '-') rest with
      | some (offset, rest) => (some offset, rest)
      | none => (none, c :: rest)
    else (none, c :: rest)
  | [] => (none, [])

/-- Reads what may follow a date: a mark, a time, and perhaps an offset. -/
def readTimeOfDate (date : Date) : List Char → Moment × List Char
  | c :: rest =>
    if c = 'T' ∨ c = 't' ∨ c = ' ' then
      match readTime rest with
      | some (time, rest) =>
        let (offset, rest) := readOffset rest
        (⟨some date, some time, offset⟩, rest)
      | none => (⟨some date, none, none⟩, c :: rest)
    else (⟨some date, none, none⟩, c :: rest)
  | [] => (⟨some date, none, none⟩, [])

/-- Reads a date, a time, or both. -/
def readMoment : Reader Moment := fun cs =>
  match readDate cs with
  | some (date, rest) => some (readTimeOfDate date rest)
  | none =>
    match readTime cs with
    | some (time, rest) => some (⟨none, some time, none⟩, rest)
    | none => none

/-- The moment that a text is as a whole, if it is one. -/
def Moment.ofText? (s : String) : Option Moment :=
  match readMoment s.toList with
  | some (m, []) => some m
  | _ => none

end PartyGraph.Toml
