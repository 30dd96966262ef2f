/-!
# Dates and times

A moment is a date, a time of day, or both, and may be fixed by an offset from universal time.

## Main definitions

* `Moment`: the value.
* `Moment.text`: its normal form.
-/

namespace PartyGraph.Toml

/-- A day of the calendar. -/
structure Date where
  year : Nat
  month : Nat
  day : Nat
deriving DecidableEq, Repr

/-- A time of day, to the nanosecond. -/
structure TimeOfDay where
  hour : Nat
  minute : Nat
  second : Nat
  nanos : Nat
deriving DecidableEq, Repr

/-- Distance from universal time. -/
inductive Offset where
  | zulu
  | minutes (m : Int)
deriving DecidableEq, Repr

/-- A date, a time, or both. -/
structure Moment where
  date : Option Date
  time : Option TimeOfDay
  offset : Option Offset
deriving DecidableEq, Repr

/-- `n` with at least `width` digits. -/
def padded (width n : Nat) : String :=
  let digits := Nat.toDigits 10 n
  String.ofList (List.replicate (width - digits.length) '0' ++ digits)

/-- Year, month and day. -/
def Date.text (d : Date) : String :=
  padded 4 d.year ++ "-" ++ padded 2 d.month ++ "-" ++ padded 2 d.day

/-- The places of a fraction of a second, without the zeros at the end. -/
def fractionText (nanos : Nat) : String :=
  if nanos = 0 then ""
  else "." ++ String.ofList ((padded 9 nanos).toList.reverse.dropWhile (· == '0')).reverse

/-- Hours, minutes, seconds and the fraction. -/
def TimeOfDay.text (t : TimeOfDay) : String :=
  padded 2 t.hour ++ ":" ++ padded 2 t.minute ++ ":" ++ padded 2 t.second ++ fractionText t.nanos

/-- A sign, hours and minutes, or `Z`. -/
def Offset.text : Offset → String
  | zulu => "Z"
  | minutes m =>
    (if m < 0 then "-" else "+") ++ padded 2 (m.natAbs / 60) ++ ":" ++ padded 2 (m.natAbs % 60)

/-- The normal form of a moment. -/
def Moment.text (m : Moment) : String :=
  let date := (m.date.map Date.text).getD ""
  let time := (m.time.map TimeOfDay.text).getD ""
  let between := if m.date.isSome && m.time.isSome then "T" else ""
  date ++ between ++ time ++ (m.offset.map Offset.text).getD ""

end PartyGraph.Toml
