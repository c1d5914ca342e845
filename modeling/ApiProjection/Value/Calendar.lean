import ApiProjection.Number.Shortest
/-!
# Calendar dates and moments

`Date.ofParts?` and `Moment.ofParts?` say which part of a date is out of range. The texts are
the extended ISO 8601 forms; `Moment.zuluText` writes a zero offset as `Z`.
-/
namespace ApiProjection

structure Date where
  year : Nat
  month : Nat
  day : Nat
  deriving DecidableEq, Repr, Inhabited

/-- A time of day on a date, with an offset from universal time in seconds if one is given. -/
structure Moment where
  date : Date
  hour : Nat
  minute : Nat
  second : Nat
  microsecond : Nat
  offset : Option Int
  deriving DecidableEq, Repr, Inhabited

/-- The part of a date or a time that has no such value. -/
inductive CalendarFault
  | year (n : Nat)
  | month
  | day
  | hour
  | minute
  | second
  /-- An offset of a day or more, in seconds. -/
  | offset (seconds : Int)
  deriving DecidableEq, Repr

def isLeapYear (y : Nat) : Bool := y % 4 == 0 && (y % 100 != 0 || y % 400 == 0)

/-- The number of days of a month. -/
def daysInMonth (y m : Nat) : Nat :=
  if m == 2 then (if isLeapYear y then 29 else 28)
  else if m == 4 || m == 6 || m == 9 || m == 11 then 30 else 31

def Date.ofParts? (y m d : Nat) : Except CalendarFault Date :=
  if y < 1 || 9999 < y then .error (.year y)
  else if m < 1 || 12 < m then .error .month
  else if d < 1 || daysInMonth y m < d then .error .day
  else .ok ⟨y, m, d⟩

/-- The number of seconds of a day. -/
def secondsPerDay : Nat := 86400

/-- A moment from its parts; an offset that is out of range is noticed first. -/
def Moment.ofParts? (y m d hour minute second microsecond : Nat) (offset : Option Int) :
    Except CalendarFault Moment := do
  if let some s := offset then
    if secondsPerDay ≤ s.natAbs then .error (.offset s)
  let date ← Date.ofParts? y m d
  if 23 < hour then .error .hour
  else if 59 < minute then .error .minute
  else if 59 < second then .error .second
  else .ok ⟨date, hour, minute, second, microsecond, offset⟩

/-- Days since the first day of the year one. -/
def Date.ordinal (d : Date) : Nat :=
  let y := d.year - 1
  let months := (List.range (d.month - 1)).map fun i => daysInMonth d.year (i + 1)
  y * 365 + y / 4 - y / 100 + y / 400 + months.foldl (· + ·) 0 + d.day - 1

/-- Microseconds since the first day of the year one, in universal time. -/
def Moment.instant (t : Moment) : Int :=
  let seconds : Int := t.date.ordinal * 86400 + t.hour * 3600 + t.minute * 60 + t.second
  (seconds - t.offset.getD 0) * 1000000 + t.microsecond

/-- Whether two moments are the same: the same instant if both have an offset, the same parts if
neither has. -/
def Moment.same (s t : Moment) : Bool :=
  s.offset.isSome == t.offset.isSome && s.instant == t.instant

/-- A number with zeros in front up to the given width. -/
def zeroPadded (width n : Nat) : String := String.ofList (Binary64.padded width n)

/-- The date as `2024-01-31`. -/
def Date.text (d : Date) : String :=
  zeroPadded 4 d.year ++ "-" ++ zeroPadded 2 d.month ++ "-" ++ zeroPadded 2 d.day

/-- An offset as `+02:00`, with seconds only if there are any. -/
def offsetText (s : Int) : String :=
  let n := s.natAbs
  let seconds := if n % 60 = 0 then "" else ":" ++ zeroPadded 2 (n % 60)
  (if s < 0 then "-" else "+") ++ zeroPadded 2 (n / 3600) ++ ":" ++ zeroPadded 2 (n / 60 % 60) ++ seconds

/-- The moment without its offset, as `2024-01-31T08:30:00`. -/
def Moment.localText (t : Moment) : String :=
  let fraction := if t.microsecond = 0 then "" else "." ++ zeroPadded 6 t.microsecond
  t.date.text ++ "T" ++ zeroPadded 2 t.hour ++ ":" ++ zeroPadded 2 t.minute ++ ":" ++ zeroPadded 2 t.second ++ fraction

/-- The moment with a numeric offset. -/
def Moment.text (t : Moment) : String :=
  t.localText ++ (match t.offset with | none => "" | some s => offsetText s)

/-- The moment with `Z` for a zero offset. -/
def Moment.zuluText (t : Moment) : String :=
  t.localText ++ (match t.offset with | none => "" | some 0 => "Z" | some s => offsetText s)

end ApiProjection
