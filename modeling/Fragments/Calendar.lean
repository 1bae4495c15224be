import Fragments.Failure
import Fragments.Text.Blank

namespace Fragments

structure Date where
  year : Nat
  month : Nat
  day : Nat
  deriving DecidableEq, Inhabited

/-- A date with a time of day; `offset` is the distance from universal time in
minutes, if known. -/
structure Moment where
  date : Date
  hour : Nat
  minute : Nat
  second : Nat
  microsecond : Nat
  offset : Option Int
  deriving DecidableEq, Inhabited

namespace Date

def isLeap (year : Nat) : Bool :=
  year % 4 == 0 && (year % 100 != 0 || year % 400 == 0)

def daysIn (year month : Nat) : Nat :=
  if month = 2 then (if isLeap year then 29 else 28)
  else if month = 4 ∨ month = 6 ∨ month = 9 ∨ month = 11 then 30
  else 31

def checked (year month day : Nat) : Except Fault Date :=
  if year = 0 then .error (.value "year 0 is out of range")
  else if month = 0 ∨ 12 < month then .error (.value "month must be in 1..12")
  else if day = 0 ∨ daysIn year month < day then
    .error (.value "day is out of range for month")
  else .ok ⟨year, month, day⟩

/-- Days since the day before the first day of year 1. -/
def ordinal (d : Date) : Nat :=
  let years := d.year - 1
  let months :=
    (List.range (d.month - 1)).foldl
      (fun total m => total + daysIn d.year (m + 1)) 0
  years * 365 + years / 4 - years / 100 + years / 400 + months + d.day

def iso (d : Date) : String :=
  Text.padded 4 d.year ++ "-" ++ Text.padded 2 d.month ++ "-" ++
    Text.padded 2 d.day

def display (d : Date) : String :=
  s!"datetime.date({d.year}, {d.month}, {d.day})"

end Date

namespace Moment

def spanDisplay (minutes : Int) : String :=
  let days := minutes / 1440
  let seconds := minutes % 1440 * 60
  let parts := (if days = 0 then [] else [s!"days={days}"]) ++
    (if seconds = 0 then [] else [s!"seconds={seconds}"])
  "datetime.timedelta(" ++
    (if parts.isEmpty then "0" else ", ".intercalate parts) ++ ")"

def checkedOffset (minutes : Int) : Except Fault Int :=
  if -1440 < minutes ∧ minutes < 1440 then .ok minutes
  else
    .error
      (.value
        ("offset must be a timedelta strictly between -timedelta(hours=24) and "
          ++
      s!"timedelta(hours=24), not {spanDisplay minutes}."))

def checked (year month day hour minute second microsecond : Nat)
    (offset : Option Int) :
    Except Fault Moment := do
  let date ← Date.checked year month day
  if 23 < hour then .error (.value "hour must be in 0..23")
  else if 59 < minute then .error (.value "minute must be in 0..59")
  else if 59 < second then .error (.value "second must be in 0..59")
  else .ok ⟨date, hour, minute, second, microsecond, offset⟩

/-- Microseconds on the clock of universal time, or on an unplaced clock without
an offset. -/
def instant (m : Moment) : Int :=
  let minutes : Int := (m.date.ordinal * 1440 + m.hour * 60 + m.minute : Nat)
  (minutes - m.offset.getD 0) * 60000000 +
    (m.second * 1000000 + m.microsecond : Nat)

/-- Whether two moments are the same instant; a placed and an unplaced one never
are. -/
def same (a b : Moment) : Bool :=
  a.offset.isSome == b.offset.isSome && a.instant == b.instant

def offsetIso (minutes : Int) : String :=
  let size := minutes.natAbs
  (if minutes < 0 then "-" else "+") ++ Text.padded 2 (size / 60) ++ ":" ++
    Text.padded 2 (size % 60)

def clock (separator : String) (m : Moment) : String :=
  m.date.iso ++ separator ++ Text.padded 2 m.hour ++ ":" ++
    Text.padded 2 m.minute ++ ":" ++ Text.padded 2 m.second ++
    (if m.microsecond = 0 then "" else "." ++ Text.padded 6 m.microsecond)

def isoWith (separator : String) (m : Moment) : String :=
  m.clock separator ++ (m.offset.map offsetIso).getD ""

def iso (m : Moment) : String := m.isoWith "T"

def isoZulu (m : Moment) : String :=
  match m.offset with
  | some 0 => m.clock "T" ++ "Z"
  | _ => m.iso

def offsetDisplay (minutes : Int) : String :=
  if minutes = 0 then "datetime.timezone.utc"
  else "datetime.timezone(" ++ spanDisplay minutes ++ ")"

def display (m : Moment) : String :=
  let seconds := if m.second = 0 ∧ m.microsecond = 0 then ""
    else s!", {m.second}"
  let fraction := if m.microsecond = 0 then "" else s!", {m.microsecond}"
  let zone :=
    (m.offset.map fun minutes => ", tzinfo=" ++ offsetDisplay minutes).getD ""
  s!"datetime.datetime({m.date.year}, {m.date.month}, {m.date.day}, " ++
    s!"{m.hour}, {m.minute}" ++ seconds ++ fraction ++ zone ++ ")"

end Moment

end Fragments
