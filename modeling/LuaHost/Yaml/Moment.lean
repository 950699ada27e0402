import LuaHost.Host.Value
import LuaHost.Yaml.Cursor

set_option autoImplicit false

/-!
# Dates and times

Days of the common calendar, with a time of day and a distance from universal time, as documents write
them and as messages show them.
-/

namespace LuaHost.Yaml

open Host (Failure)

structure TimeOfDay where
  hour : Nat
  minute : Nat
  second : Nat
  microsecond : Nat
  /-- seconds ahead of universal time, if the zone is known -/
  offset : Option Int
deriving DecidableEq

structure Moment where
  year : Nat
  month : Nat
  day : Nat
  time : Option TimeOfDay
deriving DecidableEq

namespace Moment

def isLeap (year : Nat) : Bool := year % 4 == 0 && (year % 100 != 0 || year % 400 == 0)

def daysIn (year month : Nat) : Nat :=
  if month == 2 then if isLeap year then 29 else 28
  else if month == 4 || month == 6 || month == 9 || month == 11 then 30
  else 31

/-! ## Reading -/

/-- Between `least` and `most` digits and what follows the last of them. -/
def digits? (least most : Nat) (ps : List UInt32) : Option (Nat × List UInt32) :=
  let run := ps.takeWhile isDigit
  if least ≤ run.length ∧ run.length ≤ most then
    some (decimal run, ps.drop run.length)
  else none

/-- What follows one of the points. -/
def mark? (marks : String) (ps : List UInt32) : Option (List UInt32) :=
  match ps with
  | p :: rest => if oneOf marks p then some rest else none
  | [] => none

/-- The first six digits after the point, as millionths. -/
def microseconds (run : List UInt32) : Nat :=
  decimal (run.take 6) * Nat.pow 10 (6 - run.length)

/-- A fraction of a second, if there is one. -/
def fraction (ps : List UInt32) : Nat × List UInt32 :=
  match ps with
  | 46 :: rest =>
    let run := rest.takeWhile isDigit
    (microseconds run, rest.drop run.length)
  | _ => (0, ps)

/-- The rest of a time: a zone or nothing. -/
def zone? (ps : List UInt32) : Option (Option Int) :=
  match ps with
  | [] => some none
  | ps =>
    match ps.dropWhile isBlank with
    | [90] => some (some 0)
    | s :: rest =>
      if s == 43 || s == 45 then do
        let (h, rest) ← digits? 1 2 rest
        let m ← match rest with
          | [] => some 0
          | p :: rest => do
            let (m, rest) ← digits? 2 2 rest
            if p == 58 && rest.isEmpty then some m else none
        let seconds : Int := (h * 60 + m) * 60
        return some (if s == 45 then -seconds else seconds)
      else none
    | [] => none

def time? (ps : List UInt32) : Option TimeOfDay := do
  let (hour, ps) ← digits? 1 2 ps
  let (minute, ps) ← digits? 2 2 (← mark? ":" ps)
  let run := (← mark? ":" ps).takeWhile isDigit
  let (second, ps) ← if run.length == 2 then digits? 2 2 (← mark? ":" ps) else none
  let (microsecond, ps) := fraction ps
  return ⟨hour, minute, second, microsecond, ← zone? ps⟩

/-- What separates a day from a time. -/
def separator? (ps : List UInt32) : Option (List UInt32) :=
  match ps with
  | p :: rest =>
    if p == 84 || p == 116 then some rest
    else if isBlank p then some (rest.dropWhile isBlank)
    else none
  | [] => none

/-- A day with or without a time. -/
def ofPoints? (ps : List UInt32) : Option Moment := do
  let (year, ps) ← digits? 4 4 ps
  let (month, ps) ← digits? 1 2 (← mark? "-" ps)
  let (day, ps) ← digits? 1 2 (← mark? "-" ps)
  if ps.isEmpty then return ⟨year, month, day, none⟩
  return ⟨year, month, day, some (← time? (← separator? ps))⟩

/-- Whether a plain scalar is a moment: a day without a time has two digits for month and day. -/
def isPlain (ps : List UInt32) : Bool :=
  match ofPoints? ps with
  | some m => m.time.isSome || ps.length == 10
  | none => false

/-! ## Limits -/

def refuse {α : Type} (why : String) : Except Failure α := .error (.value why)

/-- A length of time in days and seconds, as messages show it. -/
def duration (seconds : Int) : String :=
  let days := Int.fdiv seconds 86400
  let rest := seconds - days * 86400
  let parts := (if days == 0 then [] else [s!"days={days}"]) ++ (if rest == 0 then [] else [s!"seconds={rest}"])
  "datetime.timedelta(" ++ (if parts.isEmpty then "0" else String.intercalate ", " parts) ++ ")"

def checkOffset : Option Int → Except Failure Unit
  | some o =>
    if o.natAbs < 86400 then .ok ()
    else refuse ("offset must be a timedelta strictly between -timedelta(hours=24) and "
      ++ "timedelta(hours=24), not " ++ duration o ++ ".")
  | none => .ok ()

def checkDay (m : Moment) : Except Failure Unit :=
  if m.year == 0 then refuse "year 0 is out of range"
  else if m.month == 0 || 12 < m.month then refuse "month must be in 1..12"
  else if m.day == 0 || daysIn m.year m.month < m.day then refuse "day is out of range for month"
  else .ok ()

def checkTime (t : TimeOfDay) : Except Failure Unit :=
  if 23 < t.hour then refuse "hour must be in 0..23"
  else if 59 < t.minute then refuse "minute must be in 0..59"
  else if 59 < t.second then refuse "second must be in 0..59"
  else .ok ()

/-- Whether the numbers are those of a day and a time. -/
def check (m : Moment) : Except Failure Unit := do
  match m.time with
  | none => m.checkDay
  | some t => do
    checkOffset t.offset
    m.checkDay
    checkTime t

/-! ## Texts -/

def padded (width n : Nat) : String :=
  let s := toString n
  String.ofList (List.replicate (width - s.length) '0') ++ s

def dayText (m : Moment) : String := padded 4 m.year ++ "-" ++ padded 2 m.month ++ "-" ++ padded 2 m.day

def offsetText : Option Int → String
  | none => ""
  | some o =>
    (if o < 0 then "-" else "+") ++ padded 2 (o.natAbs / 3600) ++ ":" ++ padded 2 (o.natAbs / 60 % 60)

def timeText (t : TimeOfDay) : String :=
  padded 2 t.hour ++ ":" ++ padded 2 t.minute ++ ":" ++ padded 2 t.second
    ++ (if t.microsecond == 0 then "" else "." ++ padded 6 t.microsecond) ++ offsetText t.offset

def zoneText : Option Int → String
  | none => ""
  | some 0 => ", tzinfo=datetime.timezone.utc"
  | some o => ", tzinfo=datetime.timezone(" ++ duration o ++ ")"

/-- The numbers of a time; of the last two those that are zero at the end are left out. -/
def timeNumbers (t : TimeOfDay) : List Nat :=
  [t.hour, t.minute] ++
    if t.microsecond != 0 then [t.second, t.microsecond] else if t.second != 0 then [t.second] else []

/-- The value of a moment. -/
def value (m : Moment) : Host.Value :=
  let numbers (ns : List Nat) : String := String.intercalate ", " (ns.map toString)
  match m.time with
  | none => .other "datetime.date" m.dayText ("datetime.date(" ++ numbers [m.year, m.month, m.day] ++ ")")
  | some t =>
    .other "datetime.datetime" (m.dayText ++ " " ++ timeText t)
      ("datetime.datetime(" ++ numbers ([m.year, m.month, m.day] ++ timeNumbers t) ++ zoneText t.offset
        ++ ")")

end Moment
end LuaHost.Yaml
