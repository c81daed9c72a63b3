import InstrTable.Text.Piece

/-!
Dates, and times of a day with the offset of their zone.
-/

namespace InstrTable

/-- A time of a day. The zone is given by the seconds that it is ahead. -/
structure Clock where
  hour : Nat
  minute : Nat
  second : Nat
  microsecond : Nat
  offset : Option Int
  deriving DecidableEq, Repr

structure Timestamp where
  year : Nat
  month : Nat
  day : Nat
  clock : Option Clock
  deriving DecidableEq, Repr

/-- Why numbers make no timestamp. -/
inductive TimestampError where
  | year (n : Nat)
  | month
  | day
  | hour
  | minute
  | second
  | offset (seconds : Int)
  deriving DecidableEq, Repr

namespace Timestamp

def secondsPerDay : Int := 86400

/-- How a length of time is shown: whole days, which may be fewer than none, and the
seconds beyond them. -/
def shownLength (seconds : Int) : String :=
  let days := seconds.fdiv secondsPerDay
  let rest := seconds.fmod secondsPerDay
  let parts :=
    (if days = 0 then [] else [s!"days={days}"]) ++ if rest = 0 then [] else [s!"seconds={rest}"]
  let sum := if parts.isEmpty then "0" else ", ".intercalate parts
  s!"datetime.timedelta({sum})"

end Timestamp

def TimestampError.message : TimestampError → String
  | .year n => s!"year {n} is out of range"
  | .month => "month must be in 1..12"
  | .day => "day is out of range for month"
  | .hour => "hour must be in 0..23"
  | .minute => "minute must be in 0..59"
  | .second => "second must be in 0..59"
  | .offset seconds =>
    "offset must be a timedelta strictly between -timedelta(hours=24) and " ++
      "timedelta(hours=24), not " ++ Timestamp.shownLength seconds ++ "."

namespace Timestamp

def isLeap (year : Nat) : Bool := year % 4 = 0 && (year % 100 ≠ 0 || year % 400 = 0)

def daysIn (year month : Nat) : Nat :=
  if month = 2 then if isLeap year then 29 else 28
  else if month ∈ [4, 6, 9, 11] then 30
  else 31

/-- The offset of a zone is less than a day. -/
def checkOffset (offset : Option Int) : Except TimestampError Unit :=
  match offset with
  | some seconds =>
    if -secondsPerDay < seconds ∧ seconds < secondsPerDay then .ok ()
    else .error (.offset seconds)
  | none => .ok ()

def checkDate (year month day : Nat) : Except TimestampError Unit :=
  if year = 0 then .error (.year year)
  else if month = 0 ∨ 12 < month then .error .month
  else if day = 0 ∨ daysIn year month < day then .error .day
  else .ok ()

def checkClock (c : Clock) : Except TimestampError Unit :=
  if 23 < c.hour then .error .hour
  else if 59 < c.minute then .error .minute
  else if 59 < c.second then .error .second
  else .ok ()

/-- Whether the numbers of a timestamp are those of a day and a time. -/
def check (t : Timestamp) : Except TimestampError Timestamp := do
  checkOffset (t.clock.bind (·.offset))
  checkDate t.year t.month t.day
  match t.clock with
  | some c => checkClock c
  | none => pure ()
  return t

/-- Reads at least `least` and at most `most` digits. -/
def takeDigits? (least most : Nat) (cs : List Char) : Option (List Char × List Char) :=
  let ds := (cs.takeWhile Char.isDigit).take most
  if ds.length < least then none else some (ds, cs.drop ds.length)

def number (ds : List Char) : Nat := ds.foldl (fun n d => 10 * n + (d.toNat - '0'.toNat)) 0

def isBlank (c : Char) : Bool := c = ' ' || c = '\t'

/-- Reads what separates a date and a time. -/
def takeBetween? (cs : List Char) : Option (List Char) :=
  match cs with
  | 'T' :: rest => some rest
  | 't' :: rest => some rest
  | c :: _ => if isBlank c then some (cs.dropWhile isBlank) else none
  | [] => none

/-- Reads a fraction of a second. Digits beyond the sixth do not count. -/
def takeFraction (cs : List Char) : Nat × List Char :=
  match cs with
  | '.' :: cs =>
    let ds := (cs.takeWhile Char.isDigit).take 6
    (number (ds ++ List.replicate (6 - ds.length) '0'), cs.dropWhile Char.isDigit)
  | cs => (0, cs)

/-- Reads the offset of a zone, which is all that is left. -/
def offset? (cs : List Char) : Option Int := do
  let (sign, cs) ← match cs with
    | '+' :: cs => some (1, cs)
    | '-' :: cs => some (-1, cs)
    | _ => none
  let (hours, cs) ← takeDigits? 1 2 cs
  let minutes ← match cs with
    | [] => some 0
    | ':' :: cs =>
      match ← takeDigits? 2 2 cs with
      | (minutes, []) => some (number minutes)
      | _ => none
    | _ => none
  return sign * (3600 * number hours + 60 * minutes : Nat)

/-- Reads a zone, if anything is left. -/
def zone? (cs : List Char) : Option (Option Int) :=
  if cs.isEmpty then some none
  else
    match cs.dropWhile isBlank with
    | ['Z'] => some (some 0)
    | cs => (offset? cs).map some

def clock? (cs : List Char) : Option Clock := do
  let (hour, cs) ← takeDigits? 1 2 cs
  let (minute, cs) ← takeDigits? 2 2 (← Text.after? [':'] cs)
  let (second, cs) ← takeDigits? 2 2 (← Text.after? [':'] cs)
  let (microsecond, cs) := takeFraction cs
  return {
    hour := number hour
    minute := number minute
    second := number second
    microsecond
    offset := ← zone? cs }

/-- Reads a timestamp, whose numbers need not make one. -/
def ofText? (cs : List Char) : Option Timestamp := do
  let (year, cs) ← takeDigits? 4 4 cs
  let (month, cs) ← takeDigits? 1 2 (← Text.after? ['-'] cs)
  let (day, cs) ← takeDigits? 1 2 (← Text.after? ['-'] cs)
  let clock ← if cs.isEmpty then some none else some <$> clock? (← takeBetween? cs)
  return { year := number year, month := number month, day := number day, clock }

/-- Whether a text is a timestamp by its form alone. A date without a time has two
digits for its month and two for its day then. -/
def isFullForm (cs : List Char) : Bool :=
  match ofText? cs with
  | some t => t.clock.isSome || cs.length = 10
  | none => false

/-- The days before a month of a year without a leap day. -/
def daysBefore (month : Nat) : Nat := ((List.range month).drop 1).foldl (fun n m => n + daysIn 1 m) 0

/-- The number of a day, counted from the first one of all. -/
def dayNumber (t : Timestamp) : Nat :=
  let years := t.year - 1
  let leapDay := if 2 < t.month ∧ isLeap t.year then 1 else 0
  365 * years + years / 4 - years / 100 + years / 400 + daysBefore t.month + leapDay + t.day

/-- The microsecond at which a time is, if its zone is known. -/
def instant? (t : Timestamp) : Option Int := do
  let c ← t.clock
  let offset ← c.offset
  let seconds : Int :=
    secondsPerDay * t.dayNumber + 3600 * c.hour + 60 * c.minute + c.second - offset
  return 1000000 * seconds + c.microsecond

/-- Whether two timestamps are the same. Times with zones are if they are at the same
instant. -/
def isSame (t u : Timestamp) : Bool :=
  match t.instant?, u.instant? with
  | some m, some n => m = n
  | _, _ => t = u

/-- A number with zeros in front, to at least `width` digits. -/
def padded (width n : Nat) : String :=
  let ds := Nat.toDigits 10 n
  String.ofList (List.replicate (width - ds.length) '0' ++ ds)

def shownOffset (seconds : Int) : String :=
  if seconds = 0 then "datetime.timezone.utc" else s!"datetime.timezone({shownLength seconds})"

/-- How a timestamp is shown in a message. -/
def shown (t : Timestamp) : String :=
  match t.clock with
  | none => s!"datetime.date({t.year}, {t.month}, {t.day})"
  | some c =>
    let seconds :=
      if c.microsecond ≠ 0 then s!", {c.second}, {c.microsecond}"
      else if c.second ≠ 0 then s!", {c.second}"
      else ""
    let zone := match c.offset with
      | some seconds => s!", tzinfo={shownOffset seconds}"
      | none => ""
    s!"datetime.datetime({t.year}, {t.month}, {t.day}, {c.hour}, {c.minute}{seconds}{zone})"

/-- The offset of a zone in hours and minutes. -/
def signedOffset (seconds : Int) : String :=
  let minutes := seconds.natAbs / 60
  let sign := if seconds < 0 then "-" else "+"
  s!"{sign}{padded 2 (minutes / 60)}:{padded 2 (minutes % 60)}"

/-- A timestamp as it is written. -/
def plain (t : Timestamp) : String :=
  let date := s!"{padded 4 t.year}-{padded 2 t.month}-{padded 2 t.day}"
  match t.clock with
  | none => date
  | some c =>
    let fraction := if c.microsecond = 0 then "" else "." ++ padded 6 c.microsecond
    let zone := match c.offset with
      | some seconds => signedOffset seconds
      | none => ""
    s!"{date} {padded 2 c.hour}:{padded 2 c.minute}:{padded 2 c.second}{fraction}{zone}"

end Timestamp

end InstrTable
