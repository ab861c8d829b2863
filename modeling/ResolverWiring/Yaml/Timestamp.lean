import ResolverWiring.Text.Blank
import ResolverWiring.Yaml.Error

/-!
# `ResolverWiring.Yaml.Timestamp` — dates and times

Dates of the Gregorian calendar, from the year 1 to the year 9999, and times of day on them, perhaps
with an offset from universal time. `readTimestamp` reads both from the text of a scalar; `write` gives
the text that is read back.
-/

namespace ResolverWiring.Yaml

/-! ## Dates -/

/-- A day. -/
structure Date where
  year : Nat
  month : Nat
  day : Nat
deriving DecidableEq, Repr, Inhabited

/-- Whether a year has a day more. -/
def isLeapYear (year : Nat) : Bool := year % 4 = 0 && (year % 100 != 0 || year % 400 = 0)

/-- The number of days in a month. -/
def daysInMonth (year month : Nat) : Nat :=
  if month = 2 then if isLeapYear year then 29 else 28
  else if month = 4 || month = 6 || month = 9 || month = 11 then 30 else 31

/-- A number in at least `width` decimal digits. -/
def padded (width n : Nat) : String :=
  let digits := toString n
  String.ofList (List.replicate (width - digits.length) '0') ++ digits

namespace Date

/-- The last year. -/
def maxYear : Nat := 9999

/-- The date with these numbers, if there is one. -/
def check (year month day : Nat) : Except ScalarError Date :=
  if year = 0 || maxYear < year then .error (.yearOutOfRange year)
  else if month = 0 || 12 < month then .error .monthOutOfRange
  else if day = 0 || daysInMonth year month < day then .error .dayOutOfRange
  else .ok ⟨year, month, day⟩

/-- How many days have passed at the end of a date, counted from the start of the calendar. -/
def dayNumber (d : Date) : Nat :=
  let years := d.year - 1
  let months := ((List.range d.month).drop 1).map (daysInMonth d.year)
  365 * years + years / 4 - years / 100 + years / 400 + months.foldl (· + ·) 0 + d.day

/-- The text of a date. -/
def write (d : Date) : String := padded 4 d.year ++ "-" ++ padded 2 d.month ++ "-" ++ padded 2 d.day

end Date

/-! ## Times -/

/-- A time of day on a date; the offset from universal time is in minutes. -/
structure Timestamp where
  date : Date
  hour : Nat
  minute : Nat
  second : Nat
  microsecond : Nat
  offset? : Option Int
deriving DecidableEq, Repr, Inhabited

namespace Timestamp

/-- The time of day on a date, if there is one. -/
def check (date : Date) (hour minute second microsecond : Nat) (offset? : Option Int) :
    Except ScalarError Timestamp :=
  if 23 < hour then .error .hourOutOfRange
  else if 59 < minute then .error .minuteOutOfRange
  else if 59 < second then .error .secondOutOfRange
  else .ok ⟨date, hour, minute, second, microsecond, offset?⟩

/-- The microseconds since the start of the calendar, in universal time if the offset is known. -/
def instant (t : Timestamp) : Int :=
  let minutes : Int := (t.date.dayNumber * 24 + t.hour) * 60 + t.minute - t.offset?.getD 0
  (minutes * 60 + t.second) * 1000000 + t.microsecond

/-- Whether two timestamps denote the same time; a known offset is not compared with an unknown one. -/
def sameTime (t u : Timestamp) : Bool :=
  t.offset?.isSome == u.offset?.isSome && t.instant == u.instant

/-- The text of an offset. -/
def writeOffset (minutes : Int) : String :=
  (if minutes < 0 then "-" else "+") ++ padded 2 (minutes.natAbs / 60) ++ ":"
    ++ padded 2 (minutes.natAbs % 60)

/-- The text of a timestamp. A fraction of a second is written with six digits. -/
def write (t : Timestamp) : String :=
  t.date.write ++ " " ++ padded 2 t.hour ++ ":" ++ padded 2 t.minute ++ ":" ++ padded 2 t.second
    ++ (if t.microsecond = 0 then "" else "." ++ padded 6 t.microsecond)
    ++ (t.offset?.map writeOffset).getD ""

end Timestamp

/-! ## Reading -/

/-- The number that decimal digits denote. -/
def decimalValue (digits : List Char) : Nat :=
  digits.foldl (fun n c => 10 * n + (c.toNat - '0'.toNat)) 0

/-- From `least` to `most` digits in front, as many as there are: their number, and the text behind. -/
def readDigits? (least most : Nat) (cs : List Char) : Option (Nat × List Char) :=
  let digits := (cs.take most).takeWhile Char.isDigit
  if digits.length < least then none else some (decimalValue digits, cs.drop digits.length)

/-- The text behind this character. -/
def behindChar? (c : Char) : List Char → Option (List Char)
  | d :: cs => if c == d then some cs else none
  | [] => none

/-- The text behind a letter or blanks between a date and a time. -/
def behindDate? : List Char → Option (List Char)
  | c :: cs =>
    if c == 'T' || c == 't' then some cs
    else if isBlank c then some (cs.dropWhile isBlank)
    else none
  | [] => none

/-- The numbers of a timestamp, before they are checked. -/
structure RawTime where
  hour : Nat
  minute : Nat
  second : Nat
  microsecond : Nat
  offset? : Option Int
deriving DecidableEq, Repr, Inhabited

/-- The offset in minutes that the whole text denotes; the text may be empty, or start with blanks. -/
def readOffset? (cs : List Char) : Option (Option Int) :=
  if cs.isEmpty then some none
  else match cs.dropWhile isBlank with
    | ['Z'] => some (some 0)
    | sign :: rest => do
      if sign != '+' && sign != '-' then none
      let (hours, rest) ← readDigits? 1 2 rest
      let (minutes, rest) ← match rest with
        | ':' :: rest => readDigits? 2 2 rest
        | _ => some (0, rest)
      if !rest.isEmpty then none
      let total : Int := hours * 60 + minutes
      return some (if sign == '-' then -total else total)
    | [] => none

/-- The fraction of a second in front, in microseconds; further digits are passed over. -/
def readFraction : List Char → Nat × List Char
  | '.' :: cs =>
    let digits := (cs.takeWhile Char.isDigit).take 6
    (decimalValue digits * Nat.pow 10 (6 - digits.length), cs.dropWhile Char.isDigit)
  | cs => (0, cs)

/-- The time of day that the whole text denotes. -/
def readTime? (cs : List Char) : Option RawTime := do
  let (hour, cs) ← readDigits? 1 2 cs
  let cs ← behindChar? ':' cs
  let (minute, cs) ← readDigits? 2 2 cs
  let cs ← behindChar? ':' cs
  let (second, cs) ← readDigits? 2 2 cs
  let (microsecond, cs) := readFraction cs
  let offset? ← readOffset? cs
  return ⟨hour, minute, second, microsecond, offset?⟩

/-- The numbers of the date, and of the time if there is one, that the whole text denotes. -/
def readRaw? (cs : List Char) : Option ((Nat × Nat × Nat) × Option RawTime) := do
  let (year, cs) ← readDigits? 4 4 cs
  let cs ← behindChar? '-' cs
  let (month, cs) ← readDigits? 1 2 cs
  let cs ← behindChar? '-' cs
  let (day, cs) ← readDigits? 1 2 cs
  if cs.isEmpty then return ((year, month, day), none)
  let time ← (behindDate? cs).bind readTime?
  return ((year, month, day), some time)

/-- An offset must be shorter than a day. -/
def checkOffset (offset? : Option Int) : Except ScalarError Unit :=
  match offset? with
  | some minutes => if 1440 ≤ minutes.natAbs then .error (.offsetOutOfRange minutes) else .ok ()
  | none => .ok ()

/-- The date, or the timestamp, that a text denotes. -/
def readTimestamp (cs : List Char) : Except ScalarError (Date ⊕ Timestamp) :=
  match readRaw? cs with
  | none => .error .notTimestamp
  | some ((year, month, day), none) => (Date.check year month day).map .inl
  | some ((year, month, day), some time) => do
    checkOffset time.offset?
    let date ← Date.check year month day
    let timestamp ← Timestamp.check date time.hour time.minute time.second time.microsecond
      time.offset?
    return .inr timestamp

end ResolverWiring.Yaml
