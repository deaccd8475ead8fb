import QueryBuilder.Text.Blank

/-!
Days and readings of the clock in the Gregorian calendar, counted from the start of the year 2000.

A date is a number of days from that origin, before or after it; the civil date is computed in eras
of four hundred years, which all have 146097 days. A timestamp adds the second of the day and the
nanoseconds into that second. A leap second is the second before it gone on with, so that its
nanoseconds reach from one thousand million to two thousand million.
-/

set_option autoImplicit false

namespace QueryBuilder

-- A calendar day, as days after 2000-01-01.
structure Date where
  day : Int
deriving DecidableEq, Repr

structure Timestamp where
  date : Date
  second : Nat
  nano : Nat
deriving DecidableEq, Repr

namespace Calendar

-- Days from 0000-03-01 to 2000-01-01.
def originShift : Int := 730425

def dayOfCivil (year : Int) (month day : Nat) : Int :=
  let y := if month ≤ 2 then year - 1 else year
  let shifted := (month + 9) % 12
  let era := y.fdiv 400
  let yearOfEra := y.fmod 400
  let dayOfYear : Int := (153 * shifted + 2) / 5 + day - 1
  era * 146097 + yearOfEra * 365 + yearOfEra / 4 - yearOfEra / 100 + dayOfYear - originShift

def civilOfDay (day : Int) : Int × Nat × Nat :=
  let z := day + originShift
  let era := z.fdiv 146097
  let dayOfEra := (z.fmod 146097).toNat
  let yearOfEra := (dayOfEra - dayOfEra / 1460 + dayOfEra / 36524 - dayOfEra / 146096) / 365
  let dayOfYear := dayOfEra - (365 * yearOfEra + yearOfEra / 4 - yearOfEra / 100)
  let shifted := (5 * dayOfYear + 2) / 153
  let month := if shifted < 10 then shifted + 3 else shifted - 9
  let year : Int := era * 400 + yearOfEra
  (if month ≤ 2 then year + 1 else year, month, dayOfYear - (153 * shifted + 2) / 5 + 1)

-- A number in decimal with zeros in front up to `width` digits.
def padded (width n : Nat) : String :=
  let digits := toString n
  String.ofList (List.replicate (width - digits.length) '0') ++ digits

-- Years from 0 to 9999 have four digits; all others carry their sign.
def writeYear (year : Int) : String :=
  if 0 ≤ year ∧ year ≤ 9999 then padded 4 year.toNat
  else (if year < 0 then "-" else "+") ++ padded 4 year.natAbs

-- The fraction of a second in as few groups of three digits as are exact.
def writeFraction (nanos : Nat) : String :=
  if nanos = 0 then ""
  else if nanos % 1000000 = 0 then "." ++ padded 3 (nanos / 1000000)
  else if nanos % 1000 = 0 then "." ++ padded 6 (nanos / 1000)
  else "." ++ padded 9 nanos

-- Reads a number of at most `width` digits, blanks before it passed over.
def readNumber? (width : Nat) (text : List Char) : Option (Nat × List Char) :=
  let text := Text.trimStart text
  let digits := (text.takeWhile Char.isDigit).take width
  if digits.isEmpty then none
  else some (digits.foldl (fun n c => 10 * n + (c.toNat - 48)) 0, text.drop digits.length)

-- Passes over a mark, and over blanks before it.
def readMark? (mark : Char) (text : List Char) : Option (List Char) :=
  match Text.trimStart text with
  | c :: rest => if c = mark then some rest else none
  | [] => none

-- Reads a year: up to four digits, or a sign and any number of them.
def readYear? (text : List Char) : Option (Int × List Char) :=
  match Text.trimStart text with
  | '-' :: rest => (readNumber? rest.length rest).map fun (n, rest) => (-(n : Int), rest)
  | '+' :: rest => (readNumber? rest.length rest).map fun (n, rest) => ((n : Int), rest)
  | text => (readNumber? 4 text).map fun (n, rest) => ((n : Int), rest)

-- Reads year, month and day with hyphens between them, if there is such a day.
def readDate? (text : List Char) : Option (Date × List Char) := do
  let (year, text) ← readYear? text
  let (month, text) ← readNumber? 2 (← readMark? '-' text)
  let (day, text) ← readNumber? 2 (← readMark? '-' text)
  let number := dayOfCivil year month day
  if civilOfDay number = (year, month, day) then some (⟨number⟩, text) else none

-- Reads the nanoseconds behind a point; digits behind the ninth do not count.
def readFraction? : List Char → Option (Nat × List Char)
  | '.' :: text => do
      let (n, rest) ← readNumber? 9 text
      let places := (text.takeWhile Char.isDigit).take 9
      return (n * Nat.pow 10 (9 - places.length), rest.dropWhile Char.isDigit)
  | text => some (0, text)

-- Reads hour, minute and second with colons between them, as the second of the day and the
-- nanoseconds into it. Second sixty is the leap second behind second fifty-nine.
def readClock? (text : List Char) : Option (Nat × Nat × List Char) := do
  let (hour, text) ← readNumber? 2 text
  let (minute, text) ← readNumber? 2 (← readMark? ':' text)
  let (second, text) ← readNumber? 2 (← readMark? ':' text)
  let (nano, text) ← readFraction? text
  if hour < 24 ∧ minute < 60 ∧ second ≤ 60 then
    some ((hour * 60 + minute) * 60 + min second 59, nano + 1000000000 * (second / 60), text)
  else none

def dropSeparator (text : List Char) : List Char :=
  match Text.trimStart text with
  | 'T' :: rest | 't' :: rest => rest
  | rest => rest

def readTimestamp? (text : List Char) : Option (Timestamp × List Char) := do
  let (date, text) ← readDate? text
  let (second, nano, text) ← readClock? (dropSeparator text)
  return (⟨date, second, nano⟩, text)

def readZone? (text : List Char) : Option (Int × List Char) :=
  let ahead (text : List Char) : Option (Nat × List Char) := do
    let (hours, text) ← readNumber? 2 text
    let (minutes, text) ← readNumber? 2 ((readMark? ':' text).getD text)
    return ((hours * 60 + minutes) * 60, text)
  match Text.trimStart text with
  | 'Z' :: rest | 'z' :: rest => some (0, rest)
  | '+' :: rest => (ahead rest).map fun (n, rest) => ((n : Int), rest)
  | '-' :: rest => (ahead rest).map fun (n, rest) => (-(n : Int), rest)
  | _ => none

-- What was read, if nothing but blanks is left.
def whole? {α : Type} (read : Option (α × List Char)) : Option α :=
  match read with
  | some (a, rest) => if (Text.trimStart rest).isEmpty then some a else none
  | none => none

end Calendar

namespace Date

def write (d : Date) : String :=
  let (year, month, day) := Calendar.civilOfDay d.day
  Calendar.writeYear year ++ "-" ++ Calendar.padded 2 month ++ "-" ++ Calendar.padded 2 day

def parse? (text : String) : Option Date :=
  Calendar.whole? (Calendar.readDate? text.toList)

end Date

namespace Timestamp

def secondsPerDay : Nat := 86400

-- Seconds from the origin to the second that the timestamp lies in.
def seconds (t : Timestamp) : Int :=
  t.date.day * secondsPerDay + t.second

def nanos (t : Timestamp) : Int :=
  t.seconds * 1000000000 + t.nano

-- The same reading with the clock put forward, or back.
def shift (t : Timestamp) (seconds : Int) : Timestamp :=
  let total := t.seconds + seconds
  ⟨⟨total.fdiv secondsPerDay⟩, (total.fmod secondsPerDay).toNat, t.nano⟩

def write (t : Timestamp) : String :=
  t.date.write ++ "T" ++ Calendar.padded 2 (t.second / 3600) ++ ":" ++ Calendar.padded 2 (t.second / 60 % 60)
    ++ ":" ++ Calendar.padded 2 (t.second % 60 + t.nano / 1000000000) ++ Calendar.writeFraction (t.nano % 1000000000)

-- Reads `YYYY-MM-DDTHH:MM:SS`, with a fraction or without.
def parse? (text : String) : Option Timestamp :=
  Calendar.whole? (Calendar.readTimestamp? text.toList)

-- Reads a timestamp with its zone, as the reading of the common clock.
def parseZoned? (text : String) : Option Timestamp := do
  let (t, rest) ← Calendar.readTimestamp? text.toList
  let ahead ← Calendar.whole? (Calendar.readZone? rest)
  return t.shift (-ahead)

-- Whole microseconds from the origin; what is left over is dropped on the side of the origin.
def micros (t : Timestamp) : Int :=
  t.nanos.tdiv 1000

end Timestamp

end QueryBuilder
