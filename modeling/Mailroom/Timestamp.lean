import Mailroom.Text.Blank
import Mailroom.Text.Cut
import Mailroom.Text.Hex

/-!
Instants of the civil calendar in UTC, read from and written as RFC 3339 texts.  Days are counted
from 1970-01-01 in the proleptic Gregorian calendar.
-/

namespace Mailroom

/-- An instant: whole seconds since 1970 and nanoseconds; a leap second has a thousand million
nanoseconds or more. -/
structure Timestamp where
  seconds : Int
  nanos : Nat
deriving DecidableEq, Repr, Inhabited

namespace Timestamp

def le (a b : Timestamp) : Bool :=
  a.seconds < b.seconds || (a.seconds == b.seconds && a.nanos ≤ b.nanos)

def lt (a b : Timestamp) : Bool := !le b a

/-- The instant a number of nanoseconds after 1970. -/
def ofNanos (n : Nat) : Timestamp := ⟨Int.ofNat (n / 1000000000), n % 1000000000⟩

/-- Days from 1970-01-01 to a date; years begin in March here so that the leap day is the last. -/
def daysOfDate (year : Int) (month day : Nat) : Int :=
  let y := if month ≤ 2 then year - 1 else year
  let era := y.fdiv 400
  let yearOfEra := (y - era * 400).toNat
  let shifted := if month > 2 then month - 3 else month + 9
  let dayOfYear := (153 * shifted + 2) / 5 + day - 1
  let dayOfEra := yearOfEra * 365 + yearOfEra / 4 - yearOfEra / 100 + dayOfYear
  era * 146097 + Int.ofNat dayOfEra - 719468

/-- The date a number of days after 1970-01-01: year, month, day. -/
def dateOfDays (days : Int) : Int × Nat × Nat :=
  let z := days + 719468
  let era := z.fdiv 146097
  let dayOfEra := (z - era * 146097).toNat
  let yearOfEra :=
    (dayOfEra - dayOfEra / 1460 + dayOfEra / 36524 - dayOfEra / 146096) / 365
  let dayOfYear := dayOfEra - (365 * yearOfEra + yearOfEra / 4 - yearOfEra / 100)
  let shifted := (5 * dayOfYear + 2) / 153
  let day := dayOfYear - (153 * shifted + 2) / 5 + 1
  let month := if shifted < 10 then shifted + 3 else shifted - 9
  let year := Int.ofNat yearOfEra + era * 400
  (if month ≤ 2 then year + 1 else year, month, day)

def firstYear : Int := -262143

def lastYear : Int := 262142

/-- Whether a second lies within the years of the calendar. -/
def isInRange (seconds : Int) : Bool :=
  daysOfDate firstYear 1 1 * 86400 ≤ seconds && seconds < daysOfDate (lastYear + 1) 1 1 * 86400

def isLeap (year : Int) : Bool :=
  year % 4 == 0 && (year % 100 != 0 || year % 400 == 0)

def daysInMonth (year : Int) (month : Nat) : Nat :=
  match month with
  | 2 => if isLeap year then 29 else 28
  | 4 | 6 | 9 | 11 => 30
  | _ => 31

/-- `n` with at least `width` decimal digits. -/
def padded (width n : Nat) : String :=
  let ds := Nat.toDigits 10 n
  String.ofList (List.replicate (width - ds.length) '0' ++ ds)

/-- A year: four digits, and a sign when it needs more or is negative. -/
def yearText (year : Int) : String :=
  if 0 ≤ year ∧ year ≤ 9999 then padded 4 year.toNat
  else (if year < 0 then "-" else "+") ++ padded 4 year.natAbs

/-- Date and time to the second, without a zone. -/
def secondsText (t : Timestamp) : String :=
  let days := t.seconds.fdiv 86400
  let rest := (t.seconds - days * 86400).toNat
  let (year, month, day) := dateOfDays days
  let leap := if t.nanos ≥ 1000000000 then 1 else 0
  yearText year ++ "-" ++ padded 2 month ++ "-" ++ padded 2 day ++ "T" ++
    padded 2 (rest / 3600) ++ ":" ++ padded 2 (rest / 60 % 60) ++ ":" ++
    padded 2 (rest % 60 + leap)

/-- The fraction of a second with as many groups of three digits as it needs. -/
def fractionText (nanos : Nat) : String :=
  let n := nanos % 1000000000
  if n = 0 then ""
  else if n % 1000000 = 0 then "." ++ padded 3 (n / 1000000)
  else if n % 1000 = 0 then "." ++ padded 6 (n / 1000)
  else "." ++ padded 9 n

/-- An instant in UTC, with zero, three, six or nine digits after the seconds. -/
def display (t : Timestamp) : String := t.secondsText ++ fractionText t.nanos ++ "Z"

/-- The beginning of the year 2000, in seconds since 1970. -/
def newMillennium : Int := 946684800

/-- The instant a number of microseconds after the beginning of a second. -/
def ofMicros (seconds : Int) (micros : Nat) : Timestamp :=
  ⟨seconds + Int.ofNat (micros / 1000000), micros % 1000000 * 1000⟩

/-- An instant cut to whole microseconds; a leap second runs on into the next second. -/
def wholeMicros (t : Timestamp) : Timestamp := ofMicros t.seconds (t.nanos / 1000)

/-- An instant as a count of whole microseconds from the beginning of 2000, cut toward it. -/
def cutToMicros (t : Timestamp) : Timestamp :=
  if t.seconds < newMillennium then ofMicros t.seconds ((t.nanos + 999) / 1000) else t.wholeMicros

/-- The leading decimal digits, at most `limit` of them, and the rest. -/
def digitsUpTo (limit : Nat) (cs : List Char) : List Char × List Char :=
  let ds := (cs.take limit).takeWhile Char.isDigit
  (ds, cs.drop ds.length)

def decimal (ds : List Char) : Nat := ds.foldl (fun n c => n * 10 + (c.toNat - 48)) 0

/-- A number of one to `limit` digits after blanks. -/
def number? (limit : Nat) (cs : List Char) : Option (Nat × List Char) :=
  let (ds, rest) := digitsUpTo limit (Text.trimLeft cs)
  if ds.isEmpty then none else some (decimal ds, rest)

/-- A year after blanks: up to four digits, or a sign and any number of digits. -/
def year? (cs : List Char) : Option (Int × List Char) :=
  match Text.trimLeft cs with
  | '+' :: rest =>
      let (ds, rest) := digitsUpTo rest.length rest
      if ds.isEmpty then none else some (Int.ofNat (decimal ds), rest)
  | '-' :: rest =>
      let (ds, rest) := digitsUpTo rest.length rest
      if ds.isEmpty then none else some (-Int.ofNat (decimal ds), rest)
  | cs => do
      let (n, rest) ← number? 4 cs
      return (Int.ofNat n, rest)

def mark? (c : Char) (cs : List Char) : Option (List Char) :=
  match Text.trimLeft cs with
  | d :: rest => if d = c then some rest else none
  | [] => none

/-- The nanoseconds of a fraction of a second, if there is one; digits after the ninth are
ignored. -/
def fraction? (cs : List Char) : Option (Nat × List Char) :=
  match cs with
  | '.' :: rest =>
      let (ds, rest) := digitsUpTo 9 rest
      if ds.isEmpty then none
      else some (decimal ds * Nat.pow 10 (9 - ds.length), rest.dropWhile Char.isDigit)
  | cs => some (0, cs)

def twoDigits? : List Char → Option (Nat × List Char)
  | a :: b :: rest =>
      if a.isDigit ∧ b.isDigit then some (decimal [a, b], rest) else none
  | _ => none

/-- The offset of a zone from UTC in seconds: a letter for UTC, or signed hours and minutes. -/
def offset? (cs : List Char) : Option (Int × List Char) :=
  if (cs.take 3).map Char.toLower = ['u', 't', 'c'] then some (0, cs.drop 3)
  else
    match cs with
    | 'Z' :: rest => some (0, rest)
    | 'z' :: rest => some (0, rest)
    | sign :: rest => do
        let negative ←
          if sign = '+' then some false
          else if sign = '-' ∨ sign = '\u2212' then some true
          else none
        let (hours, rest) ← twoDigits? rest
        let rest := rest.dropWhile fun c => c == ':' || Text.isBlank c
        let (minutes, rest) ← twoDigits? rest
        if minutes > 59 then none
        else
          let size : Int := Int.ofNat (hours * 3600 + minutes * 60)
          if size ≥ 86400 then none
          else some (if negative then -size else size, rest)
    | [] => none

/-- Read an RFC 3339 text; blanks are allowed between its parts, and instead of the letter `T`. -/
def parse? (text : String) : Option Timestamp := do
  let (year, cs) ← year? text.toList
  let cs ← mark? '-' cs
  let (month, cs) ← number? 2 cs
  let cs ← mark? '-' cs
  let (day, cs) ← number? 2 cs
  let cs ← match cs with
    | 'T' :: rest => some rest
    | 't' :: rest => some rest
    | ' ' :: rest => some rest
    | _ => none
  let (hour, cs) ← number? 2 cs
  let cs ← mark? ':' cs
  let (minute, cs) ← number? 2 cs
  let cs ← mark? ':' cs
  let (second, cs) ← number? 2 cs
  let (nanos, cs) ← fraction? cs
  let (offset, cs) ← offset? (Text.trimLeft cs)
  if ¬ (Text.trimLeft cs).isEmpty then none
  else if month = 0 ∨ month > 12 ∨ day = 0 ∨ day > daysInMonth year month then none
  else if year < firstYear ∨ year > lastYear then none
  else if hour > 23 ∨ minute > 59 ∨ second > 60 then none
  else
    let leap := second = 60
    let wholeSecond := if leap then 59 else second
    let seconds := daysOfDate year month day * 86400 +
      Int.ofNat (hour * 3600 + minute * 60 + wholeSecond) - offset
    if isInRange seconds then some ⟨seconds, if leap then 1000000000 + nanos else nanos⟩ else none

end Timestamp

end Mailroom
