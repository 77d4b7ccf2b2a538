import Mailroom.Settings.Toml.Number
import Mailroom.Timestamp

/-!
Dates and times of day as TOML writes them.  A date is kept as its canonical text: a `T` before the
time, no more than nine digits of a second and none that are not needed, and a capital `Z`.
-/

namespace Mailroom.Toml

/-- Whether a text has the shape of a date: digits where `0` stands, the same marks elsewhere. -/
def hasShape (shape : List Char) (cs : List Char) : Bool :=
  shape.length == cs.length &&
    (shape.zip cs).all fun (s, c) => if s == '0' then c.isDigit else s == c

def twoDigits (place : Nat) (cs : List Char) : Nat := inBase 10 ((cs.drop place).take 2)

/-- Whether a text is a day of the calendar. -/
def isDay (cs : List Char) : Bool :=
  let year := Int.ofNat (inBase 10 (cs.take 4))
  let month := twoDigits 5 cs
  let day := twoDigits 8 cs
  hasShape "0000-00-00".toList cs && 1 ≤ month && month ≤ 12 && 1 ≤ day &&
    day ≤ Timestamp.daysInMonth year month

/-- How far the hours of a day and the distance from UTC go. -/
structure Reach where
  lastHour : Nat
  lastOffsetHour : Nat
  lastOffsetMinute : Nat
deriving DecidableEq, Repr

/-- How far they go where a document writes a date. -/
def Reach.written : Reach := ⟨23, 23, 59⟩

/-- How far they go where a text stands for a date. -/
def Reach.named : Reach := ⟨24, 24, 99⟩

/-- Whether a text is a time of day in whole seconds, a leap second included. -/
def isClock (r : Reach) (cs : List Char) : Bool :=
  hasShape "00:00:00".toList cs && twoDigits 0 cs ≤ r.lastHour && twoDigits 3 cs ≤ 59 &&
    twoDigits 6 cs ≤ 60

def withoutZeros (ds : List Char) : List Char := (ds.reverse.dropWhile fun c => c == '0').reverse

def clock? (r : Reach) (cs : List Char) : Option (List Char) :=
  if ¬ isClock r (cs.take 8) then none
  else match cs.drop 8 with
    | [] => some cs
    | '.' :: ds =>
        if ds.isEmpty ∨ ¬ ds.all Char.isDigit then none
        else
          let kept := withoutZeros (ds.take 9)
          some (cs.take 8 ++ if kept.isEmpty then [] else '.' :: kept)
    | _ => none

/-- The distance from UTC, at most a day; there need not be one. -/
def offset? (r : Reach) : List Char → Option (List Char)
  | [] => some []
  | ['Z'] | ['z'] => some ['Z']
  | sign :: cs =>
      let minutes := twoDigits 0 cs * 60 + twoDigits 3 cs
      if (sign = '+' ∨ sign = '-') ∧ hasShape "00:00".toList cs ∧
          twoDigits 0 cs ≤ r.lastOffsetHour ∧ twoDigits 3 cs ≤ r.lastOffsetMinute ∧
          minutes ≤ 1440 then
        some ((if minutes = 0 then '+' else sign) ::
          (Timestamp.padded 2 (minutes / 60) ++ ":" ++ Timestamp.padded 2 (minutes % 60)).toList)
      else none

/-- The canonical text of a date, a time of day, or both. -/
def dateText? (r : Reach) (cs : List Char) : Option String :=
  let text? : Option (List Char) :=
    if isDay (cs.take 10) then
      match cs.drop 10 with
      | [] => some cs
      | mark :: rest =>
          if mark = 'T' ∨ mark = 't' ∨ mark = ' ' then do
            let (time, zone) := rest.span fun c => c.isDigit || c == ':' || c == '.'
            return cs.take 10 ++ 'T' :: (← clock? r time) ++ (← offset? r zone)
          else none
    else clock? r cs
  text?.map String.ofList

def dateTime? (cs : List Char) : Option Toml := (dateText? .written cs).map date

end Mailroom.Toml
