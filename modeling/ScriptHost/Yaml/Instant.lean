import ScriptHost.Number.Decimal
import ScriptHost.Yaml.Lexeme.Basic

/-!
# Instants

Points of time, counted in milliseconds from the start of 1970 in universal time.

* `Instant.parse?` reads a date, or a date with a time of day and perhaps an offset from universal
  time.  Days and months beyond the calendar run over into the next month or year.
* `Instant.isoText` writes an instant with the date first; `Instant.dateText` leaves off what is
  zero.
* `Instant.longText` writes an instant in words.
-/

namespace ScriptHost
namespace Yaml

/-- A point of time. -/
structure Instant where
  milliseconds : Int
  deriving DecidableEq, Repr

namespace Instant

/-- The number of days from the start of 1970 to the first day of a month, where months are counted
from zero and may run over the year. -/
def daysToMonth (year month : Int) : Int :=
  let y := year + Int.fdiv month 12
  let m := Int.fmod month 12
  -- Years are taken to start in March, so that a leap day comes last.
  let shifted := if m ≤ 1 then y - 1 else y
  let era := Int.fdiv shifted 400
  let yearOfEra := shifted - 400 * era
  let dayOfYear := Int.fdiv (153 * (if m ≤ 1 then m + 10 else m - 2) + 2) 5
  let dayOfEra := 365 * yearOfEra + Int.fdiv yearOfEra 4 - Int.fdiv yearOfEra 100 + dayOfYear
  146097 * era + dayOfEra - 719468

/-- Year, month from one, and day of the month of a day counted from the start of 1970. -/
def civil (days : Int) : Int × Int × Int :=
  let z := days + 719468
  let era := Int.fdiv z 146097
  let dayOfEra := z - 146097 * era
  let yearOfEra := Int.fdiv
    (dayOfEra - Int.fdiv dayOfEra 1460 + Int.fdiv dayOfEra 36524 - Int.fdiv dayOfEra 146096) 365
  let dayOfYear :=
    dayOfEra - (365 * yearOfEra + Int.fdiv yearOfEra 4 - Int.fdiv yearOfEra 100)
  let shifted := Int.fdiv (5 * dayOfYear + 2) 153
  let day := dayOfYear - Int.fdiv (153 * shifted + 2) 5 + 1
  let month := if shifted < 10 then shifted + 3 else shifted - 9
  (yearOfEra + 400 * era + (if month ≤ 2 then 1 else 0), month, day)

/-- The instant of a date and a time of day; years below one hundred are of the last century. -/
def ofParts (year month day hour minute second milli : Nat) : Instant :=
  let fullYear := if year < 100 then 1900 + year else year
  let days := daysToMonth fullYear ((month : Int) - 1) + (day - 1 : Int)
  ⟨(((days * 24 + hour) * 60 + minute) * 60 + second) * 1000 + milli⟩

/-- Takes between one and `most` digits. -/
def takeDigits? (most : Nat) (text : List Char) : Option (Nat × List Char) :=
  let digits := (text.take most).takeWhile Char.isDigit
  if digits.isEmpty then none else some (Decimal.value digits, text.drop digits.length)

/-- Takes the given character. -/
def takeChar? (c : Char) : List Char → Option (List Char)
  | d :: rest => if c = d then some rest else none
  | [] => none

/-- The offset from universal time in minutes that these characters spell. -/
def offset? (text : List Char) : Option Int :=
  match text with
  | ['Z'] => some 0
  | sign :: rest =>
      if sign = '+' || sign = '-' then
        let digits := rest.takeWhile Char.isDigit
        let hoursFit :=
          digits.length = 1 || (digits.length = 2 && digits.head?.any fun c => '0' ≤ c && c ≤ '2')
        let minutes? : Option (Option Nat) :=
          match rest.drop digits.length with
          | [] => some none
          | [':', a, b] =>
              if a.isDigit && b.isDigit then some (some (Decimal.value [a, b])) else none
          | _ => none
        match minutes? with
        | some minutes =>
            if hoursFit then
              let total := match minutes with
                | some m => 60 * Decimal.value digits + m
                | none => Decimal.value digits
              -- A small offset counts hours, whether or not minutes are written.
              let total := if total < 30 then 60 * total else total
              some (if sign = '-' then -(total : Int) else total)
            else none
        | none => none
      else none
  | [] => none

/-- The instant that a text spells. -/
def parse? (text : List Char) : Option Instant := do
  let year := text.take 4
  if !(year.length = 4 && year.all Char.isDigit) then none
  let (month, rest) ← takeDigits? 2 (← takeChar? '-' (text.drop 4))
  let (day, rest) ← takeDigits? 2 (← takeChar? '-' rest)
  if rest.isEmpty then some (ofParts (Decimal.value year) month day 0 0 0 0)
  else
    let timed ←
      match rest with
      | 't' :: more => some more
      | 'T' :: more => some more
      | c :: more => if isBlank c then some (more.dropWhile isBlank) else none
      | [] => none
    let (hour, rest) ← takeDigits? 2 timed
    let (minute, rest) ← takeDigits? 2 (← takeChar? ':' rest)
    let (second, rest) ← takeDigits? 2 (← takeChar? ':' rest)
    let (milli, rest) ←
      match rest with
      | '.' :: more =>
          let digits := more.takeWhile Char.isDigit
          if digits.isEmpty then none
          else some (Decimal.value ((digits ++ ['0', '0']).take 3), more.drop digits.length)
      | _ => some (0, rest)
    let minutes ← if rest.isEmpty then some 0 else offset? (rest.dropWhile isBlank)
    let local' := ofParts (Decimal.value year) month day hour minute second milli
    some ⟨local'.milliseconds - 60000 * minutes⟩

/-- A number with at least the given number of digits. -/
def padded (width : Nat) (n : Int) : List Char :=
  let digits := Decimal.digits n.natAbs
  List.replicate (width - digits.length) '0' ++ digits

/-- A year, with a sign and more digits if four do not hold it. -/
def yearText (year : Int) : List Char :=
  if 0 ≤ year && year ≤ 9999 then padded 4 year
  else (if year < 0 then '-' else '+') :: padded 6 year

/-- The day and the milliseconds within it. -/
def split (instant : Instant) : Int × Int :=
  (Int.fdiv instant.milliseconds 86400000, Int.fmod instant.milliseconds 86400000)

/-- Hours, minutes and seconds with colons between them. -/
def clockText (milli : Int) : List Char :=
  padded 2 (Int.fdiv milli 3600000) ++ ':' :: (padded 2 (Int.fmod (Int.fdiv milli 60000) 60) ++
    ':' :: padded 2 (Int.fmod (Int.fdiv milli 1000) 60))

/-- The instant with the date first and the time of day to the millisecond. -/
def isoText (instant : Instant) : List Char :=
  let (days, milli) := instant.split
  let (year, month, day) := civil days
  yearText year ++ '-' :: (padded 2 month ++ '-' :: padded 2 day) ++ 'T' :: clockText milli ++
    '.' :: padded 3 (Int.fmod milli 1000) ++ ['Z']

/-- The instant without milliseconds if there are none, and without the time at midnight. -/
def dateText (instant : Instant) : List Char :=
  let text := instant.isoText
  let (_, milli) := instant.split
  if milli = 0 then text.take (text.length - 14)
  else if Int.fmod milli 1000 = 0 then text.take (text.length - 5)
  else text

/-- The names of the days of the week, from the day that starts 1970. -/
def dayNames : List String := ["Thu", "Fri", "Sat", "Sun", "Mon", "Tue", "Wed"]

/-- The names of the months. -/
def monthNames : List String :=
  ["Jan", "Feb", "Mar", "Apr", "May", "Jun", "Jul", "Aug", "Sep", "Oct", "Nov", "Dec"]

/-- The instant in words. -/
def longText (instant : Instant) : String :=
  let (days, milli) := instant.split
  let (year, month, day) := civil days
  let yearDigits := (if year < 0 then ['-'] else []) ++ padded (if year < 0 then 6 else 4) year
  dayNames.getD (Int.fmod days 7).toNat "" ++ " " ++ monthNames.getD (month - 1).toNat "" ++ " " ++
    String.ofList (padded 2 day) ++ " " ++ String.ofList yearDigits ++ " " ++
    String.ofList (clockText milli) ++ " GMT+0000 (Coordinated Universal Time)"

end Instant

end Yaml
end ScriptHost
