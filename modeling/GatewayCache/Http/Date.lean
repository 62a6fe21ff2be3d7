/-
  GatewayCache.Http.Date

  Dates of header fields, as seconds since the epoch.

  Three spellings are read: the fixed one, the older one with the full name of
  the day and a two-digit year, and the one with the day behind the month.
  Each has an exact width. The date has to exist, its year has to lie between
  1970 and 9999, and its day of the week has to be the right one.
-/

namespace GatewayCache.Http.Date

/-- A point in time as a date spells it. Days of the week count from Monday,
    which is zero; months count from January, which is one. -/
structure Reading where
  weekday : Nat
  year : Nat
  month : Nat
  day : Nat
  hour : Nat
  minute : Nat
  second : Nat
deriving DecidableEq, Repr

/-! ## The calendar -/

def isLeap (year : Nat) : Bool := (year % 4 == 0 && year % 100 != 0) || year % 400 == 0

/-- How many days a month has. -/
def daysInMonth (year month : Nat) : Nat :=
  if month = 2 then (if isLeap year then 29 else 28)
  else if month = 4 ∨ month = 6 ∨ month = 9 ∨ month = 11 then 30
  else 31

/-- Days from the first of January of year one up to the first of January. -/
def daysBeforeYear (year : Nat) : Nat :=
  -- Leap years before this one.
  let y := year - 1
  365 * y + y / 4 - y / 100 + y / 400

/-- Days from the first of January up to the first of a month. -/
def daysBeforeMonth (year month : Nat) : Nat :=
  (List.range (month - 1)).foldl (fun sum i => sum + daysInMonth year (i + 1)) 0

/-- Days from the epoch up to a date. -/
def Reading.days (r : Reading) : Nat :=
  daysBeforeYear r.year + daysBeforeMonth r.year r.month + (r.day - 1) - daysBeforeYear 1970

/-- The day of the week of a day counted from the epoch, which was a
    Thursday. -/
def weekdayOf (days : Nat) : Nat := (days + 3) % 7

/-- Whether the date exists and names its own day of the week. -/
def Reading.isValid (r : Reading) : Bool :=
  1970 ≤ r.year && r.year ≤ 9999 && 1 ≤ r.month && r.month ≤ 12
    && 1 ≤ r.day && r.day ≤ daysInMonth r.year r.month
    && r.hour < 24 && r.minute < 60 && r.second < 60 && r.weekday == weekdayOf r.days

/-- Seconds from the epoch. -/
def Reading.seconds (r : Reading) : Nat :=
  ((r.days * 24 + r.hour) * 60 + r.minute) * 60 + r.second

/-! ## Spelling -/

def shortDays : List String := ["Mon", "Tue", "Wed", "Thu", "Fri", "Sat", "Sun"]

def longDays : List String :=
  ["Monday", "Tuesday", "Wednesday", "Thursday", "Friday", "Saturday", "Sunday"]

def shortMonths : List String :=
  ["Jan", "Feb", "Mar", "Apr", "May", "Jun", "Jul", "Aug", "Sep", "Oct", "Nov", "Dec"]

/-- The position of a name in a list of names. -/
def position? (names : List String) (cs : List Char) : Option Nat :=
  names.findIdx? fun n => n.toList == cs

/-- The number that digits alone spell. -/
def number? (cs : List Char) : Option Nat :=
  if !cs.isEmpty && cs.all Char.isDigit then some (Nat.ofDigitChars 10 cs 0) else none

/-- The hour, the minute and the second in `08:49:37`. -/
def clock? : List Char → Option (Nat × Nat × Nat)
  | [h, i, ':', m, n, ':', s, t] => do
      some (← number? [h, i], ← number? [m, n], ← number? [s, t])
  | _ => none

/-- `Sun, 06 Nov 1994 08:49:37 GMT` -/
def fixed? (cs : List Char) : Option Reading := do
  if cs.length != 29 then none
  let weekday ← position? shortDays (cs.take 3)
  if (cs.drop 3).take 2 != [',', ' '] then none
  let day ← number? ((cs.drop 5).take 2)
  let month ← position? shortMonths ((cs.drop 8).take 3)
  let year ← number? ((cs.drop 12).take 4)
  let (hour, minute, second) ← clock? ((cs.drop 17).take 8)
  if cs[7]? != some ' ' || cs[11]? != some ' ' || cs[16]? != some ' ' then none
  if cs.drop 25 != " GMT".toList then none
  some ⟨weekday, year, month + 1, day, hour, minute, second⟩

/-- `Sunday, 06-Nov-94 08:49:37 GMT`; a two-digit year below 70 lies in the
    twenty-first century. What separates the year from the hour is free. -/
def older? (cs : List Char) : Option Reading := do
  let weekday ← position? longDays (cs.takeWhile (· != ','))
  let rest := cs.dropWhile (· != ',')
  if rest.length != 24 || rest.take 2 != [',', ' '] then none
  let day ← number? ((rest.drop 2).take 2)
  let month ← position? shortMonths ((rest.drop 5).take 3)
  let short ← number? ((rest.drop 9).take 2)
  let (hour, minute, second) ← clock? ((rest.drop 12).take 8)
  if rest[4]? != some '-' || rest[8]? != some '-' then none
  if rest.drop 20 != " GMT".toList then none
  -- Two digits name a year between 1970 and 2069.
  let year := if short < 70 then 2000 + short else 1900 + short
  some ⟨weekday, year, month + 1, day, hour, minute, second⟩

/-- `Sun Nov  6 08:49:37 1994`; the day is filled up with a blank or a zero. -/
def dayLast? (cs : List Char) : Option Reading := do
  if cs.length != 24 then none
  let weekday ← position? shortDays (cs.take 3)
  let month ← position? shortMonths ((cs.drop 4).take 3)
  let day ← match (cs.drop 8).take 2 with
    | [' ', d] => number? [d]
    | ds => number? ds
  let (hour, minute, second) ← clock? ((cs.drop 11).take 8)
  let year ← number? (cs.drop 20)
  if cs[3]? != some ' ' || cs[7]? != some ' ' || cs[10]? != some ' ' || cs[19]? != some ' ' then
    none
  some ⟨weekday, year, month + 1, day, hour, minute, second⟩

/-- The seconds since the epoch that a date spells. -/
def read (cs : List Char) : Option Nat := do
  let r ← fixed? cs <|> older? cs <|> dayLast? cs
  if r.isValid then some r.seconds else none

example : read "Sun, 06 Nov 1994 08:49:37 GMT".toList = some 784111777 := by decide +kernel
example : read "Sunday, 06-Nov-94 08:49:37 GMT".toList = some 784111777 := by decide +kernel
example : read "Sun Nov  6 08:49:37 1994".toList = some 784111777 := by decide +kernel
example : read "Mon, 06 Nov 1994 08:49:37 GMT".toList = none := by decide +kernel

end GatewayCache.Http.Date
