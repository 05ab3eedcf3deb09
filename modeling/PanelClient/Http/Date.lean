import PanelClient.Text.Digits
/-!
# Dates of cookies

A date is read from its words, in any order: a time with colons, a day of one or two digits, a month
by its first three letters and a year of two to four digits. Other words do not count.

* `Date.parse`: the seconds from the start of 1970 to a date.
-/

namespace PanelClient.Date

/-- The words of a text: digits, letters and colons, and all that is not ASCII. -/
def isWordChar (c : Char) : Bool := c.isAlphanum || c == ':' || '\x7f' ≤ c || c < '\t'

/-- The words of a text. -/
def words : List Char → List (List Char)
  | [] => []
  | c :: r =>
    match words r with
    | [] => if isWordChar c then [[c]] else [[]]
    | w :: ws => if isWordChar c then (c :: w) :: ws else [] :: w :: ws

/-- The number at the front of a word that starts with so many digits. -/
def number? (least most : Nat) (w : List Char) : Option Nat :=
  let ds := w.takeWhile Char.isDigit
  if least ≤ ds.length && ds.length ≤ most then Digits.read? 10 ds else none

/-- Hours, minutes and seconds. -/
def time? (w : List Char) : Option (Nat × Nat × Nat) := do
  let rest (w : List Char) : List Char := (w.dropWhile (· != ':')).drop 1
  let colon (w : List Char) : Bool := (w.dropWhile Char.isDigit).head? == some ':'
  if colon w && colon (rest w) then
    return (← number? 1 2 w, ← number? 1 2 (rest w), ← number? 1 2 (rest (rest w)))
  else none

/-- The months by their first letters. -/
def months : List String :=
  ["jan", "feb", "mar", "apr", "may", "jun", "jul", "aug", "sep", "oct", "nov", "dec"]

/-- The month of a word, counted from one. -/
def month? (w : List Char) : Option Nat :=
  (· + 1) <$> months.idxOf? (String.ofList ((w.take 3).map Char.toLower))

/-- What has been read of a date. -/
structure Parts where
  time : Option (Nat × Nat × Nat) := none
  day : Option Nat := none
  month : Option Nat := none
  year : Option Nat := none

/-- Reads one more word: it is the first part that it can be and that is still missing. -/
def Parts.add (p : Parts) (w : List Char) : Parts :=
  match p.time.isNone, time? w with
  | true, some t => { p with time := some t }
  | _, _ =>
    match p.day.isNone, number? 1 2 w with
    | true, some d => { p with day := some d }
    | _, _ =>
      match p.month.isNone, month? w with
      | true, some m => { p with month := some m }
      | _, _ =>
        match p.year.isNone, number? 2 4 w with
        | true, some y => { p with year := some y }
        | _, _ => p

/-- A year of two digits lies between 1970 and 2069. -/
def fullYear (y : Nat) : Nat := if y < 70 then y + 2000 else if y < 100 then y + 1900 else y

/-- The days from the start of 1970 to a day, by the Gregorian calendar. Years are counted from
March, so that the leap day ends a year. -/
def dayNumber (year month day : Nat) : Int :=
  let y : Int := if month ≤ 2 then (year : Int) - 1 else year
  let m : Int := ((month : Int) + 9) % 12
  365 * y + y / 4 - y / 100 + y / 400 + (153 * m + 2) / 5 + day - 1 - 719468

/-- The seconds from the start of 1970 to a date. -/
def parse (text : String) : Option Int := do
  let p := (words text.toList).foldl Parts.add {}
  let (hour, minute, second) ← p.time
  let day ← p.day
  let month ← p.month
  let year := fullYear (← p.year)
  if 1 ≤ day && day ≤ 31 && 1601 ≤ year && hour ≤ 23 && minute ≤ 59 && second ≤ 59 then
    return dayNumber year month day * 86400 + (hour * 3600 + minute * 60 + second : Nat)
  else none

end PanelClient.Date
