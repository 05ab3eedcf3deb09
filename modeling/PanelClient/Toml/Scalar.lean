import PanelClient.Toml.Text
import PanelClient.Number.Binary64
/-!
# Values of a TOML document

* `Toml.Value`: the values;
* `Toml.scalar?`: the value of an unquoted word, which is a truth value, a number or a date.
-/

namespace PanelClient.Toml

/-- A value of a document. Numbers with a point and dates are kept as written. -/
inductive Value where
  | string (s : String)
  | integer (i : Int)
  | float (text : String)
  | boolean (b : Bool)
  | date (text : String)
  | array (items : List Value)
  | table (entries : List (String × Value))
  deriving Repr, Inhabited

/-! ### Numbers -/

/-- The digits of a row in which single underscores may stand between digits. -/
def digits? (isDigit : Char → Bool) : List Char → Option (List Char)
  | [] => none
  | [c] => if isDigit c then some [c] else none
  | c :: '_' :: r => if isDigit c then (c :: ·) <$> digits? isDigit r else none
  | c :: r => if isDigit c then (c :: ·) <$> digits? isDigit r else none

/-- The number that a row of digits writes in a base. -/
def inBase (base : Nat) (ds : List Char) : Nat :=
  ds.foldl (fun n d => n * base + (Digits.value? d).getD 0) 0

/-- An integer, if it is in the range of 128 bits, signed or not. -/
def integer? (i : Int) : Option Value :=
  if -(Nat.pow 2 127 : Int) ≤ i ∧ i < (Nat.pow 2 128 : Int) then some (.integer i) else none

/-- An integer written in base 16, 8 or 2. -/
def radix? : List Char → Option Value
  | 'x' :: r => do integer? (inBase 16 (← digits? (fun c => (Digits.value? c).isSome) r))
  | 'o' :: r => do integer? (inBase 8 (← digits? (fun c => '0' ≤ c && c ≤ '7') r))
  | 'b' :: r => do integer? (inBase 2 (← digits? (fun c => c == '0' || c == '1') r))
  | _ => none

/-- The sign at the front of a word, and the rest. -/
def splitSign : List Char → Int × List Char
  | '+' :: r => (1, r)
  | '-' :: r => (-1, r)
  | r => (1, r)

/-- The whole part of a number: a lone zero, or a row of digits that starts with another one. -/
def whole? (cs : List Char) : Option (List Char) := do
  let ds ← digits? Char.isDigit cs
  if ds.head? = some '0' ∧ 1 < ds.length then none else return ds

/-- The number `n * 10 ^ e` is in the range of binary64. -/
def inRange (n : Nat) (e : Int) : Bool :=
  let size : Int := (Nat.toDigits 10 n).length + e
  if n = 0 ∨ size < -400 then true
  else if 400 < size then false
  else
    let num := n * Nat.pow 10 e.toNat * Binary64.unitsPerOne
    (Binary64.round false num (Nat.pow 10 (-e).toNat)).isSome

/-- A number without its sign: an integer, or one with a fraction or an exponent. -/
def number? (sign : Int) (word written : List Char) : Option Value := do
  let isPart (c : Char) : Bool := c.isDigit || c == '_'
  let ds ← whole? (word.takeWhile isPart)
  let r := word.dropWhile isPart
  if r.isEmpty then integer? (sign * inBase 10 ds)
  else
    let (fraction, r) ←
      match r with
      | '.' :: r => do pure (← digits? Char.isDigit (r.takeWhile isPart), r.dropWhile isPart)
      | r => pure ([], r)
    let exponent ←
      match r with
      | [] => pure 0
      | e :: r =>
        if e == 'e' || e == 'E' then do
          let (s, r) := splitSign r
          pure (s * inBase 10 (← digits? Char.isDigit r))
        else none
    if inRange (inBase 10 (ds ++ fraction)) (exponent - fraction.length) then
      return .float (String.ofList written)
    else none

/-! ### Dates -/

/-- The number that exactly `n` digits at the front of a text write. -/
def fixedDigits (n : Nat) (text : List Char) : Option (Nat × List Char) :=
  let ds := text.take n
  if ds.length = n ∧ ds.all Char.isDigit then some (inBase 10 ds, text.drop n) else none

/-- The character `c` at the front of a text. -/
def mark (c : Char) : List Char → Option (List Char)
  | a :: r => if a = c then some r else none
  | [] => none

/-- The number of days of a month. -/
def daysIn (year month : Nat) : Nat :=
  if month = 2 then
    if year % 4 = 0 ∧ (year % 100 ≠ 0 ∨ year % 400 = 0) then 29 else 28
  else if month ∈ [4, 6, 9, 11] then 30
  else 31

/-- A calendar day at the front of a text. -/
def day (text : List Char) : Option (List Char) := do
  let (year, r) ← fixedDigits 4 text
  let (month, r) ← fixedDigits 2 (← mark '-' r)
  let (day, r) ← fixedDigits 2 (← mark '-' r)
  if 1 ≤ month ∧ month ≤ 12 ∧ 1 ≤ day ∧ day ≤ daysIn year month then some r else none

/-- A time of day at the front of a text; the seconds may be left out. -/
def time (text : List Char) : Option (List Char) := do
  let (hour, r) ← fixedDigits 2 text
  let (minute, r) ← fixedDigits 2 (← mark ':' r)
  if hour ≤ 23 ∧ minute ≤ 59 then
    match r with
    | ':' :: r => do
      let (second, r) ← fixedDigits 2 r
      if second ≤ 60 then
        match r with
        | '.' :: r => if (r.takeWhile Char.isDigit).isEmpty then none else some (r.dropWhile Char.isDigit)
        | r => some r
      else none
    | r => some r
  else none

/-- An offset from universal time that fills the text, or nothing at all. -/
def isOffset : List Char → Bool
  | [] => true
  | ['Z'] => true
  | ['z'] => true
  | c :: r =>
    (c == '+' || c == '-') && ((do
      let (hour, r) ← fixedDigits 2 r
      let (minute, r) ← fixedDigits 2 (← mark ':' r)
      pure (hour ≤ 23 && minute ≤ 59 && r.isEmpty)) == some true)

/-- A word is a day, a time, or a day with a time and perhaps an offset. -/
def isDate (word : List Char) : Bool :=
  match day word with
  | some [] => true
  | some (c :: r) =>
    (c == 'T' || c == 't' || c == ' ') && (match time r with
      | some r => isOffset r
      | none => false)
  | none => time word == some []

/-! ### Words -/

/-- The value of an unquoted word. -/
def scalar? (word : List Char) : Option Value :=
  let (sign, r) := splitSign word
  if word = ['t', 'r', 'u', 'e'] then some (.boolean true)
  else if word = ['f', 'a', 'l', 's', 'e'] then some (.boolean false)
  else if r = ['i', 'n', 'f'] ∨ r = ['n', 'a', 'n'] then some (.float (String.ofList word))
  else if isDate word then some (.date (String.ofList word))
  else
    match word with
    | '0' :: c :: r => if c.isAlpha && c != 'e' && c != 'E' then radix? (c :: r) else number? 1 word word
    | _ => number? sign r word

/-- The characters of an unquoted word. -/
def isWord (c : Char) : Bool := c.isAlphanum || c == '_' || c == '+' || c == '-' || c == '.' || c == ':'

/-- The value of an unquoted word at the front of a text. A single blank may stand between a day
and a time. -/
def scalar (text : List Char) : Option (Value × List Char) :=
  let word := text.takeWhile isWord
  let rest := text.dropWhile isWord
  match rest with
  | ' ' :: c :: r =>
    if c.isDigit && day word == some [] then do
      let word := word ++ ' ' :: (c :: r).takeWhile isWord
      return (← scalar? word, (c :: r).dropWhile isWord)
    else do return (← scalar? word, rest)
  | _ => do return (← scalar? word, rest)

end PanelClient.Toml
