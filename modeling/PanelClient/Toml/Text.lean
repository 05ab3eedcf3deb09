import PanelClient.Text.Digits
/-!
# Texts and keys of a TOML document

A scanner takes what it wants off the front of a text and returns the rest; it returns nothing when
the text is not what it wants.

* `Toml.string`: the four kinds of quoted text;
* `Toml.keyPath`: a dotted key;
* `Toml.skipBlank`, `Toml.skipGap`: blanks, and blanks with newlines and comments.
-/

namespace PanelClient.Toml

/-! ### Blanks and comments -/

/-- The blanks within a line. -/
def isBlank (c : Char) : Bool := c == ' ' || c == '\t'

/-- Control characters, which no comment or text may hold. A tab is none of them. -/
def isControl (c : Char) : Bool := (c < ' ' && c != '\t') || c == '\x7f'

/-- The text without the blanks at its front. -/
def skipBlank (text : List Char) : List Char := text.dropWhile isBlank

/-- The text without the blanks, newlines and comments at its front. A lone carriage return, or a
control character in a comment, is refused. -/
def skipGap (comment : Bool) : List Char → Option (List Char)
  | [] => some []
  | '\n' :: r => skipGap false r
  | '\r' :: '\n' :: r => skipGap false r
  | c :: r =>
    if comment then if isControl c then none else skipGap true r
    else if isBlank c then skipGap false r
    else if c = '#' then skipGap true r
    else if c = '\r' then none
    else some (c :: r)

/-- The text where only blanks and a comment may follow on the line. -/
def lineEnd (text : List Char) : Option (List Char) :=
  match skipBlank text with
  | [] => some []
  | '\n' :: r => some ('\n' :: r)
  | '\r' :: r => some ('\r' :: r)
  | '#' :: r => some ('#' :: r)
  | _ => none

/-! ### Quoted texts -/

/-- The character of a code point, unless it is a surrogate or out of range. -/
def character? (n : Nat) : Option Char := if h : n.isValidChar then some (Char.ofNatAux n h) else none

/-- The character that a row of hexadecimal digits names. -/
def hexCharacter? (ds : List Char) : Option Char := do character? (← Digits.read? 16 ds)

/-- The character that a one-letter escape stands for. -/
def escaped? : Char → Option Char
  | 'b' => some '\x08'
  | 't' => some '\t'
  | 'n' => some '\n'
  | 'f' => some '\x0c'
  | 'r' => some '\r'
  | 'e' => some '\x1b'
  | '"' => some '"'
  | '\\' => some '\\'
  | _ => none

/-- A scanned character in front of a scanned text. -/
def cons (c : Option Char) (rest : Option (List Char × List Char)) : Option (List Char × List Char) := do
  let c ← c
  let (cs, r) ← rest
  return (c :: cs, r)

/-- A text in double quotes, after the opening one. -/
def basic : List Char → Option (List Char × List Char)
  | [] => none
  | '"' :: r => some ([], r)
  | '\\' :: 'x' :: a :: b :: r => cons (hexCharacter? [a, b]) (basic r)
  | '\\' :: 'u' :: a :: b :: c :: d :: r => cons (hexCharacter? [a, b, c, d]) (basic r)
  | '\\' :: 'U' :: a :: b :: c :: d :: e :: f :: g :: h :: r =>
    cons (hexCharacter? [a, b, c, d, e, f, g, h]) (basic r)
  | '\\' :: c :: r => cons (escaped? c) (basic r)
  | c :: r => if isControl c then none else cons (some c) (basic r)

/-- A text in single quotes, after the opening one. -/
def literal : List Char → Option (List Char × List Char)
  | [] => none
  | '\'' :: r => some ([], r)
  | c :: r => if isControl c then none else cons (some c) (literal r)

/-- The end of a text in triple quotes, after the three closing ones: up to two more quotes
belong to the text. -/
def extraQuotes (q : Char) : List Char → List Char × List Char
  | a :: b :: r => if a = q then if b = q then ([q, q], r) else ([q], b :: r) else ([], a :: b :: r)
  | [a] => if a = q then ([q], []) else ([], [a])
  | [] => ([], [])

/-- The text without the blanks and newlines at its front. -/
def skipLines : List Char → List Char
  | '\n' :: r => skipLines r
  | '\r' :: '\n' :: r => skipLines r
  | c :: r => if isBlank c then skipLines r else c :: r
  | [] => []

/-- The text after a backslash at the end of a line, without the blanks and newlines up to the next
character; nothing when more than blanks stand before the newline. -/
def afterJoin (text : List Char) : Option (List Char) :=
  match skipBlank text with
  | '\n' :: r => some (skipLines r)
  | '\r' :: '\n' :: r => some (skipLines r)
  | _ => none

/-- A text in triple double quotes, after the opening ones. The first argument bounds the steps
taken; the length of the text is enough. -/
def multiBasic : Nat → List Char → Option (List Char × List Char)
  | 0, _ => none
  | n + 1, text =>
    match text with
    | [] => none
    | '"' :: '"' :: '"' :: r => some (extraQuotes '"' r)
    | '\r' :: '\n' :: r => cons (some '\r') (cons (some '\n') (multiBasic n r))
    | '\\' :: 'x' :: a :: b :: r => cons (hexCharacter? [a, b]) (multiBasic n r)
    | '\\' :: 'u' :: a :: b :: c :: d :: r => cons (hexCharacter? [a, b, c, d]) (multiBasic n r)
    | '\\' :: 'U' :: a :: b :: c :: d :: e :: f :: g :: h :: r =>
      cons (hexCharacter? [a, b, c, d, e, f, g, h]) (multiBasic n r)
    | '\\' :: c :: r =>
      if isBlank c || c == '\n' || c == '\r' then do multiBasic n (← afterJoin (c :: r))
      else cons (escaped? c) (multiBasic n r)
    | c :: r => if isControl c && c != '\n' then none else cons (some c) (multiBasic n r)

/-- A text in triple single quotes, after the opening ones. -/
def multiLiteral : List Char → Option (List Char × List Char)
  | [] => none
  | '\'' :: '\'' :: '\'' :: r => some (extraQuotes '\'' r)
  | '\r' :: '\n' :: r => cons (some '\r') (cons (some '\n') (multiLiteral r))
  | c :: r => if isControl c && c != '\n' then none else cons (some c) (multiLiteral r)

/-- The text without a newline at its front. -/
def skipNewline : List Char → List Char
  | '\n' :: r => r
  | '\r' :: '\n' :: r => r
  | r => r

/-- A quoted text as a string. -/
def asString (s : Option (List Char × List Char)) : Option (String × List Char) := s.map fun (cs, r) => (String.ofList cs, r)

/-- A quoted text of any kind. -/
def string : List Char → Option (String × List Char)
  | '"' :: '"' :: '"' :: r => asString (multiBasic r.length (skipNewline r))
  | '\'' :: '\'' :: '\'' :: r => asString (multiLiteral (skipNewline r))
  | '"' :: r => asString (basic r)
  | '\'' :: r => asString (literal r)
  | _ => none

/-! ### Keys -/

/-- The characters of a key without quotes. -/
def isBareKey (c : Char) : Bool := c.isAlphanum || c == '_' || c == '-'

/-- One part of a key. -/
def keyPart : List Char → Option (String × List Char)
  | '"' :: r => asString (basic r)
  | '\'' :: r => asString (literal r)
  | r =>
    match r.takeWhile isBareKey with
    | [] => none
    | k => some (String.ofList k, r.dropWhile isBareKey)

/-- The parts of a dotted key, at most `n` of them, with blanks around the dots and after the
last part. -/
def keyParts : Nat → List Char → Option (List String × List Char)
  | 0, _ => none
  | n + 1, text => do
    let (k, r) ← keyPart (skipBlank text)
    match skipBlank r with
    | '.' :: r => do
      let (ks, r) ← keyParts n r
      return (k :: ks, r)
    | r => return ([k], r)

/-- A dotted key: the parts before the last one, and the last one. -/
def keyPath (text : List Char) : Option ((List String × String) × List Char) := do
  let (ks, r) ← keyParts (text.length + 1) text
  let k ← ks.getLast?
  return ((ks.dropLast, k), r)

end PanelClient.Toml
