import PanelClient.Json.Numeral
import PanelClient.Text.Digits
/-!
# Tokens of a JSON text

The text is cut into tokens first. A text that stops being JSON inside a token ends in one last
token, `Token.broken`, which says what is wrong; nothing after it is looked at.

* `Fault`: the three ways in which reading a text fails;
* `Piece`: what a quoted text is made of before surrogate escapes are paired, `Piece.text` pairs
  them;
* `Token.scan`: the tokens of a text.
-/

namespace PanelClient.Json

/-- The first thing that goes wrong when a text is read. -/
inductive Fault where
  /-- The text ends too early. -/
  | truncated
  /-- The text is not JSON, or holds a string or number that has no value. -/
  | malformed
  /-- The text is JSON so far, but not what is wanted at this point. -/
  | mismatched
  deriving DecidableEq, Repr, Inhabited

/-! ### Quoted texts -/

/-- An element of a quoted text: a character, or the code unit of a `\u` escape. -/
inductive Piece where
  | char (c : Char)
  | unit (u : Nat)
  deriving DecidableEq, Repr, Inhabited

namespace Piece

/-- Code units that open a surrogate pair. -/
def isLead (u : Nat) : Bool := 0xD800 ≤ u && u ≤ 0xDBFF

/-- Code units that close a surrogate pair. -/
def isTrail (u : Nat) : Bool := 0xDC00 ≤ u && u ≤ 0xDFFF

/-- The character that a surrogate pair stands for. -/
def paired (lead trail : Nat) : Char :=
  Char.ofNat (0x10000 + (lead - 0xD800) * 0x400 + (trail - 0xDC00))

/-- The characters of a quoted text; nothing when a surrogate stands alone. -/
def chars : List Piece → Option (List Char)
  | [] => some []
  | .char c :: r => (c :: ·) <$> chars r
  | .unit u :: r =>
    if isLead u then
      match r with
      | .unit v :: r' => if isTrail v then (paired u v :: ·) <$> chars r' else none
      | _ => none
    else if isTrail u then none
    else (Char.ofNat u :: ·) <$> chars r

/-- The text; nothing when a surrogate stands alone. -/
def text (ps : List Piece) : Option String := String.ofList <$> chars ps

/-- A surrogate stands alone for certain, whatever pieces follow. -/
def stranded : List Piece → Bool
  | [] => false
  | .char _ :: r => stranded r
  | .unit u :: r =>
    if isLead u then
      match r with
      | [] => false
      | .unit v :: r' => if isTrail v then stranded r' else true
      | .char _ :: _ => true
    else if isTrail u then true
    else stranded r

end Piece

/-- The code unit that four hexadecimal digits write. -/
def codeUnit? (a b c d : Char) : Option Nat := Digits.read? 16 [a, b, c, d]

/-- The character that a one-letter escape stands for. -/
def escaped? : Char → Option Char
  | '"' => some '"'
  | '\\' => some '\\'
  | '/' => some '/'
  | 'b' => some '\x08'
  | 'f' => some '\x0c'
  | 'n' => some '\n'
  | 'r' => some '\r'
  | 't' => some '\t'
  | _ => none

/-- How the scan of a quoted text ends. -/
inductive Closing where
  /-- At the closing quote, before `rest`. -/
  | closed (rest : List Char)
  | cut (fault : Fault)

/-- The pieces of a quoted text whose opening quote has been read. A `\u` escape wants four more
bytes of text before it looks at any of them. -/
def scanQuoted : List Char → List Piece × Closing
  | [] => ([], .cut .truncated)
  | '"' :: r => ([], .closed r)
  | '\\' :: 'u' :: a :: b :: c :: d :: r =>
    match codeUnit? a b c d with
    | some u => let (ps, e) := scanQuoted r; (.unit u :: ps, e)
    | none => ([], .cut .malformed)
  | '\\' :: 'u' :: short =>
    ([], .cut (if (String.ofList short).utf8ByteSize < 4 then .truncated else .malformed))
  | ['\\'] => ([], .cut .truncated)
  | '\\' :: c :: r =>
    match escaped? c with
    | some x => let (ps, e) := scanQuoted r; (.char x :: ps, e)
    | none => ([], .cut .malformed)
  | c :: r =>
    if c < ' ' then ([], .cut .malformed)
    else let (ps, e) := scanQuoted r; (.char c :: ps, e)

/-! ### Tokens -/

/-- A token that breaks off. What is wrong with it depends on whether its value is wanted. -/
structure Breakage where
  /-- Its first character; nothing when the text ends where a value should begin. -/
  first : Option Char
  /-- The fault when the value is wanted. -/
  kept : Fault
  /-- The fault when the value is passed over. -/
  skipped : Fault
  deriving DecidableEq, Repr, Inhabited

inductive Token where
  | openArray | closeArray | openObject | closeObject | comma | colon
  | null
  | bool (b : Bool)
  | number (n : Numeral)
  | string (ps : List Piece)
  | broken (b : Breakage)
  deriving Repr, Inhabited

namespace Token

/-- The four blanks that may stand between tokens. -/
def isBlank (c : Char) : Bool := c == ' ' || c == '\n' || c == '\t' || c == '\r'

/-- What follows `word`, when the text starts with it, or else the fault. -/
def afterWord : List Char → List Char → Except Fault (List Char)
  | [], r => .ok r
  | _ :: _, [] => .error .truncated
  | w :: ws, c :: r => if w = c then afterWord ws r else .error .malformed

/-- The token of a quoted text. A cut one is wrong already where a lone surrogate stands, if it is
wanted. -/
def ofQuoted (ps : List Piece) : Closing → Token × List Char
  | .closed r => (.string ps, r)
  | .cut f => (.broken ⟨some '"', if Piece.stranded ps then .malformed else f, f⟩, [])

/-- The token `t`, written `word`. -/
def ofWord (t : Token) (word : List Char) (text : List Char) : Token × List Char :=
  match afterWord word text with
  | .ok r => (t, r)
  | .error f => (.broken ⟨word.head?, f, f⟩, [])

/-- The token of a number. A number that ends with the text is cut short where it is wanted, and
badly formed where it is passed over. -/
def ofNumeral (text : List Char) : Token × List Char :=
  match Numeral.scan text with
  | .ok (n, r) => (.number n, r)
  | .error atEnd => (.broken ⟨text.head?, if atEnd then .truncated else .malformed, .malformed⟩, [])

/-- The token that starts with the character `c`, which is not blank, and the text after it. -/
def first (c : Char) (r : List Char) : Token × List Char :=
  match c with
  | '[' => (.openArray, r)
  | ']' => (.closeArray, r)
  | '{' => (.openObject, r)
  | '}' => (.closeObject, r)
  | ',' => (.comma, r)
  | ':' => (.colon, r)
  | '"' => let (ps, e) := scanQuoted r; ofQuoted ps e
  | 'n' => ofWord .null ['n', 'u', 'l', 'l'] (c :: r)
  | 't' => ofWord (.bool true) ['t', 'r', 'u', 'e'] (c :: r)
  | 'f' => ofWord (.bool false) ['f', 'a', 'l', 's', 'e'] (c :: r)
  | c =>
    if c == '-' || c.isDigit then ofNumeral (c :: r)
    else (.broken ⟨some c, .malformed, .malformed⟩, [])

/-- The tokens of a text of at most `n` characters. -/
def scanUpTo : Nat → List Char → List Token
  | 0, _ => []
  | _ + 1, [] => []
  | n + 1, c :: r =>
    if isBlank c then scanUpTo n r
    else
      let (t, rest) := first c r
      t :: scanUpTo n rest

/-- The tokens of a text. -/
def scan (text : List Char) : List Token := scanUpTo text.length text

end Token

end PanelClient.Json
