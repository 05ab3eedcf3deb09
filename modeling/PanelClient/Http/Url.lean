import PanelClient.Http.Path
import PanelClient.Text.Percent
import PanelClient.Text.Split
/-!
# URLs

The URLs of servers: scheme, host, port, path and query. A fragment or a user in the text of a URL
does not belong to the request and is left out.

* `Url`: a URL that can be requested;
* `Url.parse`: from a text, as the URL standard reads it: blanks around it do not count,
  backslashes are slashes, dot segments are carried out, a host that ends in a number is an address,
  and what may not stand in a path or a query is percent-encoded;
* `Url.target`: path and query.

Hosts are names in ASCII or addresses of four bytes. URLs with other hosts are not read here; whoever
sends requests (`Agent.readUrl`) may read more.
-/

namespace PanelClient

/-- The schemes of servers. -/
inductive Scheme where
  | http | https
  deriving DecidableEq, Repr, Inhabited

namespace Scheme

/-- The name of a scheme. -/
def name : Scheme → String
  | .http => "http"
  | .https => "https"

/-- The scheme of a name in lower case. -/
def ofName? : String → Option Scheme
  | "http" => some .http
  | "https" => some .https
  | _ => none

/-- The port where a URL names none. -/
def port : Scheme → Nat
  | .http => 80
  | .https => 443

end Scheme

/-- A URL that can be requested. -/
structure Url where
  scheme : Scheme
  /-- A name in lower case, or four numbers with dots between them. -/
  host : String
  port : Nat
  /-- It starts with a slash. -/
  path : String
  query : Option String
  deriving DecidableEq, Repr, Inhabited

namespace Url

/-! ### Hosts -/

/-- A part of an address: hexadecimal after `0x`, octal after `0`, or else decimal. -/
def addressPart? : List Char → Option Nat
  | [] => none
  | '0' :: 'x' :: ds => Digits.read? 16 ds
  | '0' :: 'X' :: ds => Digits.read? 16 ds
  | ['0'] => some 0
  | '0' :: ds => Digits.read? 8 ds
  | ds => Digits.read? 10 ds

/-- The parts of a host; one dot at its end does not count. -/
def hostParts (host : List Char) : List (List Char) :=
  let ps := split (· == '.') host
  if 1 < ps.length && ps.getLast? == some [] then ps.dropLast else ps

/-- The host ends in a number. -/
def endsInNumber (host : List Char) : Bool :=
  match (hostParts host).getLast? with
  | some p => (!p.isEmpty && p.all Char.isDigit) || (addressPart? p).isSome
  | none => false

/-- The address that the numbers stand for: each is a byte, and the last one fills all bytes that
are left. -/
def address? : List Nat → Nat → Option (List Nat)
  | [], _ => none
  | [n], bytes =>
    if n < Nat.pow 256 bytes then
      some ((List.range bytes).reverse.map fun i => n / Nat.pow 256 i % 256)
    else none
  | n :: ns, bytes => if n < 256 then (n :: ·) <$> address? ns (bytes - 1) else none

/-- Four numbers with dots between them. -/
def writtenAddress (bytes : List Nat) : String := ".".intercalate (bytes.map toString)

/-- The characters that a host cannot have. -/
def isForbidden (c : Char) : Bool :=
  c ≤ ' ' || '\x7f' ≤ c || "#%/:<>?@[\\]^|".toList.contains c

/-- The host of a text: escapes are read, and letters are in lower case. -/
def host? (text : List Char) : Option String := do
  let host := (Percent.decodeBytes text).map fun b => (Char.ofNat b.toNat).toLower
  if host.isEmpty || host.any isForbidden then none
  else if endsInNumber host then
    let parts := hostParts host
    if 4 < parts.length then none
    else return writtenAddress (← address? (← parts.mapM addressPart?) 4)
  else return String.ofList host

/-- The port of a text, `dflt` for an empty one. -/
def port? (dflt : Nat) (text : List Char) : Option Nat := do
  if text.isEmpty then return dflt
  else if text.all Char.isDigit then
    let n ← Digits.read? 10 text
    if n < UInt16.size then return n else none
  else none

/-- What stands after the last `@` of an authority. -/
def afterUser (authority : List Char) : List Char :=
  ((split (· == '@') authority).getLast?).getD []

/-! ### Paths and queries -/

/-- Writes a text with escapes for the characters that may not stand in it. -/
def escape (stands : Char → Bool) (text : List Char) : List Char :=
  text.flatMap fun c =>
    if stands c then [c] else (String.singleton c).toUTF8.toList.flatMap Percent.escape

/-- A character that is visible in a URL, unless it is one of `others`. -/
def stands (others : String) (c : Char) : Bool :=
  ' ' < c && c < '\x7f' && !others.toList.contains c

/-- The characters that stand for themselves in a path. -/
def standsInPath : Char → Bool := stands "\"#<>?`\x7b\x7d"

/-- The characters that stand for themselves in a query. -/
def standsInQuery : Char → Bool := stands "\"#<>'"

/-- A segment with its escaped dots read as dots. -/
def readDots : List Char → List Char
  | '%' :: '2' :: 'e' :: r => '.' :: readDots r
  | '%' :: '2' :: 'E' :: r => '.' :: readDots r
  | c :: r => c :: readDots r
  | [] => []

/-- A slash, straight or leaning back. -/
def isSlash (c : Char) : Bool := c == '/' || c == '\\'

/-- The path of a text, which is empty or starts with a slash. -/
def pathOf (text : List Char) : List Char :=
  Path.join (Path.resolve readDots ((split isSlash (text.drop 1)).map (escape standsInPath)))

/-! ### Texts -/

/-- A text without blanks and control characters around it, and without line breaks and tabs. -/
def clean (text : List Char) : List Char :=
  let trimmed := ((text.dropWhile (· ≤ ' ')).reverse.dropWhile (· ≤ ' ')).reverse
  trimmed.filter fun c => c != '\t' && c != '\n' && c != '\r'

/-- The scheme of a text and what stands after it. -/
def scheme? (text : List Char) : Option (Scheme × List Char) := do
  let name := text.takeWhile (· != ':')
  match text.dropWhile (· != ':') with
  | _ :: r => return (← Scheme.ofName? (String.ofList (name.map Char.toLower)), r)
  | [] => none

/-- The URL of a text, if it is one. -/
def parse (text : String) : Option Url := do
  let (scheme, r) ← scheme? (clean text.toList)
  let r := r.dropWhile isSlash
  let ends (c : Char) : Bool := isSlash c || c == '?' || c == '#'
  let authority := afterUser (r.takeWhile (!ends ·))
  let r := r.dropWhile (!ends ·)
  let host ← host? (authority.takeWhile (· != ':'))
  let port ← port? scheme.port ((authority.dropWhile (· != ':')).drop 1)
  let path := r.takeWhile fun c => c != '?' && c != '#'
  let query : Option (List Char) :=
    match r.dropWhile fun c => c != '?' && c != '#' with
    | '?' :: q => some (q.takeWhile (· != '#'))
    | _ => none
  return {
    scheme, host, port
    path := String.ofList (pathOf path)
    query := query.map fun q => String.ofList (escape standsInQuery q) }

variable (u : Url)

/-- Path and query, as a request names them. -/
def target : String :=
  match u.query with
  | some q => u.path ++ "?" ++ q
  | none => u.path

/-- The host and, unless it is the usual one, the port. -/
def authority : String :=
  if u.port = u.scheme.port then u.host else u.host ++ ":" ++ toString u.port

/-- Both URLs belong to one server. -/
def sameServer (v : Url) : Bool := u.host == v.host && u.port == v.port

end Url

end PanelClient
