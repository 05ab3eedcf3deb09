import PanelClient.Http.Agent
import PanelClient.Text.Utf8
/-!
# The form of calls and answers on a connection

One connection carries one call and its answer; the server closes it after the answer.

* `Call.bytes`: what is sent for a call;
* `Answer.ofBytes?`: the answer that came, read to the end of the connection.
-/

namespace PanelClient

/-- The end of a line. -/
def lineEnd : String := "\r\n"

namespace Call

variable (c : Call)

/-- The header fields of a call with those that the connection needs. -/
def wireFields : List (String × String) :=
  let length : List (String × String) :=
    match c.body with
    | some b => [("content-length", toString b.utf8ByteSize)]
    | none => if c.method = .post || c.method = .put then [("content-length", "0")] else []
  Header.orElse (Header.without c.fields ["connection", "content-length", "transfer-encoding"])
    "host" c.url.authority ++ length ++ [("connection", "close")]

/-- The text of a call up to its body. -/
def head : String :=
  c.method.name ++ " " ++ c.url.target ++ " HTTP/1.1" ++ lineEnd ++
    String.join (c.wireFields.map fun (name, value) => name ++ ": " ++ value ++ lineEnd) ++ lineEnd

/-- What is sent for a call. -/
def bytes : ByteArray := (c.head ++ c.body.getD "").toUTF8

end Call

namespace Answer

/-- The first line of some bytes, without its end, and the bytes after it. -/
def line? : List UInt8 → Option (List UInt8 × List UInt8)
  | [] => none
  | 13 :: 10 :: r => some ([], r)
  | 10 :: r => some ([], r)
  | b :: r => do
    let (l, rest) ← line? r
    return (b :: l, rest)

/-- A line as text. -/
def lineText (l : List UInt8) : List Char := (Utf8.decode l).toList

/-- A text without blanks around it. -/
def bare (text : List Char) : String := String.ofList (Cookie.trim text)

/-- The status in the first line of an answer. -/
def status? (l : List UInt8) : Option UInt16 := do
  match split (· == ' ') (lineText l) with
  | version :: digits :: _ =>
    if "HTTP/1.".toList.isPrefixOf version && digits.length == 3 then
      return UInt16.ofNat (← Digits.read? 10 digits)
    else none
  | _ => none

/-- The field in a line. -/
def field (l : List UInt8) : String × String :=
  let text := lineText l
  (Header.lower (bare (text.takeWhile (· != ':'))), bare ((text.dropWhile (· != ':')).drop 1))

/-- The fields up to the first empty line, in at most `n` lines, and the bytes after it. -/
def fields? : Nat → List UInt8 → Option (List (String × String) × List UInt8)
  | 0, _ => none
  | n + 1, bs => do
    let (l, r) ← line? bs
    if l.isEmpty then return ([], r)
    let (fs, rest) ← fields? n r
    return (field l :: fs, rest)

/-- The bytes in at most `n` chunks, and whether the last chunk has come. -/
def unchunk : Nat → List UInt8 → List UInt8 × Bool
  | 0, _ => ([], false)
  | n + 1, bs =>
    match line? bs with
    | none => ([], false)
    | some (l, r) =>
      match Digits.read? 16 (Cookie.trim ((lineText l).takeWhile (· != ';'))) with
      | none => ([], false)
      | some 0 => ([], true)
      | some size =>
        let (rest, complete) := unchunk n ((r.drop size).drop 2)
        (r.take size ++ rest, complete && size ≤ r.length)

/-- The body that header fields announce, and whether all of it has come. -/
def bodyOf (fields : List (String × String)) (bs : List UInt8) : List UInt8 × Bool :=
  if (Header.values fields "transfer-encoding").any (Header.lower · == "chunked") then
    unchunk bs.length bs
  else
    match (Header.values fields "content-length").head?.bind fun n => Digits.read? 10 n.toList with
    | some n => (bs.take n, n ≤ bs.length)
    | none => (bs, true)

/-- The answer in some bytes, after at most `n` that announce it. -/
def skipInterim? : Nat → List UInt8 → Option Answer
  | 0, _ => none
  | n + 1, bs => do
    let (l, r) ← line? bs
    let status ← status? l
    let (fields, r) ← fields? r.length r
    if 100 ≤ status && status < 200 && status != 101 then skipInterim? n r
    else
      let (bytes, complete) := bodyOf fields r
      return { status, fields, body := Utf8.decode bytes, complete }

/-- The answer that came. -/
def ofBytes? (bytes : ByteArray) : Option Answer :=
  skipInterim? bytes.size bytes.toList

end Answer

end PanelClient
