import PanelClient.Http.Date
import PanelClient.Http.Url
/-!
# Cookies

* `Cookie.parse`: the cookie that a server sets in answer to a request;
* `Cookie.goesTo`: whether a cookie belongs to a request;
* `Jar`: the cookies that are kept, `Jar.put` for one more;
* `Jar.field?`: the header field with the cookies of a request.
-/

namespace PanelClient

/-- A cookie with what decides where it goes. -/
structure Cookie where
  name : String
  value : String
  host : String
  /-- It also goes to the hosts below its own. -/
  below : Bool
  path : String
  /-- It goes over safe connections only. -/
  secure : Bool
  /-- The second from which on it is void, if there is one. -/
  expiry : Option Int
  deriving DecidableEq, Repr, Inhabited

namespace Cookie

/-! ### Reading -/

/-- A text without blanks around it. -/
def trim (text : List Char) : List Char :=
  ((text.dropWhile Char.isWhitespace).reverse.dropWhile Char.isWhitespace).reverse

/-- The part of a text before a `=` and the part after it, if there is one. -/
def sides (text : List Char) : List Char × Option (List Char) :=
  let name := trim (text.takeWhile (· != '='))
  match text.dropWhile (· != '=') with
  | _ :: r => (name, some (trim r))
  | [] => (name, none)

/-- The attributes of a cookie, names in lower case; of two with one name the later counts. -/
def attributes (parts : List (List Char)) : List (String × Option String) :=
  (parts.map fun p =>
    let (name, value) := sides p
    (String.ofList (name.map Char.toLower), value.map String.ofList)).reverse

/-- The directory of a path. -/
def directory (path : String) : String :=
  let kept := ((path.toList.reverse.dropWhile (· != '/')).drop 1).reverse
  if kept.isEmpty then "/" else String.ofList kept

/-- The second at which a cookie with the given greatest age ends. Negative ages are zero, and an
age that is no number does not count. -/
def expiryOfAge? (now : Int) (age : String) : Option Int :=
  match age.toList with
  | '-' :: ds => if ds.all Char.isDigit then some now else none
  | ds => if ds.isEmpty then none else (now + ·) <$> Digits.read? 10 ds

/-- A host in lower case, without a dot at its start. -/
def bareDomain (domain : String) : String :=
  match domain.toList with
  | '.' :: r => String.ofList (r.map Char.toLower)
  | r => String.ofList (r.map Char.toLower)

/-- The host is `domain` or lies below it. -/
def isWithin (host domain : String) : Bool :=
  host == domain || (!Url.endsInNumber host.toList && host.endsWith ("." ++ domain))

/-- The cookie that the server of a URL sets at a given second. It is refused if it names a domain
that the server does not lie in. -/
def parse (now : Int) (url : Url) (text : String) : Option Cookie := do
  let parts := split (· == ';') text.toList
  let (name, value) := sides (parts.headD [])
  let attrs := attributes parts.tail
  let attr (name : String) : Option String := (attrs.lookup name).join
  if name.isEmpty then none
  let domain := bareDomain ((attr "domain").getD "")
  if domain.isEmpty || isWithin url.host domain then
    return {
      name := String.ofList name
      value := String.ofList (← value)
      host := if domain.isEmpty then url.host else domain
      below := !domain.isEmpty
      path := ((attr "path").filter (·.startsWith "/")).getD (directory url.path)
      secure := (attrs.lookup "secure").isSome
      expiry := ((attr "max-age").bind (expiryOfAge? now)).or ((attr "expires").bind Date.parse) }
  else none

/-! ### Sending -/

/-- The connection to a URL cannot be listened to. -/
def isSafe (url : Url) : Bool :=
  url.scheme == .https || url.host == "localhost" ||
    (Url.endsInNumber url.host.toList && url.host.startsWith "127.")

/-- A path is that of the cookie or lies below it. -/
def coversPath (c : Cookie) (path : String) : Bool :=
  path == c.path || (path.startsWith c.path && (c.path.endsWith "/" ||
    path.toList[c.path.length]? == some '/'))

/-- The cookie is void. -/
def isExpired (c : Cookie) (now : Int) : Bool :=
  match c.expiry with
  | some e => e ≤ now
  | none => false

/-- The cookie belongs to a request to a URL at a given second. -/
def goesTo (c : Cookie) (now : Int) (url : Url) : Bool :=
  (c.host == url.host || (c.below && isWithin url.host c.host)) && c.coversPath url.path &&
    (!c.secure || isSafe url) && !c.isExpired now

/-- Both cookies have the same place in a jar. -/
def samePlace (c d : Cookie) : Bool := c.name == d.name && c.host == d.host && c.path == d.path

/-- A cookie as a request sends it. -/
def written (c : Cookie) : String := c.name ++ "=" ++ c.value

end Cookie

/-- The cookies that are kept, the oldest first. -/
abbrev Jar := List Cookie

namespace Jar

/-- Keeps a cookie in place of the one of its name; a void one only clears the place. -/
def put (jar : Jar) (now : Int) (c : Cookie) : Jar :=
  let others := jar.filter (!c.samePlace ·)
  if c.isExpired now then others
  else if jar.any (c.samePlace ·) then jar.map fun d => if c.samePlace d then c else d
  else jar ++ [c]

/-- Keeps what the server of a URL sets. -/
def putAll (jar : Jar) (now : Int) (url : Url) (texts : List String) : Jar :=
  (texts.filterMap (Cookie.parse now url)).foldl (·.put now ·) jar

/-- The cookies of a request to a URL: those with the longest path first. -/
def select (jar : Jar) (now : Int) (url : Url) : List Cookie :=
  (jar.filter (·.goesTo now url)).mergeSort fun c d => d.path.length ≤ c.path.length

/-- The value of the header field with the cookies of a request, if there are any. -/
def field? (jar : Jar) (now : Int) (url : Url) : Option String :=
  let cs := jar.select now url
  if cs.isEmpty then none else some ("; ".intercalate (cs.map Cookie.written))

end Jar

end PanelClient
