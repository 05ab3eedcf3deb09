import PanelClient.Http.Url
/-!
# References to other URLs

A response that redirects names the place to go to by a reference: a URL, or one without its first
parts, which are then those of the URL that was asked for.

* `Reference`: the parts of a reference, `Reference.parse` from a text of nothing but the characters
  that the generic syntax of URIs admits;
* `Url.follow`: where a reference leads from a URL.
-/

namespace PanelClient

/-- A reference. -/
structure Reference where
  scheme : Option String
  authority : Option String
  path : List Char
  query : Option String
  deriving DecidableEq, Repr, Inhabited

namespace Reference

/-- Every `%` starts an escape, and all other characters are `allowed`. -/
def isWellFormed (allowed : Char → Bool) : List Char → Bool
  | [] => true
  | '%' :: a :: b :: r =>
    (Digits.value? a).isSome && (Digits.value? b).isSome && isWellFormed allowed r
  | c :: r => allowed c && isWellFormed allowed r

/-- The characters of a path, slashes apart. -/
def inSegment (c : Char) : Bool := c.isAlphanum || "-._~!$&'()*+,;=:@".toList.contains c

/-- A path. -/
def isPath : List Char → Bool := isWellFormed fun c => inSegment c || c == '/'

/-- A query or a fragment. -/
def isQuery : List Char → Bool := isWellFormed fun c => inSegment c || c == '/' || c == '?'

/-- An authority. -/
def isAuthority : List Char → Bool := isWellFormed fun c => inSegment c || c == '[' || c == ']'

/-- The name of a scheme. -/
def isScheme : List Char → Bool
  | [] => false
  | c :: r => c.isAlpha && r.all fun c => c.isAlphanum || c == '+' || c == '-' || c == '.'

/-- The scheme of a reference, if it has one, and what stands after it. The first segment of a
reference without a scheme has no colon. -/
def splitScheme (text : List Char) : Option (Option String × List Char) :=
  let first := text.takeWhile fun c => c != '/' && c != '?' && c != '#'
  let name := first.takeWhile (· != ':')
  if !first.contains ':' then some (none, text)
  else if isScheme name then
    some (some (String.ofList (name.map Char.toLower)), text.drop (name.length + 1))
  else none

/-- The reference of a text, if it is one. -/
def parse (text : String) : Option Reference := do
  let (scheme, r) ← splitScheme text.toList
  let fragment := (r.dropWhile (· != '#')).drop 1
  let r := r.takeWhile (· != '#')
  let query : Option (List Char) :=
    match r.dropWhile (· != '?') with
    | _ :: q => some q
    | [] => none
  let r := r.takeWhile (· != '?')
  let (authority, path) : Option (List Char) × List Char :=
    match r with
    | '/' :: '/' :: r => (some (r.takeWhile (· != '/')), r.dropWhile (· != '/'))
    | r => (none, r)
  if (authority.getD []).isEmpty && authority.isSome then none
  else if isAuthority (authority.getD []) && isPath path && isQuery (query.getD []) &&
      isQuery fragment then
    return {
      scheme, path
      authority := authority.map String.ofList
      query := query.map String.ofList }
  else none

end Reference

/-- Where a redirection leads. -/
inductive Destination where
  /-- To a URL. -/
  | url (u : Url)
  /-- To something that cannot be requested. -/
  | foreign
  /-- Nowhere: what it names is no reference. -/
  | none
  deriving DecidableEq, Repr, Inhabited

namespace Url

variable (u : Url)

/-- A path without its dot segments. -/
def tidy (path : List Char) : List Char :=
  match path with
  | '/' :: r => Path.join (Path.resolve id (split (· == '/') r))
  | _ => path

/-- A relative path, from the directory of a URL on. -/
def beside (path : List Char) : List Char :=
  (u.path.toList.reverse.dropWhile (· != '/')).reverse ++ path

/-- The URL of the parts of a reference. -/
def ofParts (scheme authority : String) (path : List Char) (query : Option String) : Destination :=
  match parse (scheme ++ "://" ++ authority) with
  | some v => .url { v with path := if path.isEmpty then "/" else String.ofList path, query }
  | none => .foreign

/-- Where a reference leads from a URL that itself keeps to the generic syntax. -/
def follow (reference : String) : Destination :=
  match Reference.parse reference with
  | none => .none
  | some r =>
    if !Reference.isPath u.path.toList || !Reference.isQuery (u.query.getD "").toList then .none
    else
      match r.scheme, r.authority with
      | some s, some a => ofParts s a (tidy r.path) r.query
      | some _, none => .foreign
      | none, some a => ofParts u.scheme.name a (tidy r.path) r.query
      | none, none =>
        if r.path.isEmpty then .url { u with query := r.query.or u.query }
        else if r.path.head? = some '/' then .url { u with path := String.ofList (tidy r.path), query := r.query }
        else .url { u with path := String.ofList (tidy (u.beside r.path)), query := r.query }

end Url

end PanelClient
