import PanelClient.Http.Cookie
import PanelClient.Http.Exchange
import PanelClient.Http.Header
import PanelClient.Http.Reference
import PanelClient.Notification.Message
/-!
# Requests on the network

* `Call`, `Answer`: what goes out to the server of a URL, and what comes back;
* `Network`: whatever carries calls, with a state of its own;
* `Agent`: sends requests: it keeps cookies, follows redirections and asks for fresh answers;
* `Agent.transport`: the transport that an agent is.
-/

namespace PanelClient

/-- A request as it goes out. -/
structure Call where
  method : Method
  url : Url
  /-- Names are in lower case. -/
  fields : List (String × String)
  body : Option String
  /-- The longest time to wait for an answer; without one, the wait is for ever. -/
  timeout : Option Duration
  deriving DecidableEq, Repr, Inhabited

/-- What a server sends back. -/
structure Answer where
  status : UInt16
  /-- Names are in lower case. -/
  fields : List (String × String)
  body : String
  /-- The body has come to its end. -/
  complete : Bool
  deriving DecidableEq, Repr, Inhabited

/-- Carries a call to the server of its URL, if there is one, and brings back its answer, if there
is one. -/
abbrev Network (σ : Type) := Call → σ → Option Answer × σ

/-- The state of an agent: its cookies, and the state of the network. -/
structure Link (σ : Type) where
  jar : Jar
  net : σ

namespace Answer

variable (a : Answer)

/-- The status is final and has three digits. -/
def isFinal : Bool := (200 ≤ a.status || a.status == 101) && a.status ≤ 999

/-- An answer with this status has no body. -/
def isBare : Bool := a.status < 200 || a.status == 204 || a.status == 304

/-- The answer sends the caller to another URL. -/
def redirects : Bool := [301, 302, 303, 307, 308].contains a.status

/-- The response that the answer is, if its body is there. -/
def response? : Option Response :=
  if a.isBare then some ⟨a.status, ""⟩
  else if a.complete then some ⟨a.status, a.body⟩
  else none

end Answer

/-- What follows from an answer. -/
inductive Sequel where
  /-- It is the last one. -/
  | final (r : Answer)
  /-- There will be no last one. -/
  | lost
  /-- Another call. -/
  | again (c : Call)
  deriving DecidableEq, Repr, Inhabited

namespace Call

variable (c : Call)

/-- The same call without a body, as one that only reads. -/
def reading : Call :=
  { c with method := .get, body := none, fields := Header.without c.fields Header.aboutBody }

/-- The same call as a redirection leaves it. After `303`, and when something was posted after `301`
and `302`, it only reads. -/
def redirected (status : UInt16) : Call :=
  if status = 303 || ((status = 301 || status = 302) && c.method = .post) then c.reading else c

/-- The same call at another URL. What is meant for one server is not told to another. -/
def moveTo (url : Url) : Call :=
  { c with
    url
    fields := if c.url.sameServer url then c.fields
      else Header.without c.fields Header.confidential }

/-- What follows from an answer to the call. -/
def sequel (r : Answer) : Sequel :=
  if !r.isFinal then .lost
  else if !r.redirects then .final r
  else
    match (Header.values r.fields "location").head?.map c.url.follow with
    | some (.url url) => .again ((c.redirected r.status).moveTo url)
    | some .foreign => .lost
    | some .none => .final r
    | none => .final r

end Call

/-- A client of the network. -/
structure Agent (σ : Type) where
  network : Network σ
  /-- How the client names itself. -/
  userAgent : Option String
  /-- The present second, counted from the start of 1970. -/
  now : Int
  /-- The longest time that the client waits for an answer. -/
  timeout : Option Duration
  /-- How the client reads the texts of URLs. -/
  readUrl : String → Option Url
  /-- The name can stand in a header field. -/
  userAgent_valid : userAgent.all Header.isValue = true

namespace Agent

variable {σ : Type}

/-- A client of the network, if the name that it is given can stand in a header field. -/
def make? (network : Network σ) (userAgent : Option String) (now : Int)
    (timeout : Option Duration := none) (readUrl : String → Option Url := Url.parse) :
    Option (Agent σ) :=
  if h : userAgent.all Header.isValue = true then
    some ⟨network, userAgent, now, timeout, readUrl, h⟩
  else none

variable (a : Agent σ)

/-- The header fields of a request. No answer from a store is wanted, unless the request says
otherwise. -/
def fields (r : Request) : List (String × String) :=
  let own := r.headers.map fun (name, value) => (Header.lower name, value)
  let typed := if r.body.isSome then own ++ [("content-type", "application/json")] else own
  let fresh := Header.orElse typed "cache-control" "no-cache"
  match a.userAgent with
  | some name => Header.orElse fresh "user-agent" name
  | none => fresh

/-- The call of a request, if its URL and its header fields can be sent. -/
def call? (r : Request) : Option Call := do
  let url ← a.readUrl r.url
  if r.headers.all fun (name, value) => Header.isName name && Header.isValue value then
    return { method := r.method, url, fields := a.fields r, body := r.body, timeout := a.timeout }
  else none

/-- Sends a call with the cookies that belong to it, and keeps the cookies of the answer. -/
def send (c : Call) (l : Link σ) : Option Answer × Link σ :=
  let fields : List (String × String) :=
    match l.jar.field? a.now c.url with
    | some cookies => Header.orElse c.fields "cookie" cookies
    | none => c.fields
  let (answer, net) := a.network { c with fields } l.net
  match answer with
  | some r => (r, ⟨l.jar.putAll a.now c.url (Header.values r.fields "set-cookie"), net⟩)
  | none => (none, { l with net })

/-- Sends a call and says what follows from the answer. -/
def step (c : Call) (l : Link σ) : Sequel × Link σ :=
  match a.send c l with
  | (some r, l) => (c.sequel r, l)
  | (none, l) => (.lost, l)

/-- Sends a call, and then those that the answers ask for, at most `n` more. -/
def chase : Nat → Call → Link σ → Option Answer × Link σ
  | n, c, l =>
    match a.step c l, n with
    | (.final r, l), _ => (some r, l)
    | (.lost, l), _ => (none, l)
    | (.again _, l), 0 => (none, l)
    | (.again c, l), n + 1 => chase n c l

/-- The greatest number of redirections that are followed. -/
def maxRedirections : Nat := 10

/-- The transport that an agent is. -/
def transport : Transport (Link σ) := fun r l =>
  match a.call? r with
  | none => (.error ⟨r.url, "the request cannot be sent"⟩, l)
  | some c =>
    match a.chase maxRedirections c l with
    | (none, l) => (.error ⟨r.url, "the server does not answer"⟩, l)
    | (some answer, l) =>
      match answer.response? with
      | some response => (.ok response, l)
      | none => (.error ⟨r.url, "failed to read body"⟩, l)

end Agent

end PanelClient
