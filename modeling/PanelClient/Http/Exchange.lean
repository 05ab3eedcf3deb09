/-!
# Requests and responses

* `Request`: one outbound call; a body is always JSON;
* `Response`: status and body of what the server answered;
* `NoResponse`: there was no answer;
* `Transport`: whatever moves requests, with a state of its own.
-/

namespace PanelClient

/-- The methods that are used. -/
inductive Method where
  | get | post | put | delete
  deriving DecidableEq, Repr, Inhabited

/-- The name of a method on the wire. -/
def Method.name : Method → String
  | .get => "GET"
  | .post => "POST"
  | .put => "PUT"
  | .delete => "DELETE"

/-- One outbound call. -/
structure Request where
  method : Method
  url : String
  /-- Names and values of extra headers, in order. -/
  headers : List (String × String) := []
  /-- The body, a JSON text. -/
  body : Option String := none
  deriving DecidableEq, Repr, Inhabited

namespace Request

/-- A call without headers and body that reads. -/
def get (url : String) : Request := { method := .get, url }

/-- A call without headers and body that removes. -/
def delete (url : String) : Request := { method := .delete, url }

/-- A call with a body. -/
def post (url body : String) : Request := { method := .post, url, body := some body }

/-- The same call with one more header. -/
def withHeader (r : Request) (name value : String) : Request :=
  { r with headers := r.headers ++ [(name, value)] }

/-- The same call with another body. -/
def withBody (r : Request) (body : String) : Request := { r with body := some body }

end Request

/-- Status and body of an answer. -/
structure Response where
  status : UInt16
  body : String
  deriving DecidableEq, Repr, Inhabited

/-- A call that was not answered. -/
structure NoResponse where
  url : String
  message : String
  deriving DecidableEq, Repr, Inhabited

/-- The text of a missing answer. -/
def NoResponse.text (e : NoResponse) : String :=
  "no response from " ++ e.url ++ ": " ++ e.message

/-- Moves requests. Every status, errors included, is an answer; it fails only when there is none. -/
abbrev Transport (σ : Type) := Request → σ → Except NoResponse Response × σ

end PanelClient
