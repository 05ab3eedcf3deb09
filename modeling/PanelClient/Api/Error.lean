import PanelClient.Http.Exchange
import PanelClient.Api.Envelope
/-!
# Failed calls

* `ApiError`: why a call failed;
* `ApiError.key`: the key under which the user is told;
* `ApiError.text`: the error in words;
* `Response.outcome`: what a response means.

| response                  | outcome                                       |
|---------------------------|-----------------------------------------------|
| 401                       | `sessionExpired`                              |
| 204                       | success without result, whatever the body     |
| other 4xx                 | `clientError`, with the envelope's message    |
| envelope of a success     | success with the result, if there is one      |
| envelope of a failure     | `remoteFailure`                               |
| 5xx without an envelope   | `serverError`                                 |
| anything else             | `invalidBody`                                 |
-/

namespace PanelClient

open Json

/-- Why a call failed. -/
inductive ApiError where
  /-- The session has expired. -/
  | sessionExpired (body : String)
  /-- The backend refused the request; the message is that of the envelope, if there was one. -/
  | clientError (status : UInt16) (message : Option String)
  /-- The backend answered that it failed. -/
  | remoteFailure (message cause : Option String)
  /-- The backend failed without an envelope. -/
  | serverError (status : UInt16)
  /-- There was no answer. -/
  | unreachable (e : NoResponse)
  /-- The body is no envelope of the expected kind. -/
  | invalidBody (status : UInt16) (fault : Fault)
  /-- A success without the result that belongs to it. -/
  | missingResult
  deriving DecidableEq, Repr, Inhabited

namespace ApiError

/-- The key under which the user is told. -/
def key : ApiError → String
  | .sessionExpired _ => "auth.expired"
  | .clientError _ _ => "request.rejected"
  | .remoteFailure (some m) _ => m
  | .remoteFailure none _ => "_"
  | .serverError _ => "server.unreachable"
  | .unreachable _ => "server.unreachable"
  | .invalidBody _ _ => "_"
  | .missingResult => "_"

/-- The error in words; the details of an undecodable body are left out. -/
def text : ApiError → String
  | .sessionExpired _ => "session expired"
  | .clientError status _ => "request rejected with status " ++ toString status
  | .remoteFailure m _ => "remote failure: " ++ m.getD "unspecified"
  | .serverError status => "server error (status " ++ toString status ++ ")"
  | .unreachable e => "backend unreachable: " ++ e.text
  | .invalidBody status _ => "undecodable response body (status " ++ toString status ++ ")"
  | .missingResult => "response carried no result"

end ApiError

namespace Response

variable (r : Response)

/-- The session has expired. -/
def expired : Bool := r.status == 401

/-- The request was at fault. -/
def refused : Bool := 400 ≤ r.status && r.status ≤ 499

/-- The message of the envelope, if the body is one. -/
def message? : Option String :=
  match decode (Envelope Value) r.body with
  | .ok e => e.message
  | .error _ => none

/-- What a response means to a caller that expects a result of type `α`. -/
def outcome (α : Type) [FromJson α] : Except ApiError (Option α) :=
  if r.expired then .error (.sessionExpired r.body)
  else if r.status = 204 then .ok none
  else if r.refused then .error (.clientError r.status r.message?)
  else
    match decode (Envelope α) r.body with
    | .ok e => if e.success then .ok e.result else .error (.remoteFailure e.message e.cause)
    | .error f => .error (if 500 ≤ r.status then .serverError r.status else .invalidBody r.status f)

end Response

end PanelClient
