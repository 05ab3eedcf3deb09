import PanelClient.Proofs.Api.Outcome

/-!
# What endpoints deliver

The backend puts a value in an envelope and writes it, or writes a failure; the client reads the text
and takes the value out again. Here the two ends are put together, for all values and statuses.

* `Client.Delivers` : a call delivers what the backend put into the envelope, as far as the status of
  the response lets it;
* `Client.fetch_delivers` : a call that fetches a result delivers it;
* `endpoints_deliver` : the endpoints do.
-/

namespace PanelClient

open Json

variable {α : Type} [FromJson α] [ToJson α]

/-! ### Messages of written envelopes -/

namespace Response

/-- A written result is no message. -/
theorem message?_ofResult [Lossless α] [NonNull α] (status : UInt16) (a : α) :
    message? ⟨status, encode (Envelope.ofResult a)⟩ = none := by
  have he : decode (Envelope α) (encode (Envelope.ofResult a)) = .ok (.ofResult a) :=
    decode_encode _
  rw [message?]
  dsimp only
  cases hv : decode (Envelope Value) (encode (Envelope.ofResult a)) with
  | error f => rfl
  | ok e =>
    obtain ⟨-, hmessage, -⟩ := Envelope.agree_of_decode he hv
    exact hmessage

omit [FromJson α] in
theorem message?_failure (status : UInt16) (message : String) (cause : Option String) :
    message? ⟨status, encode (Envelope.failure message cause : Envelope α)⟩ = some message := by
  rw [message?, Envelope.decode_failure]
  rfl

end Response

/-! ### Deliveries -/

namespace Client

variable {σ : Type}

/-- What a call for a result comes to, by the status of the response: `body` is its body, `message` the
message in it, and `read` what it means where it is read. -/
def byStatus {β : Type} (status : UInt16) (body : String) (message : Option String)
    (read : Except ApiError β) : Except ApiError β :=
  if status = 204 then .error .missingResult
  else if status = 401 then .error (.sessionExpired body)
  else if 400 ≤ status ∧ status ≤ 499 then .error (.clientError status message)
  else read

/-- The outcome `result` of the request `q` is what the backend put into its envelope, as far as the
status lets it. -/
def Delivers {β : Type} [ToJson β] (c : Client σ) (w : World σ) (q : Request)
    (result : Except ApiError β) : Prop :=
  ∀ status,
    (∀ b : β, (c.transport q w.link).1 = .ok ⟨status, encode (Envelope.ofResult b)⟩ →
      result = byStatus status (encode (Envelope.ofResult b)) none (.ok b)) ∧
    ∀ (message : String) (cause : Option String),
      (c.transport q w.link).1 = .ok ⟨status, encode (Envelope.failure message cause : Envelope β)⟩ →
        result = byStatus status (encode (Envelope.failure message cause : Envelope β)) (some message)
          (.error (.remoteFailure (some message) cause))

variable {c : Client σ} {w : World σ} {q : Request}

omit [ToJson α] in
theorem fetch_of_answer {r : Response} (h : (c.transport q w.link).1 = .ok r) :
    (c.fetch α w q).1 = match r.outcome α with
      | .ok (some a) => .ok a
      | .ok none => .error .missingResult
      | .error e => .error e := by
  rw [← exchange_of_answer h, fetch]
  cases c.exchange α w q with
  | mk outcome w' =>
    match outcome with
    | .ok (some a) => rfl
    | .ok none => rfl
    | .error e => rfl

omit [ToJson α] in
/-- A response that is an envelope comes to what its status says. -/
theorem fetch_of_decode {r : Response} {e : Envelope α} (h : (c.transport q w.link).1 = .ok r)
    (he : decode (Envelope α) r.body = .ok e) :
    (c.fetch α w q).1 = byStatus r.status r.body r.message?
      (if e.success then match e.result with
        | some a => .ok a
        | none => .error .missingResult
      else .error (.remoteFailure e.message e.cause)) := by
  rw [fetch_of_answer h, byStatus]
  -- the statuses in the order of the table, each with those before it excluded
  by_cases h204 : r.status = 204
  · rw [Response.outcome_of_noContent h204, if_pos h204]
  rw [if_neg h204]
  by_cases h401 : r.status = 401
  · rw [Response.outcome_of_expired (Response.expired_iff.2 h401), if_pos h401]
  rw [if_neg h401]
  by_cases hrefused : 400 ≤ r.status ∧ r.status ≤ 499
  · have hexpired : r.expired = false := Bool.eq_false_iff.2 (mt Response.expired_iff.1 h401)
    rw [Response.outcome_of_refused hexpired (Response.refused_iff.2 hrefused), if_pos hrefused]
  rw [if_neg hrefused]
  have hread : r.refused = false := Bool.eq_false_iff.2 (mt Response.refused_iff.1 hrefused)
  rw [Response.outcome_of_decode h204 hread he]
  cases e.success with
  | false => rfl
  | true => cases e.result <;> rfl

/-- **A call that fetches a result delivers it.** -/
theorem fetch_delivers [Lossless α] [NonNull α] : Delivers c w q (c.fetch α w q).1 := by
  intro status
  constructor
  · intro a hanswer
    rw [fetch_of_decode hanswer (decode_encode _), Response.message?_ofResult]
    rfl
  · intro message cause hanswer
    rw [fetch_of_decode hanswer (Envelope.decode_failure message cause), Response.message?_failure]
    rfl

end Client

/-- **Endpoints deliver what the backend put into the envelope.** If the response holds an envelope
with a value for a result, the call returns that value, unless the status is 204 or 4xx; if it holds
the envelope of a failure, the call returns that failure with its message and cause, unless the status
is 204 or 4xx. On 204 there is no result, on 401 the session has expired, and on any other 4xx the
request was refused, with the message of the failure if there was one. The user is told of the failure
under its message. -/
theorem endpoints_deliver {σ : Type} (c : Client σ) (w : World σ) :
    c.Delivers w (.get (c.url "/user")) (c.currentUser w).1 ∧
    c.Delivers w (.get (c.url "/instance/")) (c.listInstances w).1 ∧
    (∀ name, c.Delivers w (.get (c.instanceUrl name)) (c.instance w name).1) ∧
    (∀ name type version, c.Delivers w
      (.post (c.instanceUrl name) (encode (⟨type, version⟩ : NewInstance)))
      (c.createInstance w name type version).1) ∧
    ∀ message cause, (ApiError.remoteFailure (some message) cause).key = message :=
  ⟨Client.fetch_delivers, Client.fetch_delivers, fun _ => Client.fetch_delivers,
    fun _ _ _ => Client.fetch_delivers, fun _ _ => rfl⟩

end PanelClient
