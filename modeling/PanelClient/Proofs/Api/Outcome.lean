import PanelClient.Api.Client
import PanelClient.Proofs.Api.Acceptance
import PanelClient.Proofs.Api.RoundTrip

/-!
# What responses mean to different callers

A response outside 4xx is read as an envelope with a result of the type that the caller expects. A
failure is reported from the message and the cause of that envelope, so that one would expect the
type not to matter. It does: an envelope whose result is of another type is not read at all.

* `Response.outcome_of_refused`, `Response.outcome_of_decode` and others : what a response means, by
  its status and its body;
* `Envelope.ResultFits` : what an envelope holds for a result can be read as a given type;
* `failure_reported` : how a failure of the backend is reported, for each type.
-/

namespace PanelClient

open Json

variable {α : Type} [FromJson α]

/-! ### Statuses -/

namespace Response

variable {r : Response}

theorem expired_iff : r.expired = true ↔ r.status = 401 := beq_iff_eq

theorem refused_iff : r.refused = true ↔ 400 ≤ r.status ∧ r.status ≤ 499 := by
  rw [refused, Bool.and_eq_true, decide_eq_true_iff, decide_eq_true_iff]

theorem refused_of_expired (h : r.expired = true) : r.refused = true := by
  rw [refused_iff, expired_iff.1 h]
  decide

theorem expired_of_not_refused (h : r.refused = false) : r.expired = false :=
  Bool.eq_false_iff.2 fun hexpired => Bool.eq_false_iff.1 h (refused_of_expired hexpired)

theorem outcome_of_expired (h : r.expired = true) :
    r.outcome α = .error (.sessionExpired r.body) := if_pos h

theorem outcome_of_noContent (h : r.status = 204) : r.outcome α = .ok none := by
  have hexpired : r.expired = false := by
    rw [expired, h]
    rfl
  rw [outcome, hexpired, if_neg Bool.false_ne_true, if_pos h]

theorem outcome_of_refused (hexpired : r.expired = false) (h : r.refused = true) :
    r.outcome α = .error (.clientError r.status r.message?) := by
  have hstatus : r.status ≠ 204 := by
    intro hstatus
    rw [refused_iff, hstatus] at h
    exact absurd h.1 (by decide)
  rw [outcome, hexpired, if_neg Bool.false_ne_true, if_neg hstatus, if_pos h]

/-- Any other response is read as an envelope. -/
theorem outcome_of_decode (hstatus : r.status ≠ 204) (h : r.refused = false) {e : Envelope α}
    (he : decode (Envelope α) r.body = .ok e) : r.outcome α =
      if e.success then .ok e.result else .error (.remoteFailure e.message e.cause) := by
  rw [outcome, expired_of_not_refused h, if_neg Bool.false_ne_true, if_neg hstatus, h,
    if_neg Bool.false_ne_true, he]

theorem outcome_of_fault (hstatus : r.status ≠ 204) (h : r.refused = false) {f : Fault}
    (hf : decode (Envelope α) r.body = .error f) : r.outcome α =
      .error (if 500 ≤ r.status then .serverError r.status else .invalidBody r.status f) := by
  rw [outcome, expired_of_not_refused h, if_neg Bool.false_ne_true, if_neg hstatus, h,
    if_neg Bool.false_ne_true, hf]

theorem message?_of_decode {e : Envelope Value} (he : decode (Envelope Value) r.body = .ok e) :
    r.message? = e.message := by
  rw [message?, he]

end Response

namespace Client

variable {σ : Type} {c : Client σ} {w : World σ} {q : Request}

theorem exchange_of_answer {r : Response} (h : (c.transport q w.link).1 = .ok r) :
    (c.exchange α w q).1 = r.outcome α := by
  rw [exchange, send]
  cases hsent : c.transport q w.link with
  | mk answer link =>
    rw [hsent] at h
    cases h
    rfl

end Client

/-! ### Envelopes with other results -/

namespace Envelope

open Slots

/-- What stands for the result in the text of an envelope is read as a result of type `α`. -/
def ResultFits (α : Type) [FromJson α] (text : String) : Prop :=
  ∀ s d, gather (fields Value maxDepth) (Doc.ofText text).1 = .ok s → s.lookup "result" = some d →
    ∃ a? : Option α, FromJson.read (maxDepth - 1) d = .ok a?

/-- The four parts of an envelope are taken one by one. -/
theorem read_eq_ok {room : Nat} {d : Doc} {e : Envelope α} : FromJson.read room d = .ok e ↔
    ∃ s, gather (fields α room) d = .ok s ∧ s.required room "success" = .ok e.success ∧
      s.optional (room - 1) "result" none = .ok e.result ∧
      s.optional room "message" none = .ok e.message ∧
      s.optional room "err_cause" none = .ok e.cause := by
  rw [Record.read_eq_ok]
  simp only [Record.fields, List.forall_mem_cons, FieldOf.take_none, FieldOf.take_some]
  refine exists_congr fun s => and_congr_right fun _ => ?_
  simp only [id, List.not_mem_nil, false_imp_iff, implies_true, and_true]

theorem sameNames (α β : Type) [FromJson α] [FromJson β] (room room' : Nat) :
    SameNames (fields α room) (fields β room') :=
  .cons ⟨rfl, rfl⟩ (.cons ⟨rfl, rfl⟩ (.cons ⟨rfl, rfl⟩ (.cons ⟨rfl, rfl⟩ .nil)))

theorem nodup_fields (α : Type) [FromJson α] (room : Nat) :
    ((fields α room).map Field.name).Nodup := by
  change ["success", "result", "message", "err_cause"].Nodup
  decide

variable {β : Type} [FromJson β] {text : String}

/-- Types with which an envelope is read agree about everything but the result. -/
theorem agree_of_decode {e : Envelope α} {e' : Envelope β} (he : decode (Envelope α) text = .ok e)
    (he' : decode (Envelope β) text = .ok e') :
    e'.success = e.success ∧ e'.message = e.message ∧ e'.cause = e.cause := by
  obtain ⟨s, hs, hsuccess, -, hmessage, hcause⟩ := read_eq_ok.1 (decode_eq_ok.1 he).1
  obtain ⟨s', hs', hsuccess', -, hmessage', hcause'⟩ := read_eq_ok.1 (decode_eq_ok.1 he').1
  cases gather_unique (sameNames α β maxDepth maxDepth) (nodup_fields β maxDepth) hs hs'
  exact ⟨Except.ok.inj (hsuccess'.symm.trans hsuccess),
    Except.ok.inj (hmessage'.symm.trans hmessage), Except.ok.inj (hcause'.symm.trans hcause)⟩

/-- An envelope is read with another type if its result can be taken as one of that type. -/
theorem decode_of_result {e : Envelope α} (he : decode (Envelope α) text = .ok e) {b? : Option β}
    (hresult : ∀ s, gather (fields α maxDepth) (Doc.ofText text).1 = .ok s →
      s.optional (maxDepth - 1) "result" none = .ok b?) :
    decode (Envelope β) text = .ok ⟨e.success, b?, e.message, e.cause⟩ := by
  obtain ⟨hread, hend⟩ := decode_eq_ok.1 he
  obtain ⟨s, hs, hsuccess, -, hmessage, hcause⟩ := read_eq_ok.1 hread
  refine decode_eq_ok.2 ⟨Record.read_of_gather (sameNames α β maxDepth maxDepth) hs ?_, hend⟩
  simp only [Record.fields, List.forall_mem_cons, FieldOf.take_none, FieldOf.take_some]
  exact ⟨hsuccess, hresult s hs, hmessage, hcause, List.forall_mem_nil _⟩

/-- An envelope without a result is read with every type. -/
theorem decode_of_result_eq_none {e : Envelope α} (he : decode (Envelope α) text = .ok e)
    (h : e.result = none) : decode (Envelope β) text = .ok ⟨e.success, none, e.message, e.cause⟩ := by
  obtain ⟨s, hs, -, hresult, -⟩ := read_eq_ok.1 (decode_eq_ok.1 he).1
  refine decode_of_result he fun s' hs' => ?_
  cases hs.symm.trans hs'
  rw [h] at hresult
  rw [Slots.optional] at hresult ⊢
  cases hd : s.lookup "result" with
  | none => rfl
  | some d =>
    rw [hd] at hresult
    cases read_option_eq_none hresult
    rfl

/-- An envelope is read with any type that its result fits. -/
theorem decode_of_resultFits {e : Envelope Value} (he : decode (Envelope Value) text = .ok e)
    (h : ResultFits β text) :
    ∃ b?, decode (Envelope β) text = .ok ⟨e.success, b?, e.message, e.cause⟩ := by
  obtain ⟨s, hs, -⟩ := read_eq_ok.1 (decode_eq_ok.1 he).1
  have hresult : ∃ b? : Option β, s.optional (maxDepth - 1) "result" none = .ok b? := by
    rw [Slots.optional]
    cases hd : s.lookup "result" with
    | none => exact ⟨none, rfl⟩
    | some d => exact h s d hs hd
  obtain ⟨b?, hb⟩ := hresult
  refine ⟨b?, decode_of_result he fun s' hs' => ?_⟩
  cases hs.symm.trans hs'
  exact hb

/-- A type with which an envelope is read fits its result. -/
theorem resultFits_of_decode {e : Envelope α} (h : decode (Envelope α) text = .ok e) :
    ResultFits α text := by
  obtain ⟨s, hs, -, hresult, -⟩ := read_eq_ok.1 (decode_eq_ok.1 h).1
  intro s' d hs' hd
  rw [gather_unique (sameNames Value α maxDepth maxDepth) (nodup_fields α maxDepth) hs' hs] at hd
  rw [Slots.optional, hd] at hresult
  exact ⟨e.result, hresult⟩

omit [FromJson α] in
/-- A failure is written without any value, so that all types write and read it alike. -/
theorem decode_failure [ToJson α] (message : String) (cause : Option String) :
    decode (Envelope β) (encode (failure message cause : Envelope α)) =
      .ok (failure message cause) := by
  -- the text does not mention the type, so that it is also the text of an envelope of `Unit`
  have hunit := decode_encode_unit (failure message cause)
  exact decode_of_result_eq_none hunit rfl

end Envelope

/-! ### Failures -/

open Envelope

/-- **How a failure of the backend is reported.** Take a response, other than 204, that is the envelope
of a failure. If its status is 4xx, the report is the same for callers of all types. If not, callers
are told of the failure, with its message and cause, just if what the envelope holds for a result fits
the type that they expect; to all others the response is a failure of the server (from 500 on) or has
an invalid body. If the envelope has no result, it fits every type, and if it has one, it fits callers
who take any value. -/
theorem failure_reported {σ : Type} {c : Client σ} {w : World σ} {q : Request} {r : Response}
    {e : Envelope Value} (hanswer : (c.transport q w.link).1 = .ok r) (hstatus : r.status ≠ 204)
    (he : decode (Envelope Value) r.body = .ok e) (hfailed : e.success = false) :
    (r.refused = true → ∀ (α : Type) [FromJson α], (c.exchange α w q).1 =
      .error (if r.status = 401 then .sessionExpired r.body else .clientError r.status e.message)) ∧
    (r.refused = false → ∀ (α : Type) [FromJson α],
      ((c.exchange α w q).1 = .error (.remoteFailure e.message e.cause) ↔ ResultFits α r.body) ∧
      (¬ ResultFits α r.body → ∃ f, (c.exchange α w q).1 =
        .error (if 500 ≤ r.status then .serverError r.status else .invalidBody r.status f))) ∧
    ResultFits Value r.body ∧
    (e.result = none → ∀ (α : Type) [FromJson α], ResultFits α r.body) := by
  refine ⟨fun hrefused α _ => ?_, fun hrefused α _ => ?_, resultFits_of_decode he,
    fun hnone α _ => resultFits_of_decode (decode_of_result_eq_none he hnone)⟩
  · rw [Client.exchange_of_answer hanswer]
    by_cases h401 : r.status = 401
    · rw [if_pos h401, Response.outcome_of_expired (Response.expired_iff.2 h401)]
    · have hexpired : r.expired = false := Bool.eq_false_iff.2 (mt Response.expired_iff.1 h401)
      rw [if_neg h401, Response.outcome_of_refused hexpired hrefused,
        Response.message?_of_decode he]
  · rw [Client.exchange_of_answer hanswer]
    cases hd : decode (Envelope α) r.body with
    | ok e' =>
      have hfits : ResultFits α r.body := resultFits_of_decode hd
      obtain ⟨hsuccess, hmessage, hcause⟩ := agree_of_decode he hd
      have hreport : r.outcome α = .error (.remoteFailure e.message e.cause) := by
        rw [Response.outcome_of_decode hstatus hrefused hd, hsuccess, hfailed, hmessage, hcause,
          if_neg Bool.false_ne_true]
      exact ⟨iff_of_true hreport hfits, fun hnot => absurd hfits hnot⟩
    | error f =>
      -- the other parts can be read, so that it is the result that cannot
      have hfits : ¬ ResultFits α r.body := by
        intro hfits
        obtain ⟨a?, ha⟩ := decode_of_resultFits he hfits
        cases hd.symm.trans ha
      rw [Response.outcome_of_fault hstatus hrefused hd]
      refine ⟨iff_of_false ?_ hfits, fun _ => ⟨f, rfl⟩⟩
      split_ifs <;> nofun

/-- A client that gets the same response to all requests. -/
def Client.answered (r : Response) : Client Unit := ⟨"http://h", fun _ l => (.ok r, l), none⟩

/-- What `Client.answered` is used in. -/
def World.still : World Unit := ⟨(), [], .on "/", none⟩

/-- A failure without a result, with status 500, is reported to callers that expect a user. -/
theorem failure_reported_to_user :
    let r : Response := ⟨500, encode (Envelope.failure "m" none : Envelope Value)⟩
    r.status ≠ 204 ∧ ((Client.answered r).exchange User .still (.get "http://h")).1 =
      .error (.remoteFailure (some "m") none) := by
  intro r
  have hstatus : r.status ≠ 204 := by decide
  have he : decode (Envelope Value) r.body = .ok (.failure "m" none) := decode_failure _ _
  obtain ⟨-, hreport, -, hfits⟩ := failure_reported (c := Client.answered r) (w := .still)
    (q := .get "http://h") rfl hstatus he rfl
  exact ⟨hstatus, ((hreport (by decide) User).1).2 (hfits rfl User)⟩

/-- A failure with an empty list for a result is reported to callers that expect a list, but not to
callers that expect a user. -/
theorem failure_with_list_unreported :
    let r : Response := ⟨200, "\x7b\"success\":false,\"result\":[],\"message\":\"m\"\x7d"⟩
    (decode (Envelope Value) r.body).toOption.map (·.success) = some false ∧
      ((Client.answered r).exchange (List String) .still (.get "http://h")).1 =
        .error (.remoteFailure (some "m") none) ∧
      ((Client.answered r).exchange User .still (.get "http://h")).1 =
        .error (.invalidBody 200 .mismatched) := by
  decide +kernel

end PanelClient
