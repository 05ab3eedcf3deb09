import PanelClient.Proofs.Api.Independence
import PanelClient.Proofs.Api.RoundTrip

/-!
# How a login ends

A backend can refuse a login in two ways: with status 403, or with the envelope of a failure under a
status that is no error of the client. The two are read on different paths, and come to the same. Here
it is said for every response whether it grants the login, refuses it, or is no answer to it at all.

* `Response.Refuses`, `Response.Grants` : the response refuses or grants a login; no response does both
  (`Response.not_refuses_of_grants`);
* `Response.Settles`, `Response.settles` : the one thing that each response comes to;
* `Client.login_sends` : the request that a login sends, whatever comes of it;
* `Client.login_settled` : all of it, for every login.
-/

namespace PanelClient

open Json

/-! ### Responses -/

namespace Response

/-- The response refuses a login: its status says so, or it is read and holds the envelope of a
failure. -/
def Refuses (r : Response) : Prop :=
  r.status = 403 ∨ r.status ≠ 204 ∧ ¬ (400 ≤ r.status ∧ r.status ≤ 499) ∧
    ∃ e, decode (Envelope Value) r.body = .ok e ∧ e.success = false

/-- The response grants a login: its status says so, or it holds the envelope of a success. -/
def Grants (r : Response) : Prop :=
  r.status = 204 ∨ ¬ (400 ≤ r.status ∧ r.status ≤ 499) ∧
    ∃ e, decode (Envelope Value) r.body = .ok e ∧ e.success = true

/-- What a response comes to for who asked for a session. -/
inductive Settles (r : Response) : Except ApiError LoginOutcome → Prop
  | granted (h : r.Grants) : Settles r (.ok .success)
  | refused (h : r.Refuses) : Settles r (.ok (.rejected (r.message?.getD "auth.invalid")))
  /-- It is no answer, and no error that comes of it could be taken for a refusal. -/
  | failed {e : ApiError} (hgrants : ¬ r.Grants) (hrefuses : ¬ r.Refuses)
      (hremote : ∀ message cause, e ≠ .remoteFailure message cause)
      (hclient : ∀ message, e ≠ .clientError 403 message) : Settles r (.error e)

variable {r : Response}

theorem not_refuses_of_grants (h : r.Grants) : ¬ r.Refuses := by
  rintro (h403 | ⟨h204, -, e, he, hfailed⟩)
  · rcases h with h204 | ⟨hclient, -⟩
    · rw [h403] at h204
      exact absurd h204 (by decide)
    · rw [h403] at hclient
      exact hclient (by decide)
  · rcases h with hstatus | ⟨-, e', he', hsucceeded⟩
    · exact h204 hstatus
    · cases he.symm.trans he'
      cases hfailed.symm.trans hsucceeded

/-- A status 4xx other than 403 neither grants nor refuses a login. -/
theorem neither_of_clientError (hclient : 400 ≤ r.status ∧ r.status ≤ 499) (h403 : r.status ≠ 403) :
    ¬ r.Grants ∧ ¬ r.Refuses := by
  constructor
  · rintro (h204 | ⟨hnot, -⟩)
    · rw [h204] at hclient
      exact absurd hclient.1 (by decide)
    · exact hnot hclient
  · rintro (hstatus | ⟨-, hnot, -⟩)
    · exact h403 hstatus
    · exact hnot hclient

theorem settles_of_clientError (hclient : 400 ≤ r.status ∧ r.status ≤ 499) :
    r.Settles (Client.admitted (r.outcome Value)) := by
  by_cases h401 : r.status = 401
  · obtain ⟨hgrants, hrefuses⟩ := neither_of_clientError hclient (by rw [h401]; decide)
    rw [outcome_of_expired (expired_iff.2 h401)]
    exact .failed hgrants hrefuses (by simp) (by simp)
  rw [outcome_of_refused (Bool.eq_false_iff.2 (mt expired_iff.1 h401)) (refused_iff.2 hclient)]
  by_cases h403 : r.status = 403
  · rw [h403]
    exact .refused (.inl h403)
  · obtain ⟨hgrants, hrefuses⟩ := neither_of_clientError hclient h403
    have hpassed : Client.admitted (.error (.clientError r.status r.message?) :
        Except ApiError (Option Value)) = .error (.clientError r.status r.message?) := by
      rw [Client.admitted] <;> simp [h403]
    rw [hpassed]
    exact .failed hgrants hrefuses (by simp) fun message heq =>
      h403 (ApiError.clientError.inj heq).1

theorem settles_of_read (h204 : r.status ≠ 204) (hclient : ¬ (400 ≤ r.status ∧ r.status ≤ 499)) :
    r.Settles (Client.admitted (r.outcome Value)) := by
  have hread : r.refused = false := Bool.eq_false_iff.2 (mt refused_iff.1 hclient)
  cases hd : decode (Envelope Value) r.body with
  | ok e =>
    rw [outcome_of_decode h204 hread hd]
    cases hsuccess : e.success with
    | true => exact .granted (.inr ⟨hclient, e, hd, hsuccess⟩)
    | false =>
      rw [if_neg Bool.false_ne_true, Client.admitted, ← message?_of_decode hd]
      exact .refused (.inr ⟨h204, hclient, e, hd, hsuccess⟩)
  | error f =>
    have hbody : ∀ e, decode (Envelope Value) r.body ≠ .ok e := by
      intro e he
      cases hd.symm.trans he
    have hgrants : ¬ r.Grants := by
      rintro (hstatus | ⟨-, e, he, -⟩)
      · exact h204 hstatus
      · exact hbody e he
    have hrefuses : ¬ r.Refuses := by
      rintro (h403 | ⟨-, -, e, he, -⟩)
      · exact hclient (by rw [h403]; decide)
      · exact hbody e he
    rw [outcome_of_fault h204 hread hd]
    split_ifs
    · exact .failed hgrants hrefuses (by simp) (by simp)
    · exact .failed hgrants hrefuses (by simp) (by simp)

/-- **Every response settles a login.** -/
theorem settles (r : Response) : r.Settles (Client.admitted (r.outcome Value)) := by
  by_cases h204 : r.status = 204
  · rw [outcome_of_noContent h204]
    exact .granted (.inl h204)
  by_cases hclient : 400 ≤ r.status ∧ r.status ≤ 499
  · exact settles_of_clientError hclient
  · exact settles_of_read h204 hclient

section Settles

variable {outcome : Except ApiError LoginOutcome}

theorem Settles.rejected_iff (h : r.Settles outcome) (key : String) :
    outcome = .ok (.rejected key) ↔ r.Refuses ∧ key = r.message?.getD "auth.invalid" := by
  cases h with
  | granted hgrants => exact iff_of_false nofun fun h => not_refuses_of_grants hgrants h.1
  | refused hrefuses =>
    constructor
    · rintro ⟨⟩
      exact ⟨hrefuses, rfl⟩
    · rintro ⟨-, rfl⟩
      rfl
  | failed hgrants hrefuses => exact iff_of_false nofun fun h => hrefuses h.1

theorem Settles.success_iff (h : r.Settles outcome) : outcome = .ok .success ↔ r.Grants := by
  cases h with
  | granted hgrants => exact iff_of_true rfl hgrants
  | refused hrefuses => exact iff_of_false nofun fun h => not_refuses_of_grants h hrefuses
  | failed hgrants => exact iff_of_false nofun hgrants

theorem Settles.error_iff (h : r.Settles outcome) :
    (∃ e, outcome = .error e) ↔ ¬ r.Grants ∧ ¬ r.Refuses := by
  cases h with
  | granted hgrants => exact iff_of_false nofun fun h => h.1 hgrants
  | refused hrefuses => exact iff_of_false nofun fun h => h.2 hrefuses
  | failed hgrants hrefuses => exact iff_of_true ⟨_, rfl⟩ ⟨hgrants, hrefuses⟩

end Settles

end Response

/-! ### Logins -/

namespace Client

variable {σ : Type} (c : Client σ) (w : World σ) (username password : String)

theorem login_settles {r : Response}
    (h : c.answer w ((Call.login username password).request c) = .ok r) :
    r.Settles (c.login w username password).1 := by
  rw [login_fst, h]
  exact r.settles

theorem login_of_noResponse {e : NoResponse}
    (h : c.answer w ((Call.login username password).request c) = .error e) :
    (c.login w username password).1 = .error (.unreachable e) := by
  rw [login_fst, h]
  rfl

/-- An error of a login could not be taken for a refusal. -/
theorem login_error_ne {e : ApiError} (h : (c.login w username password).1 = .error e) :
    (∀ message cause, e ≠ .remoteFailure message cause) ∧
      ∀ message, e ≠ .clientError 403 message := by
  cases hr : c.answer w ((Call.login username password).request c) with
  | error e' =>
    rw [login_of_noResponse c w username password hr] at h
    cases h
    simp
  | ok r =>
    have hsettles := login_settles c w username password hr
    rw [h] at hsettles
    cases hsettles with
    | failed _ _ hremote hclient => exact ⟨hremote, hclient⟩

/-- **What a login sends**, whatever comes of it. -/
theorem login_sends : ∃ q body, (c.login w username password).2.sent = w.sent ++ [q] ∧
    q.method = .post ∧ q.url = c.url "/auth/login" ∧ q.body = some body ∧
      decode Credentials body = .ok ⟨username, password, true⟩ := by
  refine ⟨(Call.login username password).request c, _, ?_, rfl, rfl, rfl, decode_encode _⟩
  exact congrArg World.sent (Call.make_world (c := c) (w := w) (.login username password))

/-- **How a login ends.** It is rejected just if the response refuses it, with the message in the body
if there is one, and succeeds just if the response grants it; no other response is taken for either,
and no error of a login could be taken for a refusal. So a backend can refuse a login by the envelope
of a failure under status 403 or under any status that is read, with the same outcome. Whatever comes of
it, one request is sent, from the body of which user name and password are read as they were given. -/
theorem login_settled :
    (∀ r, c.answer w ((Call.login username password).request c) = .ok r →
      (∀ key, (c.login w username password).1 = .ok (.rejected key) ↔
        r.Refuses ∧ key = r.message?.getD "auth.invalid") ∧
      ((c.login w username password).1 = .ok .success ↔ r.Grants) ∧
      ((∃ e, (c.login w username password).1 = .error e) ↔ ¬ r.Grants ∧ ¬ r.Refuses)) ∧
    (∀ e, c.answer w ((Call.login username password).request c) = .error e →
      (c.login w username password).1 = .error (.unreachable e)) ∧
    (∀ e, (c.login w username password).1 = .error e →
      (∀ message cause, e ≠ .remoteFailure message cause) ∧
        ∀ message, e ≠ .clientError 403 message) ∧
    (∀ body e status, decode (Envelope Value) body = .ok e → e.success = false →
      status ≠ 204 → ¬ (400 ≤ status ∧ status ≤ 499) →
      c.answer w ((Call.login username password).request c) = .ok ⟨403, body⟩ →
      ∀ (c' : Client σ) (w' : World σ),
        c'.answer w' ((Call.login username password).request c') = .ok ⟨status, body⟩ →
        (c'.login w' username password).1 = (c.login w username password).1) ∧
    ∃ q body, (c.login w username password).2.sent = w.sent ++ [q] ∧
      q.method = .post ∧ q.url = c.url "/auth/login" ∧ q.body = some body ∧
        decode Credentials body = .ok ⟨username, password, true⟩ := by
  refine ⟨fun r hr => ?_, fun e he => login_of_noResponse c w username password he,
    fun e he => login_error_ne c w username password he, ?_, login_sends c w username password⟩
  · have h := login_settles c w username password hr
    exact ⟨h.rejected_iff, h.success_iff, h.error_iff⟩
  · intro body e status he hfailed h204 hclient hanswer c' w' hanswer'
    -- the message is that of the body, whatever the status
    have hforbidden := (login_settles c w username password hanswer).rejected_iff
      ((Response.message? ⟨403, body⟩).getD "auth.invalid")
    have hread := (login_settles c' w' username password hanswer').rejected_iff
      ((Response.message? ⟨403, body⟩).getD "auth.invalid")
    rw [hforbidden.2 ⟨.inl rfl, rfl⟩,
      hread.2 ⟨.inr ⟨h204, hclient, e, he, hfailed⟩, rfl⟩]

end Client

end PanelClient
