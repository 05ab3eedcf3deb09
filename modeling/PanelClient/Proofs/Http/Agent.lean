import PanelClient.Http.Agent
import Mathlib.Tactic.SplitIfs

/-!
# Requests that are not led elsewhere

An agent follows the answers that lead it to other addresses. Where there are no such answers, an agent
without cookies sends the call of a request as it is, and that is all that it asks of the network.

* `Network.Plain` : no answer leads elsewhere;
* `Agent.transport_net` : a request comes to one call at most;
* `Agent.transport_eq_ok` : the response is the answer to that call, if it is final and whole.
-/

namespace PanelClient

variable {σ : Type}

/-- No answer that the network would give now leads elsewhere. -/
def Network.Plain (network : Network σ) (net : σ) : Prop :=
  ∀ c r, (network c net).1 = some r → Header.values r.fields "location" = []

theorem Call.sequel_of_no_location {r : Answer} (h : Header.values r.fields "location" = [])
    (c : Call) : c.sequel r = if r.isFinal then .final r else .lost := by
  rw [sequel, h]
  cases r.isFinal with
  | false => rfl
  | true => cases r.redirects <;> rfl

namespace Answer

variable {r : Answer}

theorem status_of_response {response : Response} (h : r.response? = some response) :
    response.status = r.status := by
  rw [response?] at h
  split_ifs at h
  · cases h
    rfl
  · cases h
    rfl

theorem response_of_unauthorized (h : r.status = 401) :
    r.response? = if r.complete then some ⟨r.status, r.body⟩ else none := by
  have hbare : r.isBare = false := by
    rw [isBare, h]
    decide
  rw [response?, hbare, if_neg Bool.false_ne_true]

/-- An answer with status 401 is a response as soon as its body is there. -/
theorem unauthorized_iff :
    (r.isFinal = true ∧ ∃ response, r.response? = some response ∧ response.status = 401) ↔
      r.status = 401 ∧ r.complete = true := by
  constructor
  · rintro ⟨-, response, hresponse, hstatus⟩
    have h401 : r.status = 401 := (status_of_response hresponse).symm.trans hstatus
    rw [response_of_unauthorized h401] at hresponse
    split_ifs at hresponse with hcomplete
    exact ⟨h401, hcomplete⟩
  · rintro ⟨h401, hcomplete⟩
    have hfinal : r.isFinal = true := by
      rw [isFinal, h401]
      decide
    refine ⟨hfinal, ⟨r.status, r.body⟩, ?_, h401⟩
    rw [response_of_unauthorized h401, if_pos hcomplete]

end Answer

namespace Agent

variable {a : Agent σ} {net : σ} {c : Call} {q : Request}

/-- Without cookies a call goes out as it is. -/
theorem send_empty (a : Agent σ) (c : Call) (net : σ) :
    ∃ jar, a.send c ⟨[], net⟩ = ((a.network c net).1, ⟨jar, (a.network c net).2⟩) := by
  have hjar : Jar.field? [] a.now c.url = none := by simp [Jar.field?, Jar.select]
  rw [send, hjar]
  dsimp only
  cases (a.network c net).1 with
  | none => exact ⟨_, rfl⟩
  | some r => exact ⟨_, rfl⟩

theorem step_of_plain (h : a.network.Plain net) (c : Call) : ∃ jar, a.step c ⟨[], net⟩ =
    (match (a.network c net).1.filter Answer.isFinal with
      | some r => .final r
      | none => .lost, ⟨jar, (a.network c net).2⟩) := by
  obtain ⟨jar, hsend⟩ := a.send_empty c net
  refine ⟨jar, ?_⟩
  rw [step, hsend]
  cases hr : (a.network c net).1 with
  | none => rfl
  | some r =>
    dsimp only
    rw [c.sequel_of_no_location (h c r hr), Option.filter_some]
    cases r.isFinal <;> rfl

/-- Nothing is chased: the first answer is the last one. -/
theorem chase_of_plain (h : a.network.Plain net) (n : Nat) (c : Call) :
    ∃ jar, a.chase n c ⟨[], net⟩ =
      ((a.network c net).1.filter Answer.isFinal, ⟨jar, (a.network c net).2⟩) := by
  obtain ⟨jar, hstep⟩ := step_of_plain h c
  refine ⟨jar, ?_⟩
  unfold chase
  rw [hstep]
  cases (a.network c net).1.filter Answer.isFinal with
  | some r => rfl
  | none => cases n <;> rfl

/-- A request asks for one call, unless it cannot be sent at all. -/
theorem transport_net (h : a.network.Plain net) (q : Request) :
    (a.transport q ⟨[], net⟩).2.net = (a.call? q).elim net fun c => (a.network c net).2 := by
  rw [transport]
  cases a.call? q with
  | none => rfl
  | some c =>
    obtain ⟨jar, hchase⟩ := chase_of_plain h maxRedirections c
    dsimp only
    rw [hchase]
    cases (a.network c net).1.filter Answer.isFinal with
    | none => rfl
    | some r =>
      dsimp only
      cases r.response? <;> rfl

/-- The response is the answer to that call, if it is final and its body is there. -/
theorem transport_eq_ok (h : a.network.Plain net) {response : Response} :
    (a.transport q ⟨[], net⟩).1 = .ok response ↔ ∃ c r, a.call? q = some c ∧
      (a.network c net).1 = some r ∧ r.isFinal = true ∧ r.response? = some response := by
  rw [transport]
  cases hc : a.call? q with
  | none => simp
  | some c =>
    obtain ⟨jar, hchase⟩ := chase_of_plain h maxRedirections c
    dsimp only
    rw [hchase]
    cases hr : (a.network c net).1 with
    | none => simp [hr]
    | some r =>
      cases hfinal : r.isFinal with
      | false => simp [hr, hfinal, Option.filter_some]
      | true => cases hresponse : r.response? <;> simp [hr, hfinal, hresponse, Option.filter_some]

/-- The response has status 401 if the answer has. -/
theorem transport_unauthorized_iff (h : a.network.Plain net) :
    (∃ response, (a.transport q ⟨[], net⟩).1 = .ok response ∧ response.status = 401) ↔
      ∃ c r, a.call? q = some c ∧ (a.network c net).1 = some r ∧ r.status = 401 ∧
        r.complete = true := by
  constructor
  · rintro ⟨response, htransport, hstatus⟩
    obtain ⟨c, r, hc, hr, hfinal, hresponse⟩ := (transport_eq_ok h).1 htransport
    exact ⟨c, r, hc, hr, Answer.unauthorized_iff.1 ⟨hfinal, response, hresponse, hstatus⟩⟩
  · rintro ⟨c, r, hc, hr, hunauthorized⟩
    obtain ⟨hfinal, response, hresponse, hstatus⟩ := Answer.unauthorized_iff.2 hunauthorized
    exact ⟨response, (transport_eq_ok h).2 ⟨c, r, hc, hr, hfinal, hresponse⟩, hstatus⟩

end Agent

end PanelClient
