import PanelClient.Proofs.Api.Effects
import PanelClient.Proofs.Api.Outcome

/-!
# Results do not depend on what calls do besides

A call may lead the front end to the login page and may tell the user something. None of that comes
back: what a call gives to its caller depends on the call and on the response to it, and on nothing
else, and what it sends depends on the call and on the address of the backend.

* `Client.Call.result` : what a call makes of a response, without any client or world;
* `Client.Call.make_fst` : every call gives its caller just that;
* `Client.history` : the calls of a run with their requests, responses and answers;
* `Client.Alike` : two clients, each in its world, differ only in policy, route and notifications;
* `Client.Alike.run` : they stay alike along their runs, and have the same history;
* `Client.results_independent` : the two-run statement.
-/

namespace PanelClient

namespace Client

open Json

variable {σ : Type} {c c' : Client σ} {w w' : World σ} {α : Type}

/-! ### Single calls -/

/-- What comes back, to a caller that expects a result of type `α`. -/
def heard (α : Type) [FromJson α] : Except NoResponse Response → Except ApiError (Option α)
  | .error e => .error (.unreachable e)
  | .ok r => r.outcome α

/-- The same to a caller that cannot do without a result. -/
def needed : Except ApiError (Option α) → Except ApiError α
  | .ok (some a) => .ok a
  | .ok none => .error .missingResult
  | .error e => .error e

/-- The same to a caller that only asks for success. -/
def done : Except ApiError (Option α) → Except ApiError Unit
  | .ok _ => .ok ()
  | .error e => .error e

/-- The same to a user who wants a session: a failure that the backend reports is a refusal, and so
is status 403. -/
def admitted : Except ApiError (Option α) → Except ApiError LoginOutcome
  | .ok _ => .ok .success
  | .error (.remoteFailure message _) => .ok (.rejected (message.getD refusedLogin))
  | .error (.clientError 403 message) => .ok (.rejected (message.getD refusedLogin))
  | .error e => .error e

/-- What a call makes of what comes back. -/
def Call.result : (k : Call) → Except NoResponse Response → k.Answer
  | .ping, r => alive r
  | .pingUrl _, r => alive r
  | .login _ _, r => admitted (heard Value r)
  | .logout, r => done (heard Value r)
  | .currentUser, r => needed (heard User r)
  | .listInstances, r => needed (heard (List String) r)
  | .instance _, r => needed (heard Instance r)
  | .createInstance _ _ _, r => needed (heard Instance r)
  | .deleteInstance _, r => done (heard Value r)
  | .systemInfo, r => needed (heard SystemInfo r)
  | @exchange α _ _, r => heard α r

section Results

variable [FromJson α] {q : Request}

theorem exchange_fst : (c.exchange α w q).1 = heard α (c.answer w q) := by
  rw [exchange, send_eq]
  cases c.answer w q <;> rfl

theorem fetch_fst : (c.fetch α w q).1 = needed (heard α (c.answer w q)) := by
  rw [← exchange_fst, fetch]
  rcases c.exchange α w q with ⟨_ | _ | _, _⟩ <;> rfl

theorem perform_fst : (c.perform w q).1 = done (heard Value (c.answer w q)) := by
  rw [← exchange_fst, perform]
  rcases c.exchange Value w q with ⟨_ | _, _⟩ <;> rfl

theorem pingUrl_fst (url : String) : (c.pingUrl w url).1 = alive (c.answer w (.get url)) := by
  rw [pingUrl, send_eq]
  dsimp only
  cases alive (c.answer w (.get url)) <;> rfl

theorem login_fst (username password : String) : (c.login w username password).1 =
    admitted (heard Value (c.answer w ((Call.login username password).request c))) := by
  rw [← exchange_fst, login, Call.request]
  split <;> rename_i h <;> rw [h]
  · rfl
  · rfl
  · rfl
  -- any other error is passed on
  · rw [admitted] <;> assumption

theorem logout_fst :
    (c.logout w).1 = done (heard Value (c.answer w (Call.logout.request c))) := by
  rw [← perform_fst, logout, Call.request]
  rcases c.perform w (.get (c.url "/auth/logout")) with ⟨_ | _, _⟩ <;> rfl

end Results

/-- **What a call gives to its caller** is what it makes of the response to its request. -/
theorem Call.make_fst (k : Call) : (k.make c w).1 = k.result (c.answer w (k.request c)) := by
  cases k with
  | ping => exact pingUrl_fst _
  | pingUrl url => exact pingUrl_fst url
  | login username password => exact login_fst username password
  | logout => exact logout_fst
  | currentUser => exact fetch_fst
  | listInstances => exact fetch_fst
  | «instance» name => exact fetch_fst
  | createInstance name type version => exact fetch_fst
  | deleteInstance name => exact perform_fst
  | systemInfo => exact fetch_fst
  | exchange α q => exact exchange_fst

/-! ### Histories -/

/-- A call that was made: what was sent, what came back, and what the caller was given. -/
structure Exchange : Type 1 where
  call : Call
  request : Request
  response : Except NoResponse Response
  answer : call.Answer

/-- The call that an event is. -/
def Event.call? : Event → Option Call
  | .call k => some k
  | .navigate _ => none
  | .notifications _ => none

/-- The calls among events, in order. -/
def calls (events : List Event) : List Call := events.filterMap Event.call?

/-- What a call leaves in the history. -/
def exchanged (c : Client σ) (w : World σ) (k : Call) : Exchange :=
  ⟨k, k.request c, c.answer w (k.request c), (k.make c w).1⟩

/-- The calls of a run, each in the world that it meets. -/
def history (c : Client σ) (w : World σ) : List Event → List Exchange
  | [] => []
  | e :: events => (e.call?.map (c.exchanged w)).toList ++ c.history (c.after w e) events

theorem answer_of_mem_history {events : List Event} {x : Exchange} (h : x ∈ c.history w events) :
    x.answer = x.call.result x.response := by
  induction events generalizing w with
  | nil => exact absurd h List.not_mem_nil
  | cons e events ih =>
    rcases List.mem_append.1 h with hx | hx
    · obtain ⟨k, -, rfl⟩ := Option.map_eq_some_iff.1 (Option.mem_toList.1 hx)
      exact k.make_fst
    · exact ih hx

theorem history_requests (w : World σ) (events : List Event) :
    (c.history w events).map Exchange.request = events.filterMap (Event.request? c) := by
  induction events generalizing w with
  | nil => rfl
  | cons e events ih =>
    cases e with
    | call k => exact congrArg (List.cons (k.request c)) (ih _)
    | navigate route => exact ih _
    | notifications op => exact ih _

theorem run_sent_history (w : World σ) (events : List Event) :
    (c.run w events).sent = w.sent ++ (c.history w events).map Exchange.request := by
  rw [run_sent, history_requests]

/-! ### Two runs -/

/-- Two clients, each in its world, that differ at most in what they do when the session has expired,
in where their front ends are, and in what their users are told. -/
structure Alike (c c' : Client σ) (w w' : World σ) : Prop where
  baseUrl_eq : c.baseUrl = c'.baseUrl
  transport_eq : c.transport = c'.transport
  link_eq : w.link = w'.link

namespace Alike

theorem refl (c : Client σ) (w : World σ) : Alike c c w w := ⟨rfl, rfl, rfl⟩

variable (h : Alike c c' w w')
include h

theorem request_eq (k : Call) : k.request c = k.request c' := by
  have hurl : c.url = c'.url := by
    funext path
    rw [url, h.baseUrl_eq, url]
  cases k <;> simp only [Call.request, instanceUrl, hurl]

theorem answer_eq (q : Request) : c.answer w q = c'.answer w' q := by
  rw [answer, h.transport_eq, h.link_eq, answer]

theorem exchanged_eq (k : Call) : c.exchanged w k = c'.exchanged w' k := by
  rw [exchanged, exchanged, k.make_fst, k.make_fst, h.request_eq, h.answer_eq]

/-- A call that both make leaves them alike. -/
theorem call (k : Call) : Alike c c' (c.after w (.call k)) (c'.after w' (.call k)) where
  baseUrl_eq := h.baseUrl_eq
  transport_eq := h.transport_eq
  link_eq := by
    rw [after, after, k.make_world, k.make_world, h.transport_eq, h.request_eq, h.link_eq]

/-- So does anything but a call that happens to one of them. -/
theorem other {e : Event} (he : e.call? = none) : Alike c c' (c.after w e) w' := by
  cases e with
  | call k => nomatch he
  | navigate route => exact ⟨h.baseUrl_eq, h.transport_eq, h.link_eq⟩
  | notifications op => exact ⟨h.baseUrl_eq, h.transport_eq, h.link_eq⟩

/-- One runs through events, the other through their calls alone, and the histories are equal. -/
theorem history_eq (events : List Event) :
    c.history w events = c'.history w' ((calls events).map .call) := by
  induction events generalizing w w' with
  | nil => rfl
  | cons e events ih =>
    cases e with
    | call k => exact congrArg₂ List.cons (h.exchanged_eq k) (ih (h.call k))
    | navigate route => exact ih (h.other rfl)
    | notifications op => exact ih (h.other rfl)

end Alike

variable {events events' : List Event}

/-- **Redirections and notifications do not alter results.** Take two clients that differ in their
policies only, over one transport in one state; their front ends and notifications may be in any
states, and the one front end may be led elsewhere where the other is not, or the one user told
something where the other is not. If both make the same calls in the same order, with any navigations
and any uses of the notifications between them, then all requests, all responses and all that the
callers are given are the same, and what a caller is given is what the call makes of its own response.
The requests that went out are those of the history. -/
theorem results_independent (c : Client σ) (w : World σ) (policy : Option ExpiryPolicy)
    (navigator : Navigator) (notifier : Option Center) (hcalls : calls events' = calls events) :
    let c' := { c with policy }
    let w' := { w with navigator, notifier }
    c'.history w' events' = c.history w events ∧
      (c'.run w' events').sent = (c.run w events).sent ∧
      (c.run w events).sent = w.sent ++ (c.history w events).map Exchange.request ∧
      ∀ x ∈ c.history w events, x.answer = x.call.result x.response := by
  intro c' w'
  have halike : Alike c' c w' w := ⟨rfl, rfl, rfl⟩
  have hhistory : c'.history w' events' = c.history w events := by
    rw [halike.history_eq, (Alike.refl c w).history_eq events, hcalls]
  refine ⟨hhistory, ?_, run_sent_history w events, fun x => answer_of_mem_history⟩
  rw [run_sent_history w', run_sent_history w, hhistory]

/-- The session has expired. The one front end has no policy; the other is led to the login page, goes
on to another page and is led back, and its user is told something before. Both are given the same. -/
theorem results_independent_of_expiry :
    let c := answered ⟨401, ""⟩
    let c' := { c with policy := some .standard }
    let w' := { World.still with notifier := some .initial }
    let events := [.call .currentUser, .call .listInstances]
    let events' := [.notifications (.alert "a"), .call .currentUser, .navigate "/users",
      .call .listInstances]
    calls events' = calls events ∧
      (c'.run w' events').navigator.replaced = ["/login?next=/", "/users", "/login?next=/users"] ∧
      (c.run .still events).navigator.replaced = [] ∧
      c'.history w' events' = c.history .still events := by
  intro c c' w' events events'
  refine ⟨rfl, by decide +kernel, rfl, ?_⟩
  exact (results_independent c .still (some .standard) (.on "/") (some .initial) rfl).1

end Client

end PanelClient
