import PanelClient.Proofs.Api.Call
import PanelClient.Proofs.Notification.Course

/-!
# What calls do besides answering

A call touches the transport, the route of the front end and the notifications. Here it is said how, for
each call and each response, and that nothing else happens along any run of calls, navigations and uses
of the notifications.

* `Client.Call.Documented` : all that a call does to the world that it meets;
* `Client.Call.documented` : every call does just that, if the notifications are in order;
* `Client.Event`, `Client.run` : what can happen to a world, and a whole run;
* `Client.run_orderly` : the notifications stay in order along a run;
* `Client.calls_documented` : all of it for every run.
-/

namespace PanelClient

namespace Center

variable {n : Center}

theorem run_queue_consistent (ops : List Op) : (initial.run ops).queue.Consistent := by
  obtain ⟨ops', hops⟩ := after_queue initial (initial.course ops)
  rw [after_course] at hops
  rw [hops]
  exact Queue.run_consistent ops'

theorem push_queue (n : Center) (m : Message) : (n.push m).queue = (n.queue.push m).1 := by
  rw [push, apply_queue]

/-- An urgent message comes on screen, and what waits goes on waiting. -/
theorem snapshot_urgent (n : Center) (m : Message) :
    (n.urgent m).queue.snapshot = ⟨some ⟨n.queue.lastId + 1, m⟩, n.queue.backlog⟩ := by
  rw [urgent, apply_queue]
  rfl

/-- A message that was pushed is shown if nothing is. -/
theorem snapshot_push_of_none (hn : n.queue.Consistent) (h : n.queue.current = none) (m : Message) :
    (n.push m).queue.snapshot = ⟨some ⟨n.queue.lastId + 1, m⟩, n.queue.backlog⟩ := by
  rw [push_queue, Queue.push, if_pos (hn.idle_iff.2 h)]
  rfl

/-- A message that was pushed waits if one is shown. -/
theorem snapshot_push_of_some (hn : n.queue.Consistent) {s : Shown} (h : n.queue.current = some s)
    (m : Message) : (n.push m).queue.snapshot = ⟨some s, n.queue.backlog ++ [m]⟩ := by
  rw [push_queue, hn.push_of_current h, ← h]
  rfl

end Center

namespace Client

variable {σ : Type} {c : Client σ} {w : World σ}

/-! ### Expired sessions -/

/-- Where the front end is after a response was looked at. -/
def redirected (c : Client σ) (n : Navigator) : Except NoResponse Response → Navigator
  | .error _ => n
  | .ok r => if r.expired then
      match c.policy with
      | some p => (p.expire n).2
      | none => n
    else n

theorem settle_eq (q : Request) : c.settle w q =
    { c.sending w q with navigator := c.redirected w.navigator (c.answer w q) } := by
  rw [settle]
  cases c.answer w q with
  | error e => rfl
  | ok r =>
    dsimp only
    rw [react, redirected]
    cases r.expired with
    | false => rfl
    | true => cases c.policy <;> rfl

namespace Call

/-- The call finds the session expired, and there is a policy that sends the user elsewhere. -/
structure Redirects (c : Client σ) (w : World σ) (k : Call) (p : ExpiryPolicy) : Prop where
  isPing_eq : k.isPing = false
  policy_eq : c.policy = some p
  status_eq : ∃ r, c.answer w (k.request c) = .ok r ∧ r.status = 401
  away : pathOf w.navigator.route ≠ p.loginRoute

end Call

theorem redirected_of_redirects {k : Call} {p : ExpiryPolicy} (h : k.Redirects c w p) :
    c.redirected w.navigator (c.answer w (k.request c)) =
      w.navigator.replace (p.target w.navigator.route) := by
  obtain ⟨r, hr, h401⟩ := h.status_eq
  have haway : p.onLogin w.navigator.route = false := beq_false_of_ne h.away
  have hexpired : r.expired = true := beq_iff_eq.2 h401
  rw [hr, redirected, if_pos hexpired, h.policy_eq]
  exact congrArg Prod.snd (ExpiryPolicy.expire_of_not_onLogin haway)

theorem redirected_of_not_redirects {k : Call} (hping : k.isPing = false)
    (h : ∀ p, ¬ k.Redirects c w p) :
    c.redirected w.navigator (c.answer w (k.request c)) = w.navigator := by
  cases hr : c.answer w (k.request c) with
  | error e => rfl
  | ok r =>
    rw [redirected]
    split_ifs with hexpired
    · cases hp : c.policy with
      | none => rfl
      | some p =>
        cases hlogin : p.onLogin w.navigator.route with
        | true => exact congrArg Prod.snd (ExpiryPolicy.expire_of_onLogin hlogin)
        | false =>
          -- the one case in which the front end is led elsewhere
          have haway : pathOf w.navigator.route ≠ p.loginRoute := ne_of_beq_false hlogin
          exact absurd ⟨hping, hp, ⟨r, hr, beq_iff_eq.1 hexpired⟩, haway⟩ (h p)
    · rfl

/-! ### Calls -/

/-- The notifications are in order. -/
def Orderly (w : World σ) : Prop := ∀ n, w.notifier = some n → n.queue.Consistent

namespace Call

/-- All that a call does to a world. -/
structure Documented (c : Client σ) (w : World σ) (k : Call) : Prop where
  /-- The request is sent once, whatever comes of it. -/
  sent_eq : (k.make c w).2.sent = w.sent ++ [k.request c]
  link_eq : (k.make c w).2.link = (c.transport (k.request c) w.link).2
  /-- If the session has expired and the user is elsewhere, the front end is asked once for another
  route, the login page. It goes there, unless it never leaves its route. -/
  redirects {p : ExpiryPolicy} (h : k.Redirects c w p) :
    (k.make c w).2.navigator.replaced = w.navigator.replaced ++ [p.target w.navigator.route] ∧
      (k.make c w).2.navigator.pinned = w.navigator.pinned ∧
      (w.navigator.pinned = false →
        (k.make c w).2.navigator.route = p.target w.navigator.route) ∧
      (w.navigator.pinned = true → (k.make c w).2.navigator.route = w.navigator.route)
  /-- The front end stays where it is in all other cases. -/
  stays (h : ∀ p, ¬ k.Redirects c w p) : (k.make c w).2.navigator = w.navigator
  /-- A ping that is not answered shows one warning at once, and nothing else. -/
  warned {n : Center} (hn : w.notifier = some n) (h : k.PingFailed (k.make c w).1) :
    let warning : Message := ⟨"server.unreachable", .warning, .ofSeconds 10⟩
    (k.make c w).2.notifier = some (n.urgent warning) ∧
      (n.urgent warning).queue.snapshot = ⟨some ⟨n.queue.lastId + 1, warning⟩, n.queue.backlog⟩
  /-- A logout that succeeds pushes one message: it is shown if nothing is, and waits otherwise. -/
  confirmed {n : Center} (hn : w.notifier = some n) (h : k.LoggedOut (k.make c w).1) :
    let info : Message := ⟨"auth.logout", .info, .ofSeconds 10⟩
    (k.make c w).2.notifier = some (n.push info) ∧
      (n.queue.current = none →
        (n.push info).queue.snapshot = ⟨some ⟨n.queue.lastId + 1, info⟩, n.queue.backlog⟩) ∧
      ∀ s, n.queue.current = some s →
        (n.push info).queue.snapshot = ⟨some s, n.queue.backlog ++ [info]⟩
  /-- The notifications stay as they are in all other cases. -/
  silent (h : ¬ k.PingFailed (k.make c w).1) (h' : ¬ k.LoggedOut (k.make c w).1) :
    (k.make c w).2.notifier = w.notifier
  /-- Without notifications nobody is told. -/
  unheard (hn : w.notifier = none) : (k.make c w).2.notifier = none

theorem warns_false (n : Center) : warns false n = n.alert "server.unreachable" := by
  rw [warns, if_neg Bool.false_ne_true]

theorem warns_true (n : Center) : warns true n = n := by
  rw [warns, if_pos rfl, id]

variable {k : Call} {a : k.Answer}

theorem tells_of_pingFailed (h : k.PingFailed a) (n : Center) :
    k.tells a n = n.alert "server.unreachable" := by
  cases k with
  | ping =>
    cases (show a = false from h)
    exact warns_false n
  | pingUrl url =>
    cases (show a = false from h)
    exact warns_false n
  | _ => exact h.elim

theorem tells_of_loggedOut (h : k.LoggedOut a) (n : Center) :
    k.tells a n = n.notifyFast "auth.logout" := by
  cases k with
  | logout =>
    cases (show a = .ok () from h)
    rfl
  | _ => exact h.elim

theorem tells_of_neither (h : ¬ k.PingFailed a) (h' : ¬ k.LoggedOut a) (n : Center) :
    k.tells a n = n := by
  cases k with
  | ping =>
    cases (show a = true from eq_true_of_ne_false h)
    exact warns_true n
  | pingUrl url =>
    cases (show a = true from eq_true_of_ne_false h)
    exact warns_true n
  | logout =>
    match a, h' with
    | .ok (), h' => exact absurd rfl h'
    | .error e, _ => rfl
  | _ => rfl

/-- The world after a call, part by part. -/
theorem make_world (k : Call) : (k.make c w).2 =
    ⟨(c.transport (k.request c) w.link).2, w.sent ++ [k.request c],
      if k.isPing then w.navigator else c.redirected w.navigator (c.answer w (k.request c)),
      w.notifier.map (k.tells (k.make c w).1)⟩ := by
  rw [make_snd]
  cases k.isPing with
  | true => rfl
  | false =>
    rw [if_neg Bool.false_ne_true, settle_eq]
    rfl

/-- **What a call does**, in a world of which the notifications are in order. -/
theorem documented (hw : Orderly w) (k : Call) : Documented c w k where
  sent_eq := by rw [make_world]
  link_eq := by rw [make_world]
  redirects h := by
    rw [make_world, h.isPing_eq, if_neg Bool.false_ne_true, redirected_of_redirects h]
    refine ⟨rfl, rfl, fun hfree => ?_, fun hpinned => ?_⟩
    · simp [Navigator.replace, hfree]
    · simp [Navigator.replace, hpinned]
  stays h := by
    rw [make_world]
    cases hping : k.isPing with
    -- a ping does not look whether the session has expired
    | true => rfl
    | false => exact redirected_of_not_redirects hping h
  warned hn h := by
    rw [make_world, hn, Option.map_some, tells_of_pingFailed h]
    exact ⟨rfl, Center.snapshot_urgent _ _⟩
  confirmed hn h := by
    rw [make_world, hn, Option.map_some, tells_of_loggedOut h]
    exact ⟨rfl, fun hnone => Center.snapshot_push_of_none (hw _ hn) hnone _,
      fun s hs => Center.snapshot_push_of_some (hw _ hn) hs _⟩
  silent h h' := by
    rw [make_world]
    cases hn : w.notifier with
    | none => rfl
    | some n => rw [Option.map_some, tells_of_neither h h']
  unheard hn := by
    rw [make_world, hn]
    rfl

end Call

/-! ### Runs -/

/-- What can happen to a world. -/
inductive Event : Type 1 where
  | call (k : Call)
  /-- The user goes to another route. -/
  | navigate (route : String)
  /-- Something is asked of the notifications, or time passes. -/
  | notifications (op : Center.Op)

/-- The request that an event sends. -/
def Event.request? (c : Client σ) : Event → Option Request
  | .call k => some (k.request c)
  | .navigate _ => none
  | .notifications _ => none

variable (c w)

/-- The world after an event. -/
def after : Event → World σ
  | .call k => (k.make c w).2
  | .navigate route => { w with navigator := w.navigator.replace route }
  | .notifications op => w.notify (·.step op)

/-- The world after a run of events. -/
def run (events : List Event) : World σ := events.foldl c.after w

variable {c w}

theorem Call.tells_consistent {k : Call} (a : k.Answer) {n : Center} (hn : n.queue.Consistent) :
    (k.tells a n).queue.Consistent := by
  by_cases hping : k.PingFailed a
  · rw [Call.tells_of_pingFailed hping]
    exact Center.step_consistent hn (.alert "server.unreachable")
  by_cases hout : k.LoggedOut a
  · rw [Call.tells_of_loggedOut hout]
    exact Center.step_consistent hn (.notifyFast "auth.logout")
  · rw [Call.tells_of_neither hping hout]
    exact hn

/-- One event leaves the notifications in order. -/
theorem Orderly.after (hw : Orderly w) (e : Event) : Orderly (c.after w e) := by
  cases e with
  | call k =>
    intro n hn
    rw [Client.after, Call.make_world] at hn
    obtain ⟨n', hn', rfl⟩ := Option.map_eq_some_iff.1 hn
    exact Call.tells_consistent _ (hw n' hn')
  | navigate route => exact hw
  | notifications op =>
    intro n hn
    obtain ⟨n', hn', rfl⟩ := Option.map_eq_some_iff.1 hn
    exact Center.step_consistent (hw n' hn') op

/-- So does a run. -/
theorem run_orderly (hw : Orderly w) (events : List Event) : Orderly (c.run w events) := by
  induction events generalizing w with
  | nil => exact hw
  | cons e events ih => exact ih (hw.after e)

theorem after_sent (w : World σ) (e : Event) :
    (c.after w e).sent = w.sent ++ (e.request? c).toList := by
  cases e with
  | call k => exact congrArg World.sent k.make_world
  -- nothing else reaches the transport
  | navigate route => exact (List.append_nil _).symm
  | notifications op => exact (List.append_nil _).symm

theorem run_sent (w : World σ) (events : List Event) :
    (c.run w events).sent = w.sent ++ events.filterMap (Event.request? c) := by
  induction events generalizing w with
  | nil => exact (List.append_nil _).symm
  | cons e events ih =>
    have hrest := ih (c.after w e)
    rw [after_sent w e] at hrest
    refine hrest.trans ?_
    rw [List.append_assoc, List.filterMap_cons]
    cases e.request? c <;> rfl

/-- The world at the start: anything may have happened to the notifications, if there are any. -/
def start (link : σ) (navigator : Navigator) (ops : Option (List Center.Op)) : World σ :=
  ⟨link, [], navigator, ops.map Center.initial.run⟩

theorem start_orderly (link : σ) (navigator : Navigator) (ops : Option (List Center.Op)) :
    Orderly (start link navigator ops) := by
  intro n hn
  obtain ⟨ops', -, rfl⟩ := Option.map_eq_some_iff.1 hn
  exact Center.run_queue_consistent ops'

/-- **Calls do what they are documented to do, and nothing else**, after any run of calls, navigations and
uses of the notifications, with any answers of the transport. A call sends its request once. It leads
the front end elsewhere only if it is no ping, there is a policy, the status is 401 and the path of the
route is not the login route; then there is one replacement. It tells the user only of a failed ping, at
once and without touching the messages that wait, and of a logout that succeeded, after the messages that
wait. So the requests of a run are those of its calls, in order. -/
theorem calls_documented (c : Client σ) (link : σ) (navigator : Navigator)
    (ops : Option (List Center.Op)) (events : List Event) :
    (∀ k : Call, k.Documented c (c.run (start link navigator ops) events)) ∧
      (c.run (start link navigator ops) events).sent = events.filterMap (Event.request? c) := by
  have hstart := start_orderly link navigator ops
  constructor
  · intro k
    exact Call.documented (run_orderly hstart events) k
  · exact run_sent _ events

end Client

end PanelClient
