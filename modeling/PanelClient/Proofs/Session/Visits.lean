import PanelClient.Proofs.Session.Target

/-!
# One redirection for each visit

While a user stays on the login page, expiries of the session change nothing. So there is at most one
redirection for each time that the user has gone elsewhere, and one at the start. This rests on the
login route having no query or fragment of its own: no path is equal to one that has, and every
expiry redirects.

* `ExpiryPolicy.Event`, `ExpiryPolicy.run` : expiries and navigations, in any order;
* `ExpiryPolicy.run_onLogin` : who is on the login page stays there until they go elsewhere;
* `ExpiryPolicy.redirections_le` : the redirections of a run;
* `ExpiryPolicy.redirects_once_per_visit` : all of it for every run.
-/

namespace PanelClient

namespace ExpiryPolicy

/-- What can happen in a front end. -/
inductive Event where
  /-- The session expires. -/
  | expire
  /-- The user goes to another route. -/
  | navigate (route : String)
  deriving DecidableEq, Repr

variable (p : ExpiryPolicy)

/-- The front end after an event. -/
def after (n : Navigator) : Event → Navigator
  | .expire => (p.expire n).2
  | .navigate route => n.replace route

/-- The front end after a run of events. -/
def run (n : Navigator) (events : List Event) : Navigator := events.foldl p.after n

/-- Whether an event is an expiry that redirects. -/
def redirects (n : Navigator) : Event → Bool
  | .expire => (p.expire n).1
  | .navigate _ => false

/-- The number of redirections in a run. -/
def redirections (n : Navigator) : List Event → Nat
  | [] => 0
  | e :: es => (p.redirects n e).toNat + redirections (p.after n e) es

/-- Whether an event leads to another page than the login page. -/
def leaves : Event → Bool
  | .expire => false
  | .navigate route => !p.onLogin route

variable {p} {n : Navigator}

theorem run_append (events events' : List Event) :
    p.run n (events ++ events') = p.run (p.run n events) events' := by
  simp [run]

/-! ### Where the user is -/

/-- The front end goes where it is asked to go, and is where it was asked to go last. -/
structure Faithful (route : String) (n : Navigator) : Prop where
  pinned_eq_false : n.pinned = false
  route_eq : n.route = n.replaced.getLastD route

theorem Faithful.replace {route : String} (h : Faithful route n) (target : String) :
    Faithful route (n.replace target) :=
  ⟨h.pinned_eq_false, by simp [Navigator.replace, h.pinned_eq_false]⟩

theorem Faithful.after {route : String} (h : Faithful route n) (e : Event) :
    Faithful route (p.after n e) := by
  cases e with
  | expire =>
    rw [ExpiryPolicy.after, expire]
    split
    · exact h
    · exact h.replace _
  | navigate target => exact h.replace target

theorem Faithful.run {route : String} (h : Faithful route n) (events : List Event) :
    Faithful route (p.run n events) := by
  induction events generalizing n with
  | nil => exact h
  | cons e events ih => exact ih (h.after e)

theorem faithful_on (route : String) : Faithful route (.on route) := ⟨rfl, rfl⟩

/-! ### On the login page and elsewhere -/

theorem expire_of_onLogin (h : p.onLogin n.route = true) : p.expire n = (false, n) := by
  simp [expire, h]

theorem expire_of_not_onLogin (h : p.onLogin n.route = false) :
    p.expire n = (true, n.replace (p.target n.route)) := by
  simp [expire, h]

/-- A redirection leads to the login page. -/
theorem onLogin_target (hbare : p.Bare) (route : String) : p.onLogin (p.target route) = true := by
  rw [onLogin, pathOf_target hbare, beq_self_eq_true]

/-- No path is equal to a login route with a query or a fragment. -/
theorem onLogin_of_not_bare (hbare : ¬ p.Bare) (route : String) : p.onLogin route = false := by
  rw [onLogin, beq_eq_false_iff_ne]
  intro h
  have hpath : ∀ c ∈ (pathOf route).toList, (c != '?' && c != '#') = true := by
    rw [pathOf, String.toList_ofList]
    intro c hc
    exact List.mem_takeWhile_imp (p := fun c => c != '?' && c != '#') hc
  rw [h] at hpath
  refine hbare ⟨fun hq => ?_, fun hf => ?_⟩
  · simpa using hpath '?' hq
  · simpa using hpath '#' hf

/-- Every event leads to the login page, unless the user goes elsewhere. -/
theorem onLogin_after (hbare : p.Bare) (hn : n.pinned = false) {e : Event}
    (he : p.leaves e = false) : p.onLogin (p.after n e).route = true := by
  cases e with
  | expire =>
    cases h : p.onLogin n.route with
    | true => rwa [after, expire_of_onLogin h]
    | false =>
      rw [after, expire_of_not_onLogin h]
      simp [Navigator.replace, hn, onLogin_target hbare]
  | navigate route => simpa [after, Navigator.replace, hn, leaves] using he

/-- Who is on the login page stays there until they go elsewhere. -/
theorem run_onLogin {route : String} (hbare : p.Bare) (hn : Faithful route n) {events : List Event}
    (he : ∀ e ∈ events, p.leaves e = false) (h : p.onLogin n.route = true) :
    p.onLogin (p.run n events).route = true := by
  induction events generalizing n with
  | nil => exact h
  | cons e events ih =>
    refine ih (hn.after e) (fun e' he' => he e' (List.mem_cons_of_mem _ he')) ?_
    exact onLogin_after hbare hn.pinned_eq_false (he e List.mem_cons_self)

/-- A redirection is paid for by the user having been elsewhere, and that by their having gone
there. -/
theorem redirects_add_le (hbare : p.Bare) (hn : n.pinned = false) (e : Event) :
    (p.redirects n e).toNat + (!p.onLogin (p.after n e).route).toNat ≤
      (!p.onLogin n.route).toNat + (p.leaves e).toNat := by
  cases e with
  | expire =>
    have hafter : p.onLogin (p.after n .expire).route = true := onLogin_after hbare hn rfl
    cases h : p.onLogin n.route with
    | true => simp [redirects, expire_of_onLogin h, hafter]
    | false => simp [redirects, expire_of_not_onLogin h, hafter]
  | navigate route => simp [redirects, after, Navigator.replace, hn, leaves]

/-- A run redirects at most as often as the user goes elsewhere, and once more if they do not begin
on the login page. -/
theorem redirections_le {route : String} (hbare : p.Bare) (hn : Faithful route n)
    (events : List Event) :
    p.redirections n events ≤ (!p.onLogin n.route).toNat + events.countP p.leaves := by
  induction events generalizing n with
  | nil => exact Nat.zero_le _
  | cons e events ih =>
    have hfirst := redirects_add_le hbare hn.pinned_eq_false e
    have hrest := ih (hn.after (p := p) e)
    have hcount : (e :: events).countP p.leaves = events.countP p.leaves + (p.leaves e).toNat := by
      rw [List.countP_cons]
      cases p.leaves e <;> rfl
    rw [redirections, hcount]
    omega

/-- **One redirection for each visit elsewhere.** In every run the front end is on the route that it
was asked to go to last, and an expiry tells whether it has redirected, which is to ask for one more
route. If the login route has no query or fragment, then after a redirection expiries change nothing
until the user goes to another page, so that there is at most one redirection more than there are
such moves; and if it has, every expiry redirects. -/
theorem redirects_once_per_visit (p : ExpiryPolicy) (route : String) (events : List Event) :
    let n := p.run (.on route) events
    n.route = n.replaced.getLastD route ∧
    ((p.expire n).1 = true ↔ (p.expire n).2.replaced = n.replaced ++ [p.target n.route]) ∧
    ((p.expire n).1 = false ↔ (p.expire n).2 = n) ∧
    (p.Bare →
      (∀ before since, events = before ++ .expire :: since →
        (p.expire (p.run (.on route) before)).1 = true → (∀ e ∈ since, p.leaves e = false) →
          p.expire n = (false, n)) ∧
      p.redirections (.on route) events ≤ 1 + events.countP p.leaves) ∧
    (¬ p.Bare → (p.expire n).1 = true) := by
  intro n
  have hn : Faithful route n := (faithful_on route).run events
  have hlonger : n.replaced ≠ n.replaced ++ [p.target n.route] := by simp
  refine ⟨hn.route_eq, ?_, ?_, fun hbare => ⟨?_, ?_⟩, fun hbare => ?_⟩
  · cases h : p.onLogin n.route with
    | true => simp [expire_of_onLogin h]
    | false => simp [expire_of_not_onLogin h, Navigator.replace]
  · cases h : p.onLogin n.route with
    | true => simp [expire_of_onLogin h]
    | false =>
      have hne : n.replace (p.target n.route) ≠ n := fun heq =>
        hlonger (congrArg Navigator.replaced heq).symm
      simp [expire_of_not_onLogin h, hne]
  · rintro before since rfl - hsince
    have hbefore : Faithful route (p.run (.on route) before) := (faithful_on route).run before
    have honLogin : p.onLogin n.route = true := by
      change p.onLogin (p.run (.on route) (before ++ .expire :: since)).route = true
      rw [run_append]
      exact run_onLogin hbare (hbefore.after .expire) hsince
        (onLogin_after hbare hbefore.pinned_eq_false rfl)
    exact expire_of_onLogin honLogin
  · refine (redirections_le hbare (faithful_on route) events).trans ?_
    exact Nat.add_le_add_right (Bool.toNat_le _) _
  · rw [expire_of_not_onLogin (onLogin_of_not_bare hbare _)]

end ExpiryPolicy

end PanelClient
