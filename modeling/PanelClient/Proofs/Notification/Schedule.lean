import Mathlib.Tactic.SplitIfs
import PanelClient.Notification.Center
import PanelClient.Proofs.Notification.History

/-!
# Schedules of a notification center

The operations of a center, the two steps of its timer loop and the passing of time can happen in
any order. An `Act` is one of them, and a schedule is a list of acts.

* `Center.act`, `Center.Allows` : what an act does, and when it can happen: the loop receives only
  from a mailbox that holds something, and fires a timer only once the clock has reached its
  deadline;
* `Center.Along` : a condition met at each act of a schedule, so that `Center.Along Center.Allows`
  says that the schedule can happen;
* `Center.pending` : the timers that the loop still has, the one that it keeps before its mailbox;
* `Center.inflow` : how many timers the loop may have to receive, which reporting one does not raise
  (`Center.apply_elapsed_inflow_le`);
* `Center.shows` : the messages that a schedule puts on screen, each with the moment.
-/

namespace PanelClient

/-- A message that came on screen, with the moment. -/
structure Appearance where
  shown : Shown
  /-- What the clock read, in nanoseconds. -/
  start : Nat
  deriving DecidableEq, Repr

/-- The moment at which the message has been shown for its duration. -/
def Appearance.finish (e : Appearance) : Nat := e.start + e.shown.message.duration.nanoseconds

namespace Center

/-- What can happen to a center at one moment. -/
inductive Act where
  | push (m : Message)
  | urgent (m : Message)
  | consume
  | subscribe
  | observe (receiver : Nat)
  | shutdown
  /-- The loop receives a timer. -/
  | receive
  /-- The loop fires the timer that it keeps. -/
  | fire
  /-- Nanoseconds pass. -/
  | wait (n : Nat)
  deriving DecidableEq, Repr

/-- The act can happen now. -/
def Allows (c : Center) : Act → Prop
  | .receive => c.mailbox ≠ []
  | .fire => ∃ t, c.armed = some t ∧ t.deadline ≤ c.clock
  | _ => True

/-- The center after an act. -/
def act (c : Center) : Act → Center
  | .push m => c.push m
  | .urgent m => c.urgent m
  | .consume => c.consume
  | .subscribe => c.subscribe
  | .observe r => c.observe r
  | .shutdown => c.shutdown
  | .receive => c.receive
  | .fire => match c.armed with
    | some t => c.fire t
    | none => c
  | .wait n => { c with clock := c.clock + n }

/-- The center after a schedule. -/
def after (c : Center) (acts : List Act) : Center := acts.foldl act c

/-- `P` holds of each act of a schedule in the center that it meets. -/
def Along (P : Center → Act → Prop) (c : Center) : List Act → Prop
  | [] => True
  | a :: acts => P c a ∧ Along P (c.act a) acts

/-- The timers that the loop still has: the one that it keeps, then those in its mailbox. -/
def pending (c : Center) : List ArmedTimer := c.armed.toList ++ c.mailbox

/-- How many timers the loop may have to receive: those in its mailbox, and one for each message that
waits. -/
def inflow (c : Center) : Nat := c.queue.backlog.length + c.mailbox.length

/-- What has come on screen from one center to the next. -/
def appeared (c c' : Center) : List Appearance :=
  if c'.queue.current = c.queue.current then []
  else (c'.queue.current.map (⟨·, c'.clock⟩)).toList

/-- What a schedule puts on screen, the first message first. -/
def shows (c : Center) : List Act → List Appearance
  | [] => []
  | a :: acts => c.appeared (c.act a) ++ (c.act a).shows acts

variable {c : Center}

@[simp] theorem after_nil : c.after [] = c := rfl

@[simp] theorem after_cons (a : Act) (acts : List Act) : c.after (a :: acts) = (c.act a).after acts :=
  rfl

theorem after_append (acts acts' : List Act) :
    c.after (acts ++ acts') = (c.after acts).after acts' := by
  simp [after]

theorem along_append {P : Center → Act → Prop} {acts acts' : List Act} :
    c.Along P (acts ++ acts') ↔ c.Along P acts ∧ (c.after acts).Along P acts' := by
  induction acts generalizing c with
  | nil => simp [Along]
  | cons a acts ih => simp only [List.cons_append, Along, ih, after_cons, and_assoc]

theorem Along.mono {P Q : Center → Act → Prop} (hPQ : ∀ c a, P c a → Q c a) {acts : List Act}
    (h : c.Along P acts) : c.Along Q acts := by
  induction acts generalizing c with
  | nil => trivial
  | cons a acts ih => exact ⟨hPQ _ _ h.1, ih h.2⟩

theorem shows_append (acts acts' : List Act) :
    c.shows (acts ++ acts') = c.shows acts ++ (c.after acts).shows acts' := by
  induction acts generalizing c with
  | nil => rfl
  | cons a acts ih => simp only [List.cons_append, shows, ih, after_cons, List.append_assoc]

theorem appeared_of_eq {c' : Center} (h : c'.queue.current = c.queue.current) :
    c.appeared c' = [] := if_pos h

/-! ### What applying an operation does to a center -/

/-- What the loop is sent with a timer: nothing once it has stopped, or if the clock cannot show the
deadline. -/
def sent (c : Center) (t : Option Timer) : List ArmedTimer :=
  if c.running then
    (t.bind fun t => (deadline? c.clock t.duration).map (⟨t.id, ·⟩)).toList
  else []

@[simp] theorem sent_none : c.sent none = [] := by simp [sent]

theorem sent_some (t : Timer) :
    c.sent (some t) =
      if c.running = true ∧ c.clock + t.duration.nanoseconds < clockLimit then
        [⟨t.id, c.clock + t.duration.nanoseconds⟩]
      else [] := by
  simp only [sent, deadline?, Option.bind_some]
  split_ifs <;> simp_all

theorem length_sent_le (c : Center) (t : Option Timer) : (c.sent t).length ≤ 1 := by
  cases t with
  | none => simp
  | some t =>
    rw [sent_some]
    split_ifs <;> simp

theorem send_eq (t : Timer) :
    c.send t = { c with mailbox := c.mailbox ++ c.sent (some t) } := by
  obtain ⟨queue, clock, mailbox, armed, running, published, version, receivers⟩ := c
  simp only [send, sent, Option.bind_some]
  cases deadline? clock t.duration <;> cases running <;> simp

theorem publish_eq (c : Center) :
    ∃ published version, c.publish = { c with published := published, version := version } := by
  unfold publish
  split
  · exact ⟨c.published, c.version, rfl⟩
  · exact ⟨_, _, rfl⟩

section Apply

variable (c : Center) (op : Queue → Queue × Option Timer)

/-- Everything that applying an operation does, apart from what it tells the receivers. -/
theorem apply_eq : ∃ published version, c.apply op =
    { c with
      queue := (op c.queue).1
      mailbox := c.mailbox ++ c.sent (op c.queue).2
      published := published
      version := version } := by
  simp only [apply]
  cases (op c.queue).2 with
  | none => simpa using publish_eq { c with queue := (op c.queue).1 }
  | some t =>
    have h := publish_eq ({ c with queue := (op c.queue).1 }.send t)
    rw [send_eq] at h
    simp only [send_eq]
    exact h

@[simp] theorem apply_queue : (c.apply op).queue = (op c.queue).1 := by
  obtain ⟨_, _, h⟩ := apply_eq c op; rw [h]

@[simp] theorem apply_clock : (c.apply op).clock = c.clock := by
  obtain ⟨_, _, h⟩ := apply_eq c op; rw [h]

@[simp] theorem apply_running : (c.apply op).running = c.running := by
  obtain ⟨_, _, h⟩ := apply_eq c op; rw [h]

@[simp] theorem apply_armed : (c.apply op).armed = c.armed := by
  obtain ⟨_, _, h⟩ := apply_eq c op; rw [h]

@[simp] theorem apply_mailbox :
    (c.apply op).mailbox = c.mailbox ++ c.sent (op c.queue).2 := by
  obtain ⟨_, _, h⟩ := apply_eq c op; rw [h]

theorem apply_pending : (c.apply op).pending = c.pending ++ c.sent (op c.queue).2 := by
  simp [pending]

theorem apply_receivers : (c.apply op).receivers = c.receivers := by
  obtain ⟨_, _, h⟩ := apply_eq c op; rw [h]

/-- What the receivers are told. -/
theorem apply_told : (c.apply op).published = (op c.queue).1.current ∧
    (c.apply op).version =
      if c.published = (op c.queue).1.current then c.version else c.version + 1 := by
  simp only [apply]
  cases (op c.queue).2 with
  | none => by_cases h : c.published = (op c.queue).1.current <;> simp [publish, h]
  | some t =>
    by_cases h : c.published = (op c.queue).1.current <;> simp [send_eq, publish, h]

end Apply

/-- When a timer is reported, the first message that waits comes on screen and its timer is sent, or what
waits stays as it is and none is sent. -/
theorem apply_elapsed_cases (c : Center) (id : Nat) :
    (∃ m, c.queue.backlog = m :: (c.apply (·.elapsed id)).queue.backlog ∧
      (c.apply (·.elapsed id)).queue.current = some ⟨c.queue.lastId + 1, m⟩ ∧
      (c.apply (·.elapsed id)).mailbox =
        c.mailbox ++ c.sent (some ⟨c.queue.lastId + 1, m.duration⟩)) ∨
    ((c.apply (·.elapsed id)).queue.backlog = c.queue.backlog ∧
      (c.apply (·.elapsed id)).mailbox = c.mailbox) := by
  rw [apply_queue, apply_mailbox]
  rcases c.queue.elapsed_cases id with ⟨m, hb, hc, ht⟩ | ⟨hb, ht⟩
  · exact .inl ⟨m, hb, hc, by rw [ht]⟩
  · exact .inr ⟨hb, by rw [ht, sent_none, List.append_nil]⟩

theorem apply_elapsed_inflow_le (c : Center) (id : Nat) :
    (c.apply (·.elapsed id)).inflow ≤ c.inflow := by
  rw [inflow, inflow]
  rcases apply_elapsed_cases c id with ⟨m, hb, -, hm⟩ | ⟨hb, hm⟩
  · have hone := length_sent_le c (some ⟨c.queue.lastId + 1, m.duration⟩)
    rw [hb, hm, List.length_cons, List.length_append]
    omega
  · exact Nat.le_of_eq (by rw [hb, hm])

/-! ### What a schedule does to the queue -/

theorem receive_queue (c : Center) : c.receive.queue = c.queue := by
  unfold receive; split <;> rfl

theorem receive_clock (c : Center) : c.receive.clock = c.clock := by
  unfold receive; split <;> rfl

theorem act_queue (c : Center) (a : Act) : ∃ ops, (c.act a).queue = c.queue.run ops := by
  cases a with
  | push m => exact ⟨[.push m], apply_queue c _⟩
  | urgent m => exact ⟨[.urgent m], apply_queue c _⟩
  | consume => exact ⟨[.consume], apply_queue c _⟩
  | receive => exact ⟨[], receive_queue c⟩
  | fire =>
    rw [act]
    split
    · next t _ => exact ⟨[.elapsed t.id], apply_queue _ _⟩
    · exact ⟨[], rfl⟩
  | _ => exact ⟨[], rfl⟩

/-- The queue of a center makes a run of its own. -/
theorem after_queue (c : Center) (acts : List Act) :
    ∃ ops, (c.after acts).queue = c.queue.run ops := by
  induction acts generalizing c with
  | nil => exact ⟨[], rfl⟩
  | cons a acts ih =>
    obtain ⟨ops, hops⟩ := act_queue c a
    obtain ⟨ops', hops'⟩ := ih (c.act a)
    refine ⟨ops ++ ops', ?_⟩
    rw [after_cons, hops', hops, Queue.run_append]

/-- What is past remains so. -/
theorem after_past (hq : c.queue.Consistent) {id : Nat} (h : c.queue.Past id) (acts : List Act) :
    (c.after acts).queue.Past id := by
  obtain ⟨ops, hops⟩ := after_queue c acts
  rw [hops]
  exact h.run hq ops

/-- A message on screen stays there or is past. -/
theorem after_stays_or_past (hq : c.queue.Consistent) {s : Shown} (hs : c.queue.current = some s)
    (acts : List Act) :
    (c.after acts).queue.current = some s ∨ (c.after acts).queue.Past s.id := by
  obtain ⟨ops, hops⟩ := after_queue c acts
  rw [hops]
  exact hq.run_stays_or_past hs ops

end Center

end PanelClient
