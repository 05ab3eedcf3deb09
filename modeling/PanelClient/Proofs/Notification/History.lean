import PanelClient.Notification.Queue

/-!
# Histories of a notification queue

A run of operations is kept as a list of *calls*, each with the queue that it meets, so that what came on
screen and which timers were handed out can be read off afterwards.

* `Queue.Op`, `Queue.step`, `Queue.run` : what can be asked of a queue, one answer, a whole run;
* `Queue.Call`, `Queue.calls` : one operation of a run with the queue that it meets, and all of them;
* `Queue.Consistent` : the invariant of every run (`Queue.run_consistent`): the queue is idle exactly
  when the screen is empty, nothing waits for an idle queue, and the message on screen has the
  latest number;
* `Queue.Effect` : all that one operation can do to such a queue (`Queue.Consistent.effect`), and
  `Queue.Call.shown_cases` : the same in terms of what it put on screen;
* `Queue.Past` : a message has been on screen and is no longer. A message on screen stays or is past
  (`Queue.Consistent.run_stays_or_past`), and what is past remains so (`Queue.Past.run`).
-/

namespace PanelClient

/-- The timer of a message on screen. -/
def Shown.timer (s : Shown) : Timer := ⟨s.id, s.message.duration⟩

namespace Queue

/-- What can be asked of a queue. -/
inductive Op where
  | push (m : Message)
  | urgent (m : Message)
  | consume
  | elapsed (id : Nat)
  deriving DecidableEq, Repr, Inhabited

namespace Op

/-- The message that waits for its turn. -/
def pushed : Op → List Message
  | .push m => [m]
  | _ => []

/-- Whether the operation has a message that does not wait. -/
def isUrgent : Op → Bool
  | .urgent _ => true
  | _ => false

end Op

/-- The queue after an operation, and the timer to run. -/
def step (q : Queue) : Op → Queue × Option Timer
  | .push m => q.push m
  | .urgent m => q.urgent m
  | .consume => q.consume
  | .elapsed id => q.elapsed id

/-- The queue after a run of operations. -/
def run (q : Queue) (ops : List Op) : Queue := ops.foldl (fun q op => (q.step op).1) q

/-- One operation of a run, with the queue that it meets. -/
structure Call where
  before : Queue
  op : Op
  deriving DecidableEq, Repr

namespace Call

/-- The queue that the operation leaves. -/
def after (c : Call) : Queue := (c.before.step c.op).1

/-- The timer that the operation hands out. -/
def timer (c : Call) : Option Timer := (c.before.step c.op).2

/-- What the operation puts on screen. -/
def shown (c : Call) : Option Shown :=
  if c.after.current = c.before.current then none else c.after.current

/-- The message that the operation puts on screen. -/
def messages (c : Call) : List Message := (c.shown.map (·.message)).toList

end Call

/-- The calls of a run. -/
def calls (q : Queue) : List Op → List Call
  | [] => []
  | op :: ops => ⟨q, op⟩ :: (q.step op).1.calls ops

/-- A queue is idle exactly when nothing is on screen, nothing waits then, and what is on screen
has the latest number. -/
structure Consistent (q : Queue) : Prop where
  idle_iff : q.idle = true ↔ q.current = none
  backlog_eq_nil : q.idle = true → q.backlog = []
  id_eq : ∀ s, q.current = some s → s.id = q.lastId

/-- All that an operation can do to a consistent queue: `q'` is the queue that it leaves. -/
inductive Effect (q : Queue) (op : Op) (q' : Queue) (timer : Option Timer) : Prop where
  /-- A message comes on screen under the next number: the urgent one, or the first that waits. -/
  | shows (m : Message) (rest : List Message)
      (hm : op = .urgent m ∧ rest = q.backlog ∨
        op.isUrgent = false ∧ q.backlog ++ op.pushed = m :: rest)
      (hq : q' = ⟨rest, some ⟨q.lastId + 1, m⟩, q.lastId + 1, false⟩)
      (ht : timer = some ⟨q.lastId + 1, m.duration⟩)
  /-- The screen stays as it is. -/
  | keeps (hu : op.isUrgent = false) (hp : q.idle = true → op.pushed = [])
      (hq : q' = { q with backlog := q.backlog ++ op.pushed }) (ht : timer = none)
  /-- The screen becomes empty, since nothing waits. -/
  | clears (hu : op.isUrgent = false) (hp : q.backlog ++ op.pushed = [])
      (hq : q' = ⟨[], none, q.lastId, true⟩) (ht : timer = none)

variable {q : Queue}

@[simp] theorem run_nil : q.run [] = q := rfl

@[simp] theorem run_cons (op : Op) (ops : List Op) :
    q.run (op :: ops) = (q.step op).1.run ops := rfl

theorem run_append (ops ops' : List Op) : q.run (ops ++ ops') = (q.run ops).run ops' := by
  simp [run]

theorem calls_append (ops ops' : List Op) :
    q.calls (ops ++ ops') = q.calls ops ++ (q.run ops).calls ops' := by
  induction ops generalizing q with
  | nil => rfl
  | cons op ops ih => simp [calls, ih]

/-- The calls of a run are its operations, each with the queue that the run has led to. -/
theorem mem_calls {ops : List Op} {c : Call} :
    c ∈ q.calls ops ↔
      ∃ before rest, ops = before ++ c.op :: rest ∧ c.before = q.run before := by
  constructor
  · intro h
    induction ops generalizing q with
    | nil => cases h
    | cons op ops ih =>
      rw [calls, List.mem_cons] at h
      rcases h with rfl | h
      · exact ⟨[], ops, rfl, rfl⟩
      · obtain ⟨before, rest, rfl, hb⟩ := ih h
        exact ⟨op :: before, rest, rfl, hb⟩
  · rintro ⟨before, rest, rfl, hb⟩
    rw [calls_append, ← hb]
    exact List.mem_append_right _ List.mem_cons_self

/-! ### The operations on a consistent queue -/

theorem empty_consistent : empty.Consistent := ⟨by simp [empty], by simp [empty], by simp [empty]⟩

/-- A timer of the latest number does what a dismissal does, whatever the queue. -/
theorem elapsed_lastId (q : Queue) : q.elapsed q.lastId = q.consume := by
  obtain ⟨backlog, current, lastId, idle⟩ := q
  cases backlog <;> simp [elapsed, consume, display]

theorem elapsed_of_ne {id : Nat} (h : id ≠ q.lastId) : q.elapsed id = (q, none) := by
  simp [elapsed, h]

/-- What the report of a timer does to a queue, whatever the queue: the first message that waits comes on
screen, or what waits stays as it is and no timer is handed out. -/
theorem elapsed_cases (q : Queue) (id : Nat) :
    (∃ m, q.backlog = m :: (q.elapsed id).1.backlog ∧
      (q.elapsed id).1.current = some ⟨q.lastId + 1, m⟩ ∧
      (q.elapsed id).2 = some ⟨q.lastId + 1, m.duration⟩) ∨
    ((q.elapsed id).1.backlog = q.backlog ∧ (q.elapsed id).2 = none) := by
  by_cases hid : id = q.lastId
  · rw [hid, elapsed_lastId]
    cases hb : q.backlog with
    | nil => exact .inr (by simp [consume, hb])
    | cons m ms => exact .inl ⟨m, by simp [consume, display, hb]⟩
  · rw [elapsed_of_ne hid]
    exact .inr ⟨rfl, rfl⟩

namespace Consistent

theorem push_effect (hq : q.Consistent) (m : Message) :
    Effect q (.push m) (q.push m).1 (q.push m).2 := by
  cases hi : q.idle with
  | true =>
    have hb := hq.backlog_eq_nil hi
    exact .shows m [] (.inr ⟨rfl, by simp [hb, Op.pushed]⟩)
      (by simp [push, display, hi, hb]) (by simp [push, display, hi])
  | false =>
    exact .keeps rfl (by simp [hi]) (by simp [push, hi, Op.pushed]) (by simp [push, hi])

theorem consume_effect {op : Op} (hu : op.isUrgent = false) (hp : op.pushed = []) :
    Effect q op q.consume.1 q.consume.2 := by
  cases hb : q.backlog with
  | nil => exact .clears hu (by simp [hb, hp]) (by simp [consume, hb]) (by simp [consume, hb])
  | cons m ms =>
    exact .shows m ms (.inr ⟨hu, by simp [hb, hp]⟩) (by simp [consume, display, hb])
      (by simp [consume, display, hb])

theorem effect (hq : q.Consistent) (op : Op) : Effect q op (q.step op).1 (q.step op).2 := by
  cases op with
  | push m => exact hq.push_effect m
  | urgent m => exact .shows m q.backlog (.inl ⟨rfl, rfl⟩) rfl rfl
  | consume => exact consume_effect rfl rfl
  | elapsed id =>
    by_cases h : id = q.lastId
    · rw [step, h, elapsed_lastId]
      exact consume_effect rfl rfl
    · rw [step, elapsed_of_ne h]
      exact .keeps rfl (fun _ => rfl) (by simp [Op.pushed]) rfl

end Consistent

/-- An operation keeps the invariant. -/
theorem Effect.consistent {op : Op} {q' : Queue} {timer : Option Timer}
    (h : Effect q op q' timer) (hq : q.Consistent) : q'.Consistent := by
  cases h with
  | shows m rest hm hq' ht => subst hq'; exact ⟨by simp, by simp, by simp⟩
  | keeps hu hp hq' ht =>
    subst hq'
    refine ⟨hq.idle_iff, fun hi => ?_, hq.id_eq⟩
    simp [hq.backlog_eq_nil hi, hp hi]
  | clears hu hp hq' ht => subst hq'; exact ⟨by simp, by simp, by simp⟩

theorem Consistent.step (hq : q.Consistent) (op : Op) : (q.step op).1.Consistent :=
  (hq.effect op).consistent hq

theorem Consistent.run (hq : q.Consistent) (ops : List Op) : (q.run ops).Consistent := by
  induction ops generalizing q with
  | nil => exact hq
  | cons op ops ih => exact ih (hq.step op)

/-- **Every queue that a run reaches is consistent.** -/
theorem run_consistent (ops : List Op) : (empty.run ops).Consistent :=
  empty_consistent.run ops

/-- The calls of a run meet consistent queues. -/
theorem Consistent.of_mem_calls (hq : q.Consistent) {ops : List Op} {c : Call}
    (hc : c ∈ q.calls ops) : c.before.Consistent := by
  obtain ⟨before, rest, -, hb⟩ := mem_calls.1 hc
  exact hb ▸ hq.run before

/-! ### What a call shows -/

theorem Consistent.current_ne (hq : q.Consistent) {s : Shown} (h : q.lastId < s.id) :
    q.current ≠ some s := by
  intro hs
  have := hq.id_eq s hs
  omega

namespace Call

variable {c : Call}

/-- What a call did, in terms of what it showed: a message under the next number, with its timer,
or nothing, with no timer and the numbers unchanged. -/
theorem shown_cases (hc : c.before.Consistent) :
    (∃ m, c.shown = some ⟨c.before.lastId + 1, m⟩ ∧ c.timer = some ⟨c.before.lastId + 1, m.duration⟩ ∧
      c.after.lastId = c.before.lastId + 1 ∧ c.after.current = some ⟨c.before.lastId + 1, m⟩ ∧
      (c.op = .urgent m ∧ c.after.backlog = c.before.backlog ∨
        c.op.isUrgent = false ∧ c.before.backlog ++ c.op.pushed = m :: c.after.backlog)) ∨
    (c.shown = none ∧ c.timer = none ∧ c.after.lastId = c.before.lastId ∧
      (c.after.current = c.before.current ∨ c.after.current = none) ∧
      c.op.isUrgent = false ∧ c.before.backlog ++ c.op.pushed = c.after.backlog) := by
  rcases hc.effect c.op with ⟨m, rest, hm, hq, htm⟩ | ⟨hu, hp, hq, htm⟩ | ⟨hu, hp, hq, htm⟩
  · have hne : c.before.current ≠ some ⟨c.before.lastId + 1, m⟩ := hc.current_ne (Nat.lt_succ_self _)
    refine .inl ⟨m, ?_, htm, ?_, ?_, ?_⟩ <;> simp only [shown, after, hq]
    · exact if_neg (Ne.symm hne)
    · exact hm
  · exact .inr ⟨by simp [shown, after, hq], htm, by simp [after, hq], .inl (by simp [after, hq]), hu,
      by simp [after, hq]⟩
  · exact .inr ⟨by simp [shown, after, hq], htm, by simp [after, hq], .inr (by simp [after, hq]), hu,
      by simp [after, hq, hp]⟩

end Call

/-! ### The life of a message -/

/-- The number `id` has been given out, and it is not that of the message on screen. -/
def Past (q : Queue) (id : Nat) : Prop := id ≤ q.lastId ∧ ∀ s, q.current = some s → s.id ≠ id

theorem Past.step {id : Nat} (h : q.Past id) (hq : q.Consistent) (op : Op) :
    (q.step op).1.Past id := by
  obtain ⟨hid, hc⟩ := h
  rcases hq.effect op with ⟨m, rest, -, hr, -⟩ | ⟨-, -, hr, -⟩ | ⟨-, -, hr, -⟩ <;> rw [hr]
  · refine ⟨Nat.le_succ_of_le hid, ?_⟩
    rintro s ⟨rfl⟩
    exact Nat.ne_of_gt (Nat.lt_succ_of_le hid)
  · exact ⟨hid, hc⟩
  · exact ⟨hid, by simp⟩

theorem Past.run {id : Nat} (h : q.Past id) (hq : q.Consistent) (ops : List Op) :
    (q.run ops).Past id := by
  induction ops generalizing q with
  | nil => exact h
  | cons op ops ih => exact ih (h.step hq op) (hq.step op)

/-- A message on screen stays there or is past. -/
theorem Consistent.stays_or_past (hq : q.Consistent) {s : Shown} (hs : q.current = some s)
    (op : Op) : (q.step op).1.current = some s ∨ (q.step op).1.Past s.id := by
  have hid := hq.id_eq s hs
  rcases hq.effect op with ⟨m, rest, -, hr, -⟩ | ⟨-, -, hr, -⟩ | ⟨-, -, hr, -⟩ <;> rw [hr]
  · refine .inr ⟨by simp [hid], ?_⟩
    rintro s' ⟨rfl⟩
    simp [hid]
  · exact .inl hs
  · exact .inr ⟨Nat.le_of_eq hid, by simp⟩

theorem Consistent.run_stays_or_past (hq : q.Consistent) {s : Shown} (hs : q.current = some s)
    (ops : List Op) : (q.run ops).current = some s ∨ (q.run ops).Past s.id := by
  induction ops generalizing q with
  | nil => exact .inl hs
  | cons op ops ih =>
    rcases hq.stays_or_past hs op with h | h
    · exact ih (hq.step op) h
    · exact .inr (h.run (hq.step op) ops)

theorem Consistent.push_of_current (hq : q.Consistent) {s : Shown} (hs : q.current = some s)
    (m : Message) : q.push m = ({ q with backlog := q.backlog ++ [m] }, none) := by
  have hi : ¬ q.idle = true := by rw [hq.idle_iff, hs]; exact Option.some_ne_none s
  simp [push, hi]

theorem Consistent.past_consume (hq : q.Consistent) {s : Shown} (hs : q.current = some s) :
    q.consume.1.Past s.id := by
  have hid := hq.id_eq s hs
  cases hb : q.backlog with
  | nil => simp [Past, consume, hb, hid]
  | cons m ms => simp [Past, consume, display, hb, hid]

theorem Consistent.past_urgent (hq : q.Consistent) {s : Shown} (hs : q.current = some s)
    (m : Message) : (q.urgent m).1.Past s.id := by
  simp [Past, urgent, display, hq.id_eq s hs]

end Queue

end PanelClient
