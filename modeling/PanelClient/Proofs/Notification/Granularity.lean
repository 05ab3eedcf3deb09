import PanelClient.Proofs.Notification.Course

/-!
# Timers that go by a grain

A timer that goes by a grain, such as the millisecond, ends each sleep at a multiple of it, and is exact
only where the deadline is one. So it makes no difference to a center whose spans of time are all
multiples of the grain, or out of the range of the clock: its clock and its deadlines are multiples as
well, and it comes to what it would come to on an exact timer, by the same acts.

* `Center.roundUp` : a timer that goes by a grain;
* `Duration.Whole`, `Center.Act.Whole`, `Center.Op.Whole` : spans of time that the grain divides, or that
  the clock cannot show, and the acts and operations with such spans;
* `Center.Whole` : the grain divides all times of a center; it is kept by such acts
  (`Center.Whole.after`) and operations (`Center.Whole.step`);
* `Center.Whole.runOn_eq`, `Center.Whole.courseOn_eq` : a run of such operations on a timer that is exact
  at the multiples of the grain.
-/

namespace PanelClient

/-- The grain divides the duration, or no clock shows when it ends. -/
def Duration.Whole (grain : Nat) (d : Duration) : Prop :=
  grain ∣ d.nanoseconds ∨ Center.clockLimit ≤ d.nanoseconds

namespace Queue

/-- The message that comes with an operation. -/
def Op.message? : Op → Option Message
  | .push m => some m
  | .urgent m => some m
  | _ => none

/-- What waits after an operation has waited before or came with it, and so has the message whose timer
is handed out. -/
theorem step_keeps {P : Message → Prop} {q : Queue} {op : Op} (hq : ∀ m ∈ q.backlog, P m)
    (hop : ∀ m ∈ op.message?, P m) :
    (∀ m ∈ (q.step op).1.backlog, P m) ∧
      ∀ t ∈ (q.step op).2, ∃ m, P m ∧ t.duration = m.duration := by
  have hconsume : ∀ q' : Queue, q'.backlog = q.backlog →
      (∀ m ∈ q'.consume.1.backlog, P m) ∧ ∀ t ∈ q'.consume.2, ∃ m, P m ∧ t.duration = m.duration := by
    intro q' hq'
    rw [← hq'] at hq
    cases hb : q'.backlog with
    | nil => simp [consume, hb]
    | cons m ms =>
      rw [hb, List.forall_mem_cons] at hq
      rw [consume, hb]
      refine ⟨hq.2, ?_⟩
      rintro _ ⟨⟩
      exact ⟨m, hq.1, rfl⟩
  cases op with
  | push m =>
    rw [step, push]
    split_ifs
    · refine ⟨hq, ?_⟩
      rintro _ ⟨⟩
      exact ⟨m, hop m rfl, rfl⟩
    · exact ⟨List.forall_mem_append.2 ⟨hq, by simpa using hop m rfl⟩, by simp⟩
  | urgent m =>
    refine ⟨hq, ?_⟩
    rintro _ ⟨⟩
    exact ⟨m, hop m rfl, rfl⟩
  | consume => exact hconsume q rfl
  | elapsed id =>
    rw [step, elapsed]
    split_ifs
    · exact hconsume _ rfl
    · exact ⟨hq, by simp⟩

end Queue

namespace Center

/-- A timer that goes by a grain: a sleep ends at the first multiple that is not before its deadline. -/
def roundUp (grain time : Nat) : Nat := (time + (grain - 1)) / grain * grain

theorem roundUp_of_dvd {grain time : Nat} (hgrain : 0 < grain) (h : grain ∣ time) :
    roundUp grain time = time := by
  obtain ⟨k, rfl⟩ := h
  rw [roundUp, Nat.mul_add_div hgrain, Nat.div_eq_of_lt (Nat.sub_one_lt_of_lt hgrain), Nat.add_zero,
    Nat.mul_comm]

/-- The spans of time in an act are whole. -/
def Act.Whole (grain : Nat) : Act → Prop
  | .push m | .urgent m => m.duration.Whole grain
  | .wait n => grain ∣ n
  | _ => True

/-- The spans of time in an operation are whole. -/
def Op.Whole (grain : Nat) : Op → Prop
  | .push m | .urgent m => m.duration.Whole grain
  | .notify text => (Message.notify text).duration.Whole grain
  | .notifyFast text => (Message.notifyFast text).duration.Whole grain
  | .alert text => (Message.urgent text).duration.Whole grain
  | .advance d => grain ∣ d.nanoseconds
  | _ => True

/-- The clock and the deadlines are multiples of the grain, and the durations of the messages that wait
are whole. -/
structure Whole (grain : Nat) (c : Center) : Prop where
  dvd_clock : grain ∣ c.clock
  dvd_deadline : ∀ t ∈ c.pending, grain ∣ t.deadline
  backlog : ∀ m ∈ c.queue.backlog, m.duration.Whole grain

variable {c : Center} {grain target n : Nat} {t : ArmedTimer}

namespace Whole

theorem initial_whole : Whole grain initial := ⟨Nat.dvd_zero _, nofun, nofun⟩

/-! ### What keeps a center whole -/

theorem dvd_of_mem_sent (h : Whole grain c) {timer : Option Timer}
    (htimer : ∀ u ∈ timer, u.duration.Whole grain) (ht : t ∈ c.sent timer) : grain ∣ t.deadline := by
  cases timer with
  | none => simp at ht
  | some u =>
    rw [sent_some] at ht
    split_ifs at ht with hfits
    · rw [List.mem_singleton.1 ht]
      rcases htimer u rfl with hdvd | hlong
      · exact Nat.dvd_add h.dvd_clock hdvd
      · omega
    · cases ht

theorem apply (h : Whole grain c) (op : Queue.Op) (hop : ∀ m ∈ op.message?, m.duration.Whole grain) :
    Whole grain (c.apply (·.step op)) := by
  obtain ⟨hbacklog, htimer⟩ := Queue.step_keeps h.backlog hop
  refine ⟨by rw [apply_clock]; exact h.dvd_clock, fun t ht => ?_, by rwa [apply_queue]⟩
  rw [apply_pending, List.mem_append] at ht
  rcases ht with ht | ht
  · exact h.dvd_deadline t ht
  · refine h.dvd_of_mem_sent (fun u hu => ?_) ht
    obtain ⟨m, hm, hduration⟩ := htimer u hu
    rwa [hduration]

theorem act (h : Whole grain c) {a : Act} (ha : a.Whole grain) : Whole grain (c.act a) := by
  have hnone : ∀ m ∈ (none : Option Message), m.duration.Whole grain := by simp
  cases a with
  | push m => exact h.apply (.push m) fun m' hm => Option.some.inj hm ▸ ha
  | urgent m => exact h.apply (.urgent m) fun m' hm => Option.some.inj hm ▸ ha
  | consume => exact h.apply .consume hnone
  | subscribe => exact ⟨h.dvd_clock, h.dvd_deadline, h.backlog⟩
  | observe r => exact ⟨h.dvd_clock, h.dvd_deadline, h.backlog⟩
  | shutdown => exact ⟨h.dvd_clock, List.forall_mem_nil _, h.backlog⟩
  | wait n => exact ⟨Nat.dvd_add h.dvd_clock ha, h.dvd_deadline, h.backlog⟩
  | receive =>
    refine ⟨by rw [Center.act, receive_clock]; exact h.dvd_clock,
      fun t ht => h.dvd_deadline t ((receive_pending_suffix c).subset ht), ?_⟩
    rw [Center.act, receive_queue]
    exact h.backlog
  | fire =>
    rw [Center.act]
    split
    · have hdisarmed : Whole grain c.disarmed :=
        ⟨h.dvd_clock, fun t ht => h.dvd_deadline t ((disarmed_pending_sublist c).subset ht), h.backlog⟩
      exact hdisarmed.apply (.elapsed _) hnone
    · exact h

theorem after (h : Whole grain c) {acts : List Act} (hacts : ∀ a ∈ acts, a.Whole grain) :
    Whole grain (c.after acts) := by
  induction acts generalizing c with
  | nil => exact h
  | cons a acts ih =>
    rw [List.forall_mem_cons] at hacts
    exact ih (h.act hacts.1) hacts.2

theorem receiveAll (h : Whole grain c) : Whole grain c.receiveAll := by
  rw [← after_receives]
  refine h.after fun a ha => ?_
  rw [List.eq_of_mem_replicate ha]
  trivial

theorem expire (h : Whole grain c) (ht : c.armed = some t) :
    Whole grain (c.expire t).receiveAll := by
  have hdvd : grain ∣ t.deadline - c.clock :=
    Nat.dvd_sub (h.dvd_deadline t (by simp [pending, ht])) h.dvd_clock
  rw [← after_wait_fire ht]
  exact ((h.act (a := .wait _) hdvd).act (a := .fire) trivial).receiveAll

theorem fireDue (h : Whole grain c) : Whole grain (fireDue target n c) := by
  induction n generalizing c with
  | zero => exact h
  | succ n ih =>
    rcases due_or_settled target c with ⟨t, ht, hdue⟩ | hs
    · rw [fireDue_of_due ht hdue]
      exact ih (h.expire ht)
    · rwa [fireDue_of_settled hs]

theorem step (h : Whole grain c) {op : Op} (hop : op.Whole grain) : Whole grain (c.step op) := by
  cases op with
  | push m => exact h.act (a := .push m) hop
  | urgent m => exact h.act (a := .urgent m) hop
  | notify text => exact h.act (a := .push (.notify text)) hop
  | notifyFast text => exact h.act (a := .push (.notifyFast text)) hop
  | alert text => exact h.act (a := .urgent (.urgent text)) hop
  | consume => exact h.act (a := .consume) trivial
  | subscribe => exact h.act (a := .subscribe) trivial
  | observe r => exact h.act (a := .observe r) trivial
  | shutdown => exact h.act (a := .shutdown) trivial
  | advance d =>
    have hclock : grain ∣ c.clock + d.nanoseconds := Nat.dvd_add h.dvd_clock hop
    rw [Center.step]
    cases hr : c.running with
    | true =>
      rw [advance_of_running hr]
      exact ⟨hclock, h.receiveAll.fireDue.dvd_deadline, h.receiveAll.fireDue.backlog⟩
    | false =>
      rw [advance_of_stopped hr]
      exact ⟨hclock, h.dvd_deadline, h.backlog⟩

/-! ### The same on a timer that goes by the grain -/

section Timer

variable {wake : Nat → Nat} (hwake : ∀ t, grain ∣ t → wake t = t)
include hwake

theorem wake_eq (h : Whole grain c) (ht : c.armed = some t) : wake t.deadline = t.deadline :=
  hwake _ (h.dvd_deadline t (by simp [pending, ht]))

theorem fireDueOn_eq (h : Whole grain c) :
    fireDueOn wake target n c = Center.fireDue target n c := by
  induction n generalizing c with
  | zero => rfl
  | succ n ih =>
    cases ht : c.armed with
    | none => simp [Center.fireDue, fireDueOn, ht]
    | some t =>
      have hnext := congrArg (if t.deadline ≤ target then · else c) (ih (h.expire ht))
      simpa [Center.fireDue, fireDueOn, Center.expire, ht, h.wake_eq hwake ht] using hnext

theorem firingsOn_eq (h : Whole grain c) :
    firingsOn wake target n c = firings target n c := by
  induction n generalizing c with
  | zero => rfl
  | succ n ih =>
    cases ht : c.armed with
    | none => simp [firings, firingsOn, ht]
    | some t =>
      have hnext := ih (h.expire ht)
      simp only [firings] at hnext
      simp [firings, firingsOn, expireOn, ht, h.wake_eq hwake ht, hnext]

theorem advanceOn_eq (h : Whole grain c) (d : Duration) : c.advanceOn wake d = c.advance d := by
  simp only [advance, advanceOn, h.receiveAll.fireDueOn_eq hwake]
  rfl

theorem stepOn_eq (h : Whole grain c) (op : Op) : c.stepOn wake op = c.step op := by
  cases op with
  | advance d => exact h.advanceOn_eq hwake d
  | _ => rfl

theorem actsOn_eq (h : Whole grain c) (op : Op) : c.actsOn wake op = c.acts op := by
  cases op with
  | advance d =>
    simp only [actsOn, acts, passingOn, h.receiveAll.fireDueOn_eq hwake, h.receiveAll.firingsOn_eq hwake]
    rfl
  | _ => rfl

/-- **A run whose spans of time are whole** leads where it would lead on an exact timer. -/
theorem runOn_eq (h : Whole grain c) {ops : List Op} (hops : ∀ op ∈ ops, op.Whole grain) :
    c.runOn wake ops = c.run ops := by
  induction ops generalizing c with
  | nil => rfl
  | cons op ops ih =>
    rw [List.forall_mem_cons] at hops
    rw [run_cons, ← ih (h.step hops.1) hops.2, ← h.stepOn_eq hwake op]
    rfl

/-- It is carried out by the same acts. -/
theorem courseOn_eq (h : Whole grain c) {ops : List Op} (hops : ∀ op ∈ ops, op.Whole grain) :
    c.courseOn wake ops = c.course ops := by
  induction ops generalizing c with
  | nil => rfl
  | cons op ops ih =>
    rw [List.forall_mem_cons] at hops
    rw [courseOn, course, h.actsOn_eq hwake, h.stepOn_eq hwake, ih (h.step hops.1) hops.2]

end Timer

/-- An exact timer is one whose sleeps end at their deadlines. -/
example (c : Center) (op : Op) : c.stepOn id op = c.step op := by
  cases op <;> rfl

/-- Where durations are not whole, messages stay longer: two of half a millisecond each, one after the
other, take two milliseconds on a timer that goes by the millisecond. -/
example :
    let m := (Message.notify "saved").withDuration ⟨500000⟩
    (initial.runOn (roundUp 1000000) [.push m, .push m, .advance ⟨1000000⟩]).queue.current =
      some ⟨2, m⟩ := by
  decide +kernel

end Whole

end Center

end PanelClient
