import Mathlib.Data.List.Induction
import PanelClient.Proofs.Notification.Loop

/-!
# The course of a run

An operation of a center is carried out by a few acts: most are one act, and letting time pass is
receiving what has been sent, then waiting for each deadline, firing its timer and receiving again,
and at last waiting for the rest of the time.

* `Center.acts`, `Center.course` : the acts of one operation, and of a run of operations, on an exact
  timer; `Center.actsOn`, `Center.courseOn` : the same on any timer;
* `Center.after_course`, `Center.course_prompt` : they lead to where the run leads, and the loop is
  prompt throughout (`Center.Prompt`): it receives before it fires and before time passes, and time
  does not pass the deadline of the timer that it keeps;
* `Center.fireDue_settled` : when time has passed, the timer that the loop keeps, if any, is not due.
-/

namespace PanelClient

namespace Center

/-- The acts by which the loop receives everything in its mailbox. -/
def receives (c : Center) : List Act := List.replicate c.mailbox.length .receive

/-- The loop fires a timer at its deadline. -/
def expire (c : Center) (t : ArmedTimer) : Center :=
  { c with clock := max c.clock t.deadline }.fire t

/-- The loop fires a timer when the sleep until its deadline ends. -/
def expireOn (wake : Nat → Nat) (c : Center) (t : ArmedTimer) : Center :=
  c.expire { t with deadline := wake t.deadline }

/-- The acts by which timers whose sleep ends by `target` are fired, each when it ends, at most `n` of
them. -/
def firingsOn (wake : Nat → Nat) (target : Nat) : Nat → Center → List Act
  | 0, _ => []
  | n + 1, c =>
    match c.armed with
    | some t =>
      if wake t.deadline ≤ target then
        .wait (wake t.deadline - c.clock) :: .fire ::
          ((c.expireOn wake t).receives ++ firingsOn wake target n (c.expireOn wake t).receiveAll)
      else []
    | none => []

/-- The acts by which timers due by `target` are fired, each at its deadline, at most `n` of them. -/
def firings : Nat → Nat → Center → List Act := firingsOn id

/-- The timer that the loop keeps, if any, is not due by `target`. -/
def Settled (target : Nat) (c : Center) : Prop := ∀ t, c.armed = some t → target < t.deadline

/-- The acts by which time passes, on a timer that ends a sleep as `wake` says. -/
def passingOn (wake : Nat → Nat) (c : Center) (d : Duration) : List Act :=
  let target := c.clock + d.nanoseconds
  if c.running then
    let n := c.queue.backlog.length + 1
    c.receives ++ firingsOn wake target n c.receiveAll ++
      [.wait (target - (fireDueOn wake target n c.receiveAll).clock)]
  else [.wait d.nanoseconds]

/-- The acts of an operation, on an exact timer. -/
def acts (c : Center) : Op → List Act
  | .push m => [.push m]
  | .urgent m => [.urgent m]
  | .notify text => [.push (.notify text)]
  | .notifyFast text => [.push (.notifyFast text)]
  | .alert text => [.urgent (.urgent text)]
  | .consume => [.consume]
  | .advance d => c.passingOn id d
  | .subscribe => [.subscribe]
  | .observe r => [.observe r]
  | .shutdown => [.shutdown]

/-- The acts of a run of operations, on an exact timer. -/
def course (c : Center) : List Op → List Act
  | [] => []
  | op :: ops => c.acts op ++ (c.step op).course ops

/-- The acts of an operation, on a timer that ends a sleep as `wake` says. -/
def actsOn (wake : Nat → Nat) (c : Center) : Op → List Act
  | .advance d => c.passingOn wake d
  | op => c.acts op

/-- The acts of a run of operations, on a timer that ends a sleep as `wake` says. -/
def courseOn (wake : Nat → Nat) (c : Center) : List Op → List Act
  | [] => []
  | op :: ops => c.actsOn wake op ++ (c.stepOn wake op).courseOn wake ops

/-- The loop runs and is prompt: it receives what it has been sent before it fires and before time
passes, and time does not pass the deadline of the timer that it keeps. -/
def Prompt (c : Center) : Act → Prop
  | .receive => c.mailbox ≠ []
  | .fire => c.mailbox = [] ∧ ∃ t, c.armed = some t ∧ t.deadline = c.clock
  | .wait n => c.mailbox = [] ∧ ∀ t, c.armed = some t → c.clock + n ≤ t.deadline
  | .shutdown => False
  | _ => True

/-- The loop runs, and no timer that it has is overdue. -/
structure OnTime (c : Center) : Prop where
  running : c.running = true
  le_deadline : ∀ t ∈ c.pending, c.clock ≤ t.deadline

variable {c : Center}

/-! ### Firing what is due -/

theorem due_or_settled (target : Nat) (c : Center) :
    (∃ t, c.armed = some t ∧ t.deadline ≤ target) ∨ Settled target c := by
  cases ht : c.armed with
  | none => exact .inr fun t h => by simp [ht] at h
  | some t =>
    by_cases hdue : t.deadline ≤ target
    · exact .inl ⟨t, rfl, hdue⟩
    · refine .inr fun u hu => ?_
      rw [← Option.some.inj (ht.symm.trans hu)]
      omega

section Firing

variable {target n : Nat} {t : ArmedTimer}

theorem fireDue_of_due (ht : c.armed = some t) (hdue : t.deadline ≤ target) :
    fireDue target (n + 1) c = fireDue target n (c.expire t).receiveAll := by
  simp [fireDue, fireDueOn, expire, ht, hdue]

theorem firings_of_due (ht : c.armed = some t) (hdue : t.deadline ≤ target) :
    firings target (n + 1) c = .wait (t.deadline - c.clock) :: .fire ::
      ((c.expire t).receives ++ firings target n (c.expire t).receiveAll) := by
  simp [firings, firingsOn, expireOn, ht, hdue]

@[simp] theorem firings_zero (target : Nat) (c : Center) : firings target 0 c = [] := rfl

theorem fireDue_of_settled (h : Settled target c) : fireDue target n c = c := by
  cases n with
  | zero => rfl
  | succ n =>
    cases ht : c.armed with
    | none => simp [fireDue, fireDueOn, ht]
    | some t => simp [fireDue, fireDueOn, ht, Nat.not_le.2 (h t ht)]

theorem firings_of_settled (h : Settled target c) : firings target n c = [] := by
  cases n with
  | zero => rfl
  | succ n =>
    cases ht : c.armed with
    | none => simp [firings, firingsOn, ht]
    | some t => simp [firings, firingsOn, ht, Nat.not_le.2 (h t ht)]

theorem expire_clock (c : Center) (t : ArmedTimer) :
    (c.expire t).clock = max c.clock t.deadline := by
  simp [expire, fire]

theorem fireDue_clock_le (h : c.clock ≤ target) : (fireDue target n c).clock ≤ target := by
  induction n generalizing c with
  | zero => exact h
  | succ n ih =>
    rcases due_or_settled target c with ⟨t, ht, hdue⟩ | hs
    · rw [fireDue_of_due ht hdue]
      apply ih
      change (c.expire t).clock ≤ target
      rw [expire_clock]
      exact Nat.max_le.2 ⟨h, hdue⟩
    · rwa [fireDue_of_settled hs]

end Firing

/-! ### Where the acts lead -/

theorem after_receives (c : Center) : c.after c.receives = c.receiveAll := by
  rw [receives, receiveAll]
  generalize hm : c.mailbox = ts
  induction ts generalizing c with
  | nil =>
    obtain ⟨queue, clock, mailbox, armed, running, published, version, receivers⟩ := c
    subst hm
    rfl
  | cons t ts ih =>
    have hact : c.act .receive = { c with armed := some t, mailbox := ts } := by
      simp [act, receive, hm]
    rw [List.length_cons, List.replicate_succ, after_cons, ih _ (by rw [hact]), hact]
    cases ts <;> simp [List.getLast?_cons]

theorem act_wait_sub (c : Center) (t : Nat) :
    c.act (.wait (t - c.clock)) = { c with clock := max c.clock t } := by
  have : c.clock + (t - c.clock) = max c.clock t := by omega
  rw [act, this]

theorem after_wait_fire {t : ArmedTimer} (ht : c.armed = some t) :
    (c.act (.wait (t.deadline - c.clock))).act .fire = c.expire t := by
  rw [act_wait_sub]
  simp [act, ht, expire]

theorem after_firings (target n : Nat) (c : Center) :
    c.after (firings target n c) = fireDue target n c := by
  induction n generalizing c with
  | zero => rfl
  | succ n ih =>
    rcases due_or_settled target c with ⟨t, ht, hdue⟩ | hs
    · rw [firings_of_due ht hdue, fireDue_of_due ht hdue, after_cons, after_cons,
        after_wait_fire ht, after_append, after_receives, ih]
    · rw [firings_of_settled hs, fireDue_of_settled hs, after_nil]

theorem advance_of_running (hr : c.running = true) (d : Duration) :
    c.advance d =
      { fireDue (c.clock + d.nanoseconds) (c.queue.backlog.length + 1) c.receiveAll with
        clock := c.clock + d.nanoseconds } := by
  simp only [advance, advanceOn, fireDue, hr, if_true, receiveAll]

theorem advance_of_stopped (hr : c.running = false) (d : Duration) :
    c.advance d = { c with clock := c.clock + d.nanoseconds } := by
  simp only [advance, advanceOn, hr, Bool.false_eq_true, if_false]

theorem advance_clock (c : Center) (d : Duration) :
    (c.advance d).clock = c.clock + d.nanoseconds := by
  cases hr : c.running with
  | true => rw [advance_of_running hr]
  | false => rw [advance_of_stopped hr]

theorem acts_of_running (hr : c.running = true) (d : Duration) :
    c.acts (.advance d) = c.receives ++
      firings (c.clock + d.nanoseconds) (c.queue.backlog.length + 1) c.receiveAll ++
        [.wait (c.clock + d.nanoseconds -
          (fireDue (c.clock + d.nanoseconds) (c.queue.backlog.length + 1) c.receiveAll).clock)] := by
  simp only [acts, passingOn, firings, fireDue, hr, if_true]

theorem acts_of_stopped (hr : c.running = false) (d : Duration) :
    c.acts (.advance d) = [.wait d.nanoseconds] := by
  simp only [acts, passingOn, hr, Bool.false_eq_true, if_false]

/-- The acts of an operation lead to where the operation leads. -/
theorem after_acts (c : Center) (op : Op) : c.after (c.acts op) = c.step op := by
  cases op with
  | advance d =>
    cases hr : c.running with
    | true =>
      rw [step, advance_of_running hr, acts_of_running hr, after_append, after_append,
        after_receives, after_firings, after_cons, after_nil, act_wait_sub,
        Nat.max_eq_right (fireDue_clock_le (c := c.receiveAll) (Nat.le_add_right c.clock _))]
    | false => rw [step, advance_of_stopped hr, acts_of_stopped hr, after_cons, after_nil, act]
  | notify text => rw [step, notify, acts, after_cons, after_nil, act]
  | notifyFast text => rw [step, notifyFast, acts, after_cons, after_nil, act]
  | alert text => rw [step, alert, acts, after_cons, after_nil, act]
  | _ => rw [step, acts, after_cons, after_nil, act]

/-- An operation of a center comes to operations of its queue. -/
theorem step_consistent (hq : c.queue.Consistent) (op : Op) : (c.step op).queue.Consistent := by
  obtain ⟨ops, hops⟩ := after_queue c (c.acts op)
  rw [after_acts] at hops
  rw [hops]
  exact hq.run ops

@[simp] theorem run_cons (c : Center) (op : Op) (ops : List Op) :
    c.run (op :: ops) = (c.step op).run ops := rfl

theorem after_course (c : Center) (ops : List Op) : c.after (c.course ops) = c.run ops := by
  induction ops generalizing c with
  | nil => rfl
  | cons op ops ih => rw [course, after_append, after_acts, ih, run_cons]

theorem run_append (c : Center) (ops ops' : List Op) :
    c.run (ops ++ ops') = (c.run ops).run ops' := by
  simp [run]

theorem course_append (c : Center) (ops ops' : List Op) :
    c.course (ops ++ ops') = c.course ops ++ (c.run ops).course ops' := by
  induction ops generalizing c with
  | nil => rfl
  | cons op ops ih => simp only [List.cons_append, course, ih, List.append_assoc, run_cons]

/-! ### Promptness -/

theorem Prompt.allows {a : Act} (h : c.Prompt a) : c.Allows a := by
  cases a with
  | fire =>
    obtain ⟨-, t, ht, hd⟩ := h
    exact ⟨t, ht, Nat.le_of_eq hd⟩
  | receive => exact h
  | _ => trivial

theorem clock_le_of_mem_sent {timer : Option Timer} {t : ArmedTimer} (h : t ∈ c.sent timer) :
    c.clock ≤ t.deadline := by
  cases timer with
  | none => simp at h
  | some u =>
    rw [sent_some] at h
    split_ifs at h
    · rw [List.mem_singleton.1 h]
      exact Nat.le_add_right _ _
    · cases h

namespace OnTime

theorem initial_onTime : OnTime initial := ⟨rfl, by simp [initial, pending]⟩

theorem apply (h : OnTime c) (op : Queue → Queue × Option Timer) : OnTime (c.apply op) := by
  refine ⟨by rw [apply_running]; exact h.running, fun t ht => ?_⟩
  rw [apply_pending, List.mem_append] at ht
  rw [apply_clock]
  rcases ht with ht | ht
  · exact h.le_deadline t ht
  · exact clock_le_of_mem_sent ht

theorem act (h : OnTime c) {a : Act} (ha : c.Prompt a) : OnTime (c.act a) := by
  cases a with
  | push m => exact h.apply (·.push m)
  | urgent m => exact h.apply (·.urgent m)
  | consume => exact h.apply Queue.consume
  | subscribe => exact ⟨h.running, h.le_deadline⟩
  | observe r => exact ⟨h.running, h.le_deadline⟩
  | shutdown => exact ha.elim
  | receive =>
    refine ⟨(receive_running c).trans h.running, fun t ht => ?_⟩
    rw [Center.act, receive_clock]
    exact h.le_deadline t ((receive_pending_suffix c).subset ht)
  | fire =>
    obtain ⟨-, t, ht, -⟩ := ha
    have hd : OnTime c.disarmed :=
      ⟨h.running, fun u hu => h.le_deadline u ((disarmed_pending_sublist c).subset hu)⟩
    rw [Center.act, ht]
    exact hd.apply _
  | wait n =>
    obtain ⟨hm, hle⟩ := ha
    refine ⟨h.running, fun t ht => ?_⟩
    have hmem : t ∈ c.pending := ht
    simp only [pending, hm, List.append_nil, Option.mem_toList] at hmem
    exact hle t hmem

theorem after (h : OnTime c) {acts : List Act} (hp : c.Along Prompt acts) :
    OnTime (c.after acts) := by
  induction acts generalizing c with
  | nil => exact h
  | cons a acts ih => exact ih (h.act hp.1) hp.2

end OnTime

/-- While the loop receives everything, its mailbox holds something. -/
theorem receives_along {P : Center → Act → Prop} (hP : ∀ c : Center, c.mailbox ≠ [] → P c .receive)
    (c : Center) : c.Along P c.receives := by
  rw [receives]
  generalize hm : c.mailbox = ts
  induction ts generalizing c with
  | nil => trivial
  | cons t ts ih =>
    refine ⟨hP c (by simp [hm]), ih _ ?_⟩
    simp [act, receive, hm]

theorem receives_prompt (c : Center) : c.Along Prompt c.receives :=
  receives_along (fun _ hm => hm) c

theorem OnTime.receiveAll (h : OnTime c) : OnTime c.receiveAll := by
  rw [← after_receives]
  exact h.after (receives_prompt c)

section Firing

variable {target n : Nat}

/-- Each timer is fired at its deadline. -/
theorem firings_prompt (hm : c.mailbox = []) (h : OnTime c) :
    c.Along Prompt (firings target n c) := by
  induction n generalizing c with
  | zero => trivial
  | succ n ih =>
    rcases due_or_settled target c with ⟨t, ht, hdue⟩ | hs
    · have hle : c.clock ≤ t.deadline := h.le_deadline t (by simp [pending, ht])
      have hwait : c.Prompt (.wait (t.deadline - c.clock)) := by
        refine ⟨hm, fun u hu => ?_⟩
        rw [← Option.some.inj (ht.symm.trans hu)]
        omega
      have hfire : (c.act (.wait (t.deadline - c.clock))).Prompt .fire := by
        rw [act_wait_sub]
        exact ⟨hm, t, ht, (Nat.max_eq_right hle).symm⟩
      -- the timer sent by the firing runs out no earlier than it is sent
      have hexpire : OnTime (c.expire t) := by
        rw [← after_wait_fire ht]
        exact (h.act hwait).act hfire
      rw [firings_of_due ht hdue]
      refine ⟨hwait, hfire, ?_⟩
      rw [after_wait_fire ht, along_append, after_receives]
      exact ⟨receives_prompt _, ih rfl hexpire.receiveAll⟩
    · rw [firings_of_settled hs]
      trivial

theorem expire_queue (c : Center) (t : ArmedTimer) :
    (c.expire t).queue = (c.queue.elapsed t.id).1 := by
  simp [expire, fire]

/-- A firing leaves no timer, or takes a message off the backlog. -/
theorem expire_settles (hq : c.queue.Consistent) (hm : c.mailbox = []) (t : ArmedTimer) :
    (c.expire t).receiveAll.armed = none ∨
      (c.expire t).queue.backlog.length < c.queue.backlog.length := by
  rw [expire_queue]
  have hnone (ht : (c.queue.elapsed t.id).2 = none) : (c.expire t).receiveAll.armed = none := by
    simp [receiveAll, expire, fire, hm, ht]
  rcases hq.effect (.elapsed t.id) with ⟨m, rest, hb, hr, -⟩ | ⟨-, -, -, ht⟩ | ⟨-, -, -, ht⟩
  · right
    rcases hb with ⟨hop, -⟩ | ⟨-, hb⟩
    · cases hop
    · simp only [Queue.Op.pushed, List.append_nil] at hb
      change (c.queue.step (.elapsed t.id)).1.backlog.length < _
      rw [hr, hb]
      exact Nat.lt_succ_self _
  · exact .inl (hnone ht)
  · exact .inl (hnone ht)

theorem fireDue_mailbox (hm : c.mailbox = []) : (fireDue target n c).mailbox = [] := by
  induction n generalizing c with
  | zero => exact hm
  | succ n ih =>
    rcases due_or_settled target c with ⟨t, ht, hdue⟩ | hs
    · rw [fireDue_of_due ht hdue]
      exact ih rfl
    · rwa [fireDue_of_settled hs]

/-- More firings than messages wait leave no timer due. -/
theorem fireDue_settled (hq : c.queue.Consistent) (hm : c.mailbox = [])
    (hn : c.queue.backlog.length < n) : Settled target (fireDue target n c) := by
  -- each firing shortens the backlog or is the last
  induction n generalizing c with
  | zero => cases hn
  | succ n ih =>
    rcases due_or_settled target c with ⟨t, ht, hdue⟩ | hs
    · rw [fireDue_of_due ht hdue]
      rcases expire_settles hq hm t with hnone | hlt
      · have hsettled : Settled target (c.expire t).receiveAll := fun u hu => by
          simp [hnone] at hu
        rwa [fireDue_of_settled hsettled]
      · refine ih ?_ rfl ?_
        · change (c.expire t).queue.Consistent
          rw [expire_queue]
          exact hq.step (.elapsed t.id)
        · exact Nat.lt_of_lt_of_le hlt (Nat.le_of_lt_succ hn)
    · rwa [fireDue_of_settled hs]

end Firing

/-- The loop is prompt throughout an operation other than a shutdown. -/
theorem acts_prompt (hq : c.queue.Consistent) (h : OnTime c) {op : Op} (hop : op ≠ .shutdown) :
    c.Along Prompt (c.acts op) := by
  cases op with
  | advance d =>
    rw [acts_of_running h.running, along_append, along_append, after_append, after_receives,
      after_firings]
    refine ⟨⟨receives_prompt c, firings_prompt rfl h.receiveAll⟩, ⟨fireDue_mailbox rfl, ?_⟩, trivial⟩
    intro t ht
    have hle := fireDue_clock_le (n := c.queue.backlog.length + 1) (c := c.receiveAll)
      (Nat.le_add_right c.clock d.nanoseconds)
    have hsettled : Settled (c.clock + d.nanoseconds)
        (fireDue (c.clock + d.nanoseconds) (c.queue.backlog.length + 1) c.receiveAll) :=
      fireDue_settled (c := c.receiveAll) hq rfl (Nat.lt_succ_self _)
    have hlt := hsettled t ht
    omega
  | shutdown => exact absurd rfl hop
  | _ => exact ⟨trivial, trivial⟩

theorem OnTime.step (ho : OnTime c) (hq : c.queue.Consistent) {op : Op} (hop : op ≠ .shutdown) :
    OnTime (c.step op) := by
  rw [← after_acts]
  exact ho.after (acts_prompt hq ho hop)

/-- After time has passed, the loop has received everything, and what it keeps is not due. -/
theorem advance_settled (hq : c.queue.Consistent) (hr : c.running = true) (d : Duration) :
    (c.advance d).mailbox = [] ∧ Settled (c.advance d).clock (c.advance d) := by
  rw [advance_of_running hr]
  exact ⟨fireDue_mailbox rfl, fireDue_settled (c := c.receiveAll) hq rfl (Nat.lt_succ_self _)⟩

/-! ### Runs from the start -/

theorem run_tracked (ops : List Op) :
    Tracked (initial.run ops) (initial.shows (initial.course ops)) ∧
      Live (initial.run ops) (initial.shows (initial.course ops)) := by
  rw [← after_course]
  exact schedule_tracked (initial.course ops)

/-- **A run that does not stop the loop is a prompt schedule.** -/
theorem course_prompt (ops : List Op) (h : .shutdown ∉ ops) :
    initial.Along Prompt (initial.course ops) := by
  -- operations are added at the end, where the run before has led to a center that is on time
  induction ops using List.reverseRecOn with
  | nil => trivial
  | append_singleton ops op ih =>
    simp only [List.mem_append, List.mem_singleton, not_or] at h
    have hp := ih h.1
    have ho : OnTime (initial.run ops) := by
      rw [← after_course]
      exact OnTime.initial_onTime.after hp
    rw [course_append, along_append, after_course, course, course, List.append_nil]
    exact ⟨hp, acts_prompt (run_tracked ops).1.consistent ho (Ne.symm h.2)⟩

theorem run_onTime (ops : List Op) (h : .shutdown ∉ ops) : OnTime (initial.run ops) := by
  rw [← after_course]
  exact OnTime.initial_onTime.after (course_prompt ops h)

end Center

end PanelClient
