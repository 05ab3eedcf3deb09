import Mathlib.Data.List.MinMax
import PanelClient.Proofs.Notification.Course

/-!
# Keeping every timer

The loop of a center keeps one timer and gives it up for the next. Another loop could keep every
timer that it has been sent and fire each at its own deadline. Nobody could tell the two apart: what
the first gives up belongs to a message that is past.

* `Center.Sight`, `Center.sights` : what is seen of a center after each operation of a run;
* `Center.FiresKept`, `Center.StepKept`, `Center.SeenKept` : the loop that keeps every timer. It never
  receives, and fires timers out of its mailbox, the earliest deadline first and equal ones in any
  order;
* `Center.Matched`, `Center.Agrees` : of the message on screen the two have the same timer; they have
  the same queue and have told the receivers the same;
* `Center.Agrees.firesKept` : letting time pass keeps them in agreement, in whatever order the timers
  kept are fired, and `Center.FiresKept.exists_firesKept` : there is always such an order;
* `Center.sights_of_keeping_all` : so what is seen of every run is the same.
-/

namespace PanelClient

namespace Center

/-- What can be seen of a center after an operation. -/
structure Sight where
  snapshot : Queue.Snapshot
  /-- The number of the message on screen. -/
  displayed : Option Nat
  /-- What the operation has let a receiver know. -/
  observation : Observation
  deriving DecidableEq, Repr

/-- What is seen of an operation that leads from `c` to `c'`. -/
def sight (c : Center) (op : Op) (c' : Center) : Sight :=
  ⟨c'.queue.snapshot, c'.queue.current.map (·.id), c.observation op⟩

/-- What is seen after each operation of a run. -/
def sights (c : Center) : List Op → List Sight
  | [] => []
  | op :: ops => c.sight op (c.step op) :: (c.step op).sights ops

/-! ### The loop that keeps every timer -/

/-- A timer of the mailbox is fired at its deadline. -/
def expireKept (c : Center) (t : ArmedTimer) : Center :=
  { c with clock := t.deadline, mailbox := c.mailbox.erase t }.apply (·.elapsed t.id)

/-- The timers due by `target` are fired out of the mailbox until none is left, those included that
are sent on the way. -/
inductive FiresKept (target : Nat) : Center → Center → Prop
  | settled {c : Center} (h : ∀ t ∈ c.mailbox, target < t.deadline) : FiresKept target c c
  | fire {c c' : Center} {t : ArmedTimer} (ht : t ∈ c.mailbox) (hdue : t.deadline ≤ target)
      (hfirst : ∀ u ∈ c.mailbox, t.deadline ≤ u.deadline)
      (h : FiresKept target (c.expireKept t) c') : FiresKept target c c'

/-- An operation on a center whose loop keeps every timer. -/
inductive StepKept (c : Center) : Op → Center → Prop
  | advance {d : Duration} {c' : Center} (h : FiresKept (c.clock + d.nanoseconds) c c') :
      StepKept c (.advance d) { c' with clock := c.clock + d.nanoseconds }
  | other {op : Op} (h : ∀ d, op ≠ .advance d) : StepKept c op (c.step op)

/-- What can be seen after each operation of a run if the loop keeps every timer. -/
inductive SeenKept : Center → List Op → List Sight → Prop
  | nil {c : Center} : SeenKept c [] []
  | cons {c c' : Center} {op : Op} {ops : List Op} {seen : List Sight} (h : StepKept c op c')
      (hs : SeenKept c' ops seen) : SeenKept c (op :: ops) (c.sight op c' :: seen)

variable {c c' k k' : Center} {target n : Nat}

/-! ### What the receivers are told -/

/-- A timer that is not that of the message on screen does nothing to a center that has told the
receivers what is on screen. -/
theorem apply_elapsed_of_stale {id : Nat} (hq : c.queue.Consistent)
    (hid : ∀ s, c.queue.current = some s → s.id ≠ id) (ht : c.published = c.queue.current) :
    c.apply (·.elapsed id) = c := by
  obtain ⟨queue, clock, mailbox, armed, running, published, version, receivers⟩ := c
  simp only at hq hid ht
  simp [apply, hq.elapsed_of_not_current hid, publish, ht]

/-! ### The timers of two loops -/

/-- Of the message on screen a loop that keeps every timer has the same timer as one for which only
the last of `pending` counts, or both have none. -/
structure Matched (q : Queue) (kept pending : List ArmedTimer) : Prop where
  /-- The timers kept are in the order of their numbers. -/
  kept_lt : kept.Pairwise fun t u => t.id < u.id
  /-- No timer is ahead of the queue. -/
  kept_le : ∀ t ∈ kept, t.id ≤ q.lastId
  pending_le : ∀ t ∈ pending, t.id ≤ q.lastId
  mem_iff : ∀ s, q.current = some s → ∀ t, t.id = s.id → (t ∈ kept ↔ pending.getLast? = some t)

namespace Matched

variable {q q' : Queue} {kept pending new : List ArmedTimer} {t : ArmedTimer} {s : Shown}

/-- No timer is sent while the message stays on screen or leaves it. -/
theorem keeps (h : Matched q kept pending) (hl : q'.lastId = q.lastId)
    (hc : q'.current = q.current ∨ q'.current = none) : Matched q' kept pending where
  kept_lt := h.kept_lt
  kept_le t ht := hl ▸ h.kept_le t ht
  pending_le t ht := hl ▸ h.pending_le t ht
  mem_iff s hs := by
    rcases hc with hc | hc
    · exact h.mem_iff s (hc ▸ hs)
    · simp [hc] at hs

/-- A message comes on screen under the next number, and its timer is sent, or none. -/
theorem sends (h : Matched q kept pending) (hl : q'.lastId = q.lastId + 1)
    (hc : ∀ s, q'.current = some s → s.id = q.lastId + 1)
    (hnew : new = [] ∨ ∃ u : ArmedTimer, new = [u] ∧ u.id = q.lastId + 1) :
    Matched q' (kept ++ new) (pending ++ new) := by
  have hid : ∀ u ∈ new, u.id = q.lastId + 1 := by
    rcases hnew with rfl | ⟨u, rfl, hu⟩
    · simp
    · simpa using hu
  have hle : ∀ ts : List ArmedTimer, (∀ t ∈ ts, t.id ≤ q.lastId) →
      ∀ t ∈ ts ++ new, t.id ≤ q'.lastId := by
    intro ts hts t ht
    rcases List.mem_append.1 ht with ht | ht
    · have := hts t ht
      omega
    · have := hid t ht
      omega
  refine ⟨?_, hle kept h.kept_le, hle pending h.pending_le, fun s hs t ht => ?_⟩
  · refine List.pairwise_append.2 ⟨h.kept_lt, ?_, fun t ht u hu => ?_⟩
    · rcases hnew with rfl | ⟨u, rfl, -⟩
      · exact List.Pairwise.nil
      · exact List.pairwise_singleton _ u
    · have := h.kept_le t ht
      have := hid u hu
      omega
  · -- both loops have a timer of the new number exactly if it has just been sent
    have ht' : t.id = q.lastId + 1 := ht.trans (hc s hs)
    have hkept : t ∉ kept := fun hmem => by
      have := h.kept_le t hmem
      omega
    have hpending : pending.getLast? ≠ some t := fun hlast => by
      have := h.pending_le t (List.mem_of_getLast? hlast)
      omega
    rcases hnew with rfl | ⟨u, rfl, -⟩
    · simp [hkept, hpending]
    · simp [hkept, eq_comm]

/-- A timer that is not that of the message on screen is no longer kept. -/
theorem erase_stale (h : Matched q kept pending) (ht : ∀ s, q.current = some s → s.id ≠ t.id) :
    Matched q (kept.erase t) pending where
  kept_lt := h.kept_lt.sublist List.erase_sublist
  kept_le u hu := h.kept_le u (List.mem_of_mem_erase hu)
  pending_le := h.pending_le
  mem_iff s hs u hu := by
    have hne : u ≠ t := fun heq => ht s hs (heq ▸ hu.symm)
    rw [List.mem_erase_of_ne hne, h.mem_iff s hs u hu]

/-- The one-timer loop gives up a timer that is not that of the message on screen. -/
theorem drop_stale (h : Matched q kept [t]) (ht : ∀ s, q.current = some s → s.id ≠ t.id) :
    Matched q kept [] where
  kept_lt := h.kept_lt
  kept_le := h.kept_le
  pending_le := by simp
  mem_iff s hs u hu := by
    have hne : t ≠ u := fun heq => ht s hs (heq ▸ hu.symm)
    simp [h.mem_iff s hs u hu, hne]

/-- Both loops take the timer of the message on screen in order to fire it. -/
theorem take (h : Matched q kept [t]) (hs : q.current = some s) :
    Matched q (kept.erase t) [] where
  kept_lt := h.kept_lt.sublist List.erase_sublist
  kept_le u hu := h.kept_le u (List.mem_of_mem_erase hu)
  pending_le := by simp
  mem_iff s' hs' u hu := by
    obtain rfl : s = s' := Option.some.inj (hs.symm.trans hs')
    have hnodup : kept.Nodup := h.kept_lt.imp fun hlt heq => by
      rw [heq] at hlt
      exact Nat.lt_irrefl _ hlt
    simp [hnodup.mem_erase_iff, h.mem_iff s hs u hu, eq_comm]

/-- Only the last timer of the one-timer loop counts. -/
theorem last (h : Matched q kept pending) : Matched q kept pending.getLast?.toList where
  kept_lt := h.kept_lt
  kept_le := h.kept_le
  pending_le t ht := h.pending_le t (List.mem_of_getLast? (Option.mem_toList.1 ht))
  mem_iff s hs t ht := by
    rw [h.mem_iff s hs t ht]
    cases pending.getLast? <;> simp

end Matched

/-! ### Agreement -/

/-- The center `k`, whose loop keeps every timer, shows what `c` shows and has told the receivers the
same. -/
structure Agrees (c k : Center) : Prop where
  queue_eq : k.queue = c.queue
  running_eq : k.running = c.running
  version_eq : k.version = c.version
  receivers_eq : k.receivers = c.receivers
  consistent : c.queue.Consistent
  told : c.published = c.queue.current
  told_kept : k.published = c.queue.current
  armed_eq_none : k.armed = none
  timers : Matched c.queue k.mailbox c.pending

namespace Agrees

theorem initial_agrees : Agrees initial initial where
  queue_eq := rfl
  running_eq := rfl
  version_eq := rfl
  receivers_eq := rfl
  consistent := Queue.empty_consistent
  told := rfl
  told_kept := rfl
  armed_eq_none := rfl
  timers := ⟨List.Pairwise.nil, by simp [initial], by simp [initial, pending],
    by simp [initial, Queue.empty]⟩

/-- The two go on agreeing through an operation that both carry out at the same moment: both loops
are sent the same timer, if any. -/
theorem apply (h : Agrees c k) (hclock : k.clock = c.clock) (op : Queue.Op) :
    Agrees (c.apply (·.step op)) (k.apply (·.step op)) := by
  have hsent : k.sent = c.sent := by
    funext t
    simp only [sent, hclock, h.running_eq]
  obtain ⟨htold, hversion⟩ := apply_told c (·.step op)
  obtain ⟨htoldk, hversionk⟩ := apply_told k (·.step op)
  refine ⟨?_, ?_, ?_, ?_, ?_, ?_, ?_, ?_, ?_⟩
  · rw [apply_queue, apply_queue, h.queue_eq]
  · rw [apply_running, apply_running, h.running_eq]
  · rw [hversion, hversionk, h.version_eq, h.queue_eq, h.told, h.told_kept]
  · rw [apply_receivers, apply_receivers, h.receivers_eq]
  · rw [apply_queue]
    exact h.consistent.step op
  · rw [htold, apply_queue]
  · rw [htoldk, apply_queue, h.queue_eq]
  · rw [apply_armed, h.armed_eq_none]
  · rw [apply_pending, apply_mailbox, apply_queue, hsent, h.queue_eq]
    rcases Queue.Call.shown_cases (c := ⟨c.queue, op⟩) h.consistent with
      ⟨m, -, ht, hl, hc, -⟩ | ⟨-, ht, hl, hc, -⟩ <;>
      simp only [Queue.Call.timer, Queue.Call.after] at ht hl hc <;> rw [ht]
    · refine h.timers.sends hl (fun s hs => ?_) ?_
      · rw [← Option.some.inj (hc.symm.trans hs)]
      · rw [sent_some]
        split_ifs
        · exact .inr ⟨_, rfl, rfl⟩
        · exact .inl rfl
    · simpa using h.timers.keeps hl hc

theorem receiveAll (h : Agrees c k) : Agrees c.receiveAll k := by
  have hp : c.receiveAll.pending = c.pending.getLast?.toList := by
    simp only [pending, Center.receiveAll, List.getLast?_append, List.append_nil]
    cases c.armed <;> rfl
  exact { h with timers := hp ▸ h.timers.last }

/-- The clock is of no account. -/
theorem at_clock (h : Agrees c k) (time time' : Nat) :
    Agrees { c with clock := time } { k with clock := time' } :=
  { h with }

end Agrees

/-! ### Letting time pass -/

theorem OnTime.expire {t : ArmedTimer} (hc : OnTime c) (hm : c.mailbox = []) :
    OnTime (c.expire t).receiveAll := by
  have hcalm : OnTime { c with clock := max c.clock t.deadline, armed := none } :=
    ⟨hc.running, by simp [pending, hm]⟩
  exact (hcalm.apply (·.elapsed t.id)).receiveAll

/-- The kept timer that is fired first is fired before any other is due. -/
theorem OnTime.reach {t : ArmedTimer} (hk : OnTime k) (ha : k.armed = none)
    (hfirst : ∀ u ∈ k.mailbox, t.deadline ≤ u.deadline) :
    OnTime { k with clock := t.deadline, mailbox := k.mailbox.erase t } := by
  refine ⟨hk.running, fun u hu => hfirst u ?_⟩
  simp only [pending, ha, Option.toList_none, List.nil_append] at hu
  exact List.mem_of_mem_erase hu

namespace Agrees

variable {t : ArmedTimer}

/-- Both loops fire the timer of the message on screen. -/
theorem fire_live (h : Agrees c k) (hc : OnTime c) (hm : c.mailbox = []) (ht : c.armed = some t)
    {s : Shown} (hs : c.queue.current = some s) :
    Agrees (c.expire t).receiveAll (k.expireKept t) := by
  have hp : c.pending = [t] := by simp [pending, hm, ht]
  have hclock : max c.clock t.deadline = t.deadline :=
    max_eq_right (hc.le_deadline t (by simp [hp]))
  have htaken : Agrees { c with clock := max c.clock t.deadline, armed := none }
      { k with clock := t.deadline, mailbox := k.mailbox.erase t } :=
    { h with timers := by simpa [pending, hm] using (hp ▸ h.timers).take hs }
  exact (htaken.apply hclock.symm (.elapsed t.id)).receiveAll

/-- A kept timer that is not that of the message on screen changes nothing but the clock. -/
theorem expireKept_stale (h : Agrees c k) (ht : ∀ s, c.queue.current = some s → s.id ≠ t.id) :
    k.expireKept t = { k with clock := t.deadline, mailbox := k.mailbox.erase t } := by
  rw [← h.queue_eq] at ht
  exact apply_elapsed_of_stale (h.queue_eq ▸ h.consistent) ht (h.queue_eq ▸ h.told_kept)

/-- Nor does such a timer of the other loop. -/
theorem expire_stale (h : Agrees c k) (ht : ∀ s, c.queue.current = some s → s.id ≠ t.id) :
    c.expire t = { c with clock := max c.clock t.deadline, armed := none } :=
  apply_elapsed_of_stale (c := { c with clock := max c.clock t.deadline, armed := none })
    h.consistent ht h.told

/-- When no kept timer is due, the other loop has at most one that changes nothing. -/
theorem fireDue_settled (h : Agrees c k) (hm : c.mailbox = [])
    (hn : Settled target c ∨ c.queue.backlog.length < n)
    (hk : ∀ t ∈ k.mailbox, target < t.deadline) : Agrees (fireDue target n c) k := by
  rcases due_or_settled target c with ⟨t, ht, hdue⟩ | hs
  · have hp : c.pending = [t] := by simp [pending, hm, ht]
    have hstale : ∀ s, c.queue.current = some s → s.id ≠ t.id := fun s hs hid => by
      have := hk t ((h.timers.mem_iff s hs t hid.symm).2 (by simp [hp]))
      omega
    obtain ⟨n, rfl⟩ : ∃ m, n = m + 1 := by
      refine ⟨n - 1, ?_⟩
      rcases hn with hs | hn
      · have := hs t ht
        omega
      · omega
    rw [fireDue_of_due ht hdue, h.expire_stale hstale,
      fireDue_of_settled (by simp [Settled, Center.receiveAll, hm])]
    refine receiveAll { h with timers := ?_ }
    simpa [pending, hm] using (hp ▸ h.timers).drop_stale hstale
  · rwa [fireDue_of_settled hs]

/-- **Letting time pass keeps the two in agreement**, in whatever order timers of one deadline are
fired. -/
theorem firesKept (h : Agrees c k) (hf : FiresKept target k k') (hm : c.mailbox = [])
    (hc : OnTime c) (hk : OnTime k) (hn : Settled target c ∨ c.queue.backlog.length < n) :
    Agrees (fireDue target n c) k' := by
  induction hf generalizing c n with
  | settled hsettled => exact h.fireDue_settled hm hn hsettled
  | @fire k k' t ht hdue hfirst _ ih =>
    by_cases hlive : ∃ s, c.queue.current = some s ∧ s.id = t.id
    · obtain ⟨s, hs, hid⟩ := hlive
      have harmed : c.armed = some t := by
        have hlast := (h.timers.mem_iff s hs t hid.symm).1 ht
        cases ha : c.armed <;> simp_all [pending]
      have hlt : c.queue.backlog.length < n := hn.resolve_left fun hsettled => by
        have := hsettled t harmed
        omega
      obtain ⟨n, rfl⟩ : ∃ m, n = m + 1 := ⟨n - 1, by omega⟩
      rw [fireDue_of_due harmed hdue]
      refine ih (h.fire_live hc hm harmed hs) rfl (hc.expire hm)
        ((hk.reach h.armed_eq_none hfirst).apply _) ?_
      -- the backlog is shorter, or no timer is left
      rcases expire_settles h.consistent hm t with hnone | hshorter
      · exact .inl fun u hu => by simp [hnone] at hu
      · exact .inr (Nat.lt_of_lt_of_le hshorter (Nat.le_of_lt_succ hlt))
    · have hstale : ∀ s, c.queue.current = some s → s.id ≠ t.id := fun s hs hid =>
        hlive ⟨s, hs, hid⟩
      rw [h.expireKept_stale hstale] at ih
      exact ih { h with timers := h.timers.erase_stale hstale } hm hc
        (hk.reach h.armed_eq_none hfirst) hn

end Agrees

namespace FiresKept

/-- When time has passed, no kept timer is due. -/
theorem lt_deadline (h : FiresKept target k k') : ∀ t ∈ k'.mailbox, target < t.deadline := by
  induction h with
  | settled h => exact h
  | fire _ _ _ _ ih => exact ih

/-- A firing takes a timer out of the mailbox, and has another put in only if it takes a message off
the backlog. -/
theorem inflow_lt {t : ArmedTimer} (ht : t ∈ k.mailbox) : (k.expireKept t).inflow < k.inflow := by
  have hpos := List.length_pos_of_mem ht
  have herase := List.length_erase_of_mem ht
  have hle := apply_elapsed_inflow_le
    { k with clock := t.deadline, mailbox := k.mailbox.erase t } t.id
  refine Nat.lt_of_le_of_lt hle ?_
  rw [inflow, inflow]
  dsimp only
  omega

/-- There is an order in which the kept timers can be fired, until none is due. -/
theorem exists_firesKept (target : Nat) (k : Center) : ∃ k', FiresKept target k k' := by
  induction hn : k.inflow using Nat.strong_induction_on generalizing k with
  | _ n ih =>
    by_cases hsettled : ∀ t ∈ k.mailbox, target < t.deadline
    · exact ⟨k, .settled hsettled⟩
    · push Not at hsettled
      obtain ⟨u, hu, hdue⟩ := hsettled
      obtain ⟨t, ht⟩ : ∃ t, t ∈ k.mailbox.argmin (·.deadline) :=
        Option.ne_none_iff_exists'.1 fun h => List.ne_nil_of_mem hu (List.argmin_eq_none.1 h)
      have hmem := List.argmin_mem ht
      have hfirst : ∀ u ∈ k.mailbox, t.deadline ≤ u.deadline := fun u hu =>
        List.le_of_mem_argmin hu ht
      obtain ⟨k', hk'⟩ := ih _ (hn ▸ inflow_lt hmem) (k.expireKept t) rfl
      exact ⟨k', .fire hmem ((hfirst u hu).trans hdue) hfirst hk'⟩

end FiresKept

/-- Whatever is asked of a center whose loop keeps every timer can be carried out. -/
theorem exists_stepKept (k : Center) (op : Op) : ∃ k', StepKept k op k' := by
  cases op with
  | advance d =>
    obtain ⟨k', hk'⟩ := FiresKept.exists_firesKept (k.clock + d.nanoseconds) k
    exact ⟨_, .advance hk'⟩
  | _ => exact ⟨_, .other (by simp)⟩

/-! ### Every run -/

/-- The two agree, at the same moment, and no timer of either is overdue. -/
structure InStep (c k : Center) : Prop where
  agrees : Agrees c k
  clock_eq : k.clock = c.clock
  onTime : c.running = true → OnTime c ∧ OnTime k
  stopped : c.running = false → k.mailbox = []

namespace InStep

theorem initial_inStep : InStep initial initial :=
  ⟨.initial_agrees, rfl, fun _ => ⟨.initial_onTime, .initial_onTime⟩, fun _ => rfl⟩

theorem apply (h : InStep c k) (op : Queue.Op) :
    InStep (c.apply (·.step op)) (k.apply (·.step op)) := by
  refine ⟨h.agrees.apply h.clock_eq op, ?_, fun hr => ?_, fun hr => ?_⟩
  · rw [apply_clock, apply_clock, h.clock_eq]
  · rw [apply_running] at hr
    exact ⟨(h.onTime hr).1.apply _, (h.onTime hr).2.apply _⟩
  · rw [apply_running] at hr
    have hrk : k.running = false := h.agrees.running_eq.trans hr
    simp [h.stopped hr, sent, hrk]

/-- Time passes, and both loops fire what is due. -/
theorem advance_running (h : InStep c k) (hr : c.running = true) {d : Duration}
    (hf : FiresKept (k.clock + d.nanoseconds) k k') :
    InStep (c.advance d) { k' with clock := k.clock + d.nanoseconds } := by
  obtain ⟨hc, hk⟩ := h.onTime hr
  have hlt := hf.lt_deadline
  rw [h.clock_eq] at hf hlt ⊢
  have hagrees := h.agrees.receiveAll.firesKept hf rfl hc.receiveAll hk (.inr (Nat.lt_succ_self _))
  have hop : Op.advance d ≠ .shutdown := by simp
  have hstep : OnTime (c.advance d) := hc.step h.agrees.consistent hop
  rw [advance_of_running hr] at hstep ⊢
  refine ⟨hagrees.at_clock _ _, rfl, fun _ => ⟨hstep, ?_⟩, fun hr' => ?_⟩
  · refine ⟨hagrees.running_eq.trans hstep.running, fun t ht => ?_⟩
    simp only [pending, hagrees.armed_eq_none, Option.toList_none, List.nil_append] at ht
    exact Nat.le_of_lt (hlt t ht)
  · cases hstep.running.symm.trans hr'

/-- Time passes, and nothing else happens: the loops have stopped and have no timers. -/
theorem advance_stopped (h : InStep c k) (hr : c.running = false) {d : Duration}
    (hf : FiresKept (k.clock + d.nanoseconds) k k') :
    InStep (c.advance d) { k' with clock := k.clock + d.nanoseconds } := by
  cases hf with
  | settled =>
    rw [advance_of_stopped hr, h.clock_eq]
    exact ⟨h.agrees.at_clock _ _, rfl, fun hr' => absurd (hr.symm.trans hr') Bool.false_ne_true,
      fun _ => h.stopped hr⟩
  | fire ht => simp [h.stopped hr] at ht

theorem with_receivers (h : InStep c k) (rs : List Nat) :
    InStep { c with receivers := rs } { k with receivers := rs } where
  agrees := { h.agrees with receivers_eq := rfl }
  clock_eq := h.clock_eq
  onTime hr := ⟨{ (h.onTime hr).1 with }, { (h.onTime hr).2 with }⟩
  stopped := h.stopped

theorem shutdown (h : InStep c k) : InStep c.shutdown k.shutdown where
  agrees :=
    { h.agrees with
      running_eq := rfl
      armed_eq_none := rfl
      timers := ⟨List.Pairwise.nil, by simp [Center.shutdown], by simp [Center.shutdown, pending],
        by simp [Center.shutdown, pending]⟩ }
  clock_eq := h.clock_eq
  onTime hr := by cases hr
  stopped _ := rfl

/-- **Every operation keeps the two in step.** -/
theorem step (h : InStep c k) {op : Op} (hs : StepKept k op k') : InStep (c.step op) k' := by
  have hversion := h.agrees.version_eq
  have hreceivers := h.agrees.receivers_eq
  cases hs with
  | advance hf =>
    cases hr : c.running with
    | true => exact h.advance_running hr hf
    | false => exact h.advance_stopped hr hf
  | other hop =>
    cases op with
    | push m => exact h.apply (.push m)
    | urgent m => exact h.apply (.urgent m)
    | notify text => exact h.apply (.push (.notify text))
    | notifyFast text => exact h.apply (.push (.notifyFast text))
    | alert text => exact h.apply (.urgent (.urgent text))
    | consume => exact h.apply .consume
    | advance d => exact absurd rfl (hop d)
    | subscribe =>
      have hk : k.subscribe = { k with receivers := c.receivers ++ [c.version] } := by
        rw [subscribe, hreceivers, hversion]
      rw [Center.step, Center.step, hk]
      exact h.with_receivers _
    | observe r =>
      have hk : k.observe r = { k with receivers := c.receivers.set r c.version } := by
        rw [observe, hreceivers, hversion]
      rw [Center.step, Center.step, hk]
      exact h.with_receivers _
    | shutdown => exact h.shutdown

/-- What is seen of an operation is the same. -/
theorem sight_eq (h : InStep c k) (h' : InStep c' k') (op : Op) :
    k.sight op k' = c.sight op c' := by
  have hobservation : k.observation op = c.observation op := by
    cases op with
    | subscribe => simp [observation, h.agrees.receivers_eq]
    | observe r =>
      simp [observation, hasChanged, h.agrees.receivers_eq, h.agrees.version_eq, h.agrees.told,
        h.agrees.told_kept]
    | _ => rfl
  rw [sight, sight, h'.agrees.queue_eq, hobservation]

/-- What is seen of a run is the same. -/
theorem seenKept_iff (h : InStep c k) {ops : List Op} {seen : List Sight} :
    SeenKept k ops seen ↔ seen = c.sights ops := by
  induction ops generalizing c k seen with
  | nil =>
    constructor
    · rintro ⟨⟩
      rfl
    · rintro rfl
      exact .nil
  | cons op ops ih =>
    constructor
    · rintro (_ | ⟨hs, hseen⟩)
      rw [sights, h.sight_eq (h.step hs), (ih (h.step hs)).1 hseen]
    · rintro rfl
      obtain ⟨k', hs⟩ := exists_stepKept k op
      rw [sights, ← h.sight_eq (h.step hs)]
      exact .cons hs ((ih (h.step hs)).2 rfl)

end InStep

/-- **One timer is as good as all of them.** In every run from the start, a loop that keeps every
timer that it has been sent, and fires each at its deadline, the earliest first and equal ones in any
order, can be followed to the end of the run; and what is seen after each operation is then what is
seen of the loop that keeps one timer. -/
theorem sights_of_keeping_all (ops : List Op) (seen : List Sight) :
    SeenKept initial ops seen ↔ seen = initial.sights ops :=
  InStep.initial_inStep.seenKept_iff

end Center

end PanelClient
