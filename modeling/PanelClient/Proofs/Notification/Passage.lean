import Mathlib.Algebra.GroupWithZero.Nat
import PanelClient.Proofs.Notification.Draining
import PanelClient.Proofs.Notification.Granularity

/-!
# How time passes

When time passes, whatever comes due is fired, each timer at its own moment and those included that are
sent on the way. It makes no difference whether the time passes at once or in parts, and what is on
screen in the end can be told from the durations alone.

* `Center.Fires` : the timers due by a moment are fired until none is left; `Center.advance_of_fires`
  says that this is how time passes;
* `Center.Fires.trans`, `Center.Fires.from_clock` : firing up to one moment and then up to a later one
  is firing up to the later one;
* `Center.time_composes` : so a time that passes in parts passes as a whole;
* `Center.span`, `Center.ended` : how long messages take one after another, and how many of them are over
  after a time;
* `Center.burst_timeline` : what is on screen after a burst of pushes, on every timer that is exact where
  the burst needs it.
-/

namespace PanelClient

/-- One span of time after another. -/
instance : Add Duration := ⟨fun a b => ⟨a.nanoseconds + b.nanoseconds⟩⟩

@[simp] theorem Duration.nanoseconds_add (a b : Duration) :
    (a + b).nanoseconds = a.nanoseconds + b.nanoseconds := rfl

namespace Center

/-- The timers due by `target` are fired, each at its deadline, until none is left, those included that
are sent on the way. -/
inductive Fires (target : Nat) : Center → Center → Prop
  | settled {c : Center} (h : Settled target c) : Fires target c c
  | fire {c c' : Center} {t : ArmedTimer} (ht : c.armed = some t) (hdue : t.deadline ≤ target)
      (h : Fires target (c.expire t).receiveAll c') : Fires target c c'

variable {c c' c'' : Center} {target early late n : Nat}

/-! ### Firing what is due -/

/-- Firing leads to one center only. -/
theorem Fires.unique (h : Fires target c c') (h' : Fires target c c'') : c'' = c' := by
  induction h with
  | settled hs =>
    cases h' with
    | settled _ => rfl
    | fire ht hdue _ => exact absurd hdue (Nat.not_le.2 (hs _ ht))
  | fire ht hdue _ ih =>
    cases h' with
    | settled hs => exact absurd hdue (Nat.not_le.2 (hs _ ht))
    | fire ht' _ h' =>
      obtain rfl := Option.some.inj (ht.symm.trans ht')
      exact ih h'

/-- What each firing keeps holds in the end. -/
theorem Fires.invariant {P : Center → Prop} (h : Fires target c c') (hc : P c)
    (hstep : ∀ c t, P c → t.deadline ≤ target → P (c.expire t).receiveAll) : P c' := by
  induction h with
  | settled _ => exact hc
  | fire _ hdue _ ih => exact ih (hstep _ _ hc hdue)

/-- In the end no timer is due. -/
theorem Fires.settles (h : Fires target c c') : Settled target c' := by
  induction h with
  | settled hs => exact hs
  | fire _ _ _ ih => exact ih

theorem expire_consistent (hq : c.queue.Consistent) (t : ArmedTimer) :
    (c.expire t).receiveAll.queue.Consistent := by
  change (c.expire t).queue.Consistent
  rw [expire_queue]
  exact hq.step (.elapsed t.id)

theorem expire_running (c : Center) (t : ArmedTimer) :
    (c.expire t).receiveAll.running = c.running := by
  simp [receiveAll, expire, Center.fire]

theorem Fires.consistent (h : Fires target c c') (hq : c.queue.Consistent) : c'.queue.Consistent :=
  h.invariant (P := fun c => c.queue.Consistent) hq fun _ t hc _ => expire_consistent hc t

theorem Fires.mailbox_eq (h : Fires target c c') (hm : c.mailbox = []) : c'.mailbox = [] :=
  h.invariant (P := fun c => c.mailbox = []) hm fun _ _ _ _ => rfl

theorem Fires.running_eq (h : Fires target c c') : c'.running = c.running :=
  h.invariant (P := fun d => d.running = c.running) rfl fun d t hd _ => (expire_running d t).trans hd

theorem Fires.clock_le (h : Fires target c c') (hc : c.clock ≤ target) : c'.clock ≤ target := by
  refine h.invariant (P := fun c => c.clock ≤ target) hc fun d t hd hdue => ?_
  change (d.expire t).clock ≤ target
  rw [expire_clock]
  exact Nat.max_le.2 ⟨hd, hdue⟩

/-- Firings that are not bounded too low fire all that is due. -/
theorem fires_fireDue (hq : c.queue.Consistent) (hm : c.mailbox = [])
    (hn : c.queue.backlog.length < n) : Fires target c (fireDue target n c) := by
  induction n generalizing c with
  | zero => cases hn
  | succ n ih =>
    rcases due_or_settled target c with ⟨t, ht, hdue⟩ | hs
    · rw [fireDue_of_due ht hdue]
      refine .fire ht hdue ?_
      -- the firing leaves no timer, or a shorter backlog
      rcases expire_settles hq hm t with hnone | hlt
      · have hsettled : Settled target (c.expire t).receiveAll := fun u hu => by simp [hnone] at hu
        rw [fireDue_of_settled hsettled]
        exact .settled hsettled
      · exact ih (expire_consistent hq t) rfl (Nat.lt_of_lt_of_le hlt (Nat.le_of_lt_succ hn))
    · rw [fireDue_of_settled hs]
      exact .settled hs

theorem exists_fires (target : Nat) (hq : c.queue.Consistent) (hm : c.mailbox = []) :
    ∃ c', Fires target c c' :=
  ⟨_, fires_fireDue hq hm (Nat.lt_succ_self _)⟩

/-- **How time passes**: the loop receives what it has been sent, fires what is due, and the clock goes
on to the end. -/
theorem advance_of_fires (hr : c.running = true) (hq : c.queue.Consistent) {d : Duration}
    (h : Fires (c.clock + d.nanoseconds) c.receiveAll c') :
    c.advance d = { c' with clock := c.clock + d.nanoseconds } := by
  have hall : Fires (c.clock + d.nanoseconds) c.receiveAll
      (fireDue (c.clock + d.nanoseconds) (c.queue.backlog.length + 1) c.receiveAll) :=
    fires_fireDue (c := c.receiveAll) hq rfl (Nat.lt_succ_self _)
  rw [advance_of_running hr, h.unique hall]

/-! ### Time in parts -/

/-- To fire up to one moment and then up to a later one is to fire up to the later one. -/
theorem Fires.trans (h : Fires early c c') (hle : early ≤ late) (h' : Fires late c' c'') :
    Fires late c c'' := by
  induction h with
  | settled _ => exact h'
  | fire ht hdue _ ih => exact .fire ht (Nat.le_trans hdue hle) (ih h')

/-- What is due later is fired at the same moments from a later clock on. -/
theorem Fires.from_clock (h : Fires late c c') (hs : Settled early c) (hc : c.clock ≤ early)
    (time : Nat) : ∃ c'', Fires late { c with clock := early } c'' ∧
      { c'' with clock := time } = { c' with clock := time } := by
  cases h with
  | settled hs' => exact ⟨_, .settled hs', rfl⟩
  | @fire _ _ t ht hdue h =>
    have hlt : early < t.deadline := hs t ht
    have hexpire : Center.expire { c with clock := early } t = c.expire t := by
      have hmax : max early t.deadline = max c.clock t.deadline := by omega
      simp only [expire, hmax]
    exact ⟨c', .fire ht hdue (hexpire ▸ h), rfl⟩

theorem receiveAll_of_nil (hm : c.mailbox = []) : c.receiveAll = c := by
  obtain ⟨queue, clock, mailbox, armed, running, published, version, receivers⟩ := c
  subst hm
  rfl

theorem advance_advance (hq : c.queue.Consistent) (a b : Duration) :
    (c.advance a).advance b = c.advance (a + b) := by
  cases hr : c.running with
  | false => simp [advance_of_stopped, hr, Nat.add_assoc]
  | true =>
    obtain ⟨c₁, h₁⟩ := exists_fires (c.clock + a.nanoseconds) (c := c.receiveAll) hq rfl
    have hq₁ : c₁.queue.Consistent := h₁.consistent hq
    have hm₁ : c₁.mailbox = [] := h₁.mailbox_eq rfl
    have hr₁ : c₁.running = true := h₁.running_eq.trans hr
    have hclock : c₁.clock ≤ c.clock + a.nanoseconds := h₁.clock_le (Nat.le_add_right _ _)
    obtain ⟨c₂, h₂⟩ := exists_fires (c.clock + a.nanoseconds + b.nanoseconds) hq₁ hm₁
    -- the second part starts at the end of the first, which is no matter to what is due later
    obtain ⟨c₂', h₂', hsame⟩ :=
      h₂.from_clock h₁.settles hclock (c.clock + a.nanoseconds + b.nanoseconds)
    have hmid : receiveAll { c₁ with clock := c.clock + a.nanoseconds } =
        { c₁ with clock := c.clock + a.nanoseconds } := receiveAll_of_nil hm₁
    rw [advance_of_fires hr hq h₁,
      advance_of_fires (c := { c₁ with clock := c.clock + a.nanoseconds }) hr₁ hq₁ (hmid ▸ h₂')]
    have hwhole : Fires (c.clock + (a + b).nanoseconds) c.receiveAll c₂ := by
      rw [Duration.nanoseconds_add, ← Nat.add_assoc]
      exact h₁.trans (Nat.le_add_right _ _) h₂
    rw [advance_of_fires hr hq hwhole, Duration.nanoseconds_add, ← Nat.add_assoc]
    exact hsame

/-- **Time composes.** Whatever the center has been through, two spans of time one after the other leave
the same center as one span of their total length: the same clock, queue and timer of the loop, the same
message on screen, and receivers that have seen and will be told the same. So a run in which a span of
time is cut in two leads to where the run leads. -/
theorem time_composes (acts : List Act) (a b : Duration) :
    ((initial.after acts).advance a).advance b = (initial.after acts).advance (a + b) ∧
    ∀ ops ops', initial.run (ops ++ .advance a :: .advance b :: ops') =
      initial.run (ops ++ .advance (a + b) :: ops') := by
  refine ⟨advance_advance (schedule_tracked acts).1.consistent a b, fun ops ops' => ?_⟩
  rw [run_append, run_append, run_cons, run_cons, run_cons, step, step, step,
    advance_advance (run_tracked ops).1.consistent]

/-- Any number of spans of time are one of their total length. -/
theorem run_map_advance (hq : c.queue.Consistent) {ds : List Duration} (hds : ds ≠ []) :
    c.run (ds.map .advance) = c.advance ⟨(ds.map (·.nanoseconds)).sum⟩ := by
  induction ds generalizing c with
  | nil => exact absurd rfl hds
  | cons d ds ih =>
    cases ds with
    | nil => rfl
    | cons d' ds =>
      rw [List.map_cons, run_cons, ih (step_consistent hq _) (List.cons_ne_nil _ _), step,
        advance_advance hq]
      rfl

/-! ### Bursts -/

/-- How long messages are shown, one after another. -/
def span (ms : List Message) : Nat := (ms.map (·.duration.nanoseconds)).sum

/-- How many messages, shown one after another, are over after a time. -/
def ended (time : Nat) (ms : List Message) : Nat :=
  (List.range ms.length).countP fun j => span (ms.take (j + 1)) ≤ time

variable {m : Message} {ms : List Message}

theorem ended_le_length (time : Nat) (ms : List Message) : ended time ms ≤ ms.length := by
  have hle := List.countP_le_length (p := fun j => decide (span (ms.take (j + 1)) ≤ time))
    (l := List.range ms.length)
  rwa [List.length_range] at hle

/-- The first message is over before the others begin. -/
theorem ended_cons (time : Nat) (m : Message) (ms : List Message) : ended time (m :: ms) =
    if m.duration.nanoseconds ≤ time then ended (time - m.duration.nanoseconds) ms + 1 else 0 := by
  have hspan : ∀ j, span ((m :: ms).take (j + 1)) =
      m.duration.nanoseconds + span (ms.take j) := fun j => by simp [span]
  simp only [ended, hspan]
  split_ifs with hle
  · have hrest : ∀ j, m.duration.nanoseconds + span (ms.take j) ≤ time ↔
        span (ms.take j) ≤ time - m.duration.nanoseconds := fun j => by omega
    simp only [hrest]
    rw [List.length_cons, List.range_succ_eq_map, List.countP_cons_of_pos (by simp [span]),
      List.countP_map]
    rfl
  · have hnone : ∀ j, ¬ m.duration.nanoseconds + span (ms.take j) ≤ time := fun j => by omega
    simp [hnone]

/-- The timer that a firing has sent, if there is one, is the one that the loop has next. -/
theorem expire_armed (hm : c.mailbox = []) (t : ArmedTimer) : (c.expire t).receiveAll.armed =
    (sent { c with clock := max c.clock t.deadline } (c.queue.elapsed t.id).2).getLast? := by
  simp [receiveAll, expire, Center.fire, hm, sent]

/-- From the start of one of several messages on, each is shown for its duration. -/
theorem Fires.showing (h : Fires target c c') (hqueue : c.queue = .showing n ms)
    (hm : c.mailbox = []) (hr : c.running = true) (hc : c.clock ≤ target)
    (hfit : c.clock + span ms < clockLimit)
    (harmed : ∀ m ∈ ms.head?, c.armed = some ⟨n + 1, c.clock + m.duration.nanoseconds⟩) :
    c'.queue = .showing (n + ended (target - c.clock) ms) (ms.drop (ended (target - c.clock) ms)) := by
  induction ms generalizing c n with
  | nil =>
    -- a timer that the loop still has is that of a message of the past
    refine h.invariant (P := fun d => d.queue = .showing n []) hqueue fun d t hd _ => ?_
    change (d.expire t).queue = _
    rw [expire_queue, hd, Queue.elapsed_showing_nil]
  | cons m ms ih =>
    rw [ended_cons]
    cases h with
    | settled hs =>
      have hlt := hs _ (harmed m rfl)
      rw [if_neg (by dsimp only at hlt; omega)]
      exact hqueue
    | @fire c c' t ht hdue h =>
      obtain rfl : t = ⟨n + 1, c.clock + m.duration.nanoseconds⟩ :=
        Option.some.inj (ht.symm.trans (harmed m rfl))
      have hspan : span (m :: ms) = m.duration.nanoseconds + span ms := by simp [span]
      have hclock : (c.expire ⟨n + 1, c.clock + m.duration.nanoseconds⟩).receiveAll.clock =
          c.clock + m.duration.nanoseconds := by
        change (c.expire _).clock = _
        rw [expire_clock, Nat.max_eq_right (Nat.le_add_right _ _)]
      have hnext : (c.expire ⟨n + 1, c.clock + m.duration.nanoseconds⟩).receiveAll.queue =
          .showing (n + 1) ms := by
        change (c.expire _).queue = _
        rw [expire_queue, hqueue, Queue.elapsed_showing_cons]
      have hleft : target - (c.clock + m.duration.nanoseconds) =
          target - c.clock - m.duration.nanoseconds := by omega
      rw [if_pos (by dsimp only at hdue; omega), List.drop_succ_cons]
      have hrest := ih h hnext rfl ((expire_running c _).trans hr) (by rw [hclock]; exact hdue) ?_ ?_
      · rw [hrest, hclock, hleft]
        congr 1
        omega
      · rw [hclock]
        omega
      · intro m' hm'
        have hfits : m'.duration.nanoseconds ≤ span ms := by
          obtain ⟨rest, rfl⟩ := List.head?_eq_some_iff.1 hm'
          simp [span]
        rw [hclock, expire_armed hm, hqueue, Queue.elapsed_showing_cons, Option.mem_def.1 hm',
          Option.map_some, sent_some]
        dsimp only
        rw [Nat.max_eq_right (Nat.le_add_right _ _), if_pos ⟨hr, by omega⟩, List.getLast?_singleton]

/-- After a burst of pushes the first message is on screen, its timer is the last that was sent, and
the others wait. -/
theorem run_map_push (hqueue : c.queue = .showing n []) (hr : c.running = true)
    (hfit : c.clock + span ms < clockLimit) :
    (c.run (ms.map .push)).queue = .showing n ms ∧ (c.run (ms.map .push)).clock = c.clock ∧
    (c.run (ms.map .push)).running = true ∧
    ∀ m ∈ ms.head?, (c.run (ms.map .push)).mailbox.getLast? =
      some ⟨n + 1, c.clock + m.duration.nanoseconds⟩ := by
  induction ms using List.reverseRecOn with
  | nil => exact ⟨hqueue, rfl, hr, nofun⟩
  | append_singleton ms m ih =>
    have hspan : span (ms ++ [m]) = span ms + m.duration.nanoseconds := by simp [span]
    obtain ⟨hq, hclock, hrun, hlast⟩ := ih (by omega)
    have hrun' : c.run ((ms ++ [m]).map .push) = (c.run (ms.map .push)).push m := by
      rw [List.map_append, run_append]
      rfl
    rw [hrun', push, apply_queue, apply_clock, apply_running, apply_mailbox, hq, Queue.push_showing]
    refine ⟨rfl, hclock, hrun, fun m' hm' => ?_⟩
    cases ms with
    | nil =>
      obtain rfl : m = m' := Option.some.inj hm'
      rw [if_pos rfl, sent_some, hclock, if_pos ⟨hrun, by dsimp only; omega⟩, List.getLast?_concat]
    | cons first ms =>
      rw [if_neg (List.cons_ne_nil _ _), sent_none, List.append_nil]
      exact hlast m' hm'

/-- Some time after a burst of pushes, the messages that are over have left the screen, the next one is
on it, and the others wait. -/
theorem queue_after_burst (hqueue : c.queue = .showing n []) (hr : c.running = true)
    (hfit : c.clock + span ms < clockLimit) (d : Duration) :
    ((c.run (ms.map .push)).advance d).queue =
      .showing (n + ended d.nanoseconds ms) (ms.drop (ended d.nanoseconds ms)) := by
  obtain ⟨hq, hclock, hrun, hlast⟩ := run_map_push hqueue hr hfit
  have hcons : (c.run (ms.map .push)).queue.Consistent := hq ▸ Queue.showing_consistent n ms
  obtain ⟨c', h⟩ := exists_fires ((c.run (ms.map .push)).clock + d.nanoseconds)
    (c := (c.run (ms.map .push)).receiveAll) hcons rfl
  have hshowing := h.showing (c := (c.run (ms.map .push)).receiveAll) hq rfl hrun
    (Nat.le_add_right _ _) (hclock ▸ hfit) fun m hm => ?_
  · rw [advance_of_fires hrun hcons h]
    dsimp only
    rw [hshowing, receiveAll]
    simp
  · have hone := hlast m hm
    simp only [receiveAll, hone, hclock]
    rfl

/-- **The timeline of a burst.** Take a timer that is exact at the multiples of its grain, as one that
goes by the millisecond is, and a center whose loop runs and whose queue is idle, whatever it has been
through and whatever timers are left, and push messages at one moment, for which the clock can show when
the last one is over; all spans of time are multiples of the grain, those before the burst also out of
the range of the clock. Some time later, in however many parts it has passed, just those messages are
over for which the durations up to and including their own add up to no more than that time. The next
one is on screen under the number of its place in the burst, those after it wait; or all are over, and
the queue is idle again. -/
theorem burst_timeline (wake : Nat → Nat) (grain : Nat) (hwake : ∀ t, grain ∣ t → wake t = t)
    (acts : List Act) (ms : List Message) (ds : List Duration)
    (hacts : ∀ a ∈ acts, a.Whole grain) (hms : ∀ m ∈ ms, grain ∣ m.duration.nanoseconds)
    (hspans : ∀ d ∈ ds, grain ∣ d.nanoseconds)
    (hr : (initial.after acts).running = true) (hi : (initial.after acts).queue.idle = true)
    (hfit : (initial.after acts).clock + span ms < clockLimit) (hds : ds ≠ []) :
    let c := initial.after acts
    let c' := c.runOn wake (ms.map .push ++ ds.map .advance)
    let time := (ds.map (·.nanoseconds)).sum
    let i := ended time ms
    c'.clock = c.clock + time ∧ i ≤ ms.length ∧
    (∀ h : i < ms.length,
      c'.queue.current = some ⟨c.queue.lastId + i + 1, ms[i]⟩ ∧
        c'.queue.backlog = ms.drop (i + 1)) ∧
    (i = ms.length →
      c'.queue.current = none ∧ c'.queue.backlog = [] ∧ c'.queue.idle = true) := by
  intro c c' time i
  have hqueue : c.queue = .showing c.queue.lastId [] :=
    (schedule_tracked acts).1.consistent.eq_showing_nil hi
  obtain ⟨hq, hclock, hrun, -⟩ := run_map_push hqueue hr hfit
  have hops : ∀ op ∈ ms.map Op.push ++ ds.map .advance, op.Whole grain := by
    simp only [List.forall_mem_append, List.forall_mem_map]
    exact ⟨fun m hm => .inl (hms m hm), hspans⟩
  have hc' : c' = (c.run (ms.map .push)).advance ⟨time⟩ := by
    have hexact : c' = c.run (ms.map .push ++ ds.map .advance) :=
      (Whole.initial_whole.after hacts).runOn_eq hwake hops
    rw [hexact, run_append, run_map_advance (hq ▸ Queue.showing_consistent _ ms) hds]
  have hshowing : c'.queue = .showing (c.queue.lastId + i) (ms.drop i) := by
    rw [hc']
    exact queue_after_burst hqueue hr hfit ⟨time⟩
  refine ⟨?_, ended_le_length time ms, fun h => ?_, fun h => ?_⟩
  · rw [hc', advance_of_running hrun, hclock]
  · rw [hshowing, List.drop_eq_getElem_cons h]
    exact ⟨rfl, rfl⟩
  · rw [hshowing, h, List.drop_length]
    exact ⟨rfl, rfl, rfl⟩

/-- A message was dismissed, so that its timer is left over, and three others are pushed, of which the
second takes no time. Four seconds and then six bring the first one to its very end, on a timer that goes
by the millisecond. -/
theorem burst_timeline_of_three :
    let wake := roundUp 1000000
    let acts := [Act.push (.notify "old"), .consume, .wait 5000000]
    let ms := [Message.notifyFast "a", (Message.notify "b").withDuration ⟨0⟩, .notify "c"]
    let ds := [Duration.ofSeconds 4, .ofSeconds 6]
    (∀ t, 1000000 ∣ t → wake t = t) ∧ (∀ a ∈ acts, a.Whole 1000000) ∧
      (∀ m ∈ ms, 1000000 ∣ m.duration.nanoseconds) ∧ (∀ d ∈ ds, 1000000 ∣ d.nanoseconds) ∧
      (initial.after acts).running = true ∧ (initial.after acts).queue.idle = true ∧
      (initial.after acts).clock + span ms < clockLimit ∧ ds ≠ [] ∧
      ((initial.after acts).runOn wake (ms.map .push ++ ds.map .advance)).queue.current =
        some ⟨4, .notify "c"⟩ := by
  intro wake acts ms ds
  have hwake : ∀ t, 1000000 ∣ t → wake t = t := fun t => roundUp_of_dvd (by decide)
  have hacts : ∀ a ∈ acts, a.Whole 1000000 := by
    simp only [acts, List.forall_mem_cons]
    exact ⟨.inl (by decide), trivial, (by decide : 1000000 ∣ 5000000), List.forall_mem_nil _⟩
  have hms : ∀ m ∈ ms, 1000000 ∣ m.duration.nanoseconds := by decide
  have hspans : ∀ d ∈ ds, 1000000 ∣ d.nanoseconds := by decide
  have hr : (initial.after acts).running = true := by decide +kernel
  have hi : (initial.after acts).queue.idle = true := by decide +kernel
  have hfit : (initial.after acts).clock + span ms < clockLimit := by decide +kernel
  have hds : ds ≠ [] := List.cons_ne_nil _ _
  obtain ⟨-, -, hnext, -⟩ :=
    burst_timeline wake 1000000 hwake acts ms ds hacts hms hspans hr hi hfit hds
  have hended : ended (ds.map (·.nanoseconds)).sum ms = 2 := by decide +kernel
  have hlast : (initial.after acts).queue.lastId = 1 := by decide +kernel
  have hcurrent := (hnext (by rw [hended]; decide)).1
  refine ⟨hwake, hacts, hms, hspans, hr, hi, hfit, hds, ?_⟩
  simp only [hended, hlast] at hcurrent
  exact hcurrent

end Center

end PanelClient
