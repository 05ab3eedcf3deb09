import PanelClient.Proofs.Notification.Granularity

/-!
# How long a message stays on screen

In a run that does not stop the loop, a message that comes on screen stays there for its duration,
exactly, unless it is replaced or taken off before; one whose duration is out of the range of the clock
stays until then. So it is on an exact timer, and on one that goes by a grain if the spans of time in the
run are multiples of the grain.

* `Center.Tracked.leaves_iff` : which acts of a prompt schedule take a message off the screen;
* `Center.Tracked.appeared_of_expired` : what comes on screen when a message has run out;
* `Center.Tracked.step_leaves_iff`, `Center.Tracked.run_stays_iff` : the same for an operation, and
  for a run of operations;
* `Center.display_interval` : all of it for every run from the start, on every timer that is exact where
  the run needs it.
-/

namespace PanelClient

namespace Center

/-- The act takes the message of `e`, if it is on screen, off it. -/
def Act.Ends (c : Center) (e : Appearance) : Act → Prop
  | .urgent _ | .consume => True
  | .fire => e.finish < clockLimit ∧ c.clock = e.finish
  | _ => False

/-- The operation takes the message of `e`, if it is on screen, off it. -/
def Op.Ends (c : Center) (e : Appearance) : Op → Prop
  | .urgent _ | .alert _ | .consume => True
  | .advance d => e.finish < clockLimit ∧ e.finish ≤ c.clock + d.nanoseconds
  | _ => False

/-- Nobody asks for the act: the loop takes a step, or time passes. -/
def Act.Unasked : Act → Prop
  | .receive | .fire | .wait _ => True
  | _ => False

variable {c : Center} {log : List Appearance} {e : Appearance}

/-! ### One act -/

/-- The acts of a prompt schedule that take a message off the screen: each that is asked to, and the
firing at the very moment at which the message has been shown for its duration. -/
theorem Tracked.leaves_iff (h : Tracked c log) (hl : Live c log) (hr : c.running = true) {a : Act}
    (ha : c.Prompt a) (he : e ∈ log) (hs : c.queue.current = some e.shown) :
    (c.act a).queue.current ≠ some e.shown ↔ a.Ends c e := by
  have stays : ∀ c' : Center, c'.queue.current = c.queue.current →
      (c'.queue.current ≠ some e.shown ↔ False) := by
    intro c' hc'
    simp [hc', hs]
  cases a with
  | push m =>
    refine stays _ ?_
    simp [act, push, h.consistent.push_of_current hs]
  | urgent m =>
    refine iff_of_true (fun hs' => ?_) trivial
    simp only [act, urgent, apply_queue] at hs'
    exact (h.consistent.past_urgent hs m).2 _ hs' rfl
  | consume =>
    refine iff_of_true (fun hs' => ?_) trivial
    simp only [act, consume, apply_queue] at hs'
    exact (h.consistent.past_consume hs).2 _ hs' rfl
  | subscribe => exact stays _ rfl
  | observe r => exact stays _ rfl
  | shutdown => exact ha.elim
  | receive => exact stays _ (by rw [act, receive_queue])
  | wait n => exact stays _ rfl
  | fire =>
    obtain ⟨hm, t, ht, hclock⟩ := ha
    have hmem : t ∈ c.pending := by simp [pending, ht]
    simp only [act, ht, Act.Ends]
    constructor
    · intro hleft
      obtain ⟨hf, hd⟩ := h.deadline_eq e he t hmem (fire_id_of_leaves h.consistent hs hleft)
      exact ⟨hf, by rw [← hclock, hd]⟩
    · rintro ⟨hf, -⟩ hs'
      -- the mailbox is empty, so the timer fired is the last that the loop has
      have hlast := hl hr e he hs hf
      simp only [pending, ht, hm, Option.toList_some, List.append_nil, List.getLast?_singleton,
        Option.some.injEq] at hlast
      exact (fire_past h.consistent hs (by rw [hlast])).2 _ hs' rfl

theorem fire_clock (c : Center) (t : ArmedTimer) : (c.fire t).clock = c.clock := by simp [fire]

/-- When a message has run out, the first that waits comes on screen at that moment. -/
theorem Tracked.appeared_of_expired (h : Tracked c log) (ha : c.Prompt .fire) (he : e ∈ log)
    (hs : c.queue.current = some e.shown)
    (hleft : (c.act .fire).queue.current ≠ some e.shown) :
    c.appeared (c.act .fire) =
      (c.queue.backlog.head?.map fun m => ⟨⟨c.queue.lastId + 1, m⟩, e.finish⟩).toList := by
  obtain ⟨hm, t, ht, hclock⟩ := ha
  simp only [act, ht] at hleft ⊢
  have hid := fire_id_of_leaves h.consistent hs hleft
  have hfinish : c.clock = e.finish := by
    rw [← hclock, (h.deadline_eq e he t (by simp [pending, ht]) hid).2]
  have hqueue : (c.fire t).queue = c.queue.consume.1 := by
    simp [Center.fire, hid, h.consistent.elapsed_of_current hs]
  have hne : (c.fire t).queue.current ≠ c.queue.current := by rwa [hs]
  rw [appeared, if_neg hne, fire_clock, hfinish, hqueue]
  cases hb : c.queue.backlog with
  | nil => simp [Queue.consume, hb]
  | cons m ms => simp [Queue.consume, Queue.display, hb]

theorem act_clock_le (c : Center) (a : Act) : c.clock ≤ (c.act a).clock := by
  cases a with
  | push m => simp [act, push]
  | urgent m => simp [act, urgent]
  | consume => simp [act, consume]
  | receive => exact Nat.le_of_eq (receive_clock c).symm
  | fire => rw [act]; split <;> simp [fire_clock]
  | wait n => exact Nat.le_add_right _ _
  | _ => exact Nat.le_refl _

theorem clock_le_after (c : Center) (acts : List Act) : c.clock ≤ (c.after acts).clock := by
  induction acts generalizing c with
  | nil => exact Nat.le_refl _
  | cons a acts ih => exact Nat.le_trans (act_clock_le c a) (ih _)

/-- An act other than those asked for takes a message off the screen when it has run out, if ever. -/
theorem stays_or_expires (h : Tracked c log) (hl : Live c log) (ho : OnTime c) {acts : List Act}
    (hp : c.Along Prompt acts) (hu : ∀ a ∈ acts, a.Unasked) (he : e ∈ log)
    (hs : c.queue.current = some e.shown) :
    (c.after acts).queue.current = some e.shown ∨
      e.finish < clockLimit ∧ e.finish ≤ (c.after acts).clock := by
  induction acts generalizing c log with
  | nil => exact .inl hs
  | cons a acts ih =>
    obtain ⟨ha, hp⟩ := hp
    obtain ⟨ht', hl'⟩ := act_tracked h hl a
    by_cases hs' : (c.act a).queue.current = some e.shown
    · exact ih ht' hl' (ho.act ha) hp (fun b hb => hu b (List.mem_cons_of_mem _ hb))
        (List.mem_append_left _ he) hs'
    · have hend := (h.leaves_iff hl ho.running ha he hs).1 hs'
      have hua := hu a List.mem_cons_self
      cases a with
      | fire =>
        obtain ⟨hf, hclock⟩ := hend
        exact .inr ⟨hf, hclock ▸ clock_le_after c (.fire :: acts)⟩
      | receive => exact hend.elim
      | wait n => exact hend.elim
      | _ => exact hua.elim

/-! ### One operation -/

theorem firings_unasked {target n : Nat} : ∀ a ∈ firings target n c, a.Unasked := by
  induction n generalizing c with
  | zero => simp
  | succ n ih =>
    rcases due_or_settled target c with ⟨t, ht, hdue⟩ | hs
    · rw [firings_of_due ht hdue]
      intro a ha
      simp only [receives, List.mem_cons, List.mem_append] at ha
      rcases ha with rfl | rfl | ha | ha
      · trivial
      · trivial
      · rw [List.eq_of_mem_replicate ha]
        trivial
      · exact ih a ha
    · simp [firings_of_settled hs]

theorem advance_unasked (hr : c.running = true) (d : Duration) :
    ∀ a ∈ c.acts (.advance d), a.Unasked := by
  intro a ha
  simp only [acts_of_running hr, receives, List.mem_append, List.mem_singleton] at ha
  rcases ha with (ha | ha) | rfl
  · rw [List.eq_of_mem_replicate ha]
    trivial
  · exact firings_unasked a ha
  · trivial

theorem step_tracked (h : Tracked c log) (hl : Live c log) (op : Op) :
    Tracked (c.step op) (log ++ c.shows (c.acts op)) ∧
      Live (c.step op) (log ++ c.shows (c.acts op)) := by
  rw [← after_acts]
  exact after_tracked h hl (c.acts op)

/-- What is on screen after time has passed has not run out. -/
theorem lt_finish_of_advance (hq : c.queue.Consistent) (ho : OnTime c) (d : Duration)
    (hl : Live (c.advance d) log) (hr : (c.advance d).running = true) (he : e ∈ log)
    (hs : (c.advance d).queue.current = some e.shown) (hf : e.finish < clockLimit) :
    (c.advance d).clock < e.finish := by
  obtain ⟨hm, hsettled⟩ := advance_settled hq ho.running d
  have hlast := hl hr e he hs hf
  simp only [pending, hm, List.append_nil] at hlast
  refine hsettled ⟨e.shown.id, e.finish⟩ ?_
  cases ht : (c.advance d).armed with
  | none => simp [ht] at hlast
  | some t => simpa [ht] using hlast

/-- The operations that take a message off the screen: each that is asked to, and the passing of time
to the moment at which the message has been shown for its duration, or beyond. -/
theorem Tracked.step_leaves_iff (h : Tracked c log) (hl : Live c log) (ho : OnTime c) {op : Op}
    (hop : op ≠ .shutdown) (he : e ∈ log) (hs : c.queue.current = some e.shown) :
    (c.step op).queue.current ≠ some e.shown ↔ op.Ends c e := by
  have hp := acts_prompt h.consistent ho hop
  -- an operation of one act
  have single : ∀ a : Act, c.acts op = [a] → (a.Ends c e ↔ op.Ends c e) →
      ((c.step op).queue.current ≠ some e.shown ↔ op.Ends c e) := by
    intro a ha hends
    rw [ha] at hp
    rw [← hends, ← h.leaves_iff hl ho.running hp.1 he hs, ← after_acts, ha, after_cons, after_nil]
  cases op with
  | push m => exact single (.push m) rfl .rfl
  | urgent m => exact single (.urgent m) rfl .rfl
  | notify text => exact single (.push (.notify text)) rfl .rfl
  | notifyFast text => exact single (.push (.notifyFast text)) rfl .rfl
  | alert text => exact single (.urgent (.urgent text)) rfl .rfl
  | consume => exact single .consume rfl .rfl
  | subscribe => exact single .subscribe rfl .rfl
  | observe r => exact single (.observe r) rfl .rfl
  | shutdown => exact absurd rfl hop
  | advance d =>
    obtain ⟨ht', hl'⟩ := step_tracked h hl (.advance d)
    have ho' := ho.step h.consistent hop
    rw [Op.Ends, ← advance_clock]
    constructor
    · -- it has left at a firing, at its own moment, and the clock does not go back
      intro hleft
      rw [← after_acts] at hleft
      have := stays_or_expires h hl ho hp (advance_unasked ho.running d) he hs
      rw [after_acts] at this hleft
      exact this.resolve_left hleft
    · rintro ⟨hf, hle⟩ hs'
      have := lt_finish_of_advance h.consistent ho d hl' ho'.running (List.mem_append_left _ he) hs' hf
      omega

/-! ### Every run -/

/-- A message on screen stays there through a run, or is past. -/
theorem run_stays_or_past (hq : c.queue.Consistent) {s : Shown} (hs : c.queue.current = some s)
    (ops : List Op) : (c.run ops).queue.current = some s ∨ (c.run ops).queue.Past s.id := by
  rw [← after_course]
  exact after_stays_or_past hq hs (c.course ops)

/-- What is past remains so through a run. -/
theorem run_past (hq : c.queue.Consistent) {id : Nat} (h : c.queue.Past id) (ops : List Op) :
    (c.run ops).queue.Past id := by
  rw [← after_course]
  exact after_past hq h (c.course ops)

/-- A message stays on screen through a run exactly if no operation of the run takes it off. -/
theorem Tracked.run_stays_iff (h : Tracked c log) (hl : Live c log) (ho : OnTime c) {ops : List Op}
    (hops : .shutdown ∉ ops) (he : e ∈ log) (hs : c.queue.current = some e.shown) :
    (c.run ops).queue.current = some e.shown ↔
      ∀ done op todo, ops = done ++ op :: todo → ¬ op.Ends (c.run done) e := by
  induction ops generalizing c log with
  | nil => simpa [run] using hs
  | cons op ops ih =>
    simp only [List.mem_cons, not_or] at hops
    have hop : op ≠ .shutdown := Ne.symm hops.1
    have hstep := h.step_leaves_iff hl ho hop he hs
    obtain ⟨ht', hl'⟩ := step_tracked h hl op
    by_cases hs' : (c.step op).queue.current = some e.shown
    · rw [run_cons, ih ht' hl' (ho.step h.consistent hop) hops.2 (List.mem_append_left _ he) hs']
      constructor
      · intro hrest done op' todo hsplit
        rcases List.cons_eq_append_iff.1 hsplit with ⟨rfl, hcons⟩ | ⟨done', rfl, hcons⟩
        · obtain ⟨rfl, -⟩ := List.cons.inj hcons
          exact fun hend => hstep.2 hend hs'
        · rw [run_cons]
          exact hrest done' op' todo hcons
      · intro hall done op' todo hsplit
        rw [← run_cons]
        exact hall (op :: done) op' todo (by rw [hsplit, List.cons_append])
    · -- once off the screen, it does not come back
      have hpast : (c.run [op]).queue.Past e.shown.id :=
        (run_stays_or_past h.consistent hs [op]).resolve_left hs'
      refine iff_of_false (fun hend => ?_) fun hall => hall [] op ops rfl (hstep.1 hs')
      exact (run_past ht'.consistent hpast ops).2 _ hend rfl

/-- **A message is shown for its duration.** Take a timer that is exact at the multiples of its grain,
as one that goes by the millisecond is, and a run that does not stop the loop and in which all spans of
time are such multiples or out of the range of the clock. It is carried out by acts that can happen. Of
these, the ones that take a message off the screen are the urgent ones, the dismissals, and the firing at
the very moment at which the message has been shown for its duration, if the clock can show that moment;
when that happens, the first message that waits comes on screen at that moment. In terms of operations, a
message stays on screen until the first that is urgent, a dismissal, or the passing of time to that
moment or beyond; and what is on screen after time has passed has not run out. -/
theorem display_interval (wake : Nat → Nat) (grain : Nat) (hwake : ∀ t, grain ∣ t → wake t = t)
    (ops : List Op) (hwhole : ∀ op ∈ ops, op.Whole grain) (h : .shutdown ∉ ops) :
    (initial.Along Allows (initial.courseOn wake ops) ∧
      initial.after (initial.courseOn wake ops) = initial.runOn wake ops) ∧
    (∀ before a rest, initial.courseOn wake ops = before ++ a :: rest →
      ∀ e ∈ initial.shows before, (initial.after before).queue.current = some e.shown →
        (((initial.after before).act a).queue.current ≠ some e.shown ↔
          a.Ends (initial.after before) e) ∧
        (a = .fire → ((initial.after before).act a).queue.current ≠ some e.shown →
          initial.shows (before ++ [a]) = initial.shows before ++
            ((initial.after before).queue.backlog.head?.map fun m =>
              ⟨⟨(initial.after before).queue.lastId + 1, m⟩, e.finish⟩).toList)) ∧
    (∀ before mid rest, ops = before ++ mid ++ rest →
      ∀ e ∈ initial.shows (initial.courseOn wake before),
        (initial.runOn wake before).queue.current = some e.shown →
        ((initial.runOn wake (before ++ mid)).queue.current = some e.shown ↔
          ∀ done op todo, mid = done ++ op :: todo →
            ¬ op.Ends (initial.runOn wake (before ++ done)) e)) ∧
    ∀ before d rest, ops = before ++ .advance d :: rest →
      ∀ e ∈ initial.shows (initial.courseOn wake (before ++ [.advance d])),
        (initial.runOn wake (before ++ [.advance d])).queue.current = some e.shown →
          e.finish < clockLimit → (initial.runOn wake (before ++ [.advance d])).clock < e.finish := by
  -- on this timer the parts of the run are what they are on an exact one
  have hrun : ∀ part ⊆ ops, initial.runOn wake part = initial.run part := fun part hpart =>
    Whole.initial_whole.runOn_eq hwake fun op hop => hwhole op (hpart hop)
  have hcourse : ∀ part ⊆ ops, initial.courseOn wake part = initial.course part := fun part hpart =>
    Whole.initial_whole.courseOn_eq hwake fun op hop => hwhole op (hpart hop)
  have hprompt := course_prompt ops h
  rw [hrun ops (List.Subset.refl _), hcourse ops (List.Subset.refl _)]
  refine ⟨⟨hprompt.mono fun _ _ => Prompt.allows, after_course initial ops⟩, ?_, ?_, ?_⟩
  · intro before a rest hsplit e he hs
    obtain ⟨ht, hl⟩ := schedule_tracked before
    rw [hsplit, along_append] at hprompt
    obtain ⟨hbefore, ha, -⟩ := hprompt
    have ho := OnTime.initial_onTime.after hbefore
    refine ⟨ht.leaves_iff hl ho.running ha he hs, ?_⟩
    rintro rfl hleft
    rw [shows_append, ← ht.appeared_of_expired ha he hs hleft]
    simp only [shows, List.append_nil]
  · intro before mid rest hsplit e he hs
    have hbefore : before ⊆ ops := by simp [hsplit]
    have hthrough : before ++ mid ⊆ ops := by simp [hsplit]
    have hstay : .shutdown ∉ before ++ mid := fun hmem => h (hthrough hmem)
    rw [List.mem_append, not_or] at hstay
    rw [hcourse _ hbefore] at he
    rw [hrun _ hbefore] at hs
    obtain ⟨ht, hl⟩ := run_tracked before
    rw [hrun _ hthrough, run_append, ht.run_stays_iff hl (run_onTime before hstay.1) hstay.2 he hs]
    refine forall₄_congr fun done op todo hmid => ?_
    rw [hrun _ (by simp [hsplit, hmid]), run_append]
  · intro before d rest hsplit e he hs hf
    have hthrough : before ++ [.advance d] ⊆ ops := by simp [hsplit]
    have hbefore : .shutdown ∉ before := fun hmem => h (by simp [hsplit, hmem])
    rw [hcourse _ hthrough] at he
    rw [hrun _ hthrough] at hs ⊢
    obtain ⟨-, hl⟩ := run_tracked (before ++ [.advance d])
    have ho := run_onTime before hbefore
    have hstep : initial.run (before ++ [.advance d]) = (initial.run before).advance d := by
      rw [run_append, run_cons, step, run, List.foldl_nil]
    have hop : Op.advance d ≠ .shutdown := by simp
    have hr : ((initial.run before).advance d).running = true :=
      (ho.step (run_tracked before).1.consistent hop).running
    rw [hstep] at hl hs ⊢
    exact lt_finish_of_advance (run_tracked before).1.consistent ho d hl hr he hs hf

/-- A short confirmation is gone after eleven seconds, on a timer that goes by the millisecond. -/
theorem display_interval_notifyFast :
    let wake := roundUp 1000000
    let ops := [Op.notifyFast "saved", .advance (.ofSeconds 11)]
    (∀ t, 1000000 ∣ t → wake t = t) ∧ (∀ op ∈ ops, op.Whole 1000000) ∧ .shutdown ∉ ops ∧
      (initial.runOn wake ops).queue.current ≠ some ⟨1, .notifyFast "saved"⟩ := by
  intro wake ops
  have hwake : ∀ t, 1000000 ∣ t → wake t = t := fun t => roundUp_of_dvd (by decide)
  have hwhole : ∀ op ∈ ops, op.Whole 1000000 := by
    simp only [ops, List.forall_mem_cons]
    exact ⟨.inl (by decide), (by decide : 1000000 ∣ (Duration.ofSeconds 11).nanoseconds),
      List.forall_mem_nil _⟩
  have hops : .shutdown ∉ ops := by simp [ops]
  have hshown : (⟨⟨1, .notifyFast "saved"⟩, 0⟩ : Appearance) ∈
      initial.shows (initial.courseOn wake [.notifyFast "saved"]) := by decide +kernel
  have hs : (initial.runOn wake [.notifyFast "saved"]).queue.current =
      some ⟨1, .notifyFast "saved"⟩ := by
    decide +kernel
  obtain ⟨-, -, hrun, -⟩ := display_interval wake 1000000 hwake ops hwhole hops
  refine ⟨hwake, hwhole, hops, fun hleft => ?_⟩
  have hend := (hrun [.notifyFast "saved"] [.advance (.ofSeconds 11)] [] rfl _ hshown hs).1 hleft
  exact hend [] _ [] rfl ⟨by decide +kernel, by decide +kernel⟩

end Center

end PanelClient
