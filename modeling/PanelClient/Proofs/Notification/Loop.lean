import Mathlib.Data.List.Basic
import PanelClient.Proofs.Notification.Dismissal
import PanelClient.Proofs.Notification.Schedule

/-!
# The timer loop

The loop keeps one timer and overwrites it with the next one that it receives. Under every schedule
that is enough: the timer of the message on screen is the last that the loop has, and every other
timer that it has is older and will be ignored.

* `Center.Tracked` : the timers of the loop are in the order of their numbers, none is ahead of the
  queue, and each runs out when its message has been shown for its duration;
* `Center.Live` : the timer of the message on screen is the last that the loop has;
* `Center.act_tracked` : every act keeps both, whatever came before;
* `Center.loop_keeps_live_timer` : what follows for every schedule.
-/

namespace PanelClient

namespace Center

/-- What holds of a center that has put the messages of `log` on screen. -/
structure Tracked (c : Center) (log : List Appearance) : Prop where
  consistent : c.queue.Consistent
  /-- The timers of the loop are in the order of their numbers. -/
  pairwise_lt : c.pending.Pairwise fun t u => t.id < u.id
  /-- No timer is ahead of the queue. -/
  pending_le : ∀ t ∈ c.pending, t.id ≤ c.queue.lastId
  log_le : ∀ e ∈ log, e.shown.id ≤ c.queue.lastId
  /-- The message on screen has been put there. -/
  mem_log : ∀ s, c.queue.current = some s → ∃ e ∈ log, e.shown = s
  /-- A timer of the loop runs out when its message has been shown for its duration. -/
  deadline_eq : ∀ e ∈ log, ∀ t ∈ c.pending, t.id = e.shown.id →
    e.finish < clockLimit ∧ t.deadline = e.finish

/-- The timer of the message on screen, if it can run out, is the last that the loop has. -/
def Live (c : Center) (log : List Appearance) : Prop :=
  c.running = true → ∀ e ∈ log, c.queue.current = some e.shown → e.finish < clockLimit →
    c.pending.getLast? = some ⟨e.shown.id, e.finish⟩

variable {c c' : Center} {log : List Appearance} {e : Appearance}

theorem initial_tracked : Tracked initial [] :=
  ⟨Queue.empty_consistent, by simp [initial, pending], by simp [initial, pending], by simp,
    by simp [initial, Queue.empty], by simp⟩

theorem initial_live : Live initial [] := by simp [Live]

/-! ### Nothing comes on screen -/

/-- The invariant survives when nothing comes on screen and timers are at most given up. -/
theorem Tracked.keeps (h : Tracked c log) (hcons : c'.queue.Consistent)
    (hl : c'.queue.lastId = c.queue.lastId)
    (hc : ∀ s, c'.queue.current = some s → c.queue.current = some s)
    (hp : c'.pending.Sublist c.pending) : Tracked c' log where
  consistent := hcons
  pairwise_lt := h.pairwise_lt.sublist hp
  pending_le t ht := hl ▸ h.pending_le t (hp.subset ht)
  log_le e he := hl ▸ h.log_le e he
  mem_log s hs := h.mem_log s (hc s hs)
  deadline_eq e he t ht := h.deadline_eq e he t (hp.subset ht)

theorem Tracked.of_sublist (h : Tracked c log) (hq : c'.queue = c.queue)
    (hp : c'.pending.Sublist c.pending) : Tracked c' log :=
  h.keeps (hq ▸ h.consistent) (by rw [hq]) (by simp [hq]) hp

theorem Live.of_getLast (h : Live c log) (hq : c'.queue = c.queue) (hr : c'.running = c.running)
    (hp : c'.pending.getLast? = c.pending.getLast?) : Live c' log := by
  intro hr' e he hs hf
  rw [hp]
  exact h (hr ▸ hr') e he (hq ▸ hs) hf

theorem receive_running (c : Center) : c.receive.running = c.running := by
  unfold receive; split <;> rfl

theorem receive_pending_suffix (c : Center) : c.receive.pending <:+ c.pending := by
  cases hm : c.mailbox with
  | nil => simp [receive, pending, hm]
  | cons t ts => simp [receive, pending, hm]

/-- Receiving overwrites an older timer, and never the last. -/
theorem receive_pending_getLast? (c : Center) :
    c.receive.pending.getLast? = c.pending.getLast? := by
  cases hm : c.mailbox with
  | nil => simp [receive, hm]
  | cons t ts =>
    simp only [receive, pending, hm, Option.toList_some, List.singleton_append]
    exact (List.getLast?_append_of_ne_nil _ (List.cons_ne_nil t ts)).symm

/-- The loop without the timer that it keeps. -/
def disarmed (c : Center) : Center := { c with armed := none }

theorem disarmed_pending_sublist (c : Center) : c.disarmed.pending.Sublist c.pending := by
  simp [disarmed, pending]

/-- Giving up a timer that is not that of the message on screen leaves the latter's in place. -/
theorem Live.disarmed {t : ArmedTimer} (h : Live c log) (ht : c.armed = some t)
    (hne : ∀ s, c.queue.current = some s → s.id ≠ t.id) : Live c.disarmed log := by
  intro hr e he hs hf
  have hl := h hr e he hs hf
  cases hm : c.mailbox with
  | nil =>
    simp only [pending, ht, hm, Option.toList_some, List.append_nil, List.getLast?_singleton,
      Option.some.injEq] at hl
    subst hl
    exact absurd rfl (hne _ hs)
  | cons u us => simpa [Center.disarmed, pending, hm, ht, List.getLast?_append] using hl

/-! ### Applying an operation -/

theorem appeared_apply (c : Center) (op : Queue.Op) :
    c.appeared (c.apply (·.step op)) =
      ((Queue.Call.shown ⟨c.queue, op⟩).map (⟨·, c.clock⟩)).toList := by
  by_cases h : (c.queue.step op).1.current = c.queue.current <;>
    simp [appeared, Queue.Call.shown, Queue.Call.after, h]

/-- What an operation does to a center: a message comes on screen now, and its timer is sent if the
loop runs and the clock can show the deadline; or nothing comes on screen and no timer is sent. -/
theorem apply_cases (hq : c.queue.Consistent) (op : Queue.Op) :
    (∃ e, e.start = c.clock ∧ e.shown.id = c.queue.lastId + 1 ∧
      (c.apply (·.step op)).queue.current = some e.shown ∧
      (c.apply (·.step op)).queue.lastId = c.queue.lastId + 1 ∧
      c.appeared (c.apply (·.step op)) = [e] ∧
      (c.apply (·.step op)).pending = c.pending ++
        if c.running = true ∧ e.finish < clockLimit then [⟨e.shown.id, e.finish⟩] else []) ∨
    (((c.apply (·.step op)).queue.current = c.queue.current ∨
        (c.apply (·.step op)).queue.current = none) ∧
      (c.apply (·.step op)).queue.lastId = c.queue.lastId ∧
      c.appeared (c.apply (·.step op)) = [] ∧ (c.apply (·.step op)).pending = c.pending) := by
  have hpending : (c.apply (·.step op)).pending =
      c.pending ++ c.sent (Queue.Call.timer ⟨c.queue, op⟩) := apply_pending c _
  rw [appeared_apply, apply_queue, hpending]
  rcases Queue.Call.shown_cases (c := ⟨c.queue, op⟩) hq with
    ⟨m, hs, ht, hl, hc, -⟩ | ⟨hs, ht, hl, hc, -⟩
  · refine .inl ⟨⟨⟨c.queue.lastId + 1, m⟩, c.clock⟩, rfl, rfl, hc, hl, ?_, ?_⟩
    · rw [hs]; rfl
    · rw [ht, sent_some]; rfl
  · refine .inr ⟨hc, hl, ?_, ?_⟩
    · rw [hs]; rfl
    · rw [ht, sent_none, List.append_nil]

/-- The invariant survives when a message comes on screen under the next number and the loop is sent
its timer, or none. -/
theorem Tracked.shows {new : List ArmedTimer} (h : Tracked c log) (hcons : c'.queue.Consistent)
    (hid : e.shown.id = c.queue.lastId + 1) (hl : c'.queue.lastId = c.queue.lastId + 1)
    (hc : c'.queue.current = some e.shown) (hp : c'.pending = c.pending ++ new)
    (hnew : new = [⟨e.shown.id, e.finish⟩] ∧ e.finish < clockLimit ∨ new = []) :
    Tracked c' (log ++ [e]) := by
  have hold : ∀ t ∈ c.pending, t.id < e.shown.id := by
    intro t ht
    rw [hid]
    exact Nat.lt_succ_of_le (h.pending_le t ht)
  have hsent : ∀ t ∈ new, t.id = e.shown.id ∧ e.finish < clockLimit ∧ t.deadline = e.finish := by
    intro t ht
    rcases hnew with ⟨rfl, hf⟩ | rfl
    · rw [List.mem_singleton.1 ht]
      exact ⟨rfl, hf, rfl⟩
    · cases ht
  constructor
  · exact hcons
  · rw [hp, List.pairwise_append]
    refine ⟨h.pairwise_lt, ?_, fun t ht u hu => ?_⟩
    · rcases hnew with ⟨rfl, -⟩ | rfl <;> simp
    · rw [(hsent u hu).1]
      exact hold t ht
  · intro t ht
    rw [hl, ← hid]
    rcases List.mem_append.1 (hp ▸ ht) with ht | ht
    · exact Nat.le_of_lt (hold t ht)
    · exact Nat.le_of_eq (hsent t ht).1
  · intro e' he'
    rw [hl]
    rcases List.mem_append.1 he' with he' | he'
    · exact Nat.le_succ_of_le (h.log_le e' he')
    · rw [List.mem_singleton.1 he']
      exact Nat.le_of_eq hid
  · intro s hs
    exact ⟨e, by simp, Option.some.inj (hc.symm.trans hs)⟩
  · -- only the new timer has the number of the new message, and it has no other
    intro e' he' t ht htid
    rcases List.mem_append.1 he' with he' | he' <;>
      rcases List.mem_append.1 (hp ▸ ht) with ht | ht
    · exact h.deadline_eq e' he' t ht htid
    · have := h.log_le e' he'
      have := (hsent t ht).1
      omega
    · have := hold t ht
      rw [List.mem_singleton.1 he'] at htid
      omega
    · rw [List.mem_singleton.1 he']
      exact (hsent t ht).2

theorem Tracked.apply (h : Tracked c log) (op : Queue.Op) :
    Tracked (c.apply (·.step op)) (log ++ c.appeared (c.apply (·.step op))) := by
  have hcons : (c.apply (·.step op)).queue.Consistent := by
    rw [apply_queue]; exact h.consistent.step op
  rcases apply_cases h.consistent op with ⟨e, -, hid, hc, hl, ha, hp⟩ | ⟨hc, hl, ha, hp⟩
  · rw [ha]
    refine h.shows hcons hid hl hc hp ?_
    split_ifs with hsent
    · exact .inl ⟨rfl, hsent.2⟩
    · exact .inr rfl
  · rw [ha, List.append_nil]
    refine h.keeps hcons hl (fun s hs => ?_) (hp ▸ .refl _)
    rcases hc with hc | hc <;> rw [hc] at hs
    · exact hs
    · cases hs

/-- An operation leaves the timer of the message on screen the last one: of a new message, or of the
old one if that stays. -/
theorem Tracked.apply_live (h : Tracked c log) (op : Queue.Op)
    (hl : (c.apply (·.step op)).queue.current = c.queue.current → Live c log) :
    Live (c.apply (·.step op)) (log ++ c.appeared (c.apply (·.step op))) := by
  intro hr e' he' hs hf
  rw [apply_running] at hr
  rcases apply_cases h.consistent op with ⟨e, -, hid, hc, -, ha, hp⟩ | ⟨hc, -, ha, hp⟩
  · rw [ha] at he'
    rw [hc, Option.some.injEq] at hs
    rcases List.mem_append.1 he' with he' | he'
    · have := h.log_le e' he'
      rw [← hs] at this
      omega
    · rw [List.mem_singleton.1 he'] at hf ⊢
      rw [hp, if_pos ⟨hr, hf⟩, List.getLast?_concat]
  · rw [ha, List.append_nil] at he'
    rcases hc with hc | hc
    · rw [hp]
      exact hl hc hr e' he' (hc ▸ hs) hf
    · rw [hc] at hs
      cases hs

/-! ### Every act, every schedule -/

/-- The loop reports a timer that is not that of the message on screen, and nothing changes. -/
theorem fire_current_of_ne (hq : c.queue.Consistent) {t : ArmedTimer}
    (hne : ∀ s, c.queue.current = some s → s.id ≠ t.id) :
    (c.fire t).queue.current = c.queue.current := by
  simp [fire, hq.elapsed_of_not_current hne]

/-- The loop reports the timer of the message on screen, and that leaves it. -/
theorem fire_past (hq : c.queue.Consistent) {s : Shown} (hs : c.queue.current = some s)
    {t : ArmedTimer} (ht : t.id = s.id) : (c.fire t).queue.Past s.id := by
  simp only [fire, apply_queue, ht, hq.elapsed_of_current hs]
  exact hq.past_consume hs

/-- A message leaves the screen by a firing only if the timer is its own. -/
theorem fire_id_of_leaves (hq : c.queue.Consistent) {t : ArmedTimer} {s : Shown}
    (hs : c.queue.current = some s) (hleft : (c.fire t).queue.current ≠ some s) : t.id = s.id := by
  by_contra hne
  refine hleft ((fire_current_of_ne hq fun s' hs' => ?_).trans hs)
  rw [Option.some.inj (hs'.symm.trans hs)]
  exact Ne.symm hne

theorem Tracked.fire {t : ArmedTimer} (h : Tracked c log) (hl : Live c log)
    (ht : c.armed = some t) :
    Tracked (c.fire t) (log ++ c.appeared (c.fire t)) ∧
      Live (c.fire t) (log ++ c.appeared (c.fire t)) := by
  have hd : Tracked c.disarmed log := h.of_sublist rfl (disarmed_pending_sublist c)
  refine ⟨hd.apply (.elapsed t.id), hd.apply_live (.elapsed t.id) fun hsame => ?_⟩
  -- the message on screen has stayed, so the timer was another's
  refine hl.disarmed ht fun s hs hid => ?_
  exact (fire_past h.consistent hs hid.symm).2 s (hsame.trans hs) rfl

theorem act_tracked (h : Tracked c log) (hl : Live c log) (a : Act) :
    Tracked (c.act a) (log ++ c.appeared (c.act a)) ∧
      Live (c.act a) (log ++ c.appeared (c.act a)) := by
  -- an act that leaves the queue alone puts nothing on screen
  have of_sublist : ∀ c' : Center, c'.queue = c.queue → c'.pending.Sublist c.pending →
      Live c' log → Tracked c' (log ++ c.appeared c') ∧ Live c' (log ++ c.appeared c') := by
    intro c' hq hp hl'
    rw [appeared_of_eq (by rw [hq]), List.append_nil]
    exact ⟨h.of_sublist hq hp, hl'⟩
  cases a with
  | push m => exact ⟨h.apply (.push m), h.apply_live (.push m) fun _ => hl⟩
  | urgent m => exact ⟨h.apply (.urgent m), h.apply_live (.urgent m) fun _ => hl⟩
  | consume => exact ⟨h.apply .consume, h.apply_live .consume fun _ => hl⟩
  | subscribe => exact of_sublist _ rfl (.refl _) (hl.of_getLast rfl rfl rfl)
  | observe r => exact of_sublist _ rfl (.refl _) (hl.of_getLast rfl rfl rfl)
  | shutdown => exact of_sublist _ rfl (List.nil_sublist _) (by intro hr; cases hr)
  | receive =>
    exact of_sublist _ (receive_queue c) (receive_pending_suffix c).sublist
      (hl.of_getLast (receive_queue c) (receive_running c) (receive_pending_getLast? c))
  | fire =>
    cases ht : c.armed with
    | none => simpa only [act, ht] using of_sublist c rfl (.refl _) hl
    | some t => simpa only [act, ht] using h.fire hl ht
  | wait n => exact of_sublist _ rfl (.refl _) (hl.of_getLast rfl rfl rfl)

theorem after_tracked (h : Tracked c log) (hl : Live c log) (acts : List Act) :
    Tracked (c.after acts) (log ++ c.shows acts) ∧ Live (c.after acts) (log ++ c.shows acts) := by
  induction acts generalizing c log with
  | nil => simpa [shows] using ⟨h, hl⟩
  | cons a acts ih =>
    obtain ⟨ht, hl'⟩ := act_tracked h hl a
    simpa [shows] using ih ht hl'

/-- Every schedule from the start keeps track of what it has put on screen. -/
theorem schedule_tracked (acts : List Act) :
    Tracked (initial.after acts) (initial.shows acts) ∧
      Live (initial.after acts) (initial.shows acts) := by
  simpa using after_tracked initial_tracked initial_live acts

/-- **One timer is enough.** After every schedule, in whatever order its acts come, the timers that
the loop still has are in the order of their numbers, none ahead of the queue; the message on screen
was put there, and if the loop runs and the message can run out, its timer is the last of them; and
firing takes this message off the screen only if the timer fired is its own, once it has been shown
for its duration. -/
theorem loop_keeps_live_timer (acts : List Act) :
    (initial.after acts).pending.Pairwise (fun t u => t.id < u.id) ∧
    (∀ t ∈ (initial.after acts).pending, t.id ≤ (initial.after acts).queue.lastId) ∧
    (∀ s, (initial.after acts).queue.current = some s → ∃ e ∈ initial.shows acts, e.shown = s) ∧
    ∀ e ∈ initial.shows acts, (initial.after acts).queue.current = some e.shown →
      ((initial.after acts).running = true → e.finish < clockLimit →
        (initial.after acts).pending.getLast? = some ⟨e.shown.id, e.finish⟩) ∧
      ((initial.after acts).Allows .fire →
        ((initial.after acts).act .fire).queue.current ≠ some e.shown →
        (initial.after acts).armed = some ⟨e.shown.id, e.finish⟩ ∧ e.finish < clockLimit ∧
          e.finish ≤ (initial.after acts).clock) := by
  obtain ⟨h, hl⟩ := schedule_tracked acts
  refine ⟨h.pairwise_lt, h.pending_le, h.mem_log, fun e he hs => ⟨fun hr hf => hl hr e he hs hf, ?_⟩⟩
  rintro ⟨t, ht, hdue⟩ hleft
  simp only [act, ht] at hleft
  have hid := fire_id_of_leaves h.consistent hs hleft
  obtain ⟨hf, hd⟩ := h.deadline_eq e he t (by simp [pending, ht]) hid
  refine ⟨?_, hf, hd ▸ hdue⟩
  rw [ht, ← hid, ← hd]

end Center

end PanelClient
