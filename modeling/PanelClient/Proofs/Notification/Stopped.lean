import PanelClient.Proofs.Notification.Observers

/-!
# A center without its loop

Once the loop has been stopped, the timers that it had or was sent are gone, and a timer that the queue
hands out finds nobody to take it. What is left is the queue: every operation does to it what it would do
to a queue by itself, time does nothing, and the receivers are told of every change as before.

* `Center.Op.onQueue?` : what an operation asks of the queue;
* `Center.Stopped` : the loop has stopped and there is no timer left; so it is after a shutdown, and so it
  remains (`Center.Stopped.run`, `Center.Stopped.act`); until then it runs (`Center.running_or_stopped`);
* `Center.Stopped.run_queue` : the queue of a stopped center makes the run of a queue by itself;
* `Center.Informed.hasChanged_step` : receivers are told of what changes;
* `Center.stopped_is_queue` : all of it, for every run after every shutdown.
-/

namespace PanelClient

namespace Center

/-- What an operation asks of the queue, if anything. -/
def Op.onQueue? : Op → Option Queue.Op
  | .push m => some (.push m)
  | .urgent m => some (.urgent m)
  | .notify text => some (.push (.notify text))
  | .notifyFast text => some (.push (.notifyFast text))
  | .alert text => some (.urgent (.urgent text))
  | .consume => some .consume
  | _ => none

/-- The loop has stopped, and no timer is left that could be fired. -/
structure Stopped (c : Center) : Prop where
  running_eq : c.running = false
  pending_eq : c.pending = []

variable {c : Center}

/-! ### What a stopped center does -/

/-- An operation that asks something of the queue is applied to it, in every center. -/
theorem step_of_onQueue? {op : Op} {qop : Queue.Op} (h : op.onQueue? = some qop) :
    c.step op = c.apply (·.step qop) := by
  cases op <;> cases h <;> rfl

namespace Stopped

theorem shutdown_stopped (c : Center) : Stopped c.shutdown := ⟨rfl, rfl⟩

theorem armed_eq (h : Stopped c) : c.armed = none :=
  Option.toList_eq_nil_iff.1 (List.append_eq_nil_iff.1 h.pending_eq).1

theorem mailbox_eq (h : Stopped c) : c.mailbox = [] := (List.append_eq_nil_iff.1 h.pending_eq).2

theorem sent_eq (h : Stopped c) (t : Option Timer) : c.sent t = [] := by
  rw [sent, h.running_eq, if_neg Bool.false_ne_true]

/-- Applying an operation leaves no timer: nobody takes the one that the queue hands out. -/
theorem apply (h : Stopped c) (op : Queue → Queue × Option Timer) : Stopped (c.apply op) where
  running_eq := by rw [apply_running, h.running_eq]
  pending_eq := by rw [apply_pending, h.pending_eq, h.sent_eq, List.append_nil]

/-- Every operation leaves the center stopped, and does to the queue what it asks of it. -/
theorem step (h : Stopped c) (op : Op) :
    Stopped (c.step op) ∧ (c.step op).queue = c.queue.run op.onQueue?.toList := by
  cases hop : op.onQueue? with
  | some qop =>
    rw [step_of_onQueue? hop]
    exact ⟨h.apply _, apply_queue c _⟩
  | none =>
    -- what asks nothing of the queue leaves it, the loop and the timers as they are
    cases op with
    | advance d =>
      rw [Center.step, advance_of_stopped h.running_eq]
      exact ⟨⟨h.running_eq, h.pending_eq⟩, rfl⟩
    | subscribe => exact ⟨⟨h.running_eq, h.pending_eq⟩, rfl⟩
    | observe r => exact ⟨⟨h.running_eq, h.pending_eq⟩, rfl⟩
    | shutdown => exact ⟨shutdown_stopped c, rfl⟩
    | _ => cases hop

theorem run (h : Stopped c) (ops : List Op) : Stopped (c.run ops) := by
  induction ops generalizing c with
  | nil => exact h
  | cons op ops ih => exact ih (h.step op).1

/-- **The queue of a stopped center makes the run of a queue by itself.** -/
theorem run_queue (h : Stopped c) (ops : List Op) :
    (c.run ops).queue = c.queue.run (ops.filterMap Op.onQueue?) := by
  induction ops generalizing c with
  | nil => rfl
  | cons op ops ih =>
    obtain ⟨hstopped, hqueue⟩ := h.step op
    rw [run_cons, ih hstopped, hqueue, List.filterMap_cons]
    cases op.onQueue? <;> rfl

/-- Every act leaves the center stopped. -/
theorem act (h : Stopped c) (a : Act) : Stopped (c.act a) := by
  cases a with
  | push m => exact h.apply (·.push m)
  | urgent m => exact h.apply (·.urgent m)
  | consume => exact h.apply Queue.consume
  | shutdown => exact shutdown_stopped c
  | receive =>
    have hreceive : c.receive = c := by simp [receive, h.mailbox_eq]
    rwa [Center.act, hreceive]
  | fire => rwa [Center.act, h.armed_eq]
  | _ => exact ⟨h.running_eq, h.pending_eq⟩

/-- An operation of a stopped center is one act. -/
theorem exists_act (h : Stopped c) (op : Op) : ∃ a, c.step op = c.act a := by
  have hacts : ∃ a, c.acts op = [a] := by
    cases op with
    | advance d => exact ⟨_, acts_of_stopped h.running_eq d⟩
    | _ => exact ⟨_, rfl⟩
  obtain ⟨a, ha⟩ := hacts
  exact ⟨a, by rw [← after_acts, ha, after_cons, after_nil]⟩

end Stopped

/-- The loop runs until it is stopped, and leaves no timer then. -/
theorem running_or_stopped_act (hr : c.running = true) (a : Act) :
    (c.act a).running = true ∨ Stopped (c.act a) := by
  cases a with
  | push m => exact .inl ((apply_running c _).trans hr)
  | urgent m => exact .inl ((apply_running c _).trans hr)
  | consume => exact .inl ((apply_running c _).trans hr)
  | shutdown => exact .inr (.shutdown_stopped c)
  | receive => exact .inl ((receive_running c).trans hr)
  | fire =>
    rw [act]
    split
    · exact .inl ((apply_running _ _).trans hr)
    · exact .inl hr
  | _ => exact .inl hr

theorem running_or_stopped (h : c.running = true ∨ Stopped c) (acts : List Act) :
    (c.after acts).running = true ∨ Stopped (c.after acts) := by
  induction acts generalizing c with
  | nil => exact h
  | cons a acts ih =>
    rcases h with hr | hstopped
    · exact ih (running_or_stopped_act hr a)
    · exact ih (.inr (hstopped.act a))

/-! ### What receivers are told -/

namespace Informed

/-- **Receivers are told of what changes**, whoever they are. -/
theorem hasChanged_act (h : Informed c) {a : Act} (ha : c.Changes a) {r : Nat}
    (hr : r < c.receivers.length) : (c.act a).hasChanged r = true := by
  have hreceivers : (c.act a).receivers = c.receivers := by
    have halters := (changes_iff h.consistent a).1 ha
    rw [act_receivers]
    cases a with
    | subscribe => exact halters.elim
    | observe r' => exact halters.elim
    | _ => rfl
  have hseen := h.le_version c.receivers[r] (List.getElem_mem hr)
  rw [hasChanged_iff, hreceivers, List.getElem?_eq_getElem hr]
  refine ⟨_, rfl, ?_⟩
  rcases h.version_act a with ⟨-, hversion⟩ | ⟨hnot, -⟩
  · omega
  · exact absurd ha hnot

/-- The version of a stopped center goes up just if something else comes on screen. -/
theorem version_step_iff (h : Informed c) (hstopped : Stopped c) (op : Op) :
    (c.step op).version ≠ c.version ↔ (c.step op).displayed ≠ c.displayed := by
  obtain ⟨a, ha⟩ := hstopped.exists_act op
  rw [ha]
  rcases h.version_act a with ⟨hchanges, hversion⟩ | ⟨hnot, hversion⟩
  · exact iff_of_true (by omega) hchanges
  · exact iff_of_false (not_not_intro hversion) hnot

theorem hasChanged_step (h : Informed c) (hstopped : Stopped c) {op : Op}
    (hop : (c.step op).displayed ≠ c.displayed) {r : Nat} (hr : r < c.receivers.length) :
    (c.step op).hasChanged r = true := by
  obtain ⟨a, ha⟩ := hstopped.exists_act op
  rw [ha] at hop ⊢
  exact h.hasChanged_act hop hr

end Informed

/-- **A center without its loop is its queue.** Stop the loop after any schedule, whatever timers it then
has or was sent, and let any run of operations follow, further shutdowns included. The queue is what the
same operations make of the queue at the shutdown, and no timer is left, those included that it has
handed out since. Time does nothing but pass. Whoever looks sees what is on screen, and everybody is told
of an operation that changes it, and of no other. The course of a run of operations is such a schedule. -/
theorem stopped_is_queue (acts : List Act) (ops : List Op) :
    let c := (initial.after acts).shutdown.run ops
    c.queue = (initial.after acts).queue.run (ops.filterMap Op.onQueue?) ∧
    c.running = false ∧ c.pending = [] ∧
    (∀ op qop, op.onQueue? = some qop →
      (c.step op).queue = (c.queue.step qop).1 ∧ (c.step op).pending = []) ∧
    (∀ d, c.step (.advance d) = { c with clock := c.clock + d.nanoseconds }) ∧
    (∀ r, c.observation (.observe r) = .seen (c.hasChanged r) c.queue.current) ∧
    (∀ op,
      ((c.step op).version ≠ c.version ↔ (c.step op).displayed ≠ c.displayed) ∧
      ((c.step op).displayed ≠ c.displayed →
        ∀ r < c.receivers.length, (c.step op).hasChanged r = true)) ∧
    ∀ before, acts = initial.course before → c = initial.run (before ++ .shutdown :: ops) := by
  intro c
  have hshutdown : Stopped (initial.after acts).shutdown := .shutdown_stopped _
  have hstopped : Stopped c := hshutdown.run ops
  have hinformed : Informed c := by
    have hstart : Informed ((initial.after acts).act .shutdown) :=
      (Informed.initial_informed.after acts).act .shutdown
    have hcourse := hstart.after ((initial.after acts).shutdown.course ops)
    rwa [act, after_course] at hcourse
  refine ⟨hshutdown.run_queue ops, hstopped.running_eq, hstopped.pending_eq, ?_,
    advance_of_stopped hstopped.running_eq, fun r => ?_, fun op => ⟨?_, fun hop r hr => ?_⟩, ?_⟩
  · intro op qop hop
    refine ⟨?_, (hstopped.step op).1.pending_eq⟩
    rw [step_of_onQueue? hop, apply_queue]
  · rw [observation, hinformed.published_eq]
  · exact hinformed.version_step_iff hstopped op
  · exact hinformed.hasChanged_step hstopped hop hr
  · rintro before rfl
    rw [run_append, ← after_course initial before]
    rfl

end Center

end PanelClient
