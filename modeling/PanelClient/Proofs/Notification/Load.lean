import PanelClient.Proofs.Notification.Interval
import PanelClient.Proofs.Notification.Stopped

/-!
# How much the loop has to do

A center that nobody asks for anything goes on by itself: its loop receives and fires, and time passes. A
firing may bring the next message on screen and so arm the next timer, which is due at once if the
message takes no time; neither the clock nor the number of timers that are due says when that ends. What
does is the load of the loop, the messages that wait together with the timers that it has: each firing
takes a timer away, and a new timer comes only with a message that waits no longer.

* `Center.Proceeds` : what can happen when nothing is asked for;
* `Center.count_add_le` : what no such act raises, and each act of one kind lowers, bounds their number;
* `Center.load` : this bound for firing; for receiving it is `Center.inflow`;
* `Center.takes_of_fires_again` : a firing that is not the last takes exactly one message off the backlog;
* `Center.loop_comes_to_rest` : what follows for a center that has received its timers, and for a span of
  time.
-/

namespace PanelClient

namespace Center

/-- The act can happen now, and nobody has to ask for it. -/
def Proceeds (c : Center) (a : Act) : Prop := a.Unasked ∧ c.Allows a

/-- What the loop may have to fire: a timer for each message that waits, and those that it has. -/
def load (c : Center) : Nat := c.queue.backlog.length + c.pending.length

variable {c : Center} {t : ArmedTimer} {acts : List Act}

/-- What no act of a center by itself raises, and each act of one kind lowers, bounds how often that kind
of act comes. -/
theorem count_add_le {f : Center → Nat} {kind : Act}
    (hstep : ∀ c a, Proceeds c a → [a].count kind + f (c.act a) ≤ f c)
    (h : c.Along Proceeds acts) : acts.count kind + f (c.after acts) ≤ f c := by
  induction acts generalizing c with
  | nil => simp
  | cons a acts ih =>
    have hfirst := hstep c a h.1
    have hrest := ih h.2
    rw [← List.singleton_append, List.count_append, List.singleton_append, after_cons]
    omega

/-! ### The timers of the loop -/

theorem pending_of_armed (ht : c.armed = some t) : c.pending = t :: c.mailbox := by
  simp [pending, ht]

theorem mailbox_eq_nil_of_armed (ht : c.armed = some t) (hone : c.pending.length ≤ 1) :
    c.mailbox = [] := by
  rw [pending_of_armed ht, List.length_cons] at hone
  exact List.length_eq_zero_iff.1 (by omega)

theorem act_fire (ht : c.armed = some t) : c.act .fire = c.fire t := by rw [act, ht]

theorem fire_pending (c : Center) (t : ArmedTimer) : (c.fire t).pending = (c.fire t).mailbox := by
  simp [fire, pending]

/-- A firing brings the first message that waits on screen and sends its timer, or it sends none and
leaves what waits as it is. -/
theorem fire_cases (c : Center) (t : ArmedTimer) :
    (∃ m, c.queue.backlog = m :: (c.fire t).queue.backlog ∧
      (c.fire t).queue.current = some ⟨c.queue.lastId + 1, m⟩ ∧
      (c.fire t).mailbox = c.mailbox ++ c.sent (some ⟨c.queue.lastId + 1, m.duration⟩)) ∨
    ((c.fire t).queue.backlog = c.queue.backlog ∧ (c.fire t).mailbox = c.mailbox) :=
  apply_elapsed_cases c.disarmed t.id

theorem fire_inflow_le (c : Center) (t : ArmedTimer) : (c.fire t).inflow ≤ c.inflow :=
  apply_elapsed_inflow_le c.disarmed t.id

/-! ### One act -/

namespace Proceeds

variable {a : Act}

/-- What can happen without being asked for: the loop receives a timer from its mailbox, or it fires the
one that it keeps, which is due, or time passes. -/
theorem cases (h : Proceeds c a) :
    (a = .receive ∧ c.mailbox ≠ []) ∨
    (∃ t, a = .fire ∧ c.armed = some t ∧ t.deadline ≤ c.clock) ∨ ∃ n, a = .wait n := by
  obtain ⟨hu, ha⟩ := h
  cases a with
  | receive => exact .inl ⟨rfl, ha⟩
  | fire =>
    obtain ⟨t, ht, hdue⟩ := ha
    exact .inr (.inl ⟨t, rfl, ht, hdue⟩)
  | wait n => exact .inr (.inr ⟨n, rfl⟩)
  | _ => exact hu.elim

/-- Every firing lowers the load, and nothing raises it. -/
theorem count_fire_add_le (h : Proceeds c a) : [a].count .fire + (c.act a).load ≤ c.load := by
  rcases h.cases with ⟨rfl, -⟩ | ⟨t, rfl, ht, -⟩ | ⟨n, rfl⟩
  · have hcount : [Act.receive].count .fire = 0 := rfl
    have hle := (receive_pending_suffix c).length_le
    rw [hcount, act, load, load, receive_queue]
    omega
  · have hcount : [Act.fire].count .fire = 1 := rfl
    have hle := fire_inflow_le c t
    rw [inflow, inflow, ← fire_pending] at hle
    rw [hcount, act_fire ht, load, load, pending_of_armed ht, List.length_cons]
    omega
  · exact Nat.le_of_eq (Nat.zero_add _)

/-- Every receipt lowers the inflow, and nothing raises it. -/
theorem count_receive_add_le (h : Proceeds c a) :
    [a].count .receive + (c.act a).inflow ≤ c.inflow := by
  rcases h.cases with ⟨rfl, hm⟩ | ⟨t, rfl, ht, -⟩ | ⟨n, rfl⟩
  · obtain ⟨t, ts, hts⟩ := List.exists_cons_of_ne_nil hm
    have hcount : [Act.receive].count .receive = 1 := rfl
    have hreceive : c.receive.mailbox = ts := by simp [receive, hts]
    rw [hcount, act, inflow, inflow, receive_queue, hreceive, hts, List.length_cons]
    omega
  · have hcount : [Act.fire].count .receive = 0 := rfl
    rw [hcount, act_fire ht, Nat.zero_add]
    exact fire_inflow_le c t
  · exact Nat.le_of_eq (Nat.zero_add _)

/-- A loop that has one timer at most does not come to have two. -/
theorem pending_length_le (h : Proceeds c a) (hone : c.pending.length ≤ 1) :
    (c.act a).pending.length ≤ 1 := by
  rcases h.cases with ⟨rfl, -⟩ | ⟨t, rfl, ht, -⟩ | ⟨n, rfl⟩
  · exact Nat.le_trans (receive_pending_suffix c).length_le hone
  · rw [act_fire ht, fire_pending]
    rcases fire_cases c t with ⟨m, -, -, hm⟩ | ⟨-, hm⟩
    · rw [hm, mailbox_eq_nil_of_armed ht hone, List.nil_append]
      exact length_sent_le c _
    · rw [hm, mailbox_eq_nil_of_armed ht hone]
      exact Nat.zero_le _
  · exact hone

end Proceeds

/-! ### A course of acts -/

theorem pending_length_after_le (h : c.Along Proceeds acts) (hone : c.pending.length ≤ 1) :
    (c.after acts).pending.length ≤ 1 := by
  induction acts generalizing c with
  | nil => exact hone
  | cons a acts ih => exact ih h.2 (h.1.pending_length_le hone)

/-- A loop without timers fires none. -/
theorem fire_not_mem (h : c.Along Proceeds acts) (hnone : c.pending = []) : .fire ∉ acts := by
  induction acts generalizing c with
  | nil => exact List.not_mem_nil
  | cons a acts ih =>
    obtain ⟨ha, hrest⟩ := h
    rcases ha.cases with ⟨rfl, hm⟩ | ⟨t, rfl, ht, -⟩ | ⟨n, rfl⟩
    · exact absurd (List.append_eq_nil_iff.1 hnone).2 hm
    · rw [pending_of_armed ht] at hnone
      cases hnone
    · rw [List.mem_cons, not_or]
      exact ⟨nofun, ih hrest hnone⟩

/-- **A firing that is not the last works off one message.** It takes one off the backlog and puts it on
screen, and the loop then has the timer of that message, which runs from that moment, and no other. -/
theorem takes_of_fires_again (h : c.Along Proceeds (.fire :: acts)) (hone : c.pending.length ≤ 1)
    (hagain : .fire ∈ acts) :
    ∃ m, c.queue.backlog = m :: (c.act .fire).queue.backlog ∧
      (c.act .fire).queue.current = some ⟨c.queue.lastId + 1, m⟩ ∧
      (c.act .fire).pending = [⟨c.queue.lastId + 1, c.clock + m.duration.nanoseconds⟩] := by
  obtain ⟨⟨-, t, ht, -⟩, hrest⟩ := h
  have hmailbox := mailbox_eq_nil_of_armed ht hone
  -- to fire again the loop must have a timer, and only this firing can have sent it
  have hsome : (c.act .fire).pending ≠ [] := fun hnone => fire_not_mem hrest hnone hagain
  rw [act_fire ht, fire_pending] at hsome ⊢
  rcases fire_cases c t with ⟨m, hb, hc, hm⟩ | ⟨-, hm⟩
  · rw [hm, hmailbox, List.nil_append, sent_some] at hsome ⊢
    split_ifs at hsome ⊢ with hsent
    · exact ⟨m, hb, hc, rfl⟩
    · exact absurd rfl hsome
  · exact absurd (hm.trans hmailbox) hsome

/-! ### A span of time -/

theorem receives_proceed (c : Center) : c.Along Proceeds c.receives :=
  receives_along (fun _ hm => ⟨trivial, hm⟩) c

theorem firings_proceed (target n : Nat) (c : Center) : c.Along Proceeds (firings target n c) := by
  induction n generalizing c with
  | zero => trivial
  | succ n ih =>
    rcases due_or_settled target c with ⟨t, ht, hdue⟩ | hs
    · have hfire : (c.act (.wait (t.deadline - c.clock))).Proceeds .fire := by
        rw [act_wait_sub]
        exact ⟨trivial, t, ht, Nat.le_max_right _ _⟩
      rw [firings_of_due ht hdue]
      refine ⟨⟨trivial, trivial⟩, hfire, ?_⟩
      rw [after_wait_fire ht, along_append, after_receives]
      exact ⟨receives_proceed _, ih _⟩
    · rw [firings_of_settled hs]
      trivial

/-- Time passes without anything being asked for, whatever is due or overdue. -/
theorem advance_proceeds (c : Center) (d : Duration) : c.Along Proceeds (c.acts (.advance d)) := by
  cases hr : c.running with
  | false =>
    rw [acts_of_stopped hr]
    exact ⟨⟨trivial, trivial⟩, trivial⟩
  | true =>
    rw [acts_of_running hr, along_append, along_append, after_receives]
    exact ⟨⟨receives_proceed c, firings_proceed _ _ _⟩, ⟨trivial, trivial⟩, trivial⟩

/-- When time has passed, the loop has nothing to receive and nothing to fire. -/
theorem advance_rests (h : c.running = true ∨ Stopped c) (hq : c.queue.Consistent) (d : Duration) :
    (c.advance d).mailbox = [] ∧ Settled (c.advance d).clock (c.advance d) := by
  rcases h with hr | hstopped
  · exact advance_settled hq hr d
  · rw [advance_of_stopped hstopped.running_eq]
    refine ⟨hstopped.mailbox_eq, fun t ht => ?_⟩
    cases hstopped.armed_eq.symm.trans ht

/-- **The loop comes to rest.** Take a center after any schedule, when its loop has received the timers
sent so far, and ask it for nothing more. In whatever way its loop and the clock go on, the loop fires
at most one timer more than messages wait, and receives no more timers than messages wait. Each firing
but the last takes exactly one message off the backlog and puts it on screen, and the timer of that
message, counted from the moment of the firing, is then the only one of the loop. A span of time is a
course of this kind, and at its end nothing is left to receive, and the timer that the loop keeps, if
any, runs out after that. -/
theorem loop_comes_to_rest (acts : List Act) (d : Duration)
    (hm : (initial.after acts).mailbox = []) :
    let c := initial.after acts
    (∀ steps, c.Along Proceeds steps →
      steps.count .fire ≤ c.queue.backlog.length + 1 ∧
      steps.count .receive ≤ c.queue.backlog.length ∧
      ∀ before rest, steps = before ++ .fire :: rest → .fire ∈ rest →
        let now := c.after before
        let next := now.act .fire
        ∃ m, now.queue.backlog = m :: next.queue.backlog ∧
          next.queue.current = some ⟨now.queue.lastId + 1, m⟩ ∧
          next.pending = [⟨now.queue.lastId + 1, now.clock + m.duration.nanoseconds⟩]) ∧
    c.Along Proceeds (c.acts (.advance d)) ∧ c.after (c.acts (.advance d)) = c.advance d ∧
    (c.advance d).clock = c.clock + d.nanoseconds ∧ (c.advance d).mailbox = [] ∧
    ∀ t, (c.advance d).armed = some t → (c.advance d).clock < t.deadline := by
  intro c
  have hone : c.pending.length ≤ 1 := by
    rw [pending, hm, List.append_nil]
    exact Option.length_toList_le
  obtain ⟨hmailbox, hsettled⟩ := advance_rests (running_or_stopped (.inl rfl) acts)
    (schedule_tracked acts).1.consistent d
  refine ⟨fun steps h => ⟨?_, ?_, ?_⟩, advance_proceeds c d, after_acts c (.advance d),
    advance_clock c d, hmailbox, hsettled⟩
  · have hle := count_add_le (fun _ _ => Proceeds.count_fire_add_le) h
    rw [load, load] at hle
    omega
  · have hle := count_add_le (fun _ _ => Proceeds.count_receive_add_le) h
    rw [inflow, inflow, hm, List.length_nil] at hle
    omega
  · rintro before rest rfl hagain
    obtain ⟨hbefore, hfires⟩ := along_append.1 h
    exact takes_of_fires_again hfires (pending_length_after_le hbefore hone) hagain

/-- Three messages that take no time are worked off at one moment by three firings, one more than
messages wait. -/
theorem loop_comes_to_rest_of_instants :
    let ms := ["a", "b", "c"].map fun text => (Message.notify text).withDuration ⟨0⟩
    let c := initial.after (ms.map Act.push ++ [.receive])
    let steps := c.acts (.advance ⟨0⟩)
    c.mailbox = [] ∧ c.queue.backlog.length = 2 ∧ steps.count .fire = 3 ∧
      steps.count .fire ≤ c.queue.backlog.length + 1 ∧
      (∃ m, (c.act (.wait 0)).queue.backlog = m :: ((c.act (.wait 0)).act .fire).queue.backlog) ∧
      (c.advance ⟨0⟩).mailbox = [] := by
  intro ms c steps
  have hm : c.mailbox = [] := by decide +kernel
  obtain ⟨hbound, hsteps, -, -, hmailbox, -⟩ :=
    loop_comes_to_rest (ms.map Act.push ++ [.receive]) ⟨0⟩ hm
  obtain ⟨hfire, -, htakes⟩ := hbound steps hsteps
  have hsplit : steps = [.wait 0] ++ .fire ::
      [.receive, .wait 0, .fire, .receive, .wait 0, .fire, .wait 0] := by decide +kernel
  obtain ⟨m, hb, -⟩ := htakes _ _ hsplit (by decide)
  exact ⟨hm, by decide +kernel, by decide +kernel, hfire, ⟨m, hb⟩, hmailbox⟩

end Center

end PanelClient
