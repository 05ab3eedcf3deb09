import PanelClient.Proofs.Notification.History

/-!
# Delivery in order

The queue is a first-in first-out channel with a way past it: pushed messages come on screen in the
order in which they were pushed, each once and none lost, and an urgent message comes on screen at
its own call. `Queue.delivery` says so for every run from the empty queue, with the timers that the
run hands out; it is assembled from

* `Queue.conservation` : what was waiting and was pushed is what was shown in turn and is waiting
  still;
* `Queue.ids_timers` : the timers of a run continue the numbering.
-/

namespace PanelClient

namespace Queue

variable {q : Queue}

/-- The messages that came on screen in their turn: not by an urgent call. -/
def shownInTurn (cs : List Call) : List Message :=
  (cs.filter fun c => !c.op.isUrgent).flatMap Call.messages

theorem shownInTurn_cons (c : Call) (cs : List Call) :
    shownInTurn (c :: cs) = (if c.op.isUrgent then [] else c.messages) ++ shownInTurn cs := by
  cases h : c.op.isUrgent <;> simp [shownInTurn, h]

/-- One call neither loses nor doubles a message that waits. -/
theorem Call.conservation {c : Call} (hc : c.before.Consistent) :
    c.before.backlog ++ c.op.pushed =
      (if c.op.isUrgent then [] else c.messages) ++ c.after.backlog := by
  rcases shown_cases hc with ⟨m, hs, -, -, -, h⟩ | ⟨hs, -, -, -, hu, hb⟩
  · rcases h with ⟨hop, hb⟩ | ⟨hu, hb⟩
    · simp [hop, Op.isUrgent, Op.pushed, hb]
    · simp [hu, hb, messages, hs]
  · simp [hu, hb, messages, hs]

/-- **Nothing that waits is lost or doubled.** -/
theorem conservation (hq : q.Consistent) (ops : List Op) :
    q.backlog ++ ops.flatMap Op.pushed = shownInTurn (q.calls ops) ++ (q.run ops).backlog := by
  induction ops generalizing q with
  | nil => simp [calls, shownInTurn]
  | cons op ops ih =>
    have ht := Call.conservation (c := ⟨q, op⟩) hq
    calc q.backlog ++ (op :: ops).flatMap Op.pushed
        = (q.backlog ++ op.pushed) ++ ops.flatMap Op.pushed := by simp
      _ = (if op.isUrgent then [] else Call.messages ⟨q, op⟩) ++
            ((q.step op).1.backlog ++ ops.flatMap Op.pushed) := by
          rw [ht, List.append_assoc]; rfl
      _ = shownInTurn (q.calls (op :: ops)) ++ (q.run (op :: ops)).backlog := by
          rw [ih (hq.step op), calls, shownInTurn_cons, List.append_assoc, run_cons]

/-- The timers of a run continue the numbering without a gap. -/
theorem ids_timers (hq : q.Consistent) (ops : List Op) :
    List.range' 1 q.lastId ++ ((q.calls ops).filterMap Call.timer).map (·.id) =
      List.range' 1 (q.run ops).lastId := by
  induction ops generalizing q with
  | nil => simp [calls]
  | cons op ops ih =>
    rw [run_cons, ← ih (hq.step op), calls, List.filterMap_cons]
    rcases Call.shown_cases (c := ⟨q, op⟩) hq with ⟨m, -, ht, hid, -⟩ | ⟨-, ht, hid, -⟩
    · rw [ht]
      change _ = List.range' 1 (Call.after ⟨q, op⟩).lastId ++ _
      rw [hid, List.range'_concat]
      simp [Nat.add_comm]
    · rw [ht]
      change _ = List.range' 1 (Call.after ⟨q, op⟩).lastId ++ _
      rw [hid]

/-- **Messages are delivered in order, none lost and none doubled.** In every run from the empty
queue the pushed messages are those shown in turn followed by those that wait; an urgent message is
shown by its own call and leaves the backlog alone; what has left the screen does not come back; and
the timers are one for each message shown, with its duration, numbered from one without a gap. -/
theorem delivery (ops : List Op) :
    ops.flatMap Op.pushed = shownInTurn (empty.calls ops) ++ (empty.run ops).backlog ∧
    (∀ c ∈ empty.calls ops, ∀ m, c.op = .urgent m →
      c.messages = [m] ∧ c.after.backlog = c.before.backlog) ∧
    (∀ before mid rest s, ops = before ++ mid ++ rest → (empty.run before).current = some s →
      (empty.run (before ++ mid)).current ≠ some s → (empty.run ops).current ≠ some s) ∧
    (∀ c ∈ empty.calls ops, c.timer = c.shown.map Shown.timer) ∧
    ((empty.calls ops).filterMap Call.timer).map (·.id) = List.range' 1 (empty.run ops).lastId := by
  refine ⟨?_, ?_, ?_, ?_, ?_⟩
  · simpa [empty] using conservation empty_consistent ops
  · intro c hc m hop
    have hu : c.op.isUrgent = true := by simp [hop, Op.isUrgent]
    rcases Call.shown_cases (empty_consistent.of_mem_calls hc) with
      ⟨m', hs, -, -, -, ⟨hop', hb⟩ | ⟨hu', -⟩⟩ | ⟨-, -, -, -, hu', -⟩
    · rw [hop, Op.urgent.injEq] at hop'
      exact ⟨by simp [Call.messages, hs, hop'], hb⟩
    · simp [hu] at hu'
    · simp [hu] at hu'
  · rintro before mid rest s rfl hs hns
    have hpast : (empty.run (before ++ mid)).Past s.id := by
      rw [run_append] at hns ⊢
      exact ((run_consistent before).run_stays_or_past hs mid).resolve_left hns
    rw [run_append]
    exact fun h => (hpast.run (run_consistent _) rest).2 s h rfl
  · intro c hc
    rcases Call.shown_cases (empty_consistent.of_mem_calls hc) with ⟨m, hs, ht, -⟩ | ⟨hs, ht, -⟩ <;>
      rw [hs, ht] <;> rfl
  · simpa [empty] using ids_timers empty_consistent ops

end Queue

end PanelClient
