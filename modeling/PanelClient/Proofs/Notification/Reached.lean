import PanelClient.Proofs.Notification.Draining

/-!
# The queues that there are

A queue has four fields, of which every operation changes some, and most values of the four make no
sense together: messages that wait behind an empty screen would wait for ever. No run from the empty
queue comes to such a queue, and to all others some run comes.

* `Queue.exists_run_iff` : which queues are reached. They are those of the form `Queue.showing`,
  that is, the consistent ones in which what is on screen has a number;
* `Queue.idle_decides` : what this means for who uses a queue.
-/

namespace PanelClient

namespace Queue

variable {q : Queue}

/-! ### Which queues are reached -/

/-- What is left when an urgent message comes in between. -/
theorem urgent_fst (q : Queue) (m : Message) :
    (q.urgent m).1 = showing q.lastId (m :: q.backlog) := rfl

/-- Every operation leaves a queue of which some messages are left, if it meets one. -/
theorem step_showing (n : Nat) (ms : List Message) (op : Op) :
    ∃ n' ms', ((showing n ms).step op).1 = showing n' ms' := by
  cases op with
  | push m => exact ⟨n, ms ++ [m], by rw [step, push_showing]⟩
  | urgent m => exact ⟨_, _, urgent_fst _ m⟩
  | consume => exact ⟨_, _, consume_fst _⟩
  | elapsed id =>
    by_cases hid : id = (showing n ms).lastId
    · exact ⟨_, _, by rw [step, hid, elapsed_lastId, consume_fst]⟩
    · exact ⟨n, ms, by rw [step, elapsed_of_ne hid]⟩

theorem run_showing (n : Nat) (ms : List Message) (ops : List Op) :
    ∃ n' ms', (showing n ms).run ops = showing n' ms' := by
  induction ops generalizing n ms with
  | nil => exact ⟨n, ms, rfl⟩
  | cons op ops ih =>
    obtain ⟨n', ms', hstep⟩ := step_showing n ms op
    rw [run_cons, hstep]
    exact ih n' ms'

/-- Urgent messages use up numbers and leave the backlog alone. -/
theorem run_replicate_urgent (q : Queue) (m : Message) (n : Nat) :
    (q.run (List.replicate n (.urgent m))).lastId = q.lastId + n ∧
      (q.run (List.replicate n (.urgent m))).backlog = q.backlog := by
  induction n generalizing q with
  | zero => exact ⟨rfl, rfl⟩
  | succ n ih =>
    obtain ⟨hid, hbacklog⟩ := ih (q.step (.urgent m)).1
    rw [List.replicate_succ, run_cons, hid, hbacklog]
    exact ⟨by simp only [step, urgent, display]; omega, rfl⟩

theorem run_push_showing (n : Nat) (ms ms' : List Message) :
    (showing n ms).run (ms'.map .push) = showing n (ms ++ ms') := by
  induction ms' generalizing ms with
  | nil => simp
  | cons m ms' ih => rw [List.map_cons, run_cons, step, push_showing, ih, List.append_assoc]; rfl

/-- With as many urgent messages as there are numbers to use up, a dismissal, and the pushes of what
is to be left, one gets everywhere. -/
theorem exists_run_showing (n : Nat) (ms : List Message) : ∃ ops, empty.run ops = showing n ms := by
  refine ⟨List.replicate n (.urgent default) ++ [.consume] ++ ms.map .push, ?_⟩
  obtain ⟨hid, hbacklog⟩ := run_replicate_urgent empty default n
  rw [run_append, run_append, run_cons, run_nil, step, consume_fst, hid, hbacklog]
  have hn : empty.lastId + n = n := Nat.zero_add n
  rw [hn]
  exact run_push_showing n [] ms

/-- A consistent queue is one of which some messages are left, unless something is on screen without
a number. -/
theorem Consistent.exists_eq_showing (hq : q.Consistent) (hn : q.current ≠ none → q.lastId ≠ 0) :
    ∃ n ms, q = showing n ms := by
  obtain ⟨backlog, current, lastId, idle⟩ := q
  cases current with
  | none => exact ⟨_, _, hq.eq_showing_nil (hq.idle_iff.2 rfl)⟩
  | some s =>
    obtain ⟨n, rfl⟩ := Nat.exists_eq_succ_of_ne_zero (hn nofun)
    have hidle : idle = false := Bool.eq_false_iff.2 fun h => nomatch hq.idle_iff.1 h
    obtain ⟨id, m⟩ := s
    obtain rfl : id = n + 1 := hq.id_eq _ rfl
    exact ⟨n, m :: backlog, by rw [hidle]; rfl⟩

/-- **Which queues are reached.** The invariant leaves out nothing: the queues that runs from the
empty one lead to are the consistent ones, save that number zero is nobody's. -/
theorem exists_run_iff :
    (∃ ops, empty.run ops = q) ↔ q.Consistent ∧ (q.current ≠ none → q.lastId ≠ 0) := by
  constructor
  · rintro ⟨ops, rfl⟩
    refine ⟨run_consistent ops, ?_⟩
    obtain ⟨n, ms, h⟩ : ∃ n ms, empty.run ops = showing n ms := run_showing 0 [] ops
    rw [h]
    cases ms with
    | nil => exact fun hc => absurd rfl hc
    | cons m ms => exact fun _ => Nat.succ_ne_zero n
  · rintro ⟨hq, hn⟩
    obtain ⟨n, ms, rfl⟩ := hq.exists_eq_showing hn
    exact exists_run_showing n ms

/-! ### What follows -/

theorem Consistent.backlog_waits (hq : q.Consistent) (hb : q.backlog ≠ []) : q.current ≠ none :=
  fun hc => hb (hq.backlog_eq_nil (hq.idle_iff.2 hc))

theorem Consistent.consume_of_idle (hq : q.Consistent) (hi : q.idle = true) :
    q.consume = (q, none) := by
  rw [hq.eq_showing_nil hi]
  rfl

theorem push_of_idle (hi : q.idle = true) (m : Message) :
    (q.push m).1.current = some ⟨q.lastId + 1, m⟩ ∧ (q.push m).1.backlog = q.backlog := by
  rw [push, if_pos hi]
  exact ⟨rfl, rfl⟩

theorem push_of_not_idle (hi : q.idle = false) (m : Message) :
    (q.push m).1.current = q.current ∧ (q.push m).1.backlog = q.backlog ++ [m] := by
  rw [push, if_neg (by simp [hi])]
  exact ⟨rfl, rfl⟩

/-- **Whether a queue is idle decides everything.** In every queue that a run from the empty one
leads to, it is idle just if the screen is empty, then nothing waits, and what is on screen has the
latest number. So a pushed message comes on screen if the queue is idle, and waits at the end of the
backlog if it is not; what waits, waits behind a message on screen; and to dismiss a message of an
idle queue does nothing. -/
theorem idle_decides (ops : List Op) :
    let q := empty.run ops
    ((q.idle = true ↔ q.current = none) ∧ (q.idle = true → q.backlog = []) ∧
      ∀ s, q.current = some s → s.id = q.lastId) ∧
    (∀ m, if q.idle then (q.push m).1.current = some ⟨q.lastId + 1, m⟩ ∧ (q.push m).1.backlog = []
      else (q.push m).1.current = q.current ∧ (q.push m).1.backlog = q.backlog ++ [m]) ∧
    (q.backlog ≠ [] → q.current ≠ none) ∧
    (q.idle = true → q.consume = (q, none)) := by
  intro q
  have hq : q.Consistent := run_consistent ops
  refine ⟨⟨hq.idle_iff, hq.backlog_eq_nil, hq.id_eq⟩, fun m => ?_, hq.backlog_waits,
    hq.consume_of_idle⟩
  cases hi : q.idle with
  | true =>
    obtain ⟨hcurrent, hbacklog⟩ := push_of_idle hi m
    exact ⟨hcurrent, hbacklog.trans (hq.backlog_eq_nil hi)⟩
  | false => exact push_of_not_idle hi m

end Queue

end PanelClient
