import PanelClient.Proofs.Notification.History

/-!
# A timer dismisses its own message

The queue compares the number of an elapsed timer with the latest one, not with what is on screen.
In every queue that a run reaches the two come to the same:

* `Queue.Consistent.elapsed_of_current` : the timer of the message on screen dismisses it;
* `Queue.Consistent.elapsed_of_not_current` : any other number changes nothing, the latest one
  included once its message has been dismissed by hand;
* `Queue.timer_dismisses_own` : so a timer, reported as often as one likes and whenever one likes,
  has an effect once at most, and only while its message is on screen.
-/

namespace PanelClient

namespace Queue

variable {q : Queue}

theorem Consistent.elapsed_of_current (hq : q.Consistent) {s : Shown} (hs : q.current = some s) :
    q.elapsed s.id = q.consume := by
  rw [hq.id_eq s hs, elapsed_lastId]

theorem Consistent.elapsed_of_not_current (hq : q.Consistent) {id : Nat}
    (h : ∀ s, q.current = some s → s.id ≠ id) : q.elapsed id = (q, none) := by
  by_cases hid : id = q.lastId
  · -- the latest number, and its message is gone: the queue is idle and a dismissal finds nothing
    have hc : q.current = none := by
      cases hs : q.current with
      | none => rfl
      | some s => exact absurd ((hq.id_eq s hs).trans hid.symm) (h s hs)
    have hi : q.idle = true := hq.idle_iff.2 hc
    have hb : q.backlog = [] := hq.backlog_eq_nil hi
    obtain ⟨backlog, current, lastId, idle⟩ := q
    subst hid hc hi hb
    rw [elapsed_lastId]
    rfl
  · exact elapsed_of_ne hid

/-- The calls that report the timer of `id` and change the queue. -/
def dismissals (id : Nat) (cs : List Call) : List Call :=
  cs.filter fun c => c.op = .elapsed id ∧ c.after ≠ c.before

theorem dismissals_cons_of_ne {id : Nat} {c : Call} (h : c.op ≠ .elapsed id) (cs : List Call) :
    dismissals id (c :: cs) = dismissals id cs :=
  List.filter_cons_of_neg (by simp [h])

theorem dismissals_cons_sublist (id : Nat) (c : Call) (cs : List Call)
    (h : dismissals id cs = []) : (dismissals id (c :: cs)).Sublist [c] := by
  rw [dismissals, List.filter_cons, ← dismissals, h]
  split
  · exact List.Sublist.refl _
  · exact List.nil_sublist _

/-- The timer of a message that is past changes nothing any more. -/
theorem dismissals_of_past {id : Nat} (hq : q.Consistent) (h : q.Past id) (ops : List Op) :
    dismissals id (q.calls ops) = [] := by
  rw [dismissals, List.filter_eq_nil_iff]
  intro c hc
  obtain ⟨before, rest, -, hb⟩ := mem_calls.1 hc
  have hpast : c.before.Past id := hb ▸ h.run hq before
  have hsame : c.op = .elapsed id → c.after = c.before := by
    intro hop
    simp only [Call.after, hop, step, (hq.of_mem_calls hc).elapsed_of_not_current hpast.2]
  simpa using hsame

/-- The timer of the message on screen takes effect once at most, and on that message. -/
theorem dismissals_of_current {s : Shown} (hq : q.Consistent) (hs : q.current = some s)
    (ops : List Op) :
    (dismissals s.id (q.calls ops)).length ≤ 1 ∧
      ∀ c ∈ dismissals s.id (q.calls ops), c.before.current = some s := by
  -- the message stays on screen up to the first call that takes it off
  induction ops generalizing q with
  | nil => simp [calls, dismissals]
  | cons op ops ih =>
    rw [calls]
    by_cases hop : op = .elapsed s.id
    · -- the timer dismisses the message here, and later reports of it find the message past
      have hpast : (q.step op).1.Past s.id := by
        rw [hop, step, hq.elapsed_of_current hs]
        exact hq.past_consume hs
      have hsub := dismissals_cons_sublist s.id ⟨q, op⟩ _ (dismissals_of_past (hq.step op) hpast ops)
      refine ⟨hsub.length_le, fun c hc => ?_⟩
      rw [List.mem_singleton.1 (hsub.subset hc)]
      exact hs
    · rw [dismissals_cons_of_ne hop]
      rcases hq.stays_or_past hs op with hstay | hpast
      · exact ih (hq.step op) hstay
      · simp [dismissals_of_past (hq.step op) hpast ops]

/-- **A timer can only dismiss the message that it was handed out for.** In every queue that a run
reaches, the timer of the message on screen does what a dismissal does and any other number does
nothing; and a timer that some operation has handed out belongs to the message that this operation
has put on screen, changes the queue once at most however often it is reported in whatever follows,
and does so only while that message is on screen. -/
theorem timer_dismisses_own (ops : List Op) :
    (∀ s, (empty.run ops).current = some s →
      (empty.run ops).elapsed s.id = (empty.run ops).consume) ∧
    (∀ id, (∀ s, (empty.run ops).current = some s → s.id ≠ id) →
      (empty.run ops).elapsed id = (empty.run ops, none)) ∧
    ∀ op t, ((empty.run ops).step op).2 = some t →
      ∃ s, ((empty.run ops).step op).1.current = some s ∧ t = s.timer ∧
        ∀ later, let fired := dismissals t.id (((empty.run ops).step op).1.calls later)
          fired.length ≤ 1 ∧ ∀ c ∈ fired, c.before.current = some s := by
  have hq := run_consistent ops
  refine ⟨fun s hs => hq.elapsed_of_current hs, fun id h => hq.elapsed_of_not_current h, ?_⟩
  intro op t ht
  rcases Call.shown_cases (c := ⟨_, op⟩) hq with ⟨m, -, htm, -, hc, -⟩ | ⟨-, htm, -⟩
  · obtain rfl : t = Shown.timer ⟨(empty.run ops).lastId + 1, m⟩ :=
      Option.some.inj (ht.symm.trans htm)
    exact ⟨_, hc, rfl, dismissals_of_current (hq.step op) hc⟩
  · exact absurd (ht.symm.trans htm) (Option.some_ne_none t)

end Queue

end PanelClient
