import PanelClient.Proofs.Notification.Dismissal
import PanelClient.Render

/-!
# Draining a queue

Who reports the timer of the message on screen gets the timer of the next message, reports that one in
its turn, and goes on until no timer comes back. Each report takes one message off the backlog, so that
this comes to an end, and what has been on screen by then is what a snapshot announced at the start.

* `Queue.showing` : the queue of which some messages are left, the first of them on screen.
  `Queue.consume_fst` : every dismissal leads to such a queue;
* `Queue.reports` : the calls of who reports one timer after the other;
* `Queue.stages` : the queues on the way. Reports and dismissals meet the same ones
  (`Queue.reports_lastId`, `Queue.calls_replicate_consume`);
* `Queue.numbered` : messages under consecutive numbers;
* `Queue.draining_shows_snapshot` : what is shown on the way, the timers, and where it ends.
-/

namespace PanelClient

namespace Queue

/-- The queue that has given out `n` numbers and of which some messages are left: the first of them is
on screen, the others wait. -/
def showing (n : Nat) : List Message → Queue
  | [] => ⟨[], none, n, true⟩
  | m :: ms => ⟨ms, some ⟨n + 1, m⟩, n + 1, false⟩

/-- The queues on the way until none of some messages is left. -/
def stages (n : Nat) : List Message → List Queue
  | [] => []
  | m :: ms => showing n (m :: ms) :: stages (n + 1) ms

/-- Messages under the numbers from `id` on. -/
def numbered (id : Nat) : List Message → List Shown
  | [] => []
  | m :: ms => ⟨id, m⟩ :: numbered (id + 1) ms

variable {q : Queue} {n : Nat} {m : Message} {ms : List Message}

/-! ### One dismissal -/

theorem consume_fst (q : Queue) : q.consume.1 = showing q.lastId q.backlog := by
  cases h : q.backlog <;> simp [consume, display, showing, h]

theorem consume_snd (q : Queue) :
    q.consume.2 = q.backlog.head?.map fun m => ⟨q.lastId + 1, m.duration⟩ := by
  cases h : q.backlog <;> simp [consume, display, h]

theorem showing_consistent (n : Nat) (ms : List Message) : (showing n ms).Consistent := by
  cases ms <;> exact ⟨by simp [showing], by simp [showing], by simp [showing]⟩

/-- An idle queue has nothing left. -/
theorem Consistent.eq_showing_nil (hq : q.Consistent) (hi : q.idle = true) :
    q = showing q.lastId [] := by
  have hb := hq.backlog_eq_nil hi
  have hc := hq.idle_iff.1 hi
  obtain ⟨backlog, current, lastId, idle⟩ := q
  subst hb hc hi
  rfl

/-- A pushed message is the last one that is left. -/
theorem push_showing (n : Nat) (ms : List Message) (m : Message) :
    (showing n ms).push m = (showing n (ms ++ [m]),
      if ms = [] then some ⟨n + 1, m.duration⟩ else none) := by
  cases ms <;> simp [push, display, showing]

/-- No timer changes anything when nothing is left. -/
theorem elapsed_showing_nil (n id : Nat) : (showing n []).elapsed id = (showing n [], none) :=
  (showing_consistent n []).elapsed_of_not_current nofun

/-- The timer of the message on screen leads on to the next one. -/
theorem elapsed_showing_cons (n : Nat) (m : Message) (ms : List Message) :
    (showing n (m :: ms)).elapsed (n + 1) =
      (showing (n + 1) ms, ms.head?.map fun m => ⟨n + 2, m.duration⟩) := by
  have hid : n + 1 = (showing n (m :: ms)).lastId := rfl
  rw [hid, elapsed_lastId]
  exact Prod.ext (consume_fst _) (consume_snd _)

/-! ### Reporting one timer after the other -/

/-- A report that is answered by a timer takes a message off the backlog. -/
theorem elapsed_backlog_lt {id : Nat} {t : Timer} (h : (q.elapsed id).2 = some t) :
    (q.elapsed id).1.backlog.length < q.backlog.length := by
  rcases q.elapsed_cases id with ⟨m, hb, -, -⟩ | ⟨-, hnone⟩
  · rw [hb]
    exact Nat.lt_succ_self _
  · cases hnone.symm.trans h

/-- The calls of who reports the timer of `id`, then the timer that is handed out for it, and so on
until none is. -/
def reports (q : Queue) (id : Nat) : List Call :=
  ⟨q, .elapsed id⟩ ::
    match _h : (q.elapsed id).2 with
    | some t => (q.elapsed id).1.reports t.id
    | none => []
termination_by q.backlog.length
decreasing_by exact elapsed_backlog_lt _h

theorem reports_of_none {id : Nat} (h : (q.elapsed id).2 = none) :
    q.reports id = [⟨q, .elapsed id⟩] := by
  rw [reports]
  split
  · simp_all
  · rfl

theorem reports_of_some {id : Nat} {t : Timer} (h : (q.elapsed id).2 = some t) :
    q.reports id = ⟨q, .elapsed id⟩ :: (q.elapsed id).1.reports t.id := by
  rw [reports]
  split
  · simp_all
  · simp_all

/-- Who reports the latest timer makes the way through the stages. -/
theorem reports_lastId (q : Queue) :
    q.reports q.lastId = (q :: stages q.lastId q.backlog).map fun p => ⟨p, .elapsed p.lastId⟩ := by
  induction hb : q.backlog generalizing q with
  | nil =>
    refine reports_of_none ?_
    rw [elapsed_lastId, consume_snd, hb, List.head?_nil, Option.map_none]
  | cons m ms ih =>
    have htimer : (q.elapsed q.lastId).2 = some ⟨q.lastId + 1, m.duration⟩ := by
      rw [elapsed_lastId, consume_snd, hb, List.head?_cons, Option.map_some]
    rw [reports_of_some htimer, elapsed_lastId, consume_fst, hb]
    exact congrArg (_ :: ·) (ih (showing q.lastId (m :: ms)) rfl)

/-- Who dismisses one message after the other makes the same way. -/
theorem calls_replicate_consume (q : Queue) :
    q.calls (List.replicate (q.backlog.length + 1) .consume) =
      (q :: stages q.lastId q.backlog).map fun p => ⟨p, .consume⟩ := by
  induction hb : q.backlog generalizing q with
  | nil => rfl
  | cons m ms ih =>
    have hstep : (q.step .consume).1 = showing q.lastId (m :: ms) := by
      rw [step, consume_fst, hb]
    rw [List.length_cons, List.replicate_succ, calls, hstep, ih _ rfl]
    rfl

/-- Dismissing them all leaves nothing. -/
theorem run_replicate_consume (q : Queue) :
    q.run (List.replicate (q.backlog.length + 1) .consume) =
      showing (q.lastId + q.backlog.length) [] := by
  induction hb : q.backlog generalizing q with
  | nil =>
    rw [List.length_nil, List.replicate_succ, run_cons, step, consume_fst, hb]
    rfl
  | cons m ms ih =>
    have hstep : (q.step .consume).1 = showing q.lastId (m :: ms) := by
      rw [step, consume_fst, hb]
    have hsum : q.lastId + 1 + ms.length = q.lastId + (m :: ms).length := by
      rw [List.length_cons]
      omega
    rw [List.length_cons, List.replicate_succ, run_cons, hstep, ih _ rfl, ← List.length_cons, ← hsum]
    rfl

/-- Reports are calls of one run. -/
theorem calls_reports (q : Queue) (id : Nat) :
    q.calls ((q.reports id).map (·.op)) = q.reports id := by
  cases h : (q.elapsed id).2 with
  | none =>
    rw [reports_of_none h]
    rfl
  | some t =>
    rw [reports_of_some h, List.map_cons, calls]
    exact congrArg (_ :: ·) (calls_reports (q.elapsed id).1 t.id)
termination_by q.backlog.length
decreasing_by exact elapsed_backlog_lt h

/-- A run ends where its last call does. -/
theorem run_eq_getLast (q : Queue) (ops : List Op) :
    q.run ops = ((q.calls ops).map Call.after).getLast?.getD q := by
  induction ops generalizing q with
  | nil => rfl
  | cons op ops ih =>
    rw [run_cons, ih, calls, List.map_cons, List.getLast?_cons]
    rfl

/-- Reporting one timer after the other leaves nothing either. -/
theorem run_reports (q : Queue) :
    q.run ((q.reports q.lastId).map (·.op)) = showing (q.lastId + q.backlog.length) [] := by
  have hafter : ∀ p : Queue, Call.after ⟨p, .elapsed p.lastId⟩ = Call.after ⟨p, .consume⟩ := by
    intro p
    simp only [Call.after, step, elapsed_lastId]
  rw [← run_replicate_consume, run_eq_getLast, run_eq_getLast, calls_reports, reports_lastId,
    calls_replicate_consume, List.map_map, List.map_map]
  simp only [Function.comp_def, hafter]

/-! ### What is seen on the way -/

/-- What is on screen when calls are made. -/
def displayed (cs : List Call) : List Shown := cs.filterMap (·.before.current)

theorem displayed_map (ps : List Queue) (op : Queue → Op) :
    displayed (ps.map fun p => ⟨p, op p⟩) = ps.filterMap current := by
  rw [displayed, List.filterMap_map]
  rfl

theorem length_stages (n : Nat) (ms : List Message) : (stages n ms).length = ms.length := by
  induction ms generalizing n with
  | nil => rfl
  | cons m ms ih => rw [stages, List.length_cons, List.length_cons, ih]

theorem filterMap_current_stages (n : Nat) (ms : List Message) :
    (stages n ms).filterMap current = numbered (n + 1) ms := by
  induction ms generalizing n with
  | nil => rfl
  | cons m ms ih =>
    have hcurrent : (showing n (m :: ms)).current = some ⟨n + 1, m⟩ := rfl
    rw [stages, numbered, List.filterMap_cons_some hcurrent, ih]

/-- Each report is answered by the timer of the message that it brings on screen. -/
theorem timers_stages (q : Queue) :
    (q :: stages q.lastId q.backlog).map (fun p => (p.elapsed p.lastId).2) =
      (numbered (q.lastId + 1) q.backlog).map (fun s => some s.timer) ++ [none] := by
  induction hb : q.backlog generalizing q with
  | nil => simp [stages, numbered, elapsed_lastId, consume_snd, hb]
  | cons m ms ih =>
    have htimer : (q.elapsed q.lastId).2 = some ⟨q.lastId + 1, m.duration⟩ := by
      rw [elapsed_lastId, consume_snd, hb]
      rfl
    rw [stages, numbered, List.map_cons, htimer]
    exact congrArg (_ :: ·) (ih (showing q.lastId (m :: ms)) rfl)

theorem map_numbered {β : Type} (f : Message → β) (id : Nat) (ms : List Message) :
    (numbered id ms).map (fun s => f s.message) = ms.map f := by
  induction ms generalizing id with
  | nil => rfl
  | cons m ms ih => rw [numbered, List.map_cons, List.map_cons, ih]

/-- **Draining shows what the snapshot announced.** Take any queue that a run reaches with a message on
screen, and report its timer, then the timer handed out for that, and so on. With the first report more
than messages wait no timer is handed out. On the way the messages of the snapshot are on screen in
their order, under consecutive numbers from the first on; each report is answered by the timer of the
message that it brings on screen; and the queue that is left is idle, with nothing on screen and nothing
waiting. So the lines of the snapshot are those of the messages in the order in which they are
displayed. As many dismissals meet the same queues on the way and leave the same one. -/
theorem draining_shows_snapshot (ops : List Op) (color : Bool) (s : Shown)
    (hs : (empty.run ops).current = some s) :
    let q := empty.run ops
    let reported := q.reports s.id
    let dismissals := List.replicate (q.backlog.length + 1) Op.consume
    q.calls (reported.map (·.op)) = reported ∧
    reported.length = q.backlog.length + 1 ∧
    displayed reported = numbered s.id q.snapshot.messages ∧
    reported.map (·.timer) =
      (numbered (s.id + 1) q.backlog).map (fun s => some s.timer) ++ [none] ∧
    q.run (reported.map (·.op)) = ⟨[], none, s.id + q.backlog.length, true⟩ ∧
    q.snapshot.lines color = (displayed reported).map (fun s => s.message.line color) ∧
    (q.calls dismissals).map (·.before) = reported.map (·.before) ∧
    q.run dismissals = ⟨[], none, s.id + q.backlog.length, true⟩ := by
  intro q reported dismissals
  have hid : s.id = q.lastId := (run_consistent ops).id_eq s hs
  have hlatest : reported = q.reports q.lastId := congrArg q.reports hid
  have hreported : reported =
      (q :: stages q.lastId q.backlog).map fun p => ⟨p, .elapsed p.lastId⟩ := by
    rw [hlatest, reports_lastId]
  have hmessages : q.snapshot.messages = s.message :: q.backlog := by
    simp [snapshot, Snapshot.messages, q, hs]
  have hdisplayed : displayed reported = numbered s.id q.snapshot.messages := by
    rw [hreported, displayed_map, List.filterMap_cons_some hs, filterMap_current_stages, hmessages,
      numbered, ← hid]
  refine ⟨calls_reports q s.id, ?_, hdisplayed, ?_, ?_, ?_, ?_, ?_⟩
  · rw [hreported, List.length_map, List.length_cons, length_stages]
  · rw [hreported, List.map_map, hid, ← timers_stages]
    rfl
  · rw [hlatest, run_reports, hid]
    rfl
  · rw [hdisplayed, map_numbered]
    rfl
  · rw [calls_replicate_consume, hreported, List.map_map, List.map_map]
    rfl
  · rw [hid, run_replicate_consume]
    rfl

/-- Two messages, of which the second waits. -/
theorem draining_shows_snapshot_of_two :
    let ops := [Op.push (.notify "a"), .push (.notifyFast "b")]
    (empty.run ops).current = some ⟨1, .notify "a"⟩ ∧
      displayed ((empty.run ops).reports 1) = [⟨1, .notify "a"⟩, ⟨2, .notifyFast "b"⟩] ∧
      (empty.run ops).snapshot.lines false = ["[info] a", "[info] b"] := by
  intro ops
  have hs : (empty.run ops).current = some ⟨1, .notify "a"⟩ := rfl
  obtain ⟨-, -, hdisplayed, -, -, hlines, -⟩ := draining_shows_snapshot ops false ⟨1, .notify "a"⟩ hs
  refine ⟨hs, hdisplayed, ?_⟩
  rw [hlines, hdisplayed]
  decide +kernel

end Queue

end PanelClient
