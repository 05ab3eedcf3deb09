import PanelClient.Notification.Message
/-!
# The notification queue

One message is on screen at a time, the others wait in a backlog. The queue knows no time: showing
a message yields the timer that the caller has to run, and the caller reports a timer that has run
out. Messages on screen are numbered, and only the timer of the latest number counts.

* `Queue`: backlog, screen and the latest number;
* `Queue.push`, `Queue.urgent`, `Queue.consume`, `Queue.elapsed`: the operations, with the timer to
  run;
* `Queue.snapshot`: what can be seen of a queue.
-/

namespace PanelClient

/-- A message on screen, with the number under which it is shown. -/
structure Shown where
  id : Nat
  message : Message
  deriving DecidableEq, Repr, Inhabited

/-- The demand to report, after a time, that the message shown under `id` has run out. -/
structure Timer where
  id : Nat
  duration : Duration
  deriving DecidableEq, Repr, Inhabited

/-- Messages that wait, and the one on screen. -/
structure Queue where
  /-- The messages that wait, the next one first. -/
  backlog : List Message
  /-- The message on screen. -/
  current : Option Shown
  /-- The number of the message shown last; numbers start at one. -/
  lastId : Nat
  /-- The next pushed message is shown at once. -/
  idle : Bool
  deriving DecidableEq, Repr

namespace Queue

/-- The queue without messages. -/
def empty : Queue := ⟨[], none, 0, true⟩

instance : Inhabited Queue := ⟨empty⟩

/-- Puts a message on screen under the next number. -/
def display (q : Queue) (m : Message) : Queue × Timer :=
  ({ q with current := some ⟨q.lastId + 1, m⟩, lastId := q.lastId + 1, idle := false },
    ⟨q.lastId + 1, m.duration⟩)

/-- Shows a message when nothing is pending, and lets it wait otherwise. -/
def push (q : Queue) (m : Message) : Queue × Option Timer :=
  if q.idle then
    let (q, t) := q.display m
    (q, some t)
  else ({ q with backlog := q.backlog ++ [m] }, none)

/-- Shows a message at once in place of the one on screen; the backlog stays as it is. -/
def urgent (q : Queue) (m : Message) : Queue × Option Timer :=
  let (q, t) := q.display m
  (q, some t)

/-- Takes the message off the screen and shows the next one that waits. -/
def consume (q : Queue) : Queue × Option Timer :=
  let q := { q with current := none }
  match q.backlog with
  | m :: ms =>
    let (q, t) := { q with backlog := ms }.display m
    (q, some t)
  | [] => ({ q with idle := true }, none)

/-- Reports that the timer of `id` has run out; only the latest one counts. -/
def elapsed (q : Queue) (id : Nat) : Queue × Option Timer :=
  if id = q.lastId then { q with idle := true }.consume else (q, none)

/-- What can be seen of a queue at one moment. -/
structure Snapshot where
  current : Option Shown
  backlog : List Message
  deriving DecidableEq, Repr, Inhabited

/-- What can be seen of the queue now. -/
def snapshot (q : Queue) : Snapshot := ⟨q.current, q.backlog⟩

end Queue

end PanelClient
