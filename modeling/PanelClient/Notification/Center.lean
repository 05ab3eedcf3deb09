import PanelClient.Notification.Queue
/-!
# The notification center

The center runs the timers of a queue. Its operations send each timer, with the deadline fixed at
that moment, to a loop; the loop keeps the one timer it has received last, sleeps until its deadline and
then reports it to the queue. Receivers are told when the message on screen changes.

* `Center`: the queue, the clock, the loop with its mailbox, and the receivers;
* `Center.receive`, `Center.fire`: the two steps of the loop;
* `Center.advanceOn`: moves the clock and fires every timer that comes due, when the sleep until its
  deadline ends;
* `Center.Op`, `Center.stepOn`: everything that can be asked of a center, and what is observed.

The loop leaves its sleep to the runtime, whose timers go by a grain: a sleep ends at the first whole
millisecond that is not before the deadline, and a message that comes on screen then starts to run at
that moment. So the end of a sleep is a parameter, `wake`, of `Center.advanceOn`, `Center.stepOn` and
`Center.runOn`. `Center.advance`, `Center.step` and `Center.run` are what they are on an exact timer,
where every sleep ends at its deadline.
-/

namespace PanelClient

/-- A timer with its deadline. -/
structure ArmedTimer where
  id : Nat
  /-- The moment at which it fires, in nanoseconds. -/
  deadline : Nat
  deriving DecidableEq, Repr, Inhabited

/-- A queue with running timers and receivers. -/
structure Center where
  queue : Queue
  /-- Nanoseconds since the start. -/
  clock : Nat
  /-- Timers sent to the loop and not yet received, the oldest first. -/
  mailbox : List ArmedTimer
  /-- The timer that the loop keeps. -/
  armed : Option ArmedTimer
  /-- The loop runs. -/
  running : Bool
  /-- The message on screen as told to receivers. -/
  published : Option Shown
  /-- How often `published` has changed. -/
  version : Nat
  /-- For each receiver the version that it has seen. -/
  receivers : List Nat
  deriving DecidableEq, Repr

namespace Center

/-- The center at the start. -/
def initial : Center := ⟨.empty, 0, [], none, true, none, 0, []⟩

instance : Inhabited Center := ⟨initial⟩

/-- The clock ends here: `2 ^ 63` seconds. -/
def clockLimit : Nat := Nat.pow 2 63 * Duration.perSecond

/-- The moment at which a timer set now runs out, if the clock can show it. -/
def deadline? (now : Nat) (d : Duration) : Option Nat :=
  if now + d.nanoseconds < clockLimit then some (now + d.nanoseconds) else none

/-- Sends a timer to the loop. A timer whose deadline the clock cannot show never runs out, and a
stopped loop takes none. -/
def send (c : Center) (t : Timer) : Center :=
  match deadline? c.clock t.duration with
  | some d => if c.running then { c with mailbox := c.mailbox ++ [⟨t.id, d⟩] } else c
  | none => c

/-- Tells the receivers what is on screen, if that has changed. -/
def publish (c : Center) : Center :=
  if c.published = c.queue.current then c
  else { c with published := c.queue.current, version := c.version + 1 }

/-- Applies an operation to the queue, sends its timer and tells the receivers. -/
def apply (c : Center) (op : Queue → Queue × Option Timer) : Center :=
  let (q, t) := op c.queue
  let c := { c with queue := q }
  let c := match t with
    | some t => c.send t
    | none => c
  c.publish

/-- Shows a message when nothing is pending, and lets it wait otherwise. -/
def push (c : Center) (m : Message) : Center := c.apply (·.push m)

/-- Shows a message at once. -/
def urgent (c : Center) (m : Message) : Center := c.apply (·.urgent m)

/-- Takes the message off the screen. -/
def consume (c : Center) : Center := c.apply Queue.consume

/-- Pushes an ordinary message. -/
def notify (c : Center) (text : String) : Center := c.push (.notify text)

/-- Pushes a short confirmation. -/
def notifyFast (c : Center) (text : String) : Center := c.push (.notifyFast text)

/-- Shows a warning at once. -/
def alert (c : Center) (text : String) : Center := c.urgent (.urgent text)

/-! ### The timer loop -/

/-- The loop receives the oldest timer of its mailbox, in place of the one it keeps. -/
def receive (c : Center) : Center :=
  match c.mailbox with
  | t :: ts => { c with armed := some t, mailbox := ts }
  | [] => c

/-- The loop receives everything in its mailbox. -/
def receiveAll (c : Center) : Center :=
  { c with armed := c.mailbox.getLast?.or c.armed, mailbox := [] }

/-- The loop fires its timer. -/
def fire (c : Center) (t : ArmedTimer) : Center :=
  { c with armed := none }.apply (·.elapsed t.id)

/-- Fires timers whose sleep ends by `target`, each when it ends and at most `n` of them. The sleep
until a deadline ends at the moment that `wake` makes of it. -/
def fireDueOn (wake : Nat → Nat) (target : Nat) : Nat → Center → Center
  | 0, c => c
  | n + 1, c =>
    match c.armed with
    | some t =>
      if wake t.deadline ≤ target then
        fireDueOn wake target n ({ c with clock := max c.clock (wake t.deadline) }.fire t).receiveAll
      else c
    | none => c

/-- Fires timers that are due by `target`, each at its deadline and at most `n` of them. -/
def fireDue : Nat → Nat → Center → Center := fireDueOn id

/-- Lets time pass on a timer that ends a sleep as `wake` says. Each timer fired takes a message off
the backlog or leaves none armed, so that the backlog bounds their number. -/
def advanceOn (wake : Nat → Nat) (c : Center) (d : Duration) : Center :=
  let target := c.clock + d.nanoseconds
  if c.running then
    let c := c.receiveAll
    { fireDueOn wake target (c.queue.backlog.length + 1) c with clock := target }
  else { c with clock := target }

/-- Lets time pass on an exact timer. -/
def advance (c : Center) (d : Duration) : Center := c.advanceOn id d

/-- Stops the loop for good; the timers that it has or was sent are gone. -/
def shutdown (c : Center) : Center := { c with running := false, mailbox := [], armed := none }

/-! ### Receivers -/

/-- Adds a receiver, which has seen the present state. -/
def subscribe (c : Center) : Center := { c with receivers := c.receivers ++ [c.version] }

/-- Whether the message on screen has changed since the receiver last looked. -/
def hasChanged (c : Center) (receiver : Nat) : Bool :=
  c.receivers.getD receiver c.version != c.version

/-- The receiver looks at the message on screen. -/
def observe (c : Center) (receiver : Nat) : Center :=
  { c with receivers := c.receivers.set receiver c.version }

/-! ### Runs -/

/-- What can be asked of a center. -/
inductive Op where
  | push (m : Message)
  | urgent (m : Message)
  | notify (text : String)
  | notifyFast (text : String)
  | alert (text : String)
  | consume
  | advance (d : Duration)
  | subscribe
  | observe (receiver : Nat)
  | shutdown
  deriving Repr, Inhabited

/-- What an operation lets a receiver know. -/
inductive Observation where
  | none
  | subscribed (receiver : Nat)
  | seen (changed : Bool) (current : Option Shown)
  deriving DecidableEq, Repr, Inhabited

/-- The center after an operation, on an exact timer. -/
def step (c : Center) : Op → Center
  | .push m => c.push m
  | .urgent m => c.urgent m
  | .notify text => c.notify text
  | .notifyFast text => c.notifyFast text
  | .alert text => c.alert text
  | .consume => c.consume
  | .advance d => c.advance d
  | .subscribe => c.subscribe
  | .observe r => c.observe r
  | .shutdown => c.shutdown

/-- What an operation lets a receiver know, in the state before it. -/
def observation (c : Center) : Op → Observation
  | .subscribe => .subscribed c.receivers.length
  | .observe r => .seen (c.hasChanged r) c.published
  | _ => .none

/-- The center after a run of operations, on an exact timer. -/
def run (c : Center) (ops : List Op) : Center := ops.foldl step c

/-- The center after an operation, on a timer that ends a sleep as `wake` says. -/
def stepOn (wake : Nat → Nat) (c : Center) : Op → Center
  | .advance d => c.advanceOn wake d
  | op => c.step op

/-- The center after a run of operations, on a timer that ends a sleep as `wake` says. -/
def runOn (wake : Nat → Nat) (c : Center) (ops : List Op) : Center := ops.foldl (stepOn wake) c

end Center

end PanelClient
