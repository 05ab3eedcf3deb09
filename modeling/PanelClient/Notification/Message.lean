import PanelClient.Notification.Severity
/-!
# Notifications

* `Duration`: a span of time, exact to the nanosecond;
* `Message`: a text with a severity and the time for which it is shown;
* `Message.notify`, `Message.notifyFast`, `Message.urgent`: the usual kinds of message.
-/

namespace PanelClient

/-- A span of time. -/
structure Duration where
  /-- Its length in nanoseconds. -/
  nanoseconds : Nat
  deriving DecidableEq, Repr, Inhabited

namespace Duration

/-- Nanoseconds in a second. -/
def perSecond : Nat := 1000000000

/-- A number of seconds. -/
def ofSeconds (n : Nat) : Duration := ⟨n * perSecond⟩

/-- A number of milliseconds. -/
def ofMilliseconds (n : Nat) : Duration := ⟨n * 1000000⟩

/-- The whole seconds of a span. -/
def seconds (d : Duration) : Nat := d.nanoseconds / perSecond

/-- The nanoseconds beyond the whole seconds. -/
def subsecond (d : Duration) : Nat := d.nanoseconds % perSecond

end Duration

/-- A message for the user. The text is usually a key that is looked up when the message is
rendered. -/
structure Message where
  text : String
  severity : Severity
  /-- How long the message stays on screen. -/
  duration : Duration
  deriving DecidableEq, Repr, Inhabited

namespace Message

/-- A message that is shown for 30 seconds. -/
def notify (text : String) : Message := ⟨text, .info, .ofSeconds 30⟩

/-- A short confirmation, shown for 10 seconds. -/
def notifyFast (text : String) : Message := ⟨text, .info, .ofSeconds 10⟩

/-- A warning meant to replace whatever is on screen, shown for 10 seconds. -/
def urgent (text : String) : Message := ⟨text, .warning, .ofSeconds 10⟩

/-- The same message with another severity. -/
def withSeverity (m : Message) (s : Severity) : Message := { m with severity := s }

/-- The same message with another duration. -/
def withDuration (m : Message) (d : Duration) : Message := { m with duration := d }

end Message

end PanelClient
