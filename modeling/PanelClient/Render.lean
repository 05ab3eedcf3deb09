import PanelClient.Api.Models
import PanelClient.Notification.Queue
import PanelClient.Number.Memory
import PanelClient.Text.English
/-!
# Lines for the user

* `Severity.paint`: colours a text for a terminal;
* `Message.line`, `Queue.Snapshot.lines`: notifications;
* `User.summary`, `Instance.lines`, `SystemInfo.lines`: what the backend knows.
-/

namespace PanelClient

/-! ### Notifications -/

/-- The terminal attributes of a severity. -/
def Severity.attributes : Severity → String
  | .primary => "34;1"
  | .secondary => "2"
  | .success => "32;1"
  | .danger => "31;1"
  | .warning => "33;1"
  | .info => "36"
  | .light => "37"
  | .dark => "30"

/-- A text in the colour of a severity, for a terminal. -/
def Severity.paint (s : Severity) (text : String) : String :=
  "\x1b[" ++ s.attributes ++ "m" ++ text ++ "\x1b[0m"

/-- The line of a message: its severity and its text in English. -/
def Message.line (color : Bool) (m : Message) : String :=
  let tag := "[" ++ m.severity.name ++ "]"
  (if color then m.severity.paint tag else tag) ++ " " ++ translate m.text

/-- The messages of a snapshot, the one on screen first. -/
def Queue.Snapshot.messages (s : Queue.Snapshot) : List Message :=
  (s.current.map Shown.message).toList ++ s.backlog

/-- The lines of a snapshot, the message on screen first. -/
def Queue.Snapshot.lines (s : Queue.Snapshot) (color : Bool) : List String :=
  s.messages.map (Message.line color)

/-! ### What the backend knows -/

/-- A user in one line. -/
def User.summary (u : User) : String :=
  u.name ++ " (" ++ u.username ++ "), permissions: " ++ u.permissions

/-- An instance; lists of arguments are left out where they are empty. -/
def Instance.lines (i : Instance) : List String :=
  let words (label : String) (ws : List String) : List String :=
    if ws.isEmpty then [] else [label ++ " ".intercalate ws]
  ["name:        " ++ i.name,
    "type:        " ++ i.modType,
    "version:     " ++ i.version,
    "java:        " ++ i.config.java,
    "max ram:     " ++ toString i.config.maxRam ++ " MiB",
    "server file: " ++ i.config.serverFile]
  ++ words "jvm args:    " i.config.jvmArgs ++ words "args:        " i.config.args

/-- The statistics of the host. -/
def SystemInfo.lines (i : SystemInfo) : List String :=
  ["host:   " ++ i.hostname ++ " (" ++ i.os ++ " " ++ i.arch ++ ")",
    "cpus:   " ++ toString i.cpus ++ " @ " ++ toString i.cpuClock ++ " MHz",
    "load:   " ++ i.load1.toFixed 2 ++ " " ++ i.load5.toFixed 2 ++ " " ++ i.load15.toFixed 2,
    "memory: " ++ Memory.ofKib i.memUsed ++ " used / " ++ Memory.ofKib i.memTotal ++ " total ("
      ++ Memory.ofKib i.memAvail ++ " available)",
    "swap:   " ++ Memory.ofKib i.swapFree ++ " free / " ++ Memory.ofKib i.swapTotal ++ " total"]

end PanelClient
