import PanelClient.CommandLine.Usage
import PanelClient.Http.Replay
import PanelClient.Http.Wire
import PanelClient.Program
import Std.Async.DNS
import Std.Async.TCP
import Std.Async.Timer
/-!
# The program

Gathers what a run depends on, runs with the answers known so far, and carries each call that has
no answer yet over the network.
-/

open PanelClient Std.Async Std.Net

namespace PanelClient.Main

/-- All that a connection brings until the other side closes it. -/
partial def receive (socket : TCP.Socket.Client) (got : ByteArray) : Async ByteArray := do
  match ← socket.recv? 65536 with
  | some bytes => receive socket (got ++ bytes)
  | none => return got

/-- Carries a call to its server. -/
def carry (c : Call) : Async ByteArray := do
  let found ← DNS.getAddrInfo c.url.host (toString c.url.port) (some .ipv4)
  match found[0]? with
  | some (IPAddr.v4 addr) =>
    let socket ← TCP.Socket.Client.mk
    socket.connect (.v4 ⟨addr, UInt16.ofNat c.url.port⟩)
    socket.send c.bytes
    receive socket ByteArray.empty
  | _ => throw (.userError "the host has no address")

/-- The answer of a server, unless there is none in time. -/
def ask (c : Call) : IO (Option Answer) := do
  if c.url.scheme != .http then return none
  try
    let bytes ← Async.block <|
      match c.timeout with
      | some d =>
        let wait := Std.Time.Millisecond.Offset.ofNat (d.nanoseconds / 1000000)
        Async.race (some <$> carry c) (do sleep wait; return none)
      | none => some <$> carry c
    return bytes.bind Answer.ofBytes?
  catch _ => return none

/-- Runs again and again, each time with one more answer, at most `n` of them. -/
def runWith (s : Surroundings Replay) (i : Invocation) : Nat → List (Option Answer) → IO Report
  | 0, known => return (Program.run s ⟨known, none⟩ i).1
  | n + 1, known =>
    match Program.run s ⟨known, none⟩ i with
    | (_, ⟨_, some c⟩) => do runWith s i n (known ++ [← ask c])
    | (report, _) => return report

/-- What comes of reading a file. -/
def readFile (path : String) : IO Reading := do
  try return .content (← IO.FS.readBinFile path)
  catch
    | .noFileOrDirectory .. => return .absent
    | _ => return .failed

/-- The variables of the environment that count. -/
def envNames : List String :=
  ["HOME", "MCPANEL_HOME", "MCPANEL_BASE_URL", "MCPANEL_PASSWORD", "NO_COLOR"]

/-- Runs an invocation and prints its report. -/
def runInvocation (env : String → Option String) (i : Invocation) : IO UInt32 := do
  let stderr ← IO.getStderr
  let reading ← readFile (Program.settingsFile env i)
  let s : Surroundings Replay := {
    env
    file := fun _ => reading
    network := replay
    now := (← Std.Time.Timestamp.now).toSecondsSinceUnixEpoch.val
    color := (← stderr.isTty) && (env "NO_COLOR").isNone }
  let report ← runWith s i (Agent.maxRedirections + 1) []
  report.output.forM (IO.println ·)
  report.notices.forM (IO.eprintln ·)
  if let some f := report.failure then IO.eprintln ("Error: " ++ f.text)
  return UInt32.ofNat report.exitCode

end PanelClient.Main

open PanelClient.Main in
/-- The program. -/
def main (args : List String) : IO UInt32 := do
  let given ← envNames.mapM fun name => return (name, ← IO.getEnv name)
  let env (name : String) : Option String := (given.lookup name).join
  match Invocation.parse env args with
  | .ok i => runInvocation env i
  | .error .help =>
    CommandLine.helpLines.forM (IO.println ·)
    return 0
  | .error .version =>
    IO.println CommandLine.versionLine
    return 0
  | .error e =>
    IO.eprintln ("error: " ++ e.text)
    CommandLine.helpLines.forM (IO.eprintln ·)
    return UInt32.ofNat e.exitCode
