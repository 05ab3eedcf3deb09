import PanelClient.Api.Client
import PanelClient.CommandLine.Invocation
import PanelClient.Http.Agent
import PanelClient.Render
import PanelClient.Settings
/-!
# Runs of the program

* `Surroundings`: the environment, the files and the network around a run;
* `Client.execute`: carries out one command;
* `Program.settings`: the settings of a run;
* `Program.run`: a whole run: settings, client, command, and what the user is told.

A run prints either the lines of a command that succeeded or nothing; on the side it tells where the
user was sent and which notifications are waiting.
-/

namespace PanelClient

/-- Why a run failed. -/
inductive Failure where
  /-- There are no settings. -/
  | settings (e : Settings.LoadError)
  /-- The name that the client should use cannot be sent. -/
  | unsendableName
  /-- The call failed. -/
  | call (e : ApiError)
  /-- The backend answered, but not with what was asked for. -/
  | refused (reason : String)
  deriving DecidableEq, Repr, Inhabited

/-- The failure in words. -/
def Failure.text : Failure → String
  | .settings _ => "failed to load config"
  | .unsendableName => "failed to build http client"
  | .call e => e.text
  | .refused reason => reason

/-- What is around a run. -/
structure Surroundings (σ : Type) where
  /-- The environment. -/
  env : String → Option String
  /-- What comes of reading a file. -/
  file : String → Reading
  network : Network σ
  /-- The present second, counted from the start of 1970. -/
  now : Int
  /-- Notifications are shown in colour. -/
  color : Bool
  /-- How the texts of URLs are read. `Url.parse` reads those whose hosts are names or addresses of
  four bytes. -/
  readUrl : String → Option Url := Url.parse

/-- What a run shows. -/
structure Report where
  /-- The lines that it prints. -/
  output : List String
  /-- The lines that it prints on the side. -/
  notices : List String
  failure : Option Failure
  deriving DecidableEq, Repr, Inhabited

/-- The exit code of a run. -/
def Report.exitCode (r : Report) : Nat := if r.failure.isSome then 1 else 0

/-! ### Commands -/

namespace World

variable {σ : Type} (w : World σ)

/-- Tells the user that something went wrong. -/
def warn (key : String) : World σ :=
  w.notify (·.push ((Message.notify key).withSeverity .danger))

/-- The lines on the side: where the user was sent, and the notifications. -/
def notices (color : Bool) : List String :=
  w.navigator.replaced.map ("redirect: " ++ ·) ++
    match w.notifier with
    | some c => c.queue.snapshot.lines color
    | none => []

end World

namespace Client

variable {σ : Type} (c : Client σ)

/-- What a call that printed nothing by itself leaves to print. -/
def printed {α : Type} (lines : α → List String) : Except ApiError α → Except Failure (List String)
  | .ok a => .ok (lines a)
  | .error e => .error (.call e)

/-- Opens a session and tells the user how that went. -/
def executeLogin (w : World σ) (username password : String) :
    Except Failure (List String) × World σ :=
  match c.login w username password with
  | (.ok .success, w) => (.ok [], w.notify (·.notifyFast "auth.success"))
  | (.ok (.rejected key), w) => (.error (.refused (translate key)), w.warn key)
  | (.error e, w) => (.error (.call e), w)

/-- Carries out a command; the result is what it prints. -/
def execute (w : World σ) : Command → Except Failure (List String) × World σ
  | .ping =>
    let (alive, w) := c.ping w
    (if alive then .ok [c.baseUrl ++ " is up"] else .error (.refused (c.baseUrl ++ " is not reachable")), w)
  | .info => let (r, w) := c.systemInfo w; (printed SystemInfo.lines r, w)
  | .login username password => c.executeLogin w username password
  | .logout => let (r, w) := c.logout w; (printed (fun _ => []) r, w)
  | .whoami => let (r, w) := c.currentUser w; (printed (fun u => [u.summary]) r, w)
  | .list => let (r, w) := c.listInstances w; (printed id r, w)
  | .show name => let (r, w) := c.instance w name; (printed Instance.lines r, w)
  | .create wish =>
    let (r, w) := c.createInstance w wish.name wish.type wish.version
    (printed (fun i => ["created " ++ i.name]) r, w)
  | .delete name =>
    let (r, w) := c.deleteInstance w name
    (printed (fun _ => ["deleted " ++ name]) r, w)

/-- Carries out a command and tells the user if the call failed. -/
def report (w : World σ) (color : Bool) (command : Command) : Report × World σ :=
  match c.execute w command with
  | (.ok lines, w) => (⟨lines, w.notices color, none⟩, w)
  | (.error (.call e), w) =>
    let w := w.warn e.key
    (⟨[], w.notices color, some (.call e)⟩, w)
  | (.error f, w) => (⟨[], w.notices color, some f⟩, w)

end Client

/-! ### Runs -/

namespace Program

/-- The file of the settings: the one that is named, or the usual one. -/
def settingsFile (env : String → Option String) (i : Invocation) : String :=
  i.config.getD
    (Settings.usualFile (Settings.homeDir (env "MCPANEL_HOME") ((env "HOME").getD "")))

variable {σ : Type} (s : Surroundings σ)

/-- The settings of a run. -/
def settings (i : Invocation) : Except Failure Settings :=
  match Settings.load i.config.isSome (s.file (settingsFile s.env i)) with
  | .ok settings => .ok (settings.withOverrides (s.env "MCPANEL_BASE_URL") i.baseUrl)
  | .error e => .error (.settings e)

/-- The world of a run before its command: no cookies, no requests, no notifications. -/
def world (net : σ) (route : String) : World (Link σ) :=
  ⟨⟨[], net⟩, [], .on route, some .initial⟩

/-- A run on a network in a given state. -/
def run (net : σ) (i : Invocation) : Report × σ :=
  match settings s i with
  | .error f => (⟨[], [], some f⟩, net)
  | .ok settings =>
    match Agent.make? s.network settings.userAgent s.now settings.requestTimeout s.readUrl with
    | none => (⟨[], [], some .unsendableName⟩, net)
    | some agent =>
      let client := Client.make settings.baseUrl agent.transport (some ⟨settings.loginRoute⟩)
      let (report, w) := client.report (world net i.route) s.color i.command
      (report, w.link.net)

end Program

end PanelClient
