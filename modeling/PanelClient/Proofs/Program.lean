import PanelClient.Program
import PanelClient.Proofs.Api.Effects
import PanelClient.Proofs.Http.Agent

/-!
# The user is told once

A run of the program carries out one command. The user can be told of it in four places: by the client
when it pings or closes a session, by the command when it opens one, and by the run when a call has
failed. For each command and each way in which it ends, just one of the four speaks, or none does.

* `Command.call` : the call that a command makes;
* `News`, `Command.news?` : what the user is told of a command that has ended, if anything, and the line
  in which it is printed;
* `Client.ToldOnce` : what there is to say of a report, given the world after the call;
* `Client.toldOnce_report` : so is the report of every command;
* `Program.Expires` : a run finds that the session has expired, with the user away from the login page;
* `Program.run_tells_once` : a run makes one call, shows at most one redirection and then at most one
  notification, and prints nothing if it fails.
-/

namespace PanelClient

/-- The call that a command makes. -/
def Command.call : Command → Client.Call
  | .ping => .ping
  | .info => .systemInfo
  | .login username password => .login username password
  | .logout => .logout
  | .whoami => .currentUser
  | .list => .listInstances
  | .show name => .instance name
  | .create wish => .createInstance wish.name wish.type wish.version
  | .delete name => .deleteInstance name

/-- What the user is told: how serious it is, as a word and as the attributes of a terminal, and what
has happened. -/
structure News where
  severity : String
  attributes : String
  text : String
  deriving DecidableEq, Repr

/-- The line in which the user is told. -/
def News.line (color : Bool) (n : News) : String :=
  let tag := "[" ++ n.severity ++ "]"
  (if color then "\x1b[" ++ n.attributes ++ "m" ++ tag ++ "\x1b[0m" else tag) ++ " " ++ n.text

/-- What the user is told of a command that has ended, with a failure or without: of each failure and
of each session that was opened or closed. -/
def Command.news? : Command → Option Failure → Option News
  | .ping, some _ => some ⟨"warning", "33;1", "Could not reach the server"⟩
  | _, some (.call e) => some ⟨"danger", "31;1", translate e.key⟩
  | _, some f => some ⟨"danger", "31;1", f.text⟩
  | .login _ _, none => some ⟨"info", "36", "Logged in"⟩
  | .logout, none => some ⟨"info", "36", "Logged out"⟩
  | _, none => none

/-- The lines in which the user is told. -/
def Command.newsLines (color : Bool) (command : Command) (failure : Option Failure) : List String :=
  ((command.news? failure).map (News.line color)).toList

/-! ### What is shown -/

namespace Center

theorem messages_push_initial (m : Message) :
    (initial.push m).queue.snapshot.messages = [m] := by
  rw [push, apply_queue]
  rfl

theorem messages_urgent_initial (m : Message) :
    (initial.urgent m).queue.snapshot.messages = [m] := by
  rw [urgent, apply_queue]
  rfl

end Center

namespace World

variable {σ : Type} {w : World σ}

/-- The notifications show these messages. -/
def Shows (w : World σ) (messages : List Message) : Prop :=
  ∃ n, w.notifier = some n ∧ n.queue.snapshot.messages = messages

theorem notices_of_shows {messages : List Message} (h : w.Shows messages) (color : Bool) :
    w.notices color =
      w.navigator.replaced.map ("redirect: " ++ ·) ++ messages.map (Message.line color) := by
  obtain ⟨n, hn, rfl⟩ := h
  rw [notices, hn]
  rfl

/-- Nobody was told anything yet. -/
theorem shows_of_silent (h : w.notifier = some .initial) : w.Shows [] := ⟨_, h, rfl⟩

theorem shows_warn (h : w.notifier = some .initial) (key : String) :
    (w.warn key).Shows [(Message.notify key).withSeverity .danger] :=
  ⟨_, congrArg (Option.map _) h, Center.messages_push_initial _⟩

theorem shows_notifyFast (h : w.notifier = some .initial) (key : String) :
    (w.notify (·.notifyFast key)).Shows [.notifyFast key] :=
  ⟨_, congrArg (Option.map _) h, Center.messages_push_initial _⟩

end World

theorem Command.news?_call {command : Command} (h : command ≠ .ping) (e : ApiError) :
    command.news? (some (.call e)) = some ⟨"danger", "31;1", translate e.key⟩ := by
  cases command with
  | ping => exact absurd rfl h
  | _ => rfl

/-- A message is printed as the news that it brings. -/
theorem Message.line_eq (color : Bool) (m : Message) :
    m.line color = News.line color ⟨m.severity.name, m.severity.attributes, translate m.text⟩ := rfl

theorem translate_unreachable : translate "server.unreachable" = "Could not reach the server" := by
  decide +kernel

theorem translate_success : translate "auth.success" = "Logged in" := by decide +kernel

theorem translate_logout : translate "auth.logout" = "Logged out" := by decide +kernel

/-! ### Reports -/

namespace Client

variable {σ : Type} {c : Client σ} {w w' : World σ} {color : Bool} {command : Command}

theorem Call.make_notifier (k : Call) (hw : w.notifier = some .initial) :
    (k.make c w).2.notifier = some (k.tells (k.make c w).1 .initial) := by
  rw [k.make_world, hw]
  rfl

/-- The report of a command tells the user what there is to tell, once; `w` is the world after its
call. -/
structure ToldOnce (w : World σ) (color : Bool) (command : Command) (out : Report × World σ) :
    Prop where
  link_eq : out.2.link = w.link
  notices_eq : out.1.notices =
    w.navigator.replaced.map ("redirect: " ++ ·) ++ command.newsLines color out.1.failure
  output_eq : out.1.failure.isSome = true → out.1.output = []

theorem toldOnce_of_shows {lines : List String} {failure : Option Failure} {told : List Message}
    (hlink : w'.link = w.link) (hnavigator : w'.navigator = w.navigator) (hshows : w'.Shows told)
    (hnews : told.map (Message.line color) = command.newsLines color failure)
    (houtput : failure.isSome = true → lines = []) :
    ToldOnce w color command (⟨lines, w'.notices color, failure⟩, w') := by
  refine ⟨hlink, ?_, houtput⟩
  rw [← hnavigator, ← hnews]
  exact World.notices_of_shows hshows color

/-- The report of a command that prints what its call brings. -/
theorem toldOnce_of_printed {α : Type} {lines : α → List String} {r : Except ApiError α}
    (hexecute : c.execute w command = (printed lines r, w'))
    (herror : ∀ e, r = .error e → w'.notifier = some .initial ∧ command ≠ .ping)
    (hok : ∀ a, r = .ok a → ∃ told, w'.Shows told ∧
      told.map (Message.line color) = command.newsLines color none) :
    ToldOnce w' color command (c.report w color command) := by
  rw [report, hexecute]
  cases r with
  | ok a =>
    obtain ⟨told, hshows, hnews⟩ := hok a rfl
    exact toldOnce_of_shows rfl rfl hshows hnews nofun
  | error e =>
    obtain ⟨hsilent, hping⟩ := herror e rfl
    refine toldOnce_of_shows rfl rfl (World.shows_warn hsilent e.key) ?_ fun _ => rfl
    rw [Command.newsLines, Command.news?_call hping]
    rfl

/-- A call that tells nothing leaves it to the run to tell of its failure. -/
theorem toldOnce_of_silent {α : Type} {lines : α → List String} {r : Except ApiError α}
    (hexecute : c.execute w command = (printed lines r, w')) (hsilent : w'.notifier = some .initial)
    (hping : command ≠ .ping) (hnews : command.news? none = none) :
    ToldOnce w' color command (c.report w color command) := by
  refine toldOnce_of_printed hexecute (fun _ _ => ⟨hsilent, hping⟩) fun _ _ => ⟨[], ?_, ?_⟩
  · exact World.shows_of_silent hsilent
  · rw [Command.newsLines, hnews]
    rfl

theorem toldOnce_ping (hw : w.notifier = some .initial) :
    ToldOnce (Call.ping.make c w).2 color .ping (c.report w color .ping) := by
  have hnotifier := Call.ping.make_notifier (c := c) hw
  cases hmake : Call.ping.make c w with
  | mk alive w' =>
    rw [hmake] at hnotifier
    have hping : c.ping w = (alive, w') := hmake
    rw [report, execute, hping]
    cases alive with
    | true =>
      exact toldOnce_of_shows rfl rfl (World.shows_of_silent hnotifier) rfl nofun
    | false =>
      -- the client has warned already, and a refusal is not announced again
      have hfailed : Call.ping.PingFailed false := rfl
      rw [Call.tells_of_pingFailed hfailed] at hnotifier
      have hshows : w'.Shows [.urgent "server.unreachable"] :=
        ⟨_, hnotifier, Center.messages_urgent_initial _⟩
      refine toldOnce_of_shows rfl rfl hshows ?_ fun _ => rfl
      rw [List.map_singleton, Message.line_eq, Message.urgent, translate_unreachable]
      rfl

theorem toldOnce_login (hw : w.notifier = some .initial) (username password : String) :
    ToldOnce ((Call.login username password).make c w).2 color (.login username password)
      (c.report w color (.login username password)) := by
  have hnotifier := (Call.login username password).make_notifier (c := c) hw
  cases hmake : (Call.login username password).make c w with
  | mk r w' =>
    rw [hmake] at hnotifier
    have hsilent : w'.notifier = some .initial := hnotifier
    have hlogin : c.login w username password = (r, w') := hmake
    rw [report, execute, executeLogin, hlogin]
    match r with
    | .ok .success =>
      refine toldOnce_of_shows rfl rfl (World.shows_notifyFast hsilent _) ?_ nofun
      rw [List.map_singleton, Message.line_eq, Message.notifyFast, translate_success]
      rfl
    | .ok (.rejected key) =>
      -- the command has said why, and a refusal is not announced again
      exact toldOnce_of_shows rfl rfl (World.shows_warn hsilent key) rfl fun _ => rfl
    | .error e =>
      exact toldOnce_of_shows rfl rfl (World.shows_warn hsilent e.key) rfl fun _ => rfl

theorem toldOnce_logout (hw : w.notifier = some .initial) :
    ToldOnce (Call.logout.make c w).2 color .logout (c.report w color .logout) := by
  have hnotifier := Call.logout.make_notifier (c := c) hw
  refine toldOnce_of_printed (r := (Call.logout.make c w).1) rfl (fun e he => ⟨?_, nofun⟩)
    fun a ha => ⟨[.notifyFast "auth.logout"], ⟨_, hnotifier, ?_⟩, ?_⟩
  · rw [hnotifier, he]
    rfl
  · rw [ha]
    exact Center.messages_push_initial _
  · rw [List.map_singleton, Message.line_eq, Message.notifyFast, translate_logout]
    rfl

/-- **The report of every command** tells the user once. -/
theorem toldOnce_report (hw : w.notifier = some .initial) (command : Command) :
    ToldOnce (command.call.make c w).2 color command (c.report w color command) := by
  have hnotifier := command.call.make_notifier (c := c) hw
  cases command with
  | ping => exact toldOnce_ping hw
  | login username password => exact toldOnce_login hw username password
  | logout => exact toldOnce_logout hw
  | info => exact toldOnce_of_silent rfl hnotifier nofun rfl
  | whoami => exact toldOnce_of_silent rfl hnotifier nofun rfl
  | list => exact toldOnce_of_silent rfl hnotifier nofun rfl
  | «show» name => exact toldOnce_of_silent rfl hnotifier nofun rfl
  | create wish => exact toldOnce_of_silent rfl hnotifier nofun rfl
  | delete name => exact toldOnce_of_silent rfl hnotifier nofun rfl

end Client

/-! ### Runs -/

theorem Agent.network_of_make? {σ : Type} {network : Network σ} {userAgent : Option String}
    {now : Int} {timeout : Option Duration} {readUrl : String → Option Url} {agent : Agent σ}
    (h : Agent.make? network userAgent now timeout readUrl = some agent) :
    agent.network = network := by
  rw [Agent.make?] at h
  split_ifs at h
  cases h
  rfl

namespace Program

variable {σ : Type}

/-- The client of a run. -/
def client (settings : Settings) (agent : Agent σ) : Client (Link σ) :=
  .make settings.baseUrl agent.transport (some ⟨settings.loginRoute⟩)

/-- The call that the command of a run comes to, if it can be sent. -/
def asked (settings : Settings) (agent : Agent σ) (command : Command) : Option Call :=
  agent.call? (command.call.request (client settings agent))

/-- A run finds that the session has expired, with the user away from the login page. A ping does not
look for it. -/
structure Expires (settings : Settings) (agent : Agent σ) (net : σ) (i : Invocation) : Prop where
  command_ne : i.command ≠ .ping
  /-- The answer has status 401, and its body is there. -/
  unauthorized : ∃ c r, asked settings agent i.command = some c ∧ (agent.network c net).1 = some r ∧
    r.status = 401 ∧ r.complete = true
  away : pathOf i.route ≠ settings.loginRoute

variable {s : Surroundings σ} {net : σ} {i : Invocation} {settings : Settings} {agent : Agent σ}

theorem run_eq (hsettings : Program.settings s i = .ok settings)
    (hagent : Agent.make? s.network settings.userAgent s.now settings.requestTimeout s.readUrl =
      some agent) :
    run s net i =
      (((client settings agent).report (world net i.route) s.color i.command).1,
        ((client settings agent).report (world net i.route) s.color i.command).2.link.net) := by
  rw [run, hsettings]
  dsimp only
  rw [hagent]
  rfl

theorem isPing_call_iff {command : Command} : command.call.isPing = false ↔ command ≠ .ping := by
  cases command <;> simp [Command.call, Client.Call.isPing]

/-- A run redirects if it finds the session expired, and only then. -/
theorem redirects_iff (hplain : agent.network.Plain net) {p : ExpiryPolicy} :
    i.command.call.Redirects (client settings agent) (world net i.route) p ↔
      p = ⟨settings.loginRoute⟩ ∧ Expires settings agent net i := by
  constructor
  · intro h
    obtain rfl := Option.some.inj h.policy_eq
    exact ⟨rfl, isPing_call_iff.1 h.isPing_eq,
      (Agent.transport_unauthorized_iff hplain).1 h.status_eq, h.away⟩
  · rintro ⟨rfl, h⟩
    exact ⟨isPing_call_iff.2 h.command_ne, rfl,
      (Agent.transport_unauthorized_iff hplain).2 h.unauthorized, h.away⟩

theorem world_orderly (net : σ) (route : String) : Client.Orderly (world net route) :=
  Client.start_orderly (Link.mk [] net) (.on route) (some [])

/-- Where the user was sent in a run. -/
theorem replaced_eq (settings : Settings) (i : Invocation) (hplain : agent.network.Plain net) :
    let w := (i.command.call.make (client settings agent) (world net i.route)).2
    (Expires settings agent net i →
      w.navigator.replaced = [ExpiryPolicy.target ⟨settings.loginRoute⟩ i.route]) ∧
    (¬ Expires settings agent net i → w.navigator.replaced = []) := by
  have hcall := Client.Call.documented (c := client settings agent) (world_orderly net i.route)
    i.command.call
  constructor
  · intro h
    exact (hcall.redirects ((redirects_iff hplain).2 ⟨rfl, h⟩)).1
  · intro h
    rw [hcall.stays fun p hp => h ((redirects_iff hplain).1 hp).2]
    rfl

/-- **The user is told once.** Take a run that finds its settings and can name itself, on a network
where no answer leads elsewhere, in whatever way URLs are read. It asks the network for the call of its
command, if that can be sent, and for no other. On the side it prints first the redirection, if the
session has expired and the user is away from the login page, and then what there is to tell: one line if
it fails, one if it opened or closed a session, none otherwise. If it fails, that is all it prints. -/
theorem run_tells_once (hsettings : Program.settings s i = .ok settings)
    (hagent : Agent.make? s.network settings.userAgent s.now settings.requestTimeout s.readUrl =
      some agent)
    (hplain : s.network.Plain net) :
    (run s net i).2 = (asked settings agent i.command).elim net (fun c => (s.network c net).2) ∧
    (∃ redirections : List String,
      (run s net i).1.notices =
        redirections ++ i.command.newsLines s.color (run s net i).1.failure ∧
      (Expires settings agent net i → redirections = ["redirect: " ++
        (settings.loginRoute ++ "?next=" ++ String.ofList (ExpiryPolicy.writtenNext i.route))]) ∧
      (¬ Expires settings agent net i → redirections = [])) ∧
    ((run s net i).1.failure.isSome = true → (run s net i).1.output = []) := by
  have hnetwork : agent.network = s.network := Agent.network_of_make? hagent
  rw [← hnetwork] at hplain ⊢
  have htold : Client.ToldOnce _ s.color i.command _ :=
    Client.toldOnce_report (c := client settings agent) (w := world net i.route) rfl i.command
  obtain ⟨hexpires, hstays⟩ := replaced_eq settings i hplain
  rw [run_eq hsettings hagent]
  refine ⟨?_, ⟨_, htold.notices_eq, fun h => ?_, fun h => ?_⟩, htold.output_eq⟩
  · rw [htold.link_eq, Client.Call.make_world]
    exact Agent.transport_net hplain _
  · rw [hexpires h]
    rfl
  · rw [hstays h]
    rfl

/-- A backend that knows no session, with the number of calls that it was asked for. -/
def closed : Surroundings Nat where
  env := fun _ => none
  file := fun _ => .absent
  network := fun _ n => (some ⟨401, [], "", true⟩, n + 1)
  now := 0
  color := false

/-- A user of it asks who they are. -/
theorem run_tells_once_of_closed :
    let i : Invocation := ⟨none, none, "/users", .whoami⟩
    Program.settings closed i = .ok .standard ∧ closed.network.Plain 0 ∧
      (Agent.make? closed.network Settings.standard.userAgent closed.now
        Settings.standard.requestTimeout closed.readUrl).isSome = true ∧
      (run closed 0 i).2 = 1 ∧ (run closed 0 i).1.notices =
        ["redirect: /login?next=/users", "[danger] Session expired, please log in again"] := by
  intro i
  have hsettings : Program.settings closed i = .ok .standard := rfl
  have hplain : closed.network.Plain 0 := by
    rintro c r ⟨⟩
    rfl
  let agent : Agent Nat := ⟨closed.network, none, 0, some (.ofSeconds 30), Url.parse, rfl⟩
  have hagent : Agent.make? closed.network Settings.standard.userAgent closed.now
      Settings.standard.requestTimeout closed.readUrl = some agent := rfl
  obtain ⟨-, ⟨redirections, hnotices, hexpires, -⟩, -⟩ := run_tells_once hsettings hagent hplain
  have hasked : (asked .standard agent .whoami).isSome = true := by decide +kernel
  obtain ⟨c, hc⟩ := Option.isSome_iff_exists.1 hasked
  have h : Expires .standard agent 0 i := ⟨by decide, ⟨c, _, hc, rfl, rfl, rfl⟩, by decide⟩
  refine ⟨hsettings, hplain, rfl, by decide +kernel, ?_⟩
  rw [hnotices, hexpires h]
  decide +kernel

end Program

end PanelClient
