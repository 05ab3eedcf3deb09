import PanelClient.CommandLine.Invocation
import PanelClient.Proofs.Http.Url
import PanelClient.Proofs.Program

/-!
# Where requests go

A client writes the endpoint of a call behind the address of its backend, and an instance is named by
a segment of its own. Whether the request arrives there is up to whoever reads the URL: a query or a
fragment in the address swallows the endpoint, and some names are no segments to a reader of URLs,
however they are encoded.

* `Client.Call.endpoint?`, `Client.Call.reached?` : the endpoint of a call, as it is written and as it
  is read;
* `Client.Call.parse_request` : where a request leads;
* `Client.Call.Addresses` : the request of a call addresses the instance of a name;
* `Client.Call.GoesOut` : the request of a call is sent, and to its URL;
* `Client.instance_requests_addressed` : which requests address their instance, that they address
  nothing else, and where all others lead.
-/

namespace PanelClient

namespace Client

variable {σ : Type} {c : Client σ} {w : World σ}

/-- The place below which a client finds its endpoints, if it has the address of a server. -/
def root? (c : Client σ) : Option Url := Url.parse (c.baseUrl ++ "/")

/-- A name that is a segment of a path once it is encoded. -/
def Addressable (name : String) : Prop := name ≠ "" ∧ name ≠ "." ∧ name ≠ ".."

instance : DecidablePred Addressable := fun _ => inferInstanceAs (Decidable (_ ∧ _))

/-- The endpoint that is written for an instance. -/
def instanceEndpoint (name : String) : String := "instance/" ++ Percent.encode name

/-- The endpoints that are not those of an instance. -/
def fixedEndpoints : List String :=
  ["auth/ping", "auth/login", "auth/logout", "user", "instance/", "info"]

/-- What is read for the endpoint of an instance. -/
def instanceReached (name : String) : String :=
  if name = "." then "instance/" else if name = ".." then "" else instanceEndpoint name

/-- A command sends what its call sends. -/
theorem execute_sent (command : Command) :
    (c.execute w command).2.sent = (command.call.make c w).2.sent := by
  cases command with
  | login username password =>
    have hlogin : (Command.login username password).call.make c w =
        c.login w username password := rfl
    rw [hlogin, execute, executeLogin]
    obtain ⟨e | outcome, w'⟩ := c.login w username password
    · rfl
    · cases outcome <;> rfl
  | _ => rfl

namespace Call

/-- The instance that a call is about. -/
def instanceName? : Call → Option String
  | .instance name => some name
  | .createInstance name _ _ => some name
  | .deleteInstance name => some name
  | _ => none

/-- The endpoint of a call as it is written, unless the caller gives the URL. -/
def endpoint? : Call → Option String
  | .ping => some "auth/ping"
  | .login _ _ => some "auth/login"
  | .logout => some "auth/logout"
  | .currentUser => some "user"
  | .listInstances => some "instance/"
  | .instance name => some (instanceEndpoint name)
  | .createInstance name _ _ => some (instanceEndpoint name)
  | .deleteInstance name => some (instanceEndpoint name)
  | .systemInfo => some "info"
  | _ => none

/-- The endpoint of a call as it is read. -/
def reached? (k : Call) : Option String :=
  match k.instanceName? with
  | some name => some (instanceReached name)
  | none => k.endpoint?

/-- The path that the request of a call asks for. -/
def path? (c : Client σ) (k : Call) : Option String := (Url.parse (k.request c).url).map Url.path

/-- The request of a call addresses the instance of a name: the place of the instances, and behind it
one segment that stays there and from which the name can be read back. -/
def Addresses (c : Client σ) (root : Url) (k : Call) (name : String) : Prop :=
  ∃ segment : String, segment ≠ "" ∧ (∀ x ∈ segment.toList, Url.isSlash x = false) ∧
    Path.Stays Url.readDots segment.toList ∧ Percent.decode segment = some name ∧
    Url.parse (k.request c).url =
      some { root with path := root.path ++ "api/v1/instance/" ++ segment }

/-- The request of a call is sent once, and to its URL. -/
structure GoesOut (c : Client σ) (k : Call) : Prop where
  sent_eq (w : World σ) : (k.make c w).2.sent = w.sent ++ [k.request c]
  /-- So it is when a command makes the call. -/
  executed_eq (w : World σ) (command : Command) (h : command.call = k) :
    (c.execute w command).2.sent = w.sent ++ [k.request c]
  /-- What an agent makes of the request is for its URL, as the agent reads it; there is none if the
  agent cannot read it. -/
  called_eq {τ : Type} (a : Agent τ) :
    (a.call? (k.request c)).map (·.url) = a.readUrl (k.request c).url

variable {k : Call} {e name : String} {root : Url}

/-! ### What is written -/

theorem url_eq (c : Client σ) (path : String) :
    c.url ("/" ++ path) = c.baseUrl ++ "/" ++ ("api/v1/" ++ path) := by
  have hprefix : "/api/v1" ++ ("/" ++ path) = "/" ++ ("api/v1/" ++ path) := by
    rw [← String.append_assoc, ← String.append_assoc]
    rfl
  rw [url, String.append_assoc, hprefix, ← String.append_assoc]

theorem request_url (h : k.endpoint? = some e) :
    (k.request c).url = c.baseUrl ++ "/" ++ ("api/v1/" ++ e) := by
  have hinstance : ∀ name, c.instanceUrl name = c.url ("/" ++ instanceEndpoint name) := by
    intro name
    rw [instanceUrl, instanceEndpoint, ← String.append_assoc]
    rfl
  rw [← url_eq]
  cases k <;> cases h
  case «instance» name => exact hinstance name
  case createInstance name type version => exact hinstance name
  case deleteInstance name => exact hinstance name
  all_goals rfl

theorem request_headers (h : k.endpoint? = some e) : (k.request c).headers = [] := by
  cases k <;> cases h <;> rfl

theorem endpoint?_of_instanceName? (h : k.instanceName? = some name) :
    k.endpoint? = some (instanceEndpoint name) := by
  cases k <;> cases h <;> rfl

theorem endpoint?_mem (h : k.endpoint? = some e) (hk : k.instanceName? = none) :
    e ∈ fixedEndpoints := by
  cases k <;> cases hk <;> cases h <;> decide

theorem goesOut (h : k.endpoint? = some e) : k.GoesOut c where
  sent_eq w := by rw [make_world]
  executed_eq w command hcommand := by rw [execute_sent, hcommand, make_world]
  called_eq a := by
    rw [Agent.call?, request_headers h]
    cases a.readUrl (k.request c).url <;> rfl

/-! ### What is read -/

theorem plain_fixed : ∀ e ∈ fixedEndpoints, Url.Plain ("api/v1/" ++ e).toList := by
  decide +kernel

theorem stays_fixed : ∀ e ∈ fixedEndpoints, ∀ s ∈ split Url.isSlash ("api/v1/" ++ e).toList,
    Path.Stays Url.readDots s := by
  decide +kernel

theorem instance_append (segment : String) :
    "api/v1/" ++ ("instance/" ++ segment) = "api/v1/instance/" ++ segment := by
  rw [← String.append_assoc]
  rfl

theorem plain_instance (name : String) :
    Url.Plain ("api/v1/" ++ instanceEndpoint name).toList := by
  have hprefix : Url.Plain "api/v1/instance/".toList := by decide +kernel
  rw [instanceEndpoint, instance_append]
  exact hprefix.append_text (Url.plain_encode name)

theorem stays_instance (hdot : name ≠ ".") (hdots : name ≠ "..") :
    ∀ s ∈ split Url.isSlash ("api/v1/" ++ instanceEndpoint name).toList,
      Path.Stays Url.readDots s := by
  have hprefix : ∀ s ∈ split Url.isSlash "api/v1/instance".toList, Path.Stays Url.readDots s := by
    decide +kernel
  have htext : ("api/v1/" ++ instanceEndpoint name).toList =
      "api/v1/instance".toList ++ '/' :: (Percent.encode name).toList := by
    simp [instanceEndpoint]
  intro s hs
  rw [htext, split_append_cons rfl,
    split_of_forall fun x hx => (Url.encode_inSegment name hx).2, List.mem_append] at hs
  rcases hs with hs | hs
  · exact hprefix s hs
  · rw [List.mem_singleton.1 hs]
    exact Url.stays_encode_iff.2 ⟨hdot, hdots⟩

theorem plain_endpoint (h : k.endpoint? = some e) : Url.Plain ("api/v1/" ++ e).toList := by
  cases hk : k.instanceName? with
  | none => exact plain_fixed e (endpoint?_mem h hk)
  | some name =>
    cases h.symm.trans (endpoint?_of_instanceName? hk)
    exact plain_instance name

theorem reached?_of_instanceName? (h : k.instanceName? = some name) :
    k.reached? = some (instanceReached name) := by
  rw [reached?, h]

theorem instanceReached_of_ne (hdot : name ≠ ".") (hdots : name ≠ "..") :
    instanceReached name = instanceEndpoint name := by
  rw [instanceReached, if_neg hdot, if_neg hdots]

/-- What is read for the endpoint of an instance: dots are carried out. -/
theorem parse_instance (hroot : c.root? = some root) (hbare : Url.Bare c.baseUrl) (name : String) :
    Url.parse (c.baseUrl ++ "/" ++ ("api/v1/" ++ instanceEndpoint name)) =
      some { root with path := root.path ++ ("api/v1/" ++ instanceReached name) } := by
  have hprefix : Url.Plain "api/v1".toList := by decide +kernel
  have hinstance : Url.Plain "instance".toList := by decide +kernel
  have hplace := hprefix.append_text Url.plain_slash
  by_cases hdot : name = "."
  · subst hdot
    have htext : "api/v1/" ++ instanceEndpoint "." = "api/v1" ++ "/" ++ "instance" ++ "/." := by
      decide +kernel
    have hinstances := hplace.append_text hinstance
    rw [htext, Url.parse_below_dot hroot hbare hinstances,
      Url.parse_below hroot hbare (hinstances.append_text Url.plain_slash) (by decide +kernel)]
    rfl
  by_cases hdots : name = ".."
  · subst hdots
    have htext : "api/v1/" ++ instanceEndpoint ".." = "api/v1" ++ "/" ++ "instance" ++ "/.." := by
      decide +kernel
    have hstays : Path.Stays Url.readDots "instance".toList := by decide +kernel
    rw [htext, Url.parse_below_dots hroot hbare hprefix hinstance (by decide) hstays,
      Url.parse_below hroot hbare hplace (by decide +kernel)]
    rfl
  · rw [Url.parse_below hroot hbare (plain_instance name) (stays_instance hdot hdots),
      instanceReached_of_ne hdot hdots]

/-- **Where a request leads**, if the address has neither query nor fragment. -/
theorem parse_request (hroot : c.root? = some root) (hbare : Url.Bare c.baseUrl)
    (h : k.reached? = some e) : Url.parse (k.request c).url =
      some { root with path := root.path ++ ("api/v1/" ++ e) } := by
  cases hk : k.instanceName? with
  | none =>
    rw [reached?, hk] at h
    have he := endpoint?_mem h hk
    rw [request_url h, Url.parse_below hroot hbare (plain_fixed e he) (stays_fixed e he)]
  | some name =>
    cases h.symm.trans (reached?_of_instanceName? hk)
    rw [request_url (endpoint?_of_instanceName? hk), parse_instance hroot hbare]

/-! ### What is addressed -/

/-- With a segment behind it, the place of the instances is no other endpoint. -/
theorem ne_instance_append {segment : String} (hsegment : segment ≠ "")
    (he : e ∈ "" :: fixedEndpoints) : e ≠ "instance/" ++ segment := by
  rintro rfl
  have hlist : ∀ e ∈ "" :: fixedEndpoints, e.toList.take 9 = "instance/".toList →
      e = "instance/" ++ "" := by decide
  have heq := hlist _ he (by simp)
  exact hsegment ((String.append_right_inj "instance/").1 heq)

/-- An endpoint is read as that of an instance only in calls about that instance. -/
theorem reached?_eq_iff (hname : Addressable name) (h : k.reached? = some e) :
    e = instanceEndpoint name ↔ k.instanceName? = some name := by
  obtain ⟨hempty, hdot, hdots⟩ := hname
  have hencode : Percent.encode name ≠ "" := mt Percent.encode_eq_empty_iff.1 hempty
  cases hk : k.instanceName? with
  | none =>
    rw [reached?, hk] at h
    have he := List.mem_cons_of_mem "" (endpoint?_mem h hk)
    exact iff_of_false (ne_instance_append hencode he) nofun
  | some name' =>
    cases h.symm.trans (reached?_of_instanceName? hk)
    rw [Option.some_inj]
    by_cases hdot' : name' = "."
    · subst hdot'
      exact iff_of_false (ne_instance_append hencode (by decide)) (Ne.symm hdot)
    by_cases hdots' : name' = ".."
    · subst hdots'
      exact iff_of_false (ne_instance_append hencode (by decide)) (Ne.symm hdots)
    · rw [instanceReached_of_ne hdot' hdots', instanceEndpoint, instanceEndpoint,
        String.append_right_inj]
      exact ⟨Percent.encode_injective, congrArg Percent.encode⟩

theorem addresses_of_addressable (hroot : c.root? = some root) (hbare : Url.Bare c.baseUrl)
    (h : k.instanceName? = some name) (hname : Addressable name) : k.Addresses c root name := by
  obtain ⟨hempty, hdot, hdots⟩ := hname
  refine ⟨Percent.encode name, mt Percent.encode_eq_empty_iff.1 hempty,
    fun x hx => (Url.encode_inSegment name hx).2, Url.stays_encode_iff.2 ⟨hdot, hdots⟩,
    Percent.decode_encode name, ?_⟩
  rw [parse_request hroot hbare (reached?_of_instanceName? h), instanceReached_of_ne hdot hdots,
    instanceEndpoint, instance_append, ← String.append_assoc]

theorem exists_reached? (h : k.endpoint?.isSome) : ∃ e, k.reached? = some e := by
  cases hk : k.instanceName? with
  | none => exact ⟨_, by rw [reached?, hk, Option.some_get h]⟩
  | some name => exact ⟨_, reached?_of_instanceName? hk⟩

theorem path?_of_bare (hroot : c.root? = some root) (hbare : Url.Bare c.baseUrl)
    (h : k.reached? = some e) : k.path? c = some (root.path ++ ("api/v1/" ++ e)) := by
  rw [path?, parse_request hroot hbare h]
  rfl

theorem path?_of_not_bare (hroot : c.root? = some root) (hbare : ¬ Url.Bare c.baseUrl)
    (h : k.endpoint? = some e) : k.path? c = some root.path := by
  rw [path?, request_url h]
  exact Url.path_below_of_not_bare hroot hbare (plain_endpoint h)

theorem bare_of_addresses (hroot : c.root? = some root) (h : k.instanceName? = some name)
    (haddresses : k.Addresses c root name) : Url.Bare c.baseUrl := by
  by_contra hbare
  obtain ⟨segment, -, -, -, -, hparse⟩ := haddresses
  have hpath := path?_of_not_bare hroot hbare (endpoint?_of_instanceName? h)
  rw [path?, hparse] at hpath
  have hlength := congrArg String.length (Option.some.inj hpath)
  have hinstance : "api/v1/instance/".length = 16 := rfl
  simp only [String.length_append] at hlength
  omega

theorem addresses_iff (hroot : c.root? = some root) (h : k.instanceName? = some name) :
    k.Addresses c root name ↔ Url.Bare c.baseUrl ∧ Addressable name := by
  refine ⟨fun haddresses => ?_, fun ⟨hbare, hname⟩ => addresses_of_addressable hroot hbare h hname⟩
  have hbare := bare_of_addresses hroot h haddresses
  obtain ⟨segment, hsegment, -, -, -, hparse⟩ := haddresses
  have hread : instanceReached name = "instance/" ++ segment := by
    rw [parse_request hroot hbare (reached?_of_instanceName? h), String.append_assoc,
      ← instance_append] at hparse
    have hpath := congrArg Url.path (Option.some.inj hparse)
    exact (String.append_right_inj _).1 ((String.append_right_inj _).1 hpath)
  have hlong : ∀ e ∈ "" :: fixedEndpoints, instanceReached name ≠ e := by
    intro e he heq
    exact ne_instance_append hsegment he (heq.symm.trans hread)
  refine ⟨hbare, ?_, ?_, ?_⟩
  all_goals
    rintro rfl
    exact hlong _ (by decide +kernel) rfl

/-- A request that addresses an instance addresses nothing else. -/
theorem path?_eq_iff (hroot : c.root? = some root) (h : k.instanceName? = some name)
    (haddresses : k.Addresses c root name) {k' : Call} (hk' : k'.endpoint?.isSome) :
    k'.path? c = k.path? c ↔ k'.instanceName? = some name := by
  obtain ⟨hbare, hname⟩ := (addresses_iff hroot h).1 haddresses
  obtain ⟨e', he'⟩ := exists_reached? hk'
  rw [path?_of_bare hroot hbare he', path?_of_bare hroot hbare (reached?_of_instanceName? h),
    instanceReached_of_ne hname.2.1 hname.2.2, Option.some_inj, String.append_right_inj,
    String.append_right_inj]
  exact reached?_eq_iff hname he'

end Call

/-- **Which requests address their instance**, and where the others lead. Take a client with the
address of a server, and a call about the instance of a name. Its request is sent. It addresses the
instance just if the address of the client has neither query nor fragment and the name is neither empty
nor `.` nor `..`; and then it addresses nothing else: of all calls, only those about the same instance
have the same path. The empty name and `.` lead to the list of instances and `..` to the place above it,
and with a query or a fragment in the address all calls have the path of the address. -/
theorem instance_requests_addressed {root : Url} {k : Call} {name : String}
    (hroot : c.root? = some root) (hk : k.instanceName? = some name) :
    k.GoesOut c ∧
    (k.Addresses c root name ↔ Url.Bare c.baseUrl ∧ Addressable name) ∧
    (k.Addresses c root name → ∀ k' : Call, k'.endpoint?.isSome →
      (k'.path? c = k.path? c ↔ k'.instanceName? = some name)) ∧
    (Url.Bare c.baseUrl →
      (name = "" ∨ name = "." → k.path? c = Call.listInstances.path? c) ∧
      (name = ".." → k.path? c = some (root.path ++ "api/v1/"))) ∧
    (¬ Url.Bare c.baseUrl → ∀ k' : Call, k'.endpoint?.isSome → k'.path? c = some root.path) := by
  have hreached := Call.reached?_of_instanceName? hk
  refine ⟨Call.goesOut (Call.endpoint?_of_instanceName? hk), Call.addresses_iff hroot hk,
    fun haddresses k' hk' => Call.path?_eq_iff hroot hk haddresses hk',
    fun hbare => ⟨fun hname => ?_, fun hname => ?_⟩, fun hbare k' hk' => ?_⟩
  · have hlist : Call.listInstances.reached? = some "instance/" := rfl
    have hread : instanceReached name = "instance/" := by
      rcases hname with rfl | rfl <;> decide +kernel
    rw [Call.path?_of_bare hroot hbare hreached, Call.path?_of_bare hroot hbare hlist, hread]
  · subst hname
    exact Call.path?_of_bare hroot hbare hreached
  · obtain ⟨e, he⟩ := Option.isSome_iff_exists.1 hk'
    exact Call.path?_of_not_bare hroot hbare he

/-- A client of a backend that lives below a path of its own. -/
def nested : Client Unit := ⟨"http://h:8080/panel", fun q l => (.error ⟨q.url, ""⟩, l), none⟩

/-- It can remove an instance with a blank in its name. -/
theorem instance_requests_addressed_of_nested :
    let root : Url := ⟨.http, "h", 8080, "/panel/", none⟩
    let k : Call := .deleteInstance "my server"
    nested.root? = some root ∧ k.instanceName? = some "my server" ∧
      k.Addresses nested root "my server" ∧
      k.path? nested = some "/panel/api/v1/instance/my%20server" ∧
      k.path? nested ≠ Call.listInstances.path? nested := by
  intro root k
  have hroot : nested.root? = some root := by decide +kernel
  have hbare : Url.Bare nested.baseUrl := by decide
  have hname : Addressable "my server" := by decide
  obtain ⟨-, haddresses, hothers, -⟩ := instance_requests_addressed (k := k) hroot rfl
  have h := haddresses.2 ⟨hbare, hname⟩
  refine ⟨hroot, rfl, h, by decide +kernel, fun heq => ?_⟩
  cases (hothers h .listInstances rfl).1 heq.symm

end Client

namespace Program

/-- What a backend that grants everything is asked for: methods and paths. -/
def granting : Surroundings (List (Method × String)) where
  env := fun _ => none
  file := fun _ => .absent
  network := fun c asked =>
    (some ⟨200, [], "\x7b\"success\":true,\"result\":null\x7d", true⟩,
      asked ++ [(c.method, c.url.path)])
  now := 0
  color := false

/-- Three names that the program takes, none of which it addresses: the removal goes to the list of
instances, or to the place above it, and the user is told that it succeeded. -/
theorem deletion_misdirected :
    ["", ".", ".."].map (fun name =>
      (Invocation.parse granting.env ["instance", "delete", name]).toOption.map fun i =>
        ((run granting [] i).1.output, (run granting [] i).2)) =
      [some (["deleted "], [(.delete, "/api/v1/instance/")]),
        some (["deleted ."], [(.delete, "/api/v1/instance/")]),
        some (["deleted .."], [(.delete, "/api/v1/")])] := by
  decide +kernel

end Program

end PanelClient
