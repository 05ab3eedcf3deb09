import PanelClient.Toml.Document
import PanelClient.Notification.Message
/-!
# Settings

* `Settings`: the settings, `Settings.standard` where nothing else is said;
* `Settings.ofTable?`, `Settings.ofToml?`: from a table, from the text of a file;
* `Settings.load`: from a file that may be missing or out of reach;
* `Settings.withOverrides`: the address may come from elsewhere;
* `Settings.homeDir`: the directory in which the file is looked for.
-/

namespace PanelClient

/-- What comes of reading a file. -/
inductive Reading where
  /-- There is no file. -/
  | absent
  /-- What is there cannot be read, or the way to it is barred. -/
  | failed
  | content (bytes : ByteArray)
  deriving Inhabited

/-- The settings. -/
structure Settings where
  /-- The address of the backend. -/
  baseUrl : String
  /-- The route to which the user is sent when the session has expired. -/
  loginRoute : String
  /-- The longest time to wait for an answer, in seconds; zero is for ever. -/
  requestTimeoutSecs : UInt64
  /-- How the client names itself. -/
  userAgent : Option String
  deriving DecidableEq, Repr

namespace Settings

/-- The settings where nothing else is said. -/
def standard : Settings := ⟨"http://127.0.0.1:8181", "/login", 30, none⟩

instance : Inhabited Settings := ⟨standard⟩

/-- The longest time to wait for an answer, if there is one. -/
def requestTimeout (s : Settings) : Option Duration :=
  if s.requestTimeoutSecs = 0 then none else some (.ofSeconds s.requestTimeoutSecs.toNat)

/-! ### Files -/

/-- A value that is a text. -/
def text? : Toml.Value → Option String
  | .string s => some s
  | _ => none

/-- A value that is an integer of 64 bits without sign. -/
def word? : Toml.Value → Option UInt64
  | .integer i => if 0 ≤ i ∧ i < UInt64.size then some (UInt64.ofNat i.toNat) else none
  | _ => none

/-- The value of a key, `dflt` where the key is absent, and nothing where its value has the wrong
type. -/
def entry? {α : Type} (read : Toml.Value → Option α) (table : List (String × Toml.Value))
    (key : String) (dflt : α) : Option α :=
  match table.lookup key with
  | some v => read v
  | none => some dflt

/-- The settings of a table, if the values of the known keys have the right types. Unknown keys do
not count. -/
def ofTable? (table : List (String × Toml.Value)) : Option Settings := do
  return {
    baseUrl := ← entry? text? table "base_url" standard.baseUrl
    loginRoute := ← entry? text? table "login_route" standard.loginRoute
    requestTimeoutSecs := ← entry? word? table "request_timeout_secs" standard.requestTimeoutSecs
    userAgent := ← entry? (fun v => some <$> text? v) table "user_agent" standard.userAgent }

/-- The settings of the text of a file. -/
def ofToml? (text : String) : Option Settings := do ofTable? (← Toml.parse text)

/-- Why there are no settings. -/
inductive LoadError where
  /-- The file is missing. -/
  | notFound
  /-- The file cannot be read. -/
  | unreadable
  /-- The file is not UTF-8, or not a document with fitting values. -/
  | invalidData
  deriving DecidableEq, Repr, Inhabited

/-- The settings of a file. A file that the user has named must exist; the usual one need not, but if
there is something in its place, it must be readable. -/
def load (named : Bool) : Reading → Except LoadError Settings
  | .absent => if named then .error .notFound else .ok standard
  | .failed => .error .unreadable
  | .content bytes =>
    match (String.fromUTF8? bytes).bind ofToml? with
    | some s => .ok s
    | none => .error .invalidData

/-! ### Overrides -/

/-- The same settings with the address from the environment, unless that is empty, and then with
the one from the command line. -/
def withOverrides (s : Settings) (env flag : Option String) : Settings :=
  let s := match env with
    | some url => if url.isEmpty then s else { s with baseUrl := url }
    | none => s
  match flag with
  | some url => { s with baseUrl := url }
  | none => s

/-! ### Where the file is -/

/-- A path below a directory. -/
def below (dir name : String) : String :=
  if dir.isEmpty || dir.endsWith "/" then dir ++ name else dir ++ "/" ++ name

/-- The directory of the settings: the one that the environment names, unless that is empty, or
else `.mcpanel` in the user's home. -/
def homeDir (named : Option String) (userHome : String) : String :=
  match named with
  | some dir => if dir.isEmpty then below userHome ".mcpanel" else dir
  | none => below userHome ".mcpanel"

/-- The usual file of the settings. -/
def usualFile (dir : String) : String := below dir "config.toml"

end Settings

end PanelClient
