import PanelClient.Json.Value
/-!
# Severities

* `Severity`: how a notification is styled;
* `Severity.name`: its name, on the wire and in text.
-/

namespace PanelClient

open Json

/-- How a notification is styled. -/
inductive Severity where
  | primary | secondary | success | danger | warning | info | light | dark
  deriving DecidableEq, Repr

namespace Severity

instance : Inhabited Severity := ⟨.info⟩

/-- All severities. -/
def all : List Severity :=
  [.primary, .secondary, .success, .danger, .warning, .info, .light, .dark]

/-- The name of a severity. -/
def name : Severity → String
  | .primary => "primary"
  | .secondary => "secondary"
  | .success => "success"
  | .danger => "danger"
  | .warning => "warning"
  | .info => "info"
  | .light => "light"
  | .dark => "dark"

/-- The severity of a name. -/
def ofName? (s : String) : Option Severity := all.find? (·.name == s)

@[simp] theorem ofName?_name (s : Severity) : ofName? s.name = some s := by
  cases s <;> decide

/-- The severity of a name, when one is wanted. -/
def named (s : String) : Except Fault Severity :=
  match ofName? s with
  | some v => .ok v
  | none => .error .mismatched

instance : FromJson Severity where
  read room := readChoice named fun s d => do
    let v ← named s
    let () ← FromJson.read room d
    return v

instance : ToJson Severity := ⟨fun s => .string s.name⟩

end Severity

end PanelClient
