import PanelClient.Json.Value
/-!
# Envelopes

Every answer of the backend is an envelope: a success with a result, or a failure with a message
(usually a key to look up) and a cause.

* `Envelope`: the four parts;
* `Envelope.success`, `Envelope.failure`: the two usual kinds.
-/

namespace PanelClient

open Json

/-- An answer of the backend. -/
structure Envelope (α : Type) where
  success : Bool
  result : Option α
  message : Option String
  cause : Option String
  deriving DecidableEq, Repr, Inhabited

namespace Envelope

variable {α : Type}

/-- A success with a result. -/
def ofResult (a : α) : Envelope α := ⟨true, some a, none, none⟩

/-- A failure with a message and perhaps a cause. -/
def failure (message : String) (cause : Option String) : Envelope α :=
  ⟨false, none, some message, cause⟩

/-- The fields of an envelope; the cause goes by two names. -/
def fields (α : Type) [FromJson α] (room : Nat) : List Field :=
  [.of Bool room "success", .of (Option α) (room - 1) "result", .of (Option String) room "message",
    .of (Option String) room "err_cause" ["cause"]]

instance [FromJson α] : FromJson (Envelope α) where
  read room d := do
    let s ← Slots.gather (fields α room) d
    return {
      success := ← s.required room "success"
      result := ← s.optional (room - 1) "result" none
      message := ← s.optional room "message" none
      cause := ← s.optional room "err_cause" none }

/-- A member that is left out where there is nothing to write. -/
def member {β : Type} [ToJson β] (name : String) : Option β → List (String × Value)
  | some b => [(name, toValue b)]
  | none => []

instance [ToJson α] : ToJson (Envelope α) where
  toValue e := .object
    (("success", toValue e.success) :: member "result" e.result ++ member "message" e.message ++
      member "err_cause" e.cause)

end Envelope

end PanelClient
