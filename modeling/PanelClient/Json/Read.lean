import PanelClient.Json.Document
/-!
# Reading documents into types

A type is read by an instance of `FromJson`, whose `read` meets faults in the order of the text.

* `Doc.skip`: passing over a value of which only the grammar counts;
* `FromJson`: what can be read, with the instances for texts, numbers, lists and options;
* `Field`, `Slots`: the fields of a record, from an object or from an array of them in order;
* `Choice`: a value that names one of several variants;
* `decode`: reading a whole text.
-/

namespace PanelClient.Json

/-! ### Passing over values -/

/-- The fault of passing over the end of a row. -/
def Ending.skip : Ending → Except Fault Unit
  | .closed => .ok ()
  | .cut _ _ f => .error f

/-- The fault of reading the end of a row. -/
def Ending.finish : Ending → Except Fault Unit
  | .closed => .ok ()
  | .cut _ f _ => .error f

namespace Doc

mutual

/-- Passes over a value: its grammar is checked, at any depth, and nothing else. -/
def skip : Doc → Except Fault Unit
  | .array items e => do skipItems items; e.skip
  | .object members e => do skipMembers members; e.skip
  | .broken b => .error b.skipped
  | .null => .ok ()
  | .bool _ => .ok ()
  | .number _ => .ok ()
  | .string _ => .ok ()

/-- Passes over the items of an array. -/
def skipItems : List Doc → Except Fault Unit
  | [] => .ok ()
  | d :: ds => do skip d; skipItems ds

/-- Passes over the members of an object. -/
def skipMembers : List (List Piece × Doc) → Except Fault Unit
  | [] => .ok ()
  | (_, d) :: ms => do skip d; skipMembers ms

end

/-- The fault of a value of another kind than the wanted one. A string or number is read before it
is refused, an array or object is not. -/
def refusal : Doc → Fault
  | .broken b => b.kept
  | .string ps => if (Piece.text ps).isSome then .mismatched else .malformed
  | .number n => if n.value?.isSome then .mismatched else .malformed
  | _ => .mismatched

end Doc

/-! ### Readable types -/

/-- Types that can be read from a document. -/
class FromJson (α : Type) where
  /-- Reads a value that may hold `room` more levels of arrays and objects of free shape. Types of
  fixed shape never use the room up. -/
  read (room : Nat) (d : Doc) : Except Fault α

/-- The levels of arrays and objects that a text may hold. -/
def maxDepth : Nat := 127

instance : FromJson String where
  read _
    | .string ps => match Piece.text ps with
      | some s => .ok s
      | none => .error .malformed
    | d => .error d.refusal

instance : FromJson Bool where
  read _
    | .bool b => .ok b
    | d => .error d.refusal

instance : FromJson Unit where
  read _
    | .null => .ok ()
    | d => .error d.refusal

/-- Reads a number of which `f` accepts the value. -/
def readNumber {α : Type} (f : Number → Option α) : Doc → Except Fault α
  | .number n => match n.value? with
    | some v => match f v with
      | some a => .ok a
      | none => .error .mismatched
    | none => .error .malformed
  | d => .error d.refusal

instance : FromJson UInt64 where
  read _ d := readNumber (fun v => (v.natBelow? UInt64.size).map UInt64.ofNat) d

instance : FromJson UInt32 where
  read _ d := readNumber (fun v => (v.natBelow? UInt32.size).map UInt32.ofNat) d

instance : FromJson Binary64 where
  read _ d := readNumber (fun v => some v.toReal) d

variable {α : Type} [FromJson α]

/-- Reads items in order. -/
def readItems (room : Nat) : List Doc → Except Fault (List α)
  | [] => .ok []
  | d :: ds => do
    let a ← FromJson.read room d
    return a :: (← readItems room ds)

instance : FromJson (List α) where
  read room
    | .array items e => do
      let as ← readItems (room - 1) items
      e.finish
      return as
    | d => .error d.refusal

instance : FromJson (Option α) where
  read room
    | .null => .ok none
    | .broken b =>
      if b.first = some 'n' then .error b.kept else some <$> FromJson.read room (.broken b)
    | d => some <$> FromJson.read room d

/-! ### Records -/

/-- A field of a record. -/
structure Field where
  /-- The name the field is filed under. -/
  name : String
  /-- Other names of the field in an object. -/
  aliases : List String := []
  /-- Accepts the values of the field. -/
  check : Doc → Except Fault Unit

/-- A field that holds a value of type `α`. -/
def Field.of (α : Type) [FromJson α] (room : Nat) (name : String) (aliases : List String := []) :
    Field where
  name := name
  aliases := aliases
  check d := do let _ ← (FromJson.read room d : Except Fault α)

/-- The fields found in a document, by name. -/
abbrev Slots := List (String × Doc)

namespace Slots

/-- The field that an object's key names. -/
def fieldNamed? (fields : List Field) (key : String) : Option Field :=
  fields.find? fun f => f.name == key || f.aliases.contains key

/-- Takes the members of an object in order. No field may occur twice; members that name no field
are passed over. -/
def ofMembers (fields : List Field) : Slots → List (List Piece × Doc) → Except Fault Slots
  | found, [] => .ok found
  | found, (key, d) :: ms => do
    let some key := Piece.text key | throw .malformed
    match fieldNamed? fields key with
    | some f =>
      if (found.lookup f.name).isSome then throw .mismatched
      f.check d
      ofMembers fields ((f.name, d) :: found) ms
    | none =>
      d.skip
      ofMembers fields found ms

/-- Takes the items of an array as the fields in order. -/
def ofItems : List Field → List Doc → Ending → Except Fault Slots
  | [], _ :: _, _ => .error .malformed
  | [], [], .closed => .ok []
  | [], [], .cut comma f _ => .error (if comma then .malformed else f)
  | _ :: _, [], e => do e.finish; return []
  | f :: fs, d :: ds, e => do
    f.check d
    return (f.name, d) :: (← ofItems fs ds e)

/-- Finds the fields of a record in an object, or in an array that has them in order. -/
def gather (fields : List Field) : Doc → Except Fault Slots
  | .object members e => do
    let found ← ofMembers fields [] members
    e.finish
    return found
  | .array items e => ofItems fields items e
  | d => .error d.refusal

/-- The value of a field that must be there. -/
def required (slots : Slots) (room : Nat) (name : String) : Except Fault α :=
  match slots.lookup name with
  | some d => FromJson.read room d
  | none => .error .mismatched

/-- The value of a field, or `dflt` where it is absent. -/
def optional (slots : Slots) (room : Nat) (name : String) (dflt : α) : Except Fault α :=
  match slots.lookup name with
  | some d => FromJson.read room d
  | none => .ok dflt

end Slots

/-! ### Choices -/

/-- Reads a variant: a text that names it, or an object with the name as its one key and the
payload as its value. `bare` gives the variants without a payload, `loaded` reads the payload of
a named variant. -/
def readChoice {α : Type} (bare : String → Except Fault α)
    (loaded : String → Doc → Except Fault α) : Doc → Except Fault α
  | .string ps => match Piece.text ps with
    | some s => bare s
    | none => .error .malformed
  | .object [] .closed => .error .malformed
  | .object [] (.cut _ f _) => .error f
  | .object ((key, d) :: more) e =>
    match Piece.text key with
    | none => .error .malformed
    | some key => do
      let a ← loaded key d
      match more, e with
      | [], .closed => return a
      | [], .cut false f _ => throw f
      | _, _ => throw .malformed
  | .broken b =>
    match b.first with
    | none => .error b.kept
    | some c => .error (if c = '"' then b.kept else .malformed)
  | _ => .error .malformed

/-! ### Whole texts -/

/-- Reads a whole text; only blanks may follow the value. -/
def decode (α : Type) [FromJson α] (text : String) : Except Fault α := do
  let (d, more) := Doc.ofText text
  let a ← FromJson.read maxDepth d
  if more then throw .malformed
  return a

end PanelClient.Json
