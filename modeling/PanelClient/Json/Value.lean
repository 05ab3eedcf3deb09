import PanelClient.Number.Decimal
import PanelClient.Json.Read
/-!
# JSON values and their text

* `Value`: a JSON value; the members of an object stand in the order in which they are written;
* `Value.ofDoc`: the value of a document, with the members of objects sorted by key and the last of
  several equal keys kept;
* `Value.render`: the compact text of a value;
* `ToJson`, `encode`: types with a value, and their text.
-/

namespace PanelClient.Json

/-- A JSON value. -/
inductive Value where
  | null
  | bool (b : Bool)
  | number (n : Number)
  | string (s : String)
  | array (items : List Value)
  | object (members : List (String × Value))
  deriving Repr, Inhabited

namespace Value

/-- A whole number as a value. -/
def int (i : Int) : Value := .number (.int i)

/-! ### Values of documents -/

/-- Puts a member in its place by key; an equal key is replaced. -/
def insert (key : String) (v : Value) : List (String × Value) → List (String × Value)
  | [] => [(key, v)]
  | (k, w) :: ms =>
    if key < k then (key, v) :: (k, w) :: ms
    else if key = k then (key, v) :: ms
    else (k, w) :: insert key v ms

mutual

/-- The value of a document that may hold `room` levels of arrays and objects. -/
def ofDoc (room : Nat) : Doc → Except Fault Value
  | .null => .ok .null
  | .bool b => .ok (.bool b)
  | .number n => match n.value? with
    | some v => .ok (.number v)
    | none => .error .malformed
  | .string ps => match Piece.text ps with
    | some s => .ok (.string s)
    | none => .error .malformed
  | .array items e =>
    if room = 0 then .error .malformed
    else do
      let vs ← ofItems (room - 1) items
      e.finish
      return .array vs
  | .object members e =>
    if room = 0 then .error .malformed
    else do
      let ms ← ofMembers (room - 1) [] members
      e.finish
      return .object ms
  | .broken b => .error b.kept

/-- The values of items in order. -/
def ofItems (room : Nat) : List Doc → Except Fault (List Value)
  | [] => .ok []
  | d :: ds => do
    let v ← ofDoc room d
    return v :: (← ofItems room ds)

/-- The members with their values, added to those already in place. -/
def ofMembers (room : Nat) (done : List (String × Value)) :
    List (List Piece × Doc) → Except Fault (List (String × Value))
  | [] => .ok done
  | (key, d) :: ms => match Piece.text key with
    | none => .error .malformed
    | some key => do
      let v ← ofDoc room d
      ofMembers room (insert key v done) ms

end

instance : FromJson Value where
  read := ofDoc

/-! ### Text of values -/

/-- A hexadecimal digit, in lower case. -/
def hexDigit (n : Nat) : Char := (Nat.toDigits 16 n).headD '0'

/-- A character as it stands between quotes. -/
def escape (c : Char) : List Char :=
  match c with
  | '"' => ['\\', '"']
  | '\\' => ['\\', '\\']
  | '\x08' => ['\\', 'b']
  | '\x0c' => ['\\', 'f']
  | '\n' => ['\\', 'n']
  | '\r' => ['\\', 'r']
  | '\t' => ['\\', 't']
  | c =>
    if c < ' ' then ['\\', 'u', '0', '0', hexDigit (c.toNat / 16), hexDigit (c.toNat % 16)]
    else [c]

/-- A text between quotes. -/
def quoted (s : String) : List Char := '"' :: s.toList.flatMap escape ++ ['"']

/-- The text of a number. -/
def renderNumber : Number → List Char
  | .int i => (toString i).toList
  | .real x => x.toText.toList

mutual

/-- The compact text of a value. -/
def renderChars : Value → List Char
  | .null => ['n', 'u', 'l', 'l']
  | .bool true => ['t', 'r', 'u', 'e']
  | .bool false => ['f', 'a', 'l', 's', 'e']
  | .number n => renderNumber n
  | .string s => quoted s
  | .array items => '[' :: renderItems items ++ [']']
  | .object members => '{' :: renderMembers members ++ ['}']

/-- The items with commas between them. -/
def renderItems : List Value → List Char
  | [] => []
  | [v] => renderChars v
  | v :: vs => renderChars v ++ ',' :: renderItems vs

/-- The members with commas between them. -/
def renderMembers : List (String × Value) → List Char
  | [] => []
  | [(k, v)] => quoted k ++ ':' :: renderChars v
  | (k, v) :: ms => quoted k ++ ':' :: renderChars v ++ ',' :: renderMembers ms

end

/-- The compact text of a value. -/
def render (v : Value) : String := String.ofList v.renderChars

end Value

/-! ### Types with a value -/

/-- Types that are written as JSON values. -/
class ToJson (α : Type) where
  toValue : α → Value

export ToJson (toValue)

instance : ToJson Value := ⟨id⟩
instance : ToJson String := ⟨.string⟩
instance : ToJson Bool := ⟨.bool⟩
instance : ToJson Unit := ⟨fun _ => .null⟩
instance : ToJson UInt64 := ⟨fun n => .int n.toNat⟩
instance : ToJson UInt32 := ⟨fun n => .int n.toNat⟩
instance : ToJson Binary64 := ⟨fun x => .number (.real x)⟩
instance {α : Type} [ToJson α] : ToJson (List α) := ⟨fun xs => .array (xs.map toValue)⟩
instance {α : Type} [ToJson α] : ToJson (Option α) := ⟨fun x => (x.map toValue).getD .null⟩

/-- The compact text of a value of a type. -/
def encode {α : Type} [ToJson α] (a : α) : String := (toValue a).render

end PanelClient.Json
