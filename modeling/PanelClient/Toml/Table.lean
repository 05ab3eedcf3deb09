import PanelClient.Toml.Scalar
/-!
# Tables under construction

A document fills its tables piece by piece: by keys, by dotted keys and by headers. What may still
be added to a table depends on how it came to be.

* `Toml.Node`, `Toml.Table`: tables as far as they are known;
* `Toml.Table.descend`: goes to a table, along a path;
* `Toml.Table.put`: adds a key;
* `Toml.Table.openTable`, `Toml.Table.openItem`: what the two kinds of header do.
-/

namespace PanelClient.Toml

mutual

/-- What a key stands for. -/
inductive Node where
  /-- A finished value. -/
  | value (v : Value)
  | table (t : Table)
  /-- A list of tables, the latest first, of which there is at least one. -/
  | tables (latest : Table) (earlier : List Table)

/-- A table as far as it is known. -/
inductive Table where
  /-- `implicit`: no header has named it; `dotted`: a dotted key has made it. -/
  | mk (implicit dotted : Bool) (entries : List (String × Node))

end

namespace Table

/-- No header has named the table. -/
def implicit : Table → Bool
  | .mk i _ _ => i

/-- A dotted key has made the table. -/
def dotted : Table → Bool
  | .mk _ d _ => d

/-- Keys and what they stand for. -/
def entries : Table → List (String × Node)
  | .mk _ _ es => es

/-- The same table with other entries. -/
def withEntries (t : Table) (es : List (String × Node)) : Table := .mk t.implicit t.dotted es

instance : Inhabited Table := ⟨.mk false false []⟩

/-- The table of a header, at first. -/
def fresh : Table := .mk false false []

/-- Replaces what a key stands for. -/
def set (t : Table) (key : String) (n : Node) : Table :=
  t.withEntries (t.entries.map fun (k, m) => if k = key then (k, n) else (k, m))

/-- Adds a new key. -/
def add (t : Table) (key : String) (n : Node) : Table := t.withEntries (t.entries ++ [(key, n)])

/-- Changes the table at a path, which is made where it is missing. A dotted key does not enter a
table that a header has named, and nothing enters a finished value. Of a list of tables the latest
is meant. -/
def descend (viaDots : Bool) : List String → (Table → Option Table) → Table → Option Table
  | [], f, t => f t
  | k :: ks, f, t =>
    match t.entries.lookup k with
    | none => do
      let sub ← descend viaDots ks f (.mk true viaDots [])
      return t.add k (.table sub)
    | some (.table sub) =>
      if viaDots && !sub.implicit then none
      else do
        let sub ← descend viaDots ks f sub
        return t.set k (.table sub)
    | some (.tables latest earlier) => do
      let latest ← descend viaDots ks f latest
      return t.set k (.tables latest earlier)
    | some (.value _) => none

/-- Adds a value under a dotted key. A table is filled either by dotted keys or by plain ones. -/
def put (path : List String) (key : String) (v : Value) (t : Table) : Option Table :=
  descend (!path.isEmpty) path (fun t =>
    if t.dotted = !path.isEmpty ∧ (t.entries.lookup key).isNone then some (t.add key (.value v))
    else none) t

/-- Opens the table that a header names. A table can be named once. -/
def openTable (path : List String) (key : String) : Table → Option Table :=
  descend false path fun t =>
    match t.entries.lookup key with
    | none => some (t.add key (.table fresh))
    | some (.table sub) =>
      if sub.implicit && !sub.dotted then some (t.set key (.table (.mk false false sub.entries)))
      else none
    | some _ => none

/-- Opens one more table of the list that a header names. -/
def openItem (path : List String) (key : String) : Table → Option Table :=
  descend false path fun t =>
    match t.entries.lookup key with
    | none => some (t.add key (.tables fresh []))
    | some (.tables latest earlier) => some (t.set key (.tables fresh (latest :: earlier)))
    | some _ => none

end Table

/-! ### Finished tables -/

mutual

/-- The value of a finished table. -/
def Table.toValue : Table → Value
  | .mk _ _ es => .table (entriesToValue es)

/-- The values of finished entries. -/
def entriesToValue : List (String × Node) → List (String × Value)
  | [] => []
  | (k, n) :: es => (k, n.toValue) :: entriesToValue es

/-- The value of a finished node. -/
def Node.toValue : Node → Value
  | .value v => v
  | .table t => t.toValue
  | .tables latest earlier => .array ((latest.toValue :: tablesToValue earlier).reverse)

/-- The values of finished tables. -/
def tablesToValue : List Table → List Value
  | [] => []
  | t :: ts => t.toValue :: tablesToValue ts

end

end PanelClient.Toml
