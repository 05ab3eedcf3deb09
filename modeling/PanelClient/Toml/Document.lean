import PanelClient.Toml.Table
/-!
# TOML documents

* `Toml.value`: a value at the front of a text;
* `Toml.parse`: the table of a document, if the text is one.
-/

namespace PanelClient.Toml

/-- Values may stand this deep inside arrays and inline tables. -/
def maxDepth : Nat := 80

mutual

/-- A value at the front of a text, `depth` levels inside others. The first argument bounds the
steps taken; the length of the text is enough. -/
def value : Nat → Nat → List Char → Option (Value × List Char)
  | 0, _, _ => none
  | n + 1, depth, text =>
    match text with
    | '"' :: _ => (string text).map fun (s, r) => (.string s, r)
    | '\'' :: _ => (string text).map fun (s, r) => (.string s, r)
    | '[' :: r =>
      if depth < maxDepth then (items n (depth + 1) r).map fun (vs, r) => (.array vs, r) else none
    | '{' :: r =>
      if depth < maxDepth then
        (entries n (depth + 1) .fresh r).map fun (t, r) => (t.toValue, r)
      else none
    | _ => scalar text

/-- The items of an array, after its bracket or a comma. -/
def items : Nat → Nat → List Char → Option (List Value × List Char)
  | 0, _, _ => none
  | n + 1, depth, text => do
    match ← skipGap false text with
    | ']' :: r => return ([], r)
    | r =>
      let (v, r) ← value n depth r
      match ← skipGap false r with
      | ',' :: r =>
        let (vs, r) ← items n depth r
        return (v :: vs, r)
      | ']' :: r => return ([v], r)
      | _ => none

/-- The entries of an inline table, after its brace or a comma. -/
def entries : Nat → Nat → Table → List Char → Option (Table × List Char)
  | 0, _, _, _ => none
  | n + 1, depth, t, text => do
    match ← skipGap false text with
    | '}' :: r => return (t, r)
    | r =>
      let ((path, key), r) ← keyPath r
      match r with
      | '=' :: r =>
        let (v, r) ← value n depth (skipBlank r)
        let t ← t.put path key v
        match ← skipGap false r with
        | ',' :: r => entries n depth t r
        | '}' :: r => return (t, r)
        | _ => none
      | _ => none

end

/-- A header in brackets: its path and key, and whether it names a list of tables. -/
def header (text : List Char) : Option ((List String × String × Bool) × List Char) := do
  match text with
  | '[' :: '[' :: r =>
    let ((path, key), r) ← keyPath r
    match r with
    | ']' :: ']' :: r => return ((path, key, true), r)
    | _ => none
  | '[' :: r =>
    let ((path, key), r) ← keyPath r
    match r with
    | ']' :: r => return ((path, key, false), r)
    | _ => none
  | _ => none

/-- Fills the root table from the lines of a text. `here` is the path of the table that the last
header has opened; the first argument bounds the number of lines. -/
def lines : Nat → List String → Table → List Char → Option Table
  | 0, _, _, _ => none
  | n + 1, here, root, text => do
    match ← skipGap false text with
    | [] => return root
    | '[' :: r =>
      let ((path, key, isList), r) ← header ('[' :: r)
      let root ← if isList then root.openItem path key else root.openTable path key
      lines n (path ++ [key]) root (← lineEnd r)
    | r =>
      let ((path, key), r) ← keyPath r
      match r with
      | '=' :: r =>
        let (v, r) ← value (r.length + 1) 0 (skipBlank r)
        let root ← root.descend false here (·.put path key v)
        lines n here root (← lineEnd r)
      | _ => none

/-- The table of a document. A byte order mark at its front is left out. -/
def parse (text : String) : Option (List (String × Value)) :=
  let cs := match text.toList with
    | '\ufeff' :: cs => cs
    | cs => cs
  match (lines (cs.length + 1) [] .fresh cs).map Table.toValue with
  | some (.table es) => some es
  | _ => none

end PanelClient.Toml
