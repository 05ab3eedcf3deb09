import PanelClient.Json.Token
/-!
# Documents: the shape of a JSON text

The tokens of a text are folded into a tree. A text that breaks off, or goes wrong, still has a
tree: that of everything before the fault, with the fault at the place where it was met. Reading
the tree from left to right therefore meets the same fault, at the same moment, as reading the
text would, and what is read into is chosen later.

* `Doc`: the tree;
* `Ending`: how a row of items or members ends;
* `Reader`: a reader between two tokens, `Reader.step` takes one token;
* `Doc.ofText`: the tree of a text, and whether more text follows it.
-/

namespace PanelClient.Json

/-- How a row of items or members ends. -/
inductive Ending where
  /-- At its closing bracket. -/
  | closed
  /-- It is cut off; `comma` tells that this happens after a comma. The faults are those of
  reading the row and of passing over it. -/
  | cut (comma : Bool) (kept skipped : Fault)
  deriving DecidableEq, Repr, Inhabited

/-- The tree of a JSON text. -/
inductive Doc where
  | null
  | bool (b : Bool)
  | number (n : Numeral)
  | string (ps : List Piece)
  | array (items : List Doc) (ending : Ending)
  | object (members : List (List Piece × Doc)) (ending : Ending)
  | broken (b : Breakage)
  deriving Repr, Inhabited

/-- An array or object that has been opened and not closed, with what it holds so far, the latest
first. -/
inductive Frame where
  | array (items : List Doc)
  | object (members : List (List Piece × Doc))
  /-- An object in which the value of `key` is being read. -/
  | member (members : List (List Piece × Doc)) (key : List Piece)
  deriving Inhabited

namespace Frame

/-- Adds an item or the value of a member. -/
def add : Frame → Doc → Frame
  | .array items, d => .array (d :: items)
  | .object members, _ => .object members
  | .member members key, d => .object ((key, d) :: members)

/-- The tree of what a frame holds. -/
def toDoc (e : Ending) : Frame → Doc
  | .array items => .array items.reverse e
  | .object members => .object members.reverse e
  | .member members _ => .object members.reverse e

end Frame

namespace Doc

/-- A value that is wrong however it is looked at. -/
def faulty (first : Option Char) (f : Fault) : Doc := .broken ⟨first, f, f⟩

/-- The tree in which `d` holds a fault and stands inside the open frames. -/
def within : List Frame → Doc → Doc
  | [], d => d
  | f :: fs, d => within fs ((f.add d).toDoc (.cut false .truncated .truncated))

/-- The tree of open frames of which the innermost is cut off. -/
def cutOff (comma : Bool) (kept skipped : Fault) : List Frame → Doc
  | [] => faulty none kept
  | f :: fs => within fs (f.toDoc (.cut comma kept skipped))

end Doc

/-! ### Reading tokens -/

/-- A reader between two tokens. -/
inductive Reader where
  /-- A value must follow. -/
  | value (opened : List Frame)
  /-- An item, or the end of an array without items, must follow. -/
  | firstItem (opened : List Frame)
  /-- An item must follow, after a comma. -/
  | nextItem (opened : List Frame)
  /-- A comma or the end of the innermost frame must follow. -/
  | between (opened : List Frame)
  /-- A key, or the end of an object without members, must follow. -/
  | firstKey (opened : List Frame)
  /-- A key must follow, after a comma. -/
  | nextKey (opened : List Frame)
  /-- The colon after `key` must follow. -/
  | colon (opened : List Frame) (members : List (List Piece × Doc)) (key : List Piece)
  /-- The text is complete. -/
  | complete (d : Doc)
  /-- More text stands after the complete one. -/
  | trailing (d : Doc)
  /-- The text has a fault. -/
  | stuck (d : Doc)
  deriving Inhabited

namespace Reader

/-- A value has been read inside the open frames. -/
def place : List Frame → Doc → Reader
  | [], d => .complete d
  | f :: fs, d => .between (f.add d :: fs)

/-- A value starts with the token. -/
def start (fs : List Frame) : Token → Reader
  | .null => place fs .null
  | .bool b => place fs (.bool b)
  | .number n => place fs (.number n)
  | .string ps => place fs (.string ps)
  | .openArray => .firstItem (.array [] :: fs)
  | .openObject => .firstKey (.object [] :: fs)
  | .broken b => .stuck (.within fs (.broken b))
  | .closeArray => .stuck (.within fs (.faulty (some ']') .malformed))
  | .closeObject => .stuck (.within fs (.faulty (some '}') .malformed))
  | .comma => .stuck (.within fs (.faulty (some ',') .malformed))
  | .colon => .stuck (.within fs (.faulty (some ':') .malformed))

/-- A key starts with the token. -/
def key (comma : Bool) : List Frame → Token → Reader
  | .object members :: fs, .string ps => .colon fs members ps
  | fs, .broken b =>
    if b.first = some '"' then .stuck (.cutOff comma b.kept b.skipped fs)
    else .stuck (.cutOff comma .malformed .malformed fs)
  | fs, _ => .stuck (.cutOff comma .malformed .malformed fs)

/-- The innermost frame is closed. -/
def close : List Frame → Reader
  | [] => .stuck (.faulty none .malformed)
  | f :: fs => place fs (f.toDoc .closed)

/-- The reader after one more token. -/
def step : Reader → Token → Reader
  | .value fs, t => start fs t
  | .firstItem fs, .closeArray => close fs
  | .firstItem fs, t => start fs t
  | .nextItem fs, .closeArray => .stuck (.cutOff true .malformed .malformed fs)
  | .nextItem fs, t => start fs t
  | .between (.array items :: fs), .comma => .nextItem (.array items :: fs)
  | .between (.array items :: fs), .closeArray => close (.array items :: fs)
  | .between (.object members :: fs), .comma => .nextKey (.object members :: fs)
  | .between (.object members :: fs), .closeObject => close (.object members :: fs)
  | .between fs, _ => .stuck (.cutOff false .malformed .malformed fs)
  | .firstKey fs, .closeObject => close fs
  | .firstKey fs, t => key false fs t
  | .nextKey fs, t => key true fs t
  | .colon fs members k, .colon => .value (.member members k :: fs)
  | .colon fs members k, _ =>
    .stuck (.within (.member members k :: fs) (.faulty none .malformed))
  | .complete d, _ => .trailing d
  | .trailing d, _ => .trailing d
  | .stuck d, _ => .stuck d

/-- The tree when no more tokens follow. -/
def finish : Reader → Doc
  | .value fs => .within fs (.faulty none .truncated)
  | .firstItem fs => .cutOff false .truncated .truncated fs
  | .nextItem fs => .cutOff true .truncated .truncated fs
  | .between fs => .cutOff false .truncated .truncated fs
  | .firstKey fs => .cutOff false .truncated .truncated fs
  | .nextKey fs => .cutOff true .truncated .truncated fs
  | .colon fs members k => .within (.member members k :: fs) (.faulty none .truncated)
  | .complete d => d
  | .trailing d => d
  | .stuck d => d

/-- More text stands after the complete one. -/
def hasTrailing : Reader → Bool
  | .trailing _ => true
  | _ => false

end Reader

/-- The tree of a text, and whether more text follows it. -/
def Doc.ofText (text : String) : Doc × Bool :=
  let r := (Token.scan text.toList).foldl Reader.step (.value [])
  (r.finish, r.hasTrailing)

end PanelClient.Json
