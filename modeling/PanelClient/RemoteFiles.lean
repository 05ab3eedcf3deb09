/-!
# Remote files in memory

Files and directories of an instance, kept as a flat list of paths in the order of insertion. An
entry without content is a directory.

* `RemoteFiles`: the entries;
* `RemoteFiles.createDir`, `upload`, `get`, `list`, `delete`, `rename`: the operations.
-/

namespace PanelClient

/-- An entry of a listing. -/
structure Listed where
  /-- The path relative to the listed prefix. -/
  name : String
  isDir : Bool
  deriving DecidableEq, Repr, Inhabited

/-- Files and directories by path, in the order of insertion. -/
structure RemoteFiles where
  entries : List (String × Option (List UInt8))
  deriving DecidableEq, Repr

namespace RemoteFiles

/-- No files. -/
def empty : RemoteFiles := ⟨[]⟩

instance : Inhabited RemoteFiles := ⟨empty⟩

/-- There is an entry at the path. -/
def contains (fs : RemoteFiles) (path : String) : Bool := fs.entries.any (·.1 == path)

/-- Adds a directory unless there is an entry at the path. -/
def createDir (fs : RemoteFiles) (path : String) : RemoteFiles :=
  if fs.contains path then fs else ⟨fs.entries ++ [(path, none)]⟩

/-- Stores content at the path, last in order, in place of any entry there. -/
def upload (fs : RemoteFiles) (path : String) (content : List UInt8) : RemoteFiles :=
  ⟨fs.entries.filter (·.1 != path) ++ [(path, some content)]⟩

/-- The content at the path; a directory has none. -/
def get (fs : RemoteFiles) (path : String) : Option (List UInt8) :=
  (fs.entries.lookup path).join

/-- The rest of a row of characters after another one at its front. -/
def afterPrefix? : List Char → List Char → Option (List Char)
  | [], cs => some cs
  | _ :: _, [] => none
  | p :: ps, c :: cs => if p = c then afterPrefix? ps cs else none

/-- The entries whose path starts with a prefix, without it. -/
def list (fs : RemoteFiles) (start : String) : List Listed :=
  fs.entries.filterMap fun (path, content) =>
    (afterPrefix? start.toList path.toList).map fun rest => ⟨String.ofList rest, content.isNone⟩

/-- Removes the entry at the path, and tells whether there was one. -/
def delete (fs : RemoteFiles) (path : String) : Bool × RemoteFiles :=
  (fs.contains path, ⟨fs.entries.eraseP (·.1 == path)⟩)

/-- Renaming is refused. -/
def rename (fs : RemoteFiles) (_src _dst : String) : Bool × RemoteFiles := (false, fs)

end RemoteFiles

end PanelClient
