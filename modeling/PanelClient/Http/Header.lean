/-!
# Header fields

Fields are pairs of a name and a value; a name may occur more than once. Inside the library names
are in lower case.

* `Header.isName`, `Header.isValue`: what a field may consist of;
* `Header.values`, `Header.has`, `Header.without`: the fields of a name;
* `Header.aboutBody`, `Header.confidential`: the names that matter when a request goes elsewhere.
-/

namespace PanelClient.Header

/-- A character of a name. -/
def isNameChar (c : Char) : Bool := c.isAlphanum || "!#$%&'*+-.^_`|~".toList.contains c

/-- A name: some letters, digits and marks. -/
def isName (s : String) : Bool := !s.isEmpty && s.toList.all isNameChar

/-- A value: any text without control characters other than tabs. -/
def isValue (s : String) : Bool := s.toList.all fun c => c == '\t' || (' ' ≤ c && c != '\x7f')

/-- A name in lower case. -/
def lower (name : String) : String := String.ofList (name.toList.map Char.toLower)

/-- The values of a name, in order. -/
def values (fields : List (String × String)) (name : String) : List String :=
  (fields.filter (·.1 == name)).map (·.2)

/-- There is a field of the name. -/
def has (fields : List (String × String)) (name : String) : Bool := fields.any (·.1 == name)

/-- The fields of other names. -/
def without (fields : List (String × String)) (names : List String) : List (String × String) :=
  fields.filter fun f => !names.contains f.1

/-- Adds a field unless there is one of its name. -/
def orElse (fields : List (String × String)) (name value : String) : List (String × String) :=
  if has fields name then fields else fields ++ [(name, value)]

/-- The names that describe a body. -/
def aboutBody : List String :=
  ["content-type", "content-length", "content-encoding", "transfer-encoding"]

/-- The names that are meant for one server only. -/
def confidential : List String :=
  ["authorization", "cookie", "cookie2", "proxy-authorization", "www-authenticate"]

end PanelClient.Header
