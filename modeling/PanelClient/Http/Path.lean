/-!
# Segments of a path

* `Path.resolve`: carries out the segments `.` and `..`;
* `Path.join`: the path of segments.
-/

namespace PanelClient

namespace Path

/-- Goes through the segments of a path; `above` holds those passed and still in place, the last
first. `..` takes one of them away, `.` does nothing, and at the end of the path both leave a slash.
`read` says how a segment reads. -/
def resolveFrom (read : List Char → List Char) (above : List (List Char)) :
    List (List Char) → List (List Char)
  | [] => above.reverse
  | s :: rest =>
    let close (ss : List (List Char)) : List (List Char) := if rest.isEmpty then [] :: ss else ss
    if read s = ['.', '.'] then resolveFrom read (close above.tail) rest
    else if read s = ['.'] then resolveFrom read (close above) rest
    else resolveFrom read (s :: above) rest

/-- The segments of a path without its dot segments. -/
def resolve (read : List Char → List Char) (segments : List (List Char)) : List (List Char) :=
  resolveFrom read [] segments

/-- The path of segments: a slash stands before each. -/
def join (segments : List (List Char)) : List Char := segments.flatMap ('/' :: ·)

end Path

end PanelClient
