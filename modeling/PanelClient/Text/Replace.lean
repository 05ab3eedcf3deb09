/-!
# Replacing

* `replace`: every occurrence of a pattern in a text, replaced.
-/

namespace PanelClient

/-- Passes over `skip` characters, then replaces the occurrences of a pattern from left to right. -/
def replaceFrom (pattern new : List Char) : Nat → List Char → List Char
  | _, [] => []
  | skip + 1, _ :: r => replaceFrom pattern new skip r
  | 0, c :: r =>
    if pattern.isPrefixOf (c :: r) then new ++ replaceFrom pattern new (pattern.length - 1) r
    else c :: replaceFrom pattern new 0 r

/-- Replaces the occurrences of a pattern that is not empty, from left to right; those replaced do
not overlap, and what is put in is not looked at again. -/
def replace (pattern new text : List Char) : List Char := replaceFrom pattern new 0 text

end PanelClient
