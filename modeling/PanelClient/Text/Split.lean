/-!
# Pieces of a text

* `split`: the pieces of a text between its separators.
-/

namespace PanelClient

/-- The pieces between the separators, one more than there are separators. -/
def split (isSeparator : Char → Bool) : List Char → List (List Char)
  | [] => [[]]
  | c :: r =>
    let ps := split isSeparator r
    if isSeparator c then [] :: ps else (c :: ps.headD []) :: ps.tail

end PanelClient
