/-!
# Routes

The front end is on one route at a time. What the rest of the library may do is to look at the
route and to replace it.

* `Navigator`: the route and every replacement so far;
* `Navigator.replace`: goes to another route.
-/

namespace PanelClient

/-- A front end with a route. -/
structure Navigator where
  /-- The present route. -/
  route : String
  /-- Every route that was asked for, the oldest first. -/
  replaced : List String
  /-- The front end never leaves its route, whatever it is asked. -/
  pinned : Bool
  deriving DecidableEq, Repr, Inhabited

namespace Navigator

/-- A front end on a route. -/
def on (route : String) (pinned : Bool := false) : Navigator := ⟨route, [], pinned⟩

/-- Asks for another route. -/
def replace (n : Navigator) (target : String) : Navigator :=
  { n with
    route := if n.pinned then n.route else target
    replaced := n.replaced ++ [target] }

end Navigator

end PanelClient
