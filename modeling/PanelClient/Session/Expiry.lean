import PanelClient.Session.Navigator
import PanelClient.Text.Percent
import PanelClient.Text.Replace
/-!
# Expired sessions

When the session has expired, the user is sent to the login route; the route that they were on goes
along in the parameter `next`.

* `pathOf`: a route without query and fragment;
* `ExpiryPolicy`: the login route;
* `ExpiryPolicy.target`: where a user on a given route is sent;
* `ExpiryPolicy.expire`: sends the user to the login route, unless they are there.
-/

namespace PanelClient

/-- A route up to its query or fragment. -/
def pathOf (route : String) : String :=
  String.ofList (route.toList.takeWhile fun c => c != '?' && c != '#')

/-- What to do when the session has expired. -/
structure ExpiryPolicy where
  /-- The route of the login page. -/
  loginRoute : String
  deriving DecidableEq, Repr

namespace ExpiryPolicy

/-- The login page is at `/login`. -/
def standard : ExpiryPolicy := ⟨"/login"⟩

instance : Inhabited ExpiryPolicy := ⟨standard⟩

variable (p : ExpiryPolicy)

/-- A route written into a query: it is percent-encoded, and slashes are made readable again. -/
def writtenNext (route : String) : List Char :=
  replace ['%', '2', 'F'] ['/'] (Percent.encode route).toList

/-- Where a user on `route` is sent. -/
def target (route : String) : String :=
  p.loginRoute ++ "?next=" ++ String.ofList (writtenNext route)

/-- The route is that of the login page. -/
def onLogin (route : String) : Bool := pathOf route == p.loginRoute

/-- Sends the user to the login page unless they are there, and tells whether it did. -/
def expire (n : Navigator) : Bool × Navigator :=
  if p.onLogin n.route then (false, n) else (true, n.replace (p.target n.route))

end ExpiryPolicy

end PanelClient
