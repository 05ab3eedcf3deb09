/-!
# English texts

* `english`: the texts of the keys that backend and client use;
* `translate`: the text of a key, or the key itself.
-/

namespace PanelClient

/-- Keys with their English texts. -/
def english : List (String × String) := [
  ("form.username", "Username"),
  ("form.password", "Password"),
  ("form.login", "Login"),
  ("form.logout", "Logout"),
  ("nav.dropdown", "Dropdown"),
  ("nav.home", "Home"),
  ("auth.invalid", "Invalid username or password"),
  ("auth.too_many", "Too many attempt"),
  ("auth.need_reset", "You need to reset your password"),
  ("auth.success", "Logged in"),
  ("auth.logout", "Logged out"),
  ("auth.expired", "Session expired, please log in again"),
  ("server.unreachable", "Could not reach the server"),
  ("request.rejected", "The server rejected the request"),
  ("_", "This is a bug, please report")]

/-- The English text of a key, or the key itself. -/
def translate (key : String) : String := (english.lookup key).getD key

end PanelClient
