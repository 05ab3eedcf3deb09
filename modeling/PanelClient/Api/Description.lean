import PanelClient.Api.Client
import PanelClient.Text.Quoted
/-!
# Describing how responses are handled

* `Client.describe`: the handling of responses in one line, for diagnostics.
-/

namespace PanelClient

/-- A policy in one line. -/
def ExpiryPolicy.describe (p : ExpiryPolicy) : String :=
  "SessionExpiryPolicy \x7b login_route: " ++ Quoted.quote p.loginRoute ++ ", .. \x7d"

/-- How a client handles responses in one line: its policy, and whether the user is told. -/
def Client.describe {σ : Type} (c : Client σ) (w : World σ) : String :=
  let policy := match c.policy with
    | some p => "Some(" ++ p.describe ++ ")"
    | none => "None"
  "ResponseInterceptor \x7b session_policy: " ++ policy ++ ", notifier: "
    ++ toString w.notifier.isSome ++ ", .. \x7d"

end PanelClient
