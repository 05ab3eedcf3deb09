import PanelClient.Http.Agent
/-!
# Runs on the answers known so far

A run needs the network as a function. `replay` is one that knows the first answers: it gives them
in order and remembers the first call to which it knows none. Whoever carries that call to its
server can run again with one more answer.

* `Replay`: the answers still to give, and the call that has none;
* `replay`: the network.
-/

namespace PanelClient

/-- The answers still to give, and the first call that has none. -/
structure Replay where
  known : List (Option Answer)
  asked : Option Call := none

/-- The network that knows the first answers. -/
def replay : Network Replay := fun c r =>
  match r.asked, r.known with
  | some _, _ => (none, r)
  | none, a :: rest => (a, ⟨rest, none⟩)
  | none, [] => (none, ⟨[], some c⟩)

end PanelClient
