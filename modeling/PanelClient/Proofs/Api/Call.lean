import PanelClient.Api.Client
import PanelClient.Proofs.Session.Visits

/-!
# Calls as data

Whatever a front end can ask of a client is one call. Calls differ in their requests and in what they
make of the response, but all send their request in one way, and all but the pings react to an expired
session in one way.

* `Client.Call` : the calls, with the request of each (`Client.Call.request`), what it comes to
  (`Client.Call.Answer`) and how it is made (`Client.Call.make`);
* `Client.settle` : the world after a request of which the response is looked at;
* `Client.Call.make_snd` : the world after a call is that after its request, once the user was told.
-/

namespace PanelClient

open Json

theorem World.notify_id {σ : Type} (w : World σ) : w.notify id = w := by
  cases w
  simp [notify]

namespace Client

/-- What can be asked of a client. -/
inductive Call : Type 1 where
  | ping
  | pingUrl (url : String)
  | login (username password : String)
  | logout
  | currentUser
  | listInstances
  | instance (name : String)
  | createInstance (name : String) (type : InstanceType) (version : String)
  | deleteInstance (name : String)
  | systemInfo
  | exchange (α : Type) [FromJson α] (q : Request)

variable {σ : Type} (c : Client σ) (w : World σ)

namespace Call

/-- What a call comes to. -/
def Answer : Call → Type
  | .ping => Bool
  | .pingUrl _ => Bool
  | .login _ _ => Except ApiError LoginOutcome
  | .logout => Except ApiError Unit
  | .currentUser => Except ApiError User
  | .listInstances => Except ApiError (List String)
  | .instance _ => Except ApiError Instance
  | .createInstance _ _ _ => Except ApiError Instance
  | .deleteInstance _ => Except ApiError Unit
  | .systemInfo => Except ApiError SystemInfo
  | @exchange α _ _ => Except ApiError (Option α)

/-- The request that a call sends. -/
def request : Call → Request
  | .ping => .get (c.url "/auth/ping")
  | .pingUrl url => .get url
  | .login username password =>
    .post (c.url "/auth/login") (encode (⟨username, password, true⟩ : Credentials))
  | .logout => .get (c.url "/auth/logout")
  | .currentUser => .get (c.url "/user")
  | .listInstances => .get (c.url "/instance/")
  | .instance name => .get (c.instanceUrl name)
  | .createInstance name type version =>
    .post (c.instanceUrl name) (encode (⟨type, version⟩ : NewInstance))
  | .deleteInstance name => .delete (c.instanceUrl name)
  | .systemInfo => .get (c.url "/info")
  | @exchange _ _ q => q

/-- Makes a call. -/
def make : (k : Call) → k.Answer × World σ
  | .ping => c.ping w
  | .pingUrl url => c.pingUrl w url
  | .login username password => c.login w username password
  | .logout => c.logout w
  | .currentUser => c.currentUser w
  | .listInstances => c.listInstances w
  | .instance name => c.instance w name
  | .createInstance name type version => c.createInstance w name type version
  | .deleteInstance name => c.deleteInstance w name
  | .systemInfo => c.systemInfo w
  | @exchange α _ q => c.exchange α w q

/-- The call only tries whether it is answered. -/
def isPing : Call → Bool
  | .ping => true
  | .pingUrl _ => true
  | _ => false

/-- The call is a ping that was not answered. -/
def PingFailed : (k : Call) → k.Answer → Prop
  | .ping, alive => alive = false
  | .pingUrl _, alive => alive = false
  | _, _ => False

/-- The call has closed the session. -/
def LoggedOut : (k : Call) → k.Answer → Prop
  | .logout, answer => answer = .ok ()
  | _, _ => False

/-- What a ping tells the user. -/
def warns (alive : Bool) : Center → Center := if alive then id else (·.alert "server.unreachable")

/-- What a call tells the user. -/
def tells : (k : Call) → k.Answer → Center → Center
  | .ping, alive => warns alive
  | .pingUrl _, alive => warns alive
  | .logout, .ok () => (·.notifyFast "auth.logout")
  | _, _ => id

end Call

/-! ### Requests -/

/-- The response to a request, if there is one. -/
def answer (q : Request) : Except NoResponse Response := (c.transport q w.link).1

/-- The world after a request was sent. -/
def sending (q : Request) : World σ :=
  { w with link := (c.transport q w.link).2, sent := w.sent ++ [q] }

/-- The world after a request of which the response is looked at. -/
def settle (q : Request) : World σ :=
  match c.answer w q with
  | .error _ => c.sending w q
  | .ok r => c.react (c.sending w q) r

variable {c w} {α : Type} [FromJson α] {q : Request}

omit [FromJson α] in
theorem send_eq : c.send w q = (c.answer w q, c.sending w q) := rfl

theorem exchange_snd : (c.exchange α w q).2 = c.settle w q := by
  rw [exchange, send_eq, settle]
  cases c.answer w q <;> rfl

theorem fetch_snd : (c.fetch α w q).2 = c.settle w q := by
  rw [← exchange_snd (α := α), fetch]
  match c.exchange α w q with
  | (.ok (some _), _) => rfl
  | (.ok none, _) => rfl
  | (.error _, _) => rfl

theorem perform_snd : (c.perform w q).2 = c.settle w q := by
  rw [← exchange_snd (α := Value), perform]
  match c.exchange Value w q with
  | (.ok _, _) => rfl
  | (.error _, _) => rfl

theorem login_snd (username password : String) : (c.login w username password).2 =
    c.settle w ((Call.login username password).request c) := by
  rw [← exchange_snd (α := Value), login, Call.request]
  split <;> rename_i h <;> rw [h]

/-! ### Calls -/

theorem pingUrl_snd (url : String) : (c.pingUrl w url).2 =
    (c.sending w (.get url)).notify (Call.warns (c.pingUrl w url).1) := by
  have hping : c.pingUrl w url = if alive (c.answer w (.get url)) then (true, c.sending w (.get url))
      else (false, (c.sending w (.get url)).notify (·.alert "server.unreachable")) := rfl
  rw [hping]
  split
  · rw [Call.warns, if_pos rfl, World.notify_id]
  · rw [Call.warns, if_neg Bool.false_ne_true]

theorem logout_snd : (c.logout w).2 =
    (c.settle w (Call.logout.request c)).notify (Call.logout.tells (c.logout w).1) := by
  rw [← perform_snd, logout, Call.request]
  match c.perform w (.get (c.url "/auth/logout")) with
  | (.ok (), _) => rfl
  | (.error _, w') => exact (World.notify_id w').symm

namespace Call

/-- **The world after a call.** The request is sent, an expired session is dealt with unless the call
is a ping, and the user is told. -/
theorem make_snd (k : Call) : (k.make c w).2 =
    (if k.isPing then c.sending w (k.request c) else c.settle w (k.request c)).notify
      (k.tells (k.make c w).1) := by
  cases k with
  | ping => exact pingUrl_snd _
  | pingUrl url => exact pingUrl_snd url
  | logout => exact logout_snd
  | login username password => exact (login_snd username password).trans (World.notify_id _).symm
  | currentUser => exact fetch_snd.trans (World.notify_id _).symm
  | listInstances => exact fetch_snd.trans (World.notify_id _).symm
  | «instance» name => exact fetch_snd.trans (World.notify_id _).symm
  | createInstance name type version => exact fetch_snd.trans (World.notify_id _).symm
  | deleteInstance name => exact perform_snd.trans (World.notify_id _).symm
  | systemInfo => exact fetch_snd.trans (World.notify_id _).symm
  | exchange α q => exact exchange_snd.trans (World.notify_id _).symm

end Call

end Client

end PanelClient
