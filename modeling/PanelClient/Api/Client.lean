import PanelClient.Api.Error
import PanelClient.Api.Models
import PanelClient.Notification.Center
import PanelClient.Session.Expiry
/-!
# Calls to the backend

* `World`: what a call can touch: the transport, the front end and the notifications;
* `Client`: the address of the backend, how to reach it and what to do when the session expires;
* `Client.exchange`: sends a request and says what the response means; a response to an expired
  session sends the user to the login page;
* `Client.ping`: is the backend alive;
* `Client.login` … `Client.systemInfo`: the endpoints.
-/

namespace PanelClient

open Json

/-- What a call can touch. -/
structure World (σ : Type) where
  /-- The state of the transport. -/
  link : σ
  /-- The requests sent, the oldest first. -/
  sent : List Request
  navigator : Navigator
  /-- The notifications, if the user is told about calls. -/
  notifier : Option Center

/-- A client of one backend. -/
structure Client (σ : Type) where
  /-- The address of the backend, without slashes at its end. -/
  baseUrl : String
  transport : Transport σ
  /-- What to do when the session has expired. -/
  policy : Option ExpiryPolicy

/-- How a login ended. -/
inductive LoginOutcome where
  | success
  /-- Refused; the key says why. -/
  | rejected (key : String)
  deriving DecidableEq, Repr, Inhabited

/-- A text without the slashes at its end. -/
def trimSlashes (s : String) : String :=
  String.ofList (s.toList.reverse.dropWhile (· == '/')).reverse

namespace World

variable {σ : Type} (w : World σ)

/-- Changes the notifications, if there are any. -/
def notify (f : Center → Center) : World σ := { w with notifier := w.notifier.map f }

end World

namespace Client

variable {σ : Type}

/-- A client of the backend at an address. -/
def make (address : String) (transport : Transport σ) (policy : Option ExpiryPolicy) : Client σ :=
  ⟨trimSlashes address, transport, policy⟩

variable (c : Client σ)

/-! ### Exchanges -/

/-- Sends a request. -/
def send (w : World σ) (r : Request) : Except NoResponse Response × World σ :=
  let (answer, link) := c.transport r w.link
  (answer, { w with link, sent := w.sent ++ [r] })

/-- Sends the user to the login page when the response says that the session has expired. -/
def react (w : World σ) (r : Response) : World σ :=
  if r.expired then
    match c.policy with
    | some p => { w with navigator := (p.expire w.navigator).2 }
    | none => w
  else w

/-- Sends a request and says what the response means. -/
def exchange (α : Type) [FromJson α] (w : World σ) (r : Request) :
    Except ApiError (Option α) × World σ :=
  match c.send w r with
  | (.error e, w) => (.error (.unreachable e), w)
  | (.ok response, w) => (response.outcome α, c.react w response)

/-- Sends a request that is answered with a result. -/
def fetch (α : Type) [FromJson α] (w : World σ) (r : Request) : Except ApiError α × World σ :=
  match c.exchange α w r with
  | (.ok (some a), w) => (.ok a, w)
  | (.ok none, w) => (.error .missingResult, w)
  | (.error e, w) => (.error e, w)

/-- Sends a request of which only success or failure counts. -/
def perform (w : World σ) (r : Request) : Except ApiError Unit × World σ :=
  match c.exchange Value w r with
  | (.ok _, w) => (.ok (), w)
  | (.error e, w) => (.error e, w)

/-- The answer says that the backend is alive: any status below 500 does. -/
def alive : Except NoResponse Response → Bool
  | .ok r => r.status < 500
  | .error _ => false

/-- Tries whether a URL is answered; the user is warned if it is not. -/
def pingUrl (w : World σ) (url : String) : Bool × World σ :=
  let (answer, w) := c.send w (.get url)
  if alive answer then (true, w) else (false, w.notify (·.alert "server.unreachable"))

/-! ### Endpoints -/

/-- The URL of an endpoint. -/
def url (path : String) : String := c.baseUrl ++ "/api/v1" ++ path

/-- The URL of an instance. -/
def instanceUrl (name : String) : String := c.url ("/instance/" ++ Percent.encode name)

/-- Is the backend alive? -/
def ping (w : World σ) : Bool × World σ := c.pingUrl w (c.url "/auth/ping")

/-- The key for a refused login without a reason. -/
def refusedLogin : String := "auth.invalid"

/-- Opens a session, kept in a cookie. -/
def login (w : World σ) (username password : String) : Except ApiError LoginOutcome × World σ :=
  let credentials : Credentials := ⟨username, password, true⟩
  match c.exchange Value w (.post (c.url "/auth/login") (encode credentials)) with
  | (.ok _, w) => (.ok .success, w)
  | (.error (.remoteFailure message _), w) => (.ok (.rejected (message.getD refusedLogin)), w)
  | (.error (.clientError 403 message), w) => (.ok (.rejected (message.getD refusedLogin)), w)
  | (.error e, w) => (.error e, w)

/-- Closes the session and tells the user. -/
def logout (w : World σ) : Except ApiError Unit × World σ :=
  match c.perform w (.get (c.url "/auth/logout")) with
  | (.ok (), w) => (.ok (), w.notify (·.notifyFast "auth.logout"))
  | (.error e, w) => (.error e, w)

/-- The user of the session. -/
def currentUser (w : World σ) : Except ApiError User × World σ :=
  c.fetch User w (.get (c.url "/user"))

/-- The names of all instances. -/
def listInstances (w : World σ) : Except ApiError (List String) × World σ :=
  c.fetch (List String) w (.get (c.url "/instance/"))

/-- The instance of a name. -/
def «instance» (w : World σ) (name : String) : Except ApiError Instance × World σ :=
  c.fetch Instance w (.get (c.instanceUrl name))

/-- Creates an instance. -/
def createInstance (w : World σ) (name : String) (type : InstanceType) (version : String) :
    Except ApiError Instance × World σ :=
  c.fetch Instance w (.post (c.instanceUrl name) (encode (⟨type, version⟩ : NewInstance)))

/-- Removes an instance. -/
def deleteInstance (w : World σ) (name : String) : Except ApiError Unit × World σ :=
  c.perform w (.delete (c.instanceUrl name))

/-- The statistics of the backend's host. -/
def systemInfo (w : World σ) : Except ApiError SystemInfo × World σ :=
  c.fetch SystemInfo w (.get (c.url "/info"))

end Client

end PanelClient
