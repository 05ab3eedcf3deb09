import PanelClient.CommandLine.Reading
import PanelClient.Api.Models
/-!
# Invocations

* `grammar`, `globals`: the command line of the program;
* `Command`: what the program is asked to do;
* `Invocation`: a command with the options that may stand anywhere;
* `Invocation.parse`: the invocation that the words of a command line are.
-/

namespace PanelClient

namespace CommandLine

/-- The options that may stand anywhere. An empty file name is refused. -/
def globals : List Opt :=
  [{ name := "base-url" }, { name := "config", accepts := fun f => !f.isEmpty },
    { name := "route", fallback := some "/" }]

/-- The flavours of a new instance, by name. -/
def flavours : List String := ["vanilla", "purpur", "forge"]

/-- The commands. -/
def grammar : Cmd :=
  .mk "mcpanel" true [] []
    [.mk "ping" false [] [] [],
      .mk "info" false [] [] [],
      .mk "login" false
        [{ name := "username", short := some 'u', required := true },
          { name := "password", short := some 'p', required := true,
            envVar := some "MCPANEL_PASSWORD" }] [] [],
      .mk "logout" false [] [] [],
      .mk "whoami" false [] [] [],
      .mk "instance" false [] []
        [.mk "list" false [] [] [],
          .mk "show" false [] ["name"] [],
          .mk "create" false
            [{ name := "mc-version", required := true },
              { name := "type", accepts := flavours.contains, fallback := some "vanilla" },
              { name := "forge", requiredWith := some ("type", "forge") }] ["name"] [],
          .mk "delete" false [] ["name"] []]]

end CommandLine

/-- The flavour that is asked for. -/
inductive Flavour where
  | vanilla | purpur | forge
  deriving DecidableEq, Repr, Inhabited

/-- The flavour of a name; `vanilla` where there is none. -/
def Flavour.ofName : String → Flavour
  | "purpur" => .purpur
  | "forge" => .forge
  | _ => .vanilla

/-- The wish for a new instance, as the command line says it. -/
structure Creation where
  name : String
  version : String
  flavour : Flavour
  /-- The build of Forge. -/
  build : Option String
  deriving DecidableEq, Repr, Inhabited

/-- The flavour of the instance with its build. -/
def Creation.type (c : Creation) : InstanceType :=
  match c.flavour with
  | .vanilla => .vanilla
  | .purpur => .purpur
  | .forge => .forge (c.build.getD "")

/-- What the program is asked to do. -/
inductive Command where
  | ping
  | info
  | login (username password : String)
  | logout
  | whoami
  | list
  | show (name : String)
  | create (c : Creation)
  | delete (name : String)
  deriving DecidableEq, Repr, Inhabited

/-- A command with the options that may stand anywhere. -/
structure Invocation where
  /-- The address of the backend, in place of that of the settings. -/
  baseUrl : Option String
  /-- The file of the settings. -/
  config : Option String
  /-- The route on which the user is. -/
  route : String
  command : Command
  deriving DecidableEq, Repr, Inhabited

namespace Invocation

open CommandLine

/-- The command that a command line says. -/
def commandOf (m : Matches) : Command :=
  let value (name : String) : String := (m.innermost.lookup name).getD ""
  match m.path with
  | ["info"] => .info
  | ["login"] => .login (value "username") (value "password")
  | ["logout"] => .logout
  | ["whoami"] => .whoami
  | ["instance", "list"] => .list
  | ["instance", "show"] => .show (value "name")
  | ["instance", "create"] =>
    .create ⟨value "name", value "mc-version", Flavour.ofName (value "type"),
      m.innermost.lookup "forge"⟩
  | ["instance", "delete"] => .delete (value "name")
  | _ => .ping

/-- What a command line says. -/
def ofMatches (m : Matches) : Invocation where
  baseUrl := m.global? "base-url"
  config := m.global? "config"
  route := (m.global? "route").getD "/"
  command := commandOf m

/-- The invocation that the words of a command line are, the name of the program left out. `env`
gives the environment. -/
def parse (env : String → Option String) (words : List String) : Except UsageError Invocation :=
  ofMatches <$> read grammar globals env words

end Invocation

end PanelClient
