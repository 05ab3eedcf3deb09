/-!
# Grammar of a command line

* `Opt`: an option that takes a value;
* `Cmd`: a command with options, operands and subcommands;
* `UsageError`: why a command line is not run, help and version included;
* `Matches`: what a command line says, command by command.
-/

namespace PanelClient.CommandLine

/-- An option that takes a value. -/
structure Opt where
  /-- Its name, written after two dashes. -/
  name : String
  /-- Its letter, written after one dash. -/
  short : Option Char := none
  /-- The values it takes. -/
  accepts : String → Bool := fun _ => true
  /-- It must be given. -/
  required : Bool := false
  /-- It must be given when another option is given with a certain value. -/
  requiredWith : Option (String × String) := none
  /-- Its value where it is not given. -/
  fallback : Option String := none
  /-- The environment variable that gives it where the line does not. -/
  envVar : Option String := none

/-- A command. One that has subcommands needs one of them. -/
inductive Cmd where
  /-- `versioned`: the command can be asked for its version. -/
  | mk (name : String) (versioned : Bool) (opts : List Opt) (operands : List String)
    (subs : List Cmd)

namespace Cmd

/-- The name of a command. -/
def name : Cmd → String
  | .mk n _ _ _ _ => n

/-- The command can be asked for its version. -/
def versioned : Cmd → Bool
  | .mk _ v _ _ _ => v

/-- The options of a command. -/
def opts : Cmd → List Opt
  | .mk _ _ os _ _ => os

/-- The names of the operands of a command, in order; each must be given. -/
def operands : Cmd → List String
  | .mk _ _ _ ps _ => ps

/-- The subcommands of a command. -/
def subs : Cmd → List Cmd
  | .mk _ _ _ _ ss => ss

/-- The subcommand of a name. -/
def sub? (c : Cmd) (name : String) : Option Cmd := c.subs.find? (·.name == name)

/-- Every command with subcommands has the further subcommand `help`. -/
def isHelp (c : Cmd) (name : String) : Bool := !c.subs.isEmpty && name == "help"

end Cmd

/-- Why a command line is not run. -/
inductive UsageError where
  /-- Help is asked for. -/
  | help
  /-- The version is asked for. -/
  | version
  /-- Nothing is said where a subcommand is needed. -/
  | nothingSaid
  /-- Options are given where a subcommand is needed. -/
  | missingCommand
  /-- There is no such subcommand. -/
  | unknownCommand
  /-- There is no such option, or no place for such an operand. -/
  | unknownArgument
  /-- The value of an option is missing or not accepted. -/
  | invalidValue
  /-- An option that takes no value has one. -/
  | unwantedValue
  /-- An option is given twice. -/
  | repeated
  /-- An option or operand that must be given is not. -/
  | missingArgument
  deriving DecidableEq, Repr, Inhabited

/-- The exit code of a program that is not run. -/
def UsageError.exitCode : UsageError → Nat
  | .help => 0
  | .version => 0
  | _ => 2

/-- What a command line says about one command: the options and operands given on the line or by
the environment, and the subcommand. -/
inductive Matches where
  | mk (given : List (String × String)) (sub : Option (String × Matches))

namespace Matches

/-- The options and operands given for the command. -/
def given : Matches → List (String × String)
  | .mk g _ => g

/-- The subcommand. -/
def sub : Matches → Option (String × Matches)
  | .mk _ s => s

/-- The names of the subcommands, from the outermost on. -/
def path : Matches → List String
  | .mk _ none => []
  | .mk _ (some (name, m)) => name :: m.path

/-- What is given for the innermost subcommand. -/
def innermost : Matches → List (String × String)
  | .mk g none => g
  | .mk _ (some (_, m)) => m.innermost

/-- The value of an option that may stand at any command; the innermost one counts. -/
def global? (name : String) : Matches → Option String
  | .mk g none => g.lookup name
  | .mk g (some (_, m)) => (m.global? name).or (g.lookup name)

end Matches

end PanelClient.CommandLine
