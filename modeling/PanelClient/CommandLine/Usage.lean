import PanelClient.CommandLine.Invocation
/-!
# Help on the command line

* `helpLines`, `versionLine`: the commands and options of the program, and its version;
* `UsageError.text`: what is wrong with a command line.
-/

namespace PanelClient.CommandLine

/-- An option as the help shows it. -/
def Opt.usage (o : Opt) : String :=
  let written := "--" ++ o.name ++ " <" ++ o.name.toUpper ++ ">"
  if o.required then written else "[" ++ written ++ "]"

/-- The commands of a grammar, each with its operands and options; `before` is what is written in
front of them. -/
def Cmd.usages (before : String) : Cmd → List String
  | .mk name _ opts operands subs =>
    let here := before ++ name
    if subs.isEmpty then
      [" ".intercalate ([here] ++ operands.map (fun o => "<" ++ o.toUpper ++ ">") ++
        opts.map Opt.usage)]
    else subs.flatMap (Cmd.usages (here ++ " "))

/-- The commands and options of the program. -/
def helpLines : List String :=
  ["Usage:"] ++ (Cmd.usages "  " grammar) ++
    ["", "Options everywhere:", "  " ++ " ".intercalate (globals.map Opt.usage)]

/-- The name and the version of the program. -/
def versionLine : String := "mcpanel 0.0.0"

/-- What is wrong with a command line. -/
def UsageError.text : UsageError → String
  | .help => "help"
  | .version => "version"
  | .nothingSaid => "a command is needed"
  | .missingCommand => "a command is needed"
  | .unknownCommand => "there is no such command"
  | .unknownArgument => "there is no such argument"
  | .invalidValue => "a value is missing or not accepted"
  | .unwantedValue => "a value is not wanted"
  | .repeated => "an argument is given twice"
  | .missingArgument => "an argument is missing"

end PanelClient.CommandLine
