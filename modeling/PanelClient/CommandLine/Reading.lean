import PanelClient.CommandLine.Grammar
/-!
# Reading a command line

* `State`: what has been read of one command;
* `read`: the words of a command line, against a grammar.

A word is a subcommand, an option with or without its value, the value of the option before it, or
an operand. After the word `--` every word is an operand. An option takes effect only when the
word after it and its value has been seen: a fault of that word may come first.
-/

namespace PanelClient.CommandLine

/-- The surroundings of one command: its grammar, the options that may stand anywhere and the
environment. -/
structure Scope where
  cmd : Cmd
  globals : List Opt
  env : String → Option String

namespace Scope

variable (s : Scope)

/-- All options of the command. -/
def opts : List Opt := s.cmd.opts ++ s.globals

/-- The option of a name. -/
def long? (name : String) : Option Opt := s.opts.find? (·.name == name)

/-- The option of a letter. -/
def short? (c : Char) : Option Opt := s.opts.find? (·.short == some c)

/-- The same surroundings at a subcommand. -/
def enter (cmd : Cmd) : Scope := { s with cmd }

end Scope

/-- What has been read of one command. -/
structure State where
  /-- The options and operands that have taken effect. -/
  given : List (String × String)
  /-- The option or operand read last, with its value if that has been read. -/
  pending : Option (String × Option String)
  /-- The next word may be the value of the pending option. -/
  awaiting : Bool
  /-- `--` has been read. -/
  literal : Bool
  /-- The operands still to come. -/
  operands : List String

namespace State

/-- Nothing has been read. -/
def start (cmd : Cmd) : State := ⟨[], none, false, false, cmd.operands⟩

/-- An option or operand takes effect. -/
def put (s : Scope) (st : State) (name : String) (value : Option String) :
    Except UsageError State :=
  match value with
  | none => .error .invalidValue
  | some v =>
    if (st.given.lookup name).isSome then .error .repeated
    else if ((s.long? name).map (·.accepts v)).getD true then
      .ok { st with given := (name, v) :: st.given }
    else .error .invalidValue

/-- What is pending takes effect. -/
def settle (s : Scope) (st : State) : Except UsageError State :=
  match st.pending with
  | some (name, value) => { st with pending := none, awaiting := false }.put s name value
  | none => .ok { st with awaiting := false }

/-- An option is read, with the value written to it if there is one. -/
def option (s : Scope) (st : State) (name : String) (value : Option String) :
    Except UsageError State := do
  let st ← st.settle s
  match value with
  | some v => st.put s name (some v)
  | none => return { st with pending := some (name, none), awaiting := true }

/-- A request for help or the version, at which reading ends. -/
def request (s : Scope) (st : State) (e : UsageError) : Except UsageError State := do
  let _ ← st.settle s
  throw e

/-- A word that starts with two dashes. -/
def longWord (s : Scope) (st : State) (word : List Char) : Except UsageError State :=
  let name := String.ofList (word.takeWhile (· != '='))
  let value : Option String :=
    match word.dropWhile (· != '=') with
    | _ :: v => some (String.ofList v)
    | [] => none
  let flag (e : UsageError) : Except UsageError State :=
    if value.isSome then throw .unwantedValue else st.request s e
  if name = "help" then flag .help
  else if s.cmd.versioned && name == "version" then flag .version
  else
    match s.long? name with
    | some o => st.option s o.name value
    | none => throw .unknownArgument

/-- A word that starts with one dash: a letter, and perhaps the value of its option. -/
def shortWord (s : Scope) (st : State) (c : Char) (rest : List Char) : Except UsageError State :=
  if c = 'h' then st.request s .help
  else if s.cmd.versioned && c == 'V' then st.request s .version
  else
    match s.short? c with
    | some o =>
      let value : Option String :=
        match rest with
        | [] => none
        | '=' :: v => some (String.ofList v)
        | v => some (String.ofList v)
      st.option s o.name value
    | none => throw .unknownArgument

/-- A word for which there is no other use is an operand. -/
def operand (s : Scope) (st : State) (word : String) : Except UsageError State :=
  match st.operands with
  | name :: names => do
    let st ← st.settle s
    return { st with pending := some (name, some word), operands := names }
  | [] =>
    if st.literal && ((s.cmd.sub? word).isSome || s.cmd.isHelp word) then throw .unknownArgument
    else if s.cmd.subs.isEmpty then throw .unknownArgument
    else throw .unknownCommand

/-- A word that is no subcommand. -/
def word (s : Scope) (st : State) (w : String) : Except UsageError State :=
  if st.literal then st.operand s w
  else
    match w.toList with
    | ['-', '-'] => return { st with literal := true }
    | '-' :: '-' :: r => st.longWord s r
    | '-' :: c :: r => st.shortWord s c r
    | _ =>
      match st.awaiting, st.pending with
      | true, some (name, _) => return { st with pending := some (name, some w), awaiting := false }
      | _, _ => st.operand s w

/-- The options that the environment gives. -/
def fromEnvironment (s : Scope) (given : List (String × String)) : List (String × String) :=
  s.opts.filterMap fun o => do
    let v ← s.env (← o.envVar)
    if (given.lookup o.name).isSome then none else return (o.name, v)

/-- The option must be given, in view of what is given. -/
def isNeeded (given : List (String × String)) (o : Opt) : Bool :=
  o.required || match o.requiredWith with
    | some (other, v) => given.lookup other == some v
    | none => false

/-- Ends a command: what is pending takes effect, the environment adds its part, and all that is
needed must be there. -/
def finish (s : Scope) (st : State) (sub : Option (String × Matches)) :
    Except UsageError Matches := do
  let st ← st.settle s
  let given := fromEnvironment s st.given ++ st.given
  let has (name : String) : Bool := (given.lookup name).isSome
  if sub.isNone && !s.cmd.subs.isEmpty then
    throw (if given.isEmpty then .nothingSaid else .missingCommand)
  if s.cmd.operands.all has && s.opts.all fun o => has o.name || !isNeeded given o then
    return .mk given sub
  else throw .missingArgument

end State

/-- The words after the subcommand `help` name a command, from the outermost on. -/
def requestHelp (c : Cmd) : List String → UsageError
  | [] => .help
  | w :: ws =>
    match c.sub? w with
    | some sub => requestHelp sub ws
    | none => if c.isHelp w && ws.isEmpty then .help else .unknownCommand

/-- Reads the words of a command that has been read up to `st`. -/
def readFrom (s : Scope) (st : State) : List String → Except UsageError Matches
  | [] => st.finish s none
  | w :: ws =>
    let free := !st.literal && !st.awaiting
    if free && s.cmd.isHelp w then throw (requestHelp s.cmd ws)
    else
      match if free then s.cmd.sub? w else none with
      | some sub => do
        let m ← readFrom (s.enter sub) (.start sub) ws
        st.finish s (some (sub.name, m))
      | none => do
        let st ← st.word s w
        readFrom s st ws

/-- Reads the words of a command line. -/
def read (cmd : Cmd) (globals : List Opt) (env : String → Option String) (words : List String) :
    Except UsageError Matches :=
  readFrom ⟨cmd, globals, env⟩ (.start cmd) words

end PanelClient.CommandLine
