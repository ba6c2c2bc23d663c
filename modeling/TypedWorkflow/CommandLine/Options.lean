/-!
# Command-line options

A command line names one command with its operands. Options of the command may stand before,
between and after its operands; `--` ends the options. The log format may be chosen before the
command as well as after it.

## Main definitions

* `Command`: what a command line asks for.
* `Command.ofArguments`: the command of a command line, if it is well formed.
-/

namespace TypedWorkflow

/-- What a command line asks for. -/
inductive Command where
  | validate (files : List String) (instantiate : Bool)
  | catalog (json : Bool)
  | checkType (names : List String)
  deriving DecidableEq

namespace Command

/-! ## Arguments of a command -/

/-- The arguments of a command: operands in order, whether its flag was given, and whether a log
format was. -/
structure Arguments where
  operands : List String
  flag : Bool
  logFormat : Bool

/-- Whether a text names a log format. -/
def isLogFormat (name : String) : Bool :=
  name == "text" || name == "json"

/-- The log format option with its value in the same argument. -/
def logFormatOption : String := "--log-format"

/-- The value of an option that is written in one argument with it, after an equals sign. -/
def valueIn? (option argument : String) : Option String :=
  let start := (option ++ "=").toList
  if start.isPrefixOf argument.toList then
    some (String.ofList (argument.toList.drop start.length))
  else none

/-- Whether an argument is an option rather than an operand. -/
def isOption (argument : String) : Bool :=
  match argument.toList with
  | ['-'] => false
  | '-' :: _ => true
  | _ => false

/-- Reads the arguments after a command whose flag has the given name. An option may be given
once. -/
def readArguments (flag : Option String) (a : Arguments) : List String → Option Arguments
  | [] => some a
  | "--" :: rest => some { a with operands := a.operands ++ rest }
  | argument :: rest =>
    if some argument = flag then
      if a.flag then none else readArguments flag { a with flag := true } rest
    else if argument = logFormatOption then
      match rest with
      | value :: rest =>
        if a.logFormat || !isLogFormat value then none
        else readArguments flag { a with logFormat := true } rest
      | [] => none
    else match valueIn? logFormatOption argument with
      | some value =>
        if a.logFormat || !isLogFormat value then none
        else readArguments flag { a with logFormat := true } rest
      | none =>
        if isOption argument then none
        else readArguments flag { a with operands := a.operands ++ [argument] } rest

/-! ## Commands -/

/-- The command with the given name and arguments. -/
def ofName (name : String) (arguments : List String) : Option Command :=
  let read (flag : Option String) := readArguments flag ⟨[], false, false⟩ arguments
  match name with
  | "validate" => do
    let a ← read (some "--instantiate")
    if a.operands.isEmpty || a.operands.contains "" then none
    else some (.validate a.operands a.flag)
  | "catalog" => do
    let a ← read (some "--json")
    if a.operands.isEmpty then some (.catalog a.flag) else none
  | "check-type" => do
    let a ← read none
    if a.operands.isEmpty then none else some (.checkType a.operands)
  | _ => none

/-- The command of a command line; `none` if the line is not well formed. -/
def ofArguments : List String → Option Command
  | [] => none
  | argument :: rest =>
    if argument = logFormatOption then
      match rest with
      | value :: name :: rest =>
        if isLogFormat value && !isOption name then ofName name rest else none
      | _ => none
    else match valueIn? logFormatOption argument with
      | some value =>
        match rest with
        | name :: rest => if isLogFormat value then ofName name rest else none
        | [] => none
      | none => ofName argument rest

end Command

end TypedWorkflow
