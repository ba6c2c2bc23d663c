import TypedWorkflow.CommandLine.Options
import TypedWorkflow.CommandLine.Report

/-!
# Running commands

A command gives what is printed and the exit code: 0 if all is well, 1 if a check has failed, 2 if
the command line is not well formed. Files are read by their names beforehand.

## Main definitions

* `FileContent`: what reading a file has given.
* `Command.run`: the outcome of a command.
-/

namespace TypedWorkflow

/-- What reading a file has given: its text, or why it has none. -/
abbrev FileContent := Except String String

/-- What a command prints, and its exit code. -/
structure Outcome where
  code : Nat
  stdout : String
  stderr : String
  deriving DecidableEq

namespace Outcome

/-- The outcome of a command that reports on its input and may fail with an error. -/
def ofReport (stdout : String) (failure : Option String) : Outcome :=
  match failure with
  | none => ⟨0, stdout, ""⟩
  | some message => ⟨1, stdout, s!"Error: {message}\n"⟩

/-- The outcome of a command line that is not well formed. -/
def usage : Outcome := ⟨2, "", "usage: validate FILE... | catalog | check-type NAME...\n"⟩

end Outcome

namespace Command

/-! ## Validating files -/

/-- The report on a file. -/
def reportFile (instantiate : Bool) : FileContent → Report
  | .ok text => .ofText instantiate text
  | .error reason => .failed [s!"failed to read file: {reason}"]

/-- Reports on files, and fails if one of them has problems. -/
def runValidate (instantiate : Bool) (files : List (String × FileContent)) : Outcome :=
  let reports := files.map fun (name, content) => (name, reportFile instantiate content)
  let failed := (reports.filter fun (_, r) => !r.isValid).length
  .ofReport (String.join (reports.map fun (name, r) => r.render name))
    (if failed = 0 then none
      else some s!"{failed} of {files.length} workflow file(s) failed validation")

/-! ## Listing the catalog -/

/-- A text filled up with blanks to a number of characters. -/
def padRight (width : Nat) (text : String) : String :=
  text ++ String.ofList (List.replicate (width - text.length) ' ')

/-- The lines of a catalog: types by category, then the deprecated names. -/
def catalogLines (c : Catalog) : List String :=
  let types := c.groups.flatMap fun (category, ds) =>
    s!"{category}:" :: ds.map fun d => "  " ++ padRight 28 d.typeName ++ s!" {d.moduleName}::{d.className}"
  let aliases := c.deprecated.map fun d =>
    "  " ++ padRight 28 d.descriptor.typeName ++ s!" -> {d.replacement}"
  types ++ if aliases.isEmpty then [] else "deprecated:" :: aliases

/-- Lists a catalog. -/
def runCatalog (json : Bool) (c : Catalog) : Outcome :=
  .ofReport ((if json then c.toJson.indented else "\n".intercalate (catalogLines c)) ++ "\n") none

/-! ## Checking names -/

/-- What a catalog says about a name. -/
inductive TypeStatus where
  | supported (category : String)
  | deprecated (replacement : String)
  | unknown
  deriving DecidableEq

/-- The status of a name. -/
def TypeStatus.ofName (c : Catalog) (name : String) : TypeStatus :=
  match c.replacement? name with
  | some replacement => .deprecated replacement
  | none =>
    match c.resolve name with
    | .ok d => .supported d.category
    | .error _ => .unknown

/-- The text of the status of a name. -/
def TypeStatus.describe (name : String) : TypeStatus → String
  | .supported category => s!"{name}: supported ({category})"
  | .deprecated replacement => s!"{name}: deprecated, resolves to {replacement}"
  | .unknown => s!"{name}: unknown node type"

/-- Reports on names, and fails if one of them is unknown. -/
def runCheckType (c : Catalog) (names : List String) : Outcome :=
  let statuses := names.map fun name => (name, TypeStatus.ofName c name)
  let unknown := (statuses.filter fun (_, s) => s == .unknown).length
  .ofReport (String.join (statuses.map fun (name, s) => s.describe name ++ "\n"))
    (if unknown = 0 then none else some s!"{unknown} of {names.length} node type(s) are unknown")

/-! ## Commands -/

/-- The files that a command reads. -/
def files : Command → List String
  | .validate files _ => files
  | _ => []

/-- The outcome of a command, given the contents of its files. -/
def run (contents : List (String × FileContent)) : Command → Outcome
  | .validate _ instantiate => runValidate instantiate contents
  | .catalog json => runCatalog json .standard
  | .checkType names => runCheckType .standard names

end Command

end TypedWorkflow
