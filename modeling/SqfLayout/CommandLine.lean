import SqfLayout.CommandLine.Arguments
import SqfLayout.CommandLine.Output
import SqfLayout.Diagnostic
import SqfLayout.Layout
import SqfLayout.LoadingFailure
import SqfLayout.Skeleton

/-! The program as a function of its arguments and of what its paths lead to. -/
namespace SqfLayout.CommandLine

/-- The convention to hold files to. A file that holds none ends the run. -/
def conventionFor (lookup : Lookup) : Option Text → Except LoadingFailure (Convention × Output)
  | none => .ok (.standard, [])
  | some path =>
    match lookup.convention path with
    | .error failure => .error failure
    | .ok c => .ok (c, [.log .debug ("Loaded convention from " ++ path)])

/-- A file or path that cannot be used, on a line of its own. -/
def complaint (failure : LoadingFailure) : Piece := .err (failure.concise ++ "\n")

/-- The run ends before anything is done. -/
def refused (failure : LoadingFailure) : Outcome := ⟨1, [complaint failure]⟩

/-- Checks the text of a file: what is written, and whether the file passes. -/
def checkText (c : Convention) (filename source : Text) : Output × Bool :=
  let shown (v : Violation) : Piece := .err ((v.diagnostic filename source).full ++ "\n\n")
  match Token.stream source with
  | .error fault => ([shown fault.violation], false)
  | .ok tokens =>
    let log := (Layout.log c tokens).map fun e => Piece.log .debug (e.message filename)
    match Layout.validate c tokens with
    | .ok _ => (log, true)
    | .error v => (log ++ [shown v], false)

/-- Checks a file: what is written, and the number of errors, at most one. -/
def checkFile (c : Convention) (filename : Text) (contents : Contents) : Output × Nat :=
  let start := Piece.log .debug ("Checking " ++ filename)
  match contents with
  | .error problem => ([start, complaint (.ofRead filename problem)], 1)
  | .ok source =>
    let (output, passes) := checkText c filename source
    (start :: output, if passes then 0 else 1)

/-- Adds up outputs and errors. -/
def total (parts : List (Output × Nat)) : Output × Nat :=
  (parts.flatMap (·.1), parts.foldr (fun part errors => part.2 + errors) 0)

/-- A path that leads nowhere, or a directory that was never searched, is one error. -/
def checkLost (path : Text) (problem : ReadProblem) : Output × Nat :=
  ([complaint (.ofRead path problem)], 1)

/-- The search tells of a directory that it has to leave out. -/
def warning (d : ClosedDirectory) : Piece :=
  .log .warn ("Unreadable directory " ++ d.path ++ ": " ++ d.reason)

/-- Checks everything that a path leads to. -/
def checkPath (lookup : Lookup) (c : Convention) (extension path : Text) : Output × Nat :=
  match lookup.discover extension path with
  | .error problem => checkLost path problem
  | .ok files =>
    let closed := lookup.unreadable path
    let (output, errors) := total (closed.map (fun d => checkLost d.path d.problem) ++
      files.map fun file => checkFile c file.1 file.2)
    (closed.map warning ++
      .log .info ("Found " ++ Text.ofNat files.length ++ " files in " ++ path) :: output, errors)

/-- Checks all paths and counts the errors; the exit status is at most 255. -/
def check (lookup : Lookup) (options : CheckOptions) : Outcome :=
  match conventionFor lookup options.convention? with
  | .error failure => refused failure
  | .ok (c, loading) =>
    let (output, errors) := total (options.paths.map (checkPath lookup c options.extension))
    ⟨min errors 255, loading ++ .out "Validating SQF...\n" :: output ++
      [.out ("Validating finished with " ++ Text.ofNat errors ++ " errors.\n")]⟩

/-- Prints a skeleton. An author that the convention does not know is used, but with a warning. -/
def header (lookup : Lookup) (options : HeaderOptions) : Outcome :=
  match conventionFor lookup options.convention? with
  | .error failure => refused failure
  | .ok (c, loading) =>
    let warning := options.author?.toList.filterMap fun name =>
      if c.isAuthor name then none
      else some (.log .warn ("Author " ++ Text.quoted name ++ " is not one the convention accepts"))
    ⟨0, loading ++ warning ++ [.out (c.skeleton options.author?)]⟩

/-- Carries out a command. -/
def Command.run (lookup : Lookup) : Command → Outcome
  | .usage => ⟨0, [.out "usage: sqflint [COMMAND] ...\nTry '--help' for more information.\n"]⟩
  | .help subcommand? => ⟨0, [.help subcommand?]⟩
  | .version none => ⟨0, [.out "sqflint v0.3.0\n"]⟩
  | .version (some subcommand) => ⟨0, [.out ("sqflint-" ++ subcommand ++ " v0.3.0\n")]⟩
  | .check debug options => (CommandLine.check lookup options).shown debug
  | .header debug options => (CommandLine.header lookup options).shown debug

/-- Runs the program. Arguments that make no command end it at once. -/
def run (lookup : Lookup) (arguments : List Text) : Outcome :=
  match Command.ofArguments false arguments with
  | .error problem => ⟨2, [.err ("error: " ++ problem.message ++ "\n")]⟩
  | .ok command => command.run lookup

end SqfLayout.CommandLine
