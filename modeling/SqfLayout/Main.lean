import SqfLayout.CommandLine

/-! The program on the files of the system: reads what its paths lead to, runs, writes. -/
namespace SqfLayout

/-- The problem that a failed call reports. -/
def ReadProblem.ofError : IO.Error → ReadProblem
  | .noFileOrDirectory .. => .notFound
  | .permissionDenied .. => .permissionDenied
  | .alreadyExists .. => .alreadyExists
  | .invalidArgument .. => .invalidInput
  | .timeExpired .. => .timedOut
  | .interrupted .. => .interrupted
  | .unexpectedEof => .unexpectedEnd
  | .resourceExhausted .. => .outOfMemory
  | .inappropriateType .. => .notDirectory
  | _ => .other

/-- Reads a file. -/
def contentsAt (path : String) : IO Contents := do
  try
    match String.fromUTF8? (← IO.FS.readBinFile path) with
    | some text => return .ok text.toList
    | none => return .error .invalidData
  catch e => return .error (.ofError e)

/-- Reads a file, or a directory with everything below it. -/
partial def nodeAt (path : String) : IO Node := do
  let place := (← IO.currentDir) / path
  match (← place.metadata).type with
  | .dir =>
    match ← place.readDir.toBaseIO with
    | .ok entries => return .directory (← entries.mapM entryAt).toList
    | .error e => return .closed (.ofError e) (toString e).toList
  | _ => return .file (← contentsAt path)
where
  /-- An entry that leads nowhere is a file that cannot be read. -/
  entryAt (entry : IO.FS.DirEntry) : IO (Text × Node) := do
    try return (entry.fileName.toList, ← nodeAt (path ++ "/" ++ entry.fileName))
    catch e => return (entry.fileName.toList, .file (.error (.ofError e)))

/-- Looks a path up. -/
def lookUp (path : Text) : IO (Text × Except ReadProblem Node) := do
  try return (path, .ok (← nodeAt (String.ofList path)))
  catch e => return (path, .error (.ofError e))

namespace CommandLine

/-- The paths that the arguments name. -/
def pathsOf (arguments : List Text) : List Text :=
  match Command.ofArguments false arguments with
  | .ok command => command.paths
  | .error _ => []

def Piece.write : Piece → IO Unit
  | .out text => IO.print (String.ofList text)
  | .err text => IO.eprint (String.ofList text)
  | .log level line => IO.eprintln (String.ofList (logEntry level line))
  | .help _ => IO.println "usage: sqflint [--debug] [check|header] ..."

/-- Runs the program and gives its exit status. -/
def execute (arguments : List Text) : IO UInt32 := do
  let found ← (pathsOf arguments).mapM lookUp
  let outcome := run (fun path => (found.lookup path).getD (.error .notFound)) arguments
  outcome.output.forM Piece.write
  return outcome.exit.toUInt32

end CommandLine
end SqfLayout

def main (args : List String) : IO UInt32 :=
  SqfLayout.CommandLine.execute (args.map String.toList)
