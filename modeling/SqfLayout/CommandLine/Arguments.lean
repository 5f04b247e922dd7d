import SqfLayout.Text

/-! The arguments of the program, read one after another, as a command. -/
namespace SqfLayout.CommandLine

/-- Which files to check, and against what. -/
structure CheckOptions where
  convention? : Option Text
  extension : Text
  paths : List Text
  deriving DecidableEq, Repr

/-- Which skeleton to print. -/
structure HeaderOptions where
  convention? : Option Text
  author? : Option Text
  deriving DecidableEq, Repr

/-- What the program is asked to do. -/
inductive Command
  | usage
  | help (subcommand? : Option Text)
  | version (subcommand? : Option Text)
  | check (debug : Bool) (options : CheckOptions)
  | header (debug : Bool) (options : HeaderOptions)
  deriving DecidableEq, Repr

/-- The paths that carrying out a command looks up. -/
def Command.paths : Command → List Text
  | .usage => []
  | .help _ => []
  | .version _ => []
  | .check _ options => options.convention?.toList ++ options.paths
  | .header _ options => options.convention?.toList

/-- Arguments that make no command. -/
inductive UsageProblem
  | unexpected (argument : Text)
  | unknownCommand (name : Text)
  | missingValue (option : Text)
  | repeated (option : Text)
  | missingPaths
  deriving DecidableEq, Repr

def UsageProblem.message : UsageProblem → Text
  | .unexpected argument => "unexpected argument '" ++ argument ++ "' found"
  | .unknownCommand name => "unrecognized subcommand '" ++ name ++ "'"
  | .missingValue option => "a value is required for '" ++ option ++ "' but none was supplied"
  | .repeated option => "the argument '" ++ option ++ "' cannot be used multiple times"
  | .missingPaths => "the following required arguments were not provided: <paths>..."

/-- An argument that is an option or would be one. A lone hyphen is a value. -/
def looksLikeOption (argument : Text) : Bool :=
  argument.head? = some '-' && 1 < argument.length

/-- An argument that is an option in its long form or starts with it in its short one. What follows the
short option in one argument would be options behind it and is not looked at. -/
def asksFor (long short argument : Text) : Bool := argument = long || argument.take 2 = short

def asksHelp : Text → Bool := asksFor "--help" "-h"

def asksVersion : Text → Bool := asksFor "--version" "-V"

/-- What the arguments of a subcommand have set so far. -/
structure Settings where
  debug : Bool
  convention? : Option Text
  extension? : Option Text
  author? : Option Text
  paths : List Text
  deriving DecidableEq, Repr

namespace Settings

def empty : Settings := ⟨false, none, none, none, []⟩

/-- The options with a value that a subcommand knows. -/
def knows (header : Bool) (option : Text) : Bool :=
  option = "--convention" || if header then option = "--author" else option = "--extension"

/-- Sets an option with a value. A path must not be empty. -/
def set (s : Settings) (option value : Text) : Except UsageProblem Settings :=
  if option = "--convention" then
    if value.isEmpty then .error (.missingValue option)
    else if s.convention?.isSome then .error (.repeated option)
    else .ok { s with convention? := some value }
  else if option = "--author" then
    if s.author?.isSome then .error (.repeated option) else .ok { s with author? := some value }
  else if s.extension?.isSome then .error (.repeated option)
  else .ok { s with extension? := some value }

/-- Adds a path. Only checking takes paths. -/
def addPath (header : Bool) (s : Settings) (path : Text) : Except UsageProblem Settings :=
  if header then .error (.unexpected path)
  else if path.isEmpty then .error (.missingValue "<paths>...")
  else .ok { s with paths := s.paths ++ [path] }

/-- Asked for help or for its version, a subcommand does nothing else. -/
inductive Read
  | settings (s : Settings)
  | help
  | version

/-- The arguments of a subcommand. Behind `--` everything is a path. -/
def read (header : Bool) (s : Settings) : List Text → Except UsageProblem Read
  | [] => .ok (.settings s)
  | argument :: rest =>
    if argument = "--" then (rest.foldlM (addPath header) s).map .settings
    else if argument = "--debug" then
      if s.debug then .error (.repeated argument) else read header { s with debug := true } rest
    else if asksHelp argument then .ok .help
    else if asksVersion argument then .ok .version
    else if !looksLikeOption argument then
      match addPath header s argument with
      | .error problem => .error problem
      | .ok s => read header s rest
    else if knows header argument then
      match rest with
      | [] => .error (.missingValue argument)
      | value :: rest =>
        if looksLikeOption value then .error (.missingValue argument)
        else match set s argument value with
          | .error problem => .error problem
          | .ok s => read header s rest
    else if argument.contains '=' ∧ knows header (argument.takeWhile (· ≠ '=')) then
      match set s (argument.takeWhile (· ≠ '=')) (argument.dropWhile (· ≠ '=')).tail with
      | .error problem => .error problem
      | .ok s => read header s rest
    else .error (.unexpected argument)

end Settings

/-- Reads all arguments, given whether debugging was asked for already. -/
def Command.ofArguments (debug : Bool) : List Text → Except UsageProblem Command
  | [] => .ok .usage
  | argument :: rest =>
    if argument = "--debug" then
      if debug then .error (.repeated argument) else ofArguments true rest
    else if asksHelp argument then .ok (.help none)
    else if asksVersion argument then .ok (.version none)
    else if argument = "check" then
      match Settings.read false .empty rest with
      | .error problem => .error problem
      | .ok .help => .ok (.help (some argument))
      | .ok .version => .ok (.version (some argument))
      | .ok (.settings s) =>
        if s.paths.isEmpty then .error .missingPaths
        else .ok (.check (debug || s.debug) ⟨s.convention?, s.extension?.getD "sqf", s.paths⟩)
    else if argument = "header" then
      match Settings.read true .empty rest with
      | .error problem => .error problem
      | .ok .help => .ok (.help (some argument))
      | .ok .version => .ok (.version (some argument))
      | .ok (.settings s) => .ok (.header (debug || s.debug) ⟨s.convention?, s.author?⟩)
    else if argument = "--" then
      match rest with
      | [] => .ok .usage
      | next :: _ => .error (.unexpected next)
    else if looksLikeOption argument then .error (.unexpected argument)
    else .error (.unknownCommand argument)

end SqfLayout.CommandLine
