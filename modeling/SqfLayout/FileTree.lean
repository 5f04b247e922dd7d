import SqfLayout.Text

/-! Directories and files, and the paths that lead to them. -/
namespace SqfLayout

/-- Why a file or a directory cannot be read. -/
inductive ReadProblem
  | notFound
  | permissionDenied
  | alreadyExists
  | invalidInput
  | invalidData
  | timedOut
  | interrupted
  | unexpectedEnd
  | outOfMemory
  | isDirectory
  | notDirectory
  | other
  deriving DecidableEq, Repr

def ReadProblem.message : ReadProblem → Text
  | .notFound => "entity not found"
  | .permissionDenied => "permission denied"
  | .alreadyExists => "entity already exists"
  | .invalidInput => "invalid input parameter"
  | .invalidData => "invalid data"
  | .timedOut => "timed out"
  | .interrupted => "operation interrupted"
  | .unexpectedEnd => "unexpected end of file"
  | .outOfMemory => "out of memory"
  | .isDirectory => "is a directory"
  | .notDirectory => "not a directory"
  | .other => "other error"

/-- What reading a file gives. -/
abbrev Contents := Except ReadProblem Text

/-- A file, a directory with its entries in no particular order, or a directory that cannot be entered,
with what the system says about it. -/
inductive Node
  | file (contents : Contents)
  | directory (entries : List (Text × Node))
  | closed (problem : ReadProblem) (reason : Text)

/-- A directory that cannot be entered. -/
structure ClosedDirectory where
  path : Text
  problem : ReadProblem
  reason : Text
  deriving DecidableEq, Repr

/-- What a path leads to. -/
abbrev Lookup := Text → Except ReadProblem Node

namespace Path

/-- The parts between slashes. -/
def components : Text → List Text
  | [] => [[]]
  | c :: rest =>
    if c = '/' then [] :: components rest else (components rest).modifyHead (c :: ·)

/-- The path of an entry of a directory. No slash is doubled. -/
def join (directory name : Text) : Text :=
  if directory.isEmpty || directory.getLast? = some '/' then directory ++ name
  else directory ++ '/' :: name

/-- What stands behind the last point of a name, unless that point is its first character. -/
def extension? (name : Text) : Option Text :=
  let behind := name.reverse.takeWhile (· ≠ '.')
  if behind.length + 1 < name.length then some behind.reverse else none

end Path

namespace Node

/-- The entry of a directory. -/
def child? (name : Text) : List (Text × Node) → Option Node := List.lookup name

/-- Follows components from a node, given the directories above it, the nearest first. Above the
topmost directory there is none. -/
def follow (above : List Node) (node : Node) : List Text → Except ReadProblem Node
  | [] => .ok node
  | name :: rest =>
    match node with
    | .file _ => .error .notDirectory
    | .closed problem _ => .error problem
    | .directory entries =>
      if name = [] ∨ name = ['.'] then follow above node rest
      else if name = ['.', '.'] then
        match above with
        | [] => follow [] node rest
        | parent :: above => follow above parent rest
      else
        match child? name entries with
        | none => .error .notFound
        | some child => follow (node :: above) child rest

/-- Finds paths that start at a directory. -/
def find (root : Node) : Lookup := fun path =>
  if path.isEmpty then .error .notFound
  else if path.contains '\x00' then .error .invalidInput
  else if path.head? = some '/' then .error .notFound
  else follow [] root (Path.components path)

/-- Puts a node in a place below a directory; directories on the way are made where they lack. An
empty directory leaves one that is there as it is. -/
def put (leaf : Node) (node : Node) : List Text → Node
  | [] =>
    match leaf, node with
    | .directory [], .directory entries => .directory entries
    | _, _ => leaf
  | name :: rest =>
    let entries := match node with
      | .directory entries => entries
      | _ => []
    let child := (child? name entries).getD (.directory [])
    .directory ((name, put leaf child rest) :: entries.filter fun e => e.1 ≠ name)

/-- What reading a node gives. -/
def contents : Node → Contents
  | .file contents => contents
  | .directory _ => .error .isDirectory
  | .closed problem _ => .error problem

mutual

/-- What is found at files and closed directories at or below a node, whose path and name are given, in the
order of their paths. -/
def gather {α : Type} (leaf : Text → Text → Node → List α) (path name : Text) : Node → List α
  | .file contents => leaf path name (.file contents)
  | .closed problem reason => leaf path name (.closed problem reason)
  | .directory entries =>
    ((gatherEntries leaf path entries).mergeSort fun a b => decide (a.1 ≤ b.1)).flatMap (·.2)

/-- What is found at or below each of the entries, with the entry's name. -/
def gatherEntries {α : Type} (leaf : Text → Text → Node → List α) (path : Text) :
    List (Text × Node) → List (Text × List α)
  | [] => []
  | (name, node) :: rest =>
    (name, gather leaf (Path.join path name) name node) :: gatherEntries leaf path rest

end

/-- The files with an extension at or below a node. The name of a directory does not matter. -/
def filesBelow (extension path name : Text) : Node → List (Text × Contents) :=
  gather (fun path name => fun
    | .file contents => if Path.extension? name = some extension then [(path, contents)] else []
    | _ => []) path name

/-- The closed directories at or below a node. -/
def closedBelow (path name : Text) : Node → List ClosedDirectory :=
  gather (fun path _ => fun
    | .closed problem reason => [⟨path, problem, reason⟩]
    | _ => []) path name

end Node

namespace Lookup

/-- The files to check for a path: the file itself, whatever its extension, or the files with the
extension below a directory. -/
def discover (lookup : Lookup) (extension path : Text) :
    Except ReadProblem (List (Text × Contents)) :=
  match lookup path with
  | .error problem => .error problem
  | .ok (.file contents) => .ok [(path, contents)]
  | .ok (.closed problem _) => .error problem
  | .ok (.directory entries) => .ok (Node.filesBelow extension path [] (.directory entries))

/-- The directories below a path that the search has to leave out. -/
def unreadable (lookup : Lookup) (path : Text) : List ClosedDirectory :=
  match lookup path with
  | .ok (.directory entries) => Node.closedBelow path [] (.directory entries)
  | _ => []

/-- Reads the file at a path. -/
def load (lookup : Lookup) (path : Text) : Contents :=
  match lookup path with
  | .error problem => .error problem
  | .ok node => node.contents

end Lookup
end SqfLayout
