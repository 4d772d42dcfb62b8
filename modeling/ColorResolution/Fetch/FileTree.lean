import ColorResolution.Fetch.Basic

/-!
# Trees of files

A tree of directories and files, answering paths as a file system does. A path is walked name by name; the
first name that cannot be followed decides what is reported. The tree stands in a directory of which nothing else is
known; the root directory, where absolute paths start, is given by its entries.

It is what `fetch_file` reads from where no file system is at hand.
-/
namespace ColorResolution

inductive FileTree where
  | file (content : ByteArray)
  | directory (entries : List (String × FileTree))

namespace FileTree

/-- Why a path leads to no bytes. -/
inductive Fault where
  | notFound
  | isDirectory
  | notDirectory
  | nameTooLong
  | nulInPath
  deriving DecidableEq, Repr

def Fault.message : Fault → String
  | .notFound => "No such file or directory (os error 2)"
  | .isDirectory => "Is a directory (os error 21)"
  | .notDirectory => "Not a directory (os error 20)"
  | .nameTooLong => "File name too long (os error 36)"
  | .nulInPath => "file name contained an unexpected NUL byte"

/-- The longest name, and the first length that is too long for a path, in bytes. -/
def maxName : Nat := 255

def pathLimit : Nat := 4096

/-- The names of a path, empty ones included. -/
def names (path : String) : List String := path.splitOn "/"

/-- The names that stand for the directory they are looked up in. -/
def staysHere (name : String) : Bool := name == "" || name == "."

/-- Looks up a name among the entries of a directory. -/
def entry (entries : List (String × FileTree)) (name : String) : Except Fault FileTree :=
  if maxName < name.utf8ByteSize then .error .nameTooLong
  else
    match entries.lookup name with
    | none => .error .notFound
    | some node => .ok node

/-- Follows names from the innermost of the open directories, outwards at two points. The outermost directory, which
stays open, has the entries `base`; outwards of it there is only itself. -/
def walk (base : List (String × FileTree)) : List String → List FileTree → Except Fault FileTree
  | [], [] => .ok (.directory base)
  | [], here :: _ => .ok here
  | _ :: _, .file _ :: _ => .error .notDirectory
  | name :: rest, [] =>
    if staysHere name || name == ".." then walk base rest []
    else
      match entry base name with
      | .error f => .error f
      | .ok next => walk base rest [next]
  | name :: rest, .directory entries :: outer =>
    if staysHere name then walk base rest (.directory entries :: outer)
    else if name == ".." then walk base rest outer
    else
      match entry entries name with
      | .error f => .error f
      | .ok next => walk base rest (next :: .directory entries :: outer)

/-- The node at the names of a path: an absolute path starts in the root directory, any other in the tree. -/
def node (root : List (String × FileTree)) (t : FileTree) : List String → Except Fault FileTree
  | "" :: names => walk root names []
  | names => walk [] names [t]

/-- The bytes at a path. -/
def bytes (root : List (String × FileTree)) (t : FileTree) (path : String) : Except Fault ByteArray :=
  if path.toList.contains '\x00' then .error .nulInPath
  else if path.isEmpty then .error .notFound
  else if pathLimit ≤ path.utf8ByteSize then .error .nameTooLong
  else
    match t.node root (names path) with
    | .error f => .error f
    | .ok (.file content) => .ok content
    | .ok (.directory _) => .error .isDirectory

/-- The file system that a root directory and a tree are. -/
def fileSystem (root : List (String × FileTree)) (t : FileTree) : FileSystem := fun path =>
  (t.bytes root path).mapError Fault.message

/-- The entries of a directory; a file and nothing have none. -/
def inside : Option FileTree → List (String × FileTree)
  | some (.directory entries) => entries
  | _ => []

/-- Places a node at a path of names, making the directories on the way. A directory that is there already stays as it
is. -/
def place (node : FileTree) : List String → List (String × FileTree) → List (String × FileTree)
  | [], entries => entries
  | [name], entries =>
    let placed :=
      match node with
      | .file content => .file content
      | .directory added => .directory (inside (entries.lookup name) ++ added)
    entries.filter (fun e => e.1 != name) ++ [(name, placed)]
  | name :: rest, entries =>
    entries.filter (fun e => e.1 != name) ++ [(name, .directory (place node rest (inside (entries.lookup name))))]

/-- The tree of a list of paths and nodes. -/
def ofList (nodes : List (String × FileTree)) : FileTree :=
  .directory (nodes.foldl (fun entries (path, node) => place node (names path) entries) [])

end FileTree

end ColorResolution
