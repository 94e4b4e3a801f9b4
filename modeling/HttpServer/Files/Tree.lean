import HttpServer.Error
import HttpServer.Text.Split

/-!
# A tree of files

A tree assigns a file or a directory to paths, which are lists of names from the root. Textual paths
are followed name by name: each name but the last must be that of a directory, empty names and `.`
stay where they are, `..` goes up, and a slash at the end asks for a directory. The rules for
failing are those of a Unix file system.
-/

namespace HttpServer

/-- What a path of the tree holds. -/
inductive FileEntry
  | file (data : Bytes)
  | directory
  deriving DecidableEq

/-- Files and directories by their paths. The root is a directory and has no entry. -/
structure FileTree where
  entries : List (List String × FileEntry) := []
  /-- The files that may be looked up, but not opened for reading. -/
  unreadable : List (List String) := []
  deriving DecidableEq

/-- Puts a path behind another one, with a slash between them unless the first one is empty or ends
with one. An absolute path takes the place of the first one. -/
def joinPath (base path : String) : String :=
  if path.toList.head? = some '/' then path
  else if base = "" ∨ base.toList.getLast? = some '/' then base ++ path
  else base ++ "/" ++ path

namespace FileTree

/-- The longest name, in bytes. -/
def maxName : Nat := 255

/-- The longest path, in bytes. -/
def maxPath : Nat := 4095

def entry? (t : FileTree) (path : List String) : Option FileEntry :=
  if path = [] then some .directory
  else (t.entries.find? fun entry => entry.1 == path).map Prod.snd

/-- Gives a path an entry, in place of the one it has. -/
def put (t : FileTree) (path : List String) (entry : FileEntry) : FileTree :=
  if (t.entry? path).isSome then
    { t with entries := t.entries.map fun old => if old.1 == path then (path, entry) else old }
  else { t with entries := t.entries ++ [(path, entry)] }

/-- Takes out a path and everything below it. -/
def erase (t : FileTree) (path : List String) : FileTree :=
  { entries := t.entries.filter fun entry => !path.isPrefixOf entry.1
    unreadable := t.unreadable.filter fun file => !path.isPrefixOf file }

/-- Takes out everything below a path. -/
def eraseBelow (t : FileTree) (path : List String) : FileTree :=
  { entries := t.entries.filter fun entry => entry.1 == path || !path.isPrefixOf entry.1
    unreadable := t.unreadable.filter fun file => file == path || !path.isPrefixOf file }

/-- Makes a path a directory, and all paths above it too. -/
def makeDirectory (t : FileTree) (path : List String) : FileTree :=
  ((List.range path.length).map fun depth => path.take (depth + 1)).foldl
    (fun tree ancestor =>
      if (tree.entry? ancestor).isSome then tree else tree.put ancestor .directory)
    t

/-- A textual path taken apart. -/
structure PathText where
  /-- The names, without the empty ones. -/
  names : List String
  /-- A slash stands at the end. -/
  trailing : Bool

/-- Takes a textual path apart, unless no file can have it. -/
def PathText.read (path : String) : Except IoKind PathText :=
  if path.toList.any fun c => c.toNat = 0 then .error .invalidInput
  else if path = "" then .error .notFound
  else if maxPath < (Utf8.ofString path).length then .error .invalidFilename
  else .ok {
    names := ((splitAll (· == '/') path.toList).filter (· ≠ [])).map String.ofList
    trailing := path.toList.getLast? == some '/' }

/-- The entry that a name stands for in a directory. -/
def child (t : FileTree) (directory : List String) (name : String) :
    Except IoKind (List String × FileEntry) :=
  if maxName < (Utf8.ofString name).length then .error .invalidFilename
  else match t.entry? (directory ++ [name]) with
    | some entry => .ok (directory ++ [name], entry)
    | none => .error .notFound

/-- Follows names that must all be those of directories. -/
def enter (t : FileTree) (directory : List String) : List String → Except IoKind (List String)
  | [] => .ok directory
  | name :: names =>
    if name = "." then t.enter directory names
    else if name = ".." then t.enter directory.dropLast names
    else match t.child directory name with
      | .error kind => .error kind
      | .ok (path, .directory) => t.enter path names
      | .ok (_, .file _) => .error .notADirectory

/-- The path that a textual path leads to, and what it holds. -/
def find (t : FileTree) (path : String) : Except IoKind (List String × FileEntry) := do
  let text ← PathText.read path
  match text.names.getLast? with
  | none => .ok ([], .directory)
  | some name =>
    if name = "." ∨ name = ".." ∨ text.trailing then
      let directory ← t.enter [] text.names
      .ok (directory, .directory)
    else
      let directory ← t.enter [] text.names.dropLast
      t.child directory name

/-- Opens what a textual path leads to, for reading. Directories can be opened, but not read. -/
def openRead (t : FileTree) (path : String) : Except IoKind (List String × FileEntry) :=
  match t.find path with
  | .ok (file, .file data) =>
    if file ∈ t.unreadable then .error .permissionDenied else .ok (file, .file data)
  | found => found

/-- Creates an empty file, or empties the one that is there. -/
def create (t : FileTree) (path : String) : Except IoKind (FileTree × List String) := do
  let text ← PathText.read path
  match text.names.getLast? with
  | none => .error .isADirectory
  | some name =>
    let directory ← t.enter [] text.names.dropLast
    if name = "." ∨ name = ".." ∨ text.trailing then .error .isADirectory
    else match t.child directory name with
      | .ok (_, .directory) => .error .isADirectory
      | .ok (file, .file _) => .ok (t.put file (.file []), file)
      | .error .notFound => .ok (t.put (directory ++ [name]) (.file []), directory ++ [name])
      | .error kind => .error kind

def append (t : FileTree) (path : List String) (data : Bytes) : FileTree :=
  match t.entry? path with
  | some (.file old) => t.put path (.file (old ++ data))
  | _ => t

/-- Removes a file, or a directory with everything below it. A directory named by a dot is only
emptied, since no directory can be removed under that name. -/
def remove (t : FileTree) (path : String) : FileTree × Except IoKind Unit :=
  match t.find path with
  | .error kind => (t, .error kind)
  | .ok (file, .file _) => (t.erase file, .ok ())
  | .ok (directory, .directory) =>
    match (PathText.read path).toOption.bind fun text => text.names.getLast? with
    | some name =>
      if name = "." ∨ name = ".." then (t.eraseBelow directory, .error .invalidInput)
      else (t.erase directory, .ok ())
    | none => (t.eraseBelow directory, .error .other)

end FileTree

end HttpServer
