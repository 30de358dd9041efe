import GlyphStack.Path

/-!
# Files

What a program needs of a file system is a small set of operations, each of
which may fail for any cause.  A storage is a state that answers them, and a disk
is a storage as plain data: a tree of directories and files.
-/

namespace GlyphStack

/-- Why a file operation fails. -/
inductive FileCause where
  /-- There is no such file or directory. -/
  | notFound
  /-- A file stands where a directory is needed. -/
  | notDirectory
  /-- A directory stands where a file is needed. -/
  | isDirectory
  /-- The path holds a character that no path may hold. -/
  | invalid
  /-- The path or one of its names is too long. -/
  | tooLong
  /-- Anything else, in the words of the system. -/
  | other (wording : String)
  deriving DecidableEq, Repr

/-- The wording of a cause. -/
def FileCause.message : FileCause -> String
  | .notFound => "no such file or directory"
  | .notDirectory => "not a directory"
  | .isDirectory => "is a directory"
  | .invalid => "invalid argument"
  | .tooLong => "file name too long"
  | .other wording => wording

/-- The number of bytes that a name may have. -/
def FileCause.longestName : Nat := 255

/-- The number of bytes that a path may have. -/
def FileCause.longestPath : Nat := 4095

/-- What is wrong with the text of a path, wherever it leads. -/
def FileCause.ofPath? (path : String) : Option FileCause :=
  if path.toList.contains (Char.ofNat 0) then
    some .invalid
  else if path = "" then
    some .notFound
  else if longestPath < path.utf8ByteSize then
    some .tooLong
  else
    none

/-- What was done in a file system. -/
inductive FileAction where
  /-- The directory in which the program runs was asked for. -/
  | locating
  /-- A file was looked for. -/
  | finding (path : String)
  /-- A file was opened. -/
  | opening (path : String)
  /-- A file was read after it was opened. -/
  | reading (path : String)
  deriving DecidableEq, Repr

/-- The wording of an action. -/
def FileAction.message : FileAction -> String
  | .locating => "getwd"
  | .finding path => "stat " ++ path
  | .opening path => "open " ++ path
  | .reading path => "read " ++ path

/-- A file operation that failed. -/
structure FileFault where
  /-- What was done, with the path as it was given. -/
  action : FileAction
  /-- Why it failed. -/
  cause : FileCause
  deriving DecidableEq, Repr

/-- The wording of a failed file operation. -/
def FileFault.message (fault : FileFault) : String :=
  fault.action.message ++ ": " ++ fault.cause.message

/-- The file operations that a program needs. -/
class FileSystem (m : Type -> Type) where
  /-- The names from the root of the directory in which the program runs. -/
  directory : m (Except FileFault (List String))
  /-- Look whether there is something at a path. -/
  stat : String -> m (Except FileFault Unit)
  /-- The content of a file. -/
  readFile : String -> m (Except FileFault (List UInt8))
  /-- Make sure that a file can be written, and leave its content. -/
  openFile : String -> m (Except FileFault Unit)
  /-- Give a file a new content. -/
  writeFile : String -> List UInt8 -> m (Except FileFault Unit)

/-- A state that answers file operations.  Looking and reading leave it as it is, and
nothing else is asked of it. -/
class Storage (σ : Type) where
  /-- The names from the root of the directory in which the program runs. -/
  directory : σ -> Except FileFault (List String)
  /-- Look whether there is something at a path. -/
  stat : σ -> String -> Except FileFault Unit
  /-- The content of a file. -/
  readFile : σ -> String -> Except FileFault (List UInt8)
  /-- Make sure that a file can be written, and leave its content. -/
  openFile : σ -> String -> Except FileFault Unit × σ
  /-- Give a file a new content. -/
  writeFile : σ -> String -> List UInt8 -> Except FileFault Unit × σ

instance {σ : Type} [Storage σ] : FileSystem (StateM σ) where
  directory storage := (Storage.directory storage, storage)
  stat path storage := (Storage.stat storage path, storage)
  readFile path storage := (Storage.readFile storage path, storage)
  openFile path storage := Storage.openFile storage path
  writeFile path content storage := Storage.writeFile storage path content

/-- What an action returns on a storage, and the storage that it leaves behind. -/
def Storage.carryOut {σ α : Type} (storage : σ) (action : StateM σ α) : α × σ :=
  (action.run storage).run

theorem Storage.carryOut_bind
    {σ α β : Type}
    (storage : σ)
    (action : StateM σ α)
    (next : α -> StateM σ β) :
    carryOut storage (action >>= next) =
      carryOut (carryOut storage action).2 (next (carryOut storage action).1) :=
  rfl

namespace Disk

/-- A file or a directory. -/
inductive Node where
  /-- A file with its content. -/
  | file (content : List UInt8)
  /-- A directory with its named entries. -/
  | directory (entries : List (String × Node))
  deriving Repr, Inhabited

namespace Node

/-- A directory without entries. -/
def empty : Node :=
  .directory []

/-- The entry of a directory with a name. -/
def entry? (node : Node) (name : String) : Option Node :=
  match node with
  | .file _ => none
  | .directory entries => entries.lookup name

/-- Give an entry of a directory a new node. -/
def setEntry (entries : List (String × Node)) (name : String) (node : Node) :
    List (String × Node) :=
  match entries with
  | [] => [(name, node)]
  | (other, old) :: rest =>
    if other = name then
      (name, node) :: rest
    else
      (other, old) :: setEntry rest name node

/-- The node with the given names below a node. -/
def at? : List String -> Node -> Option Node
  | [], node => some node
  | name :: names, node => (node.entry? name).bind (at? names)

/-- Put a node at the given names below a node.  Missing directories are made;
what stands in the way is replaced. -/
def put (placed : Node) : List String -> Node -> Node
  | [], _ => placed
  | name :: names, .file _ => .directory [(name, put placed names empty)]
  | name :: names, .directory entries =>
    let below := (entries.lookup name).getD empty
    .directory (setEntry entries name (put placed names below))

end Node

/-- Follow steps through a tree from a directory, given by its names from the
root. -/
def follow (root : Node) (here : List String) : List String -> Except FileCause (List String)
  | [] => .ok here
  | step :: rest =>
    match Node.at? here root with
    | none => .error .notFound
    | some (.file _) => .error .notDirectory
    | some (.directory entries) =>
      if step = "" ∨ step = "." then
        follow root here rest
      else if step = ".." then
        follow root here.dropLast rest
      else if FileCause.longestName < step.utf8ByteSize then
        .error .tooLong
      else if (entries.lookup step).isSome then
        follow root (here ++ [step]) rest
      else
        .error .notFound

end Disk

/-- A tree of directories and files, and the directory in which a program
runs. -/
structure Disk where
  /-- The tree. -/
  root : Disk.Node
  /-- The names of the directory from the root. -/
  directory : List String

namespace Disk

/-- Where the steps of a path start. -/
def start (disk : Disk) (path : String) : List String :=
  if Path.isAbsolute path then [] else disk.directory

/-- The names from the root of what stands at a path. -/
def locate (disk : Disk) (path : String) : Except FileCause (List String) :=
  match FileCause.ofPath? path with
  | some cause => .error cause
  | none => follow disk.root (disk.start path) (Path.steps path)

/-- Look whether there is something at a path. -/
def stat (disk : Disk) (path : String) : Except FileFault Unit :=
  match disk.locate path with
  | .error cause => .error { action := .finding path, cause := cause }
  | .ok _ => .ok ()

/-- The content of a file.  A directory can be opened and not read. -/
def readFile (disk : Disk) (path : String) : Except FileFault (List UInt8) :=
  match disk.locate path with
  | .error cause => .error { action := .opening path, cause := cause }
  | .ok names =>
    match Node.at? names disk.root with
    | some (.file content) => .ok content
    | some (.directory _) => .error { action := .reading path, cause := .isDirectory }
    | none => .error { action := .opening path, cause := .notFound }

/-- Leave out the empty steps at the end of a path. -/
def withoutTrailing (steps : List String) : List String :=
  (steps.reverse.dropWhile (· == "")).reverse

/-- The names from the root of a file that is to be written.  Its directory has
to exist.  A path that ends in a slash, or leads back to a directory, cannot name
a file, whether there is something at it or not. -/
def locateNew (disk : Disk) (path : String) : Except FileCause (List String) := do
  if let some cause := FileCause.ofPath? path then
    throw cause
  let steps := Path.steps path
  let names := withoutTrailing steps
  let parent <- follow disk.root (disk.start path) names.dropLast
  match Node.at? parent disk.root with
  | some (.directory entries) =>
    let name := names.getLast?.getD ""
    if names.length < steps.length ∨ name = "." ∨ name = ".." then
      throw .isDirectory
    if FileCause.longestName < name.utf8ByteSize then
      throw .tooLong
    match entries.lookup name with
    | some (.directory _) => throw .isDirectory
    | _ => return parent ++ [name]
  | some (.file _) => throw .notDirectory
  | none => throw .notFound

/-- A disk on which a file has a new content. -/
def writeFile (disk : Disk) (path : String) (content : List UInt8) :
    Except FileFault Disk :=
  match disk.locateNew path with
  | .error cause => .error { action := .opening path, cause := cause }
  | .ok names => .ok { disk with root := Node.put (.file content) names disk.root }

/-- A disk on which a file exists, with the content that it had before. -/
def openFile (disk : Disk) (path : String) : Except FileFault Disk :=
  match disk.locateNew path with
  | .error cause => .error { action := .opening path, cause := cause }
  | .ok names =>
    match Node.at? names disk.root with
    | some _ => .ok disk
    | none => .ok { disk with root := Node.put (.file []) names disk.root }

/-- What an operation returns, and the disk that it leaves behind. -/
def commit (disk : Disk) (changed : Except FileFault Disk) : Except FileFault Unit × Disk :=
  match changed with
  | .ok after => (.ok (), after)
  | .error fault => (.error fault, disk)

instance : Storage Disk where
  directory disk := .ok disk.directory
  stat := stat
  readFile := readFile
  openFile disk path := disk.commit (disk.openFile path)
  writeFile disk path content := disk.commit (disk.writeFile path content)

end Disk

end GlyphStack
