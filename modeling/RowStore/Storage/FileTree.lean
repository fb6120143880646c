import RowStore.FinMap
import RowStore.Ident
import RowStore.Storage.Path

/-! # File trees
The directories and files that a store works on. A place is named by the names on the way from the root;
the root is always a directory. Nothing is ever removed, so the place of a file stays its name. -/

namespace RowStore

/-- Why a file or directory cannot be used. The reasons of a device that fails under an open file have no
kinds of their own. -/
inductive IoError where
  | notFound
  | alreadyExists
  | isADirectory
  | notADirectory
  /-- The contents are no text. -/
  | invalidData
  deriving DecidableEq, Repr

/-- Says why a file or directory cannot be used. -/
def IoError.message : IoError → String
  | notFound => "no such file or directory"
  | alreadyExists => "it exists already"
  | isADirectory => "it is a directory"
  | notADirectory => "it is not a directory"
  | invalidData => "it holds no valid text"

/-- What stands at a place. -/
inductive FileNode where
  | file (content : Bytes)
  | directory
  deriving DecidableEq

/-- Directories and files. -/
structure FileTree where
  /-- How the root is written in a full path, without a slash at its end. -/
  root : String
  /-- Where relative paths start. -/
  cwd : Location
  /-- What stands at each place but the root. -/
  nodes : FinMap Location FileNode

namespace FileTree

/-- A tree of an empty directory. -/
def empty (root : String) : FileTree :=
  ⟨root, [], ∅⟩

/-- What stands at a place. -/
def node? (t : FileTree) (l : Location) : Option FileNode :=
  if l = [] then some .directory else t.nodes.get? l

/-- The content of a file; nothing where there is no file. -/
def content (t : FileTree) (l : Location) : Bytes :=
  match t.node? l with
  | some (.file content) => content
  | _ => []

/-- Puts something at a place. -/
def put (t : FileTree) (l : Location) (n : FileNode) : FileTree :=
  { t with nodes := t.nodes.insert l n }

/-- Replaces the content of a file. -/
def write (t : FileTree) (l : Location) (content : Bytes) : FileTree :=
  t.put l (.file content)

/-- A place as a full path. -/
def fullPath (t : FileTree) (l : Location) : String :=
  t.root ++ "/" ++ l.text

theorem content_write {t : FileTree} {l : Location} (h : l ≠ []) (content : Bytes) :
    (t.write l content).content l = content := by
  simp [FileTree.content, node?, write, put, h]

theorem content_write_of_ne (t : FileTree) {l m : Location} (content : Bytes) (h : m ≠ l) :
    (t.write l content).content m = t.content m := by
  simp [FileTree.content, node?, write, put, t.nodes.get?_insert_of_ne _ h]

/-! ## Following paths -/

/-- Follows steps from a place. Only directories have entries, and the directory above the root is the
root. -/
def walk (t : FileTree) : Location → List PathStep → Except IoError Location
  | l, [] => .ok l
  | l, s :: rest =>
    match t.node? l, s with
    | some .directory, .stay => walk t l rest
    | some .directory, .up => walk t l.dropLast rest
    | some .directory, .name n =>
      if (t.node? (l ++ [n])).isSome then walk t (l ++ [n]) rest else .error .notFound
    | some (.file _), _ => .error .notADirectory
    | none, _ => .error .notFound

/-- Where the steps of a path start. -/
def start (t : FileTree) (p : Path) : Location :=
  if p.absolute then [] else t.cwd

/-- The place that a path names, with what stands there. -/
def find (t : FileTree) (p : Path) : Except IoError (Location × FileNode) := do
  let l ← t.walk (t.start p) p.steps
  match t.node? l with
  | some (.file content) =>
    if p.directory then throw .notADirectory else return (l, .file content)
  | some .directory => return (l, .directory)
  | none => throw .notFound

/-- Where a step leads, whether or not anything stands there. -/
def follow (l : Location) : PathStep → Location
  | .name n => l ++ [n]
  | .up => l.dropLast
  | .stay => l

/-- The place that a path names. Where nothing stands, it is the place that the steps lead to. -/
def locate (t : FileTree) (p : Path) : Location :=
  match t.find p with
  | .ok (l, _) => l
  | .error _ => p.steps.foldl follow (t.start p)

/-- Whether a path names something. -/
def exists? (t : FileTree) (p : Path) : Bool :=
  (t.find p).isOk

/-- Whether a path names a directory. -/
def isDirectory (t : FileTree) (p : Path) : Bool :=
  match t.find p with
  | .ok (_, .directory) => true
  | _ => false

/-- The content of the file that a path names. -/
def read (t : FileTree) (p : Path) : Except IoError Bytes := do
  match ← t.find p with
  | (_, .file content) => return content
  | (_, .directory) => throw .isADirectory

/-- The text in the file that a path names. -/
def readText (t : FileTree) (p : Path) : Except IoError String := do
  match Utf8.decode? (← t.read p) with
  | some s => return s
  | none => throw .invalidData

/-! ## Making files and directories -/

/-- The place of the entry that a path names last, in a directory that exists. There is none where the
path ends in a directory by itself. -/
def lastEntry (t : FileTree) (p : Path) : Except IoError (Option Location) := do
  let above ← t.walk (t.start p) p.steps.dropLast
  match t.node? above, p.steps.getLast? with
  | some .directory, some (.name n) => return some (above ++ [n])
  | some .directory, _ => return none
  | some (.file _), _ => throw .notADirectory
  | none, _ => throw .notFound

/-- Makes a directory in one that exists. -/
def makeDirectory (t : FileTree) (p : Path) : Except IoError FileTree := do
  match ← t.lastEntry p with
  | some l => if (t.node? l).isSome then throw .alreadyExists else return t.put l .directory
  | none => throw .alreadyExists

/-- Makes a directory in one that exists, unless it is there already. -/
def ensureDirectory (t : FileTree) (p : Path) : Except IoError FileTree :=
  match t.makeDirectory p with
  | .ok made => .ok made
  | .error e => if t.isDirectory p then .ok t else .error e

/-- Makes a directory and, as far as they are missing, those above it. What has been made stays when a
later one fails. `depth` bounds how many there are. -/
def makeDirectories : Nat → FileTree → Path → FileTree × Except IoError Unit
  | 0, t, _ => (t, .ok ())
  | depth + 1, t, p =>
    match t.ensureDirectory p with
    | .ok t => (t, .ok ())
    | .error .notFound =>
      match makeDirectories depth t p.parent with
      | (t, .ok ()) =>
        match t.ensureDirectory p with
        | .ok t => (t, .ok ())
        | .error e => (t, .error e)
      | failed => failed
    | .error e => (t, .error e)

/-- Opens a file for reading and writing, and makes it, empty, if it is missing. A path that can only name
a directory is refused whatever stands there. -/
def openFile (t : FileTree) (p : Path) : Except IoError (FileTree × Location) := do
  match ← t.lastEntry p with
  | none => throw .isADirectory
  | some l =>
    if p.directory then throw .isADirectory
    match t.node? l with
    | some .directory => throw .isADirectory
    | some (.file _) => return (t, l)
    | none => return (t.write l [], l)

/-- Opens a file as `openFile` does, and first makes the directories above it that are missing. -/
def openWithDirectories (t : FileTree) (p : Path) : FileTree × Except IoError Location :=
  match makeDirectories (p.steps.length + 1) t p.parent with
  | (t, .error e) => (t, .error e)
  | (t, .ok ()) =>
    match t.openFile p with
    | .ok (t, l) => (t, .ok l)
    | .error e => (t, .error e)

/-- Writes octets into a file at a position, and fills a gap before it with zeros. -/
def splice (content : Bytes) (position : Nat) (octets : Bytes) : Bytes :=
  content.take position ++ List.replicate (position - content.length) 0 ++ octets
    ++ content.drop (position + octets.length)

theorem length_splice (content : Bytes) (position : Nat) (octets : Bytes) :
    (splice content position octets).length
      = max content.length (position + octets.length) := by
  simp only [splice, List.length_append, List.length_take, List.length_replicate, List.length_drop]
  omega

end FileTree

end RowStore
