import Readback.Files.IoError
import Readback.Files.Path

/-!
# File trees

The files and directories that a session works on. A place in the tree is the list of the names that
lead to it from the root, which is always a directory. Paths that are not absolute start at the
working directory.

Most errors are told by the tree: something is missing, or is no directory. The system also fails
for reasons of its own, such as a full disk or a missing permission. The tree lists the paths for
which it does so, about which nothing is assumed.

## Main definitions

* `FileNode`, `FileTree` — files and directories by place
* `Fault` — why the system makes no whole file under a path, and how much it makes of it
* `FileTree.resolve`, `FileTree.node?` — the place that a path names, and what is there
* `FileTree.present`, `FileTree.isDirectory`, `FileTree.read?`, `FileTree.list?` — looking at a tree
* `FileTree.write`, `FileTree.makeDirectories` — changing it
-/

namespace Readback

/-- What can be at a place. -/
inductive FileNode
  | directory
  | file (text : String) (executable : Bool)
  deriving DecidableEq, Repr

/-- Why the system fails when a file is created and its first lines are written. If it has created
the file by then, it keeps some of their characters. -/
structure Fault where
  cause : IoError
  kept : Option Nat := none
  deriving DecidableEq, Repr

/-- Files and directories by place, seen from a working directory, and the faults of the system. -/
structure FileTree where
  workingDirectory : List String := []
  nodes : List (List String × FileNode) := []
  faults : List (Path × Fault) := []
  deriving Repr

namespace FileTree

/-- The greatest number of bytes in a name. -/
def maxNameBytes : Nat := 255

/-- The greatest number of bytes in a path. -/
def maxPathBytes : Nat := 4095

/-- What is at a place. -/
def at? (t : FileTree) : List String → Option FileNode
  | [] => some .directory
  | place => (t.nodes.find? (·.1 = place)).map (·.2)

/-- Succeeds at a place that is a directory. -/
def expectDirectory (t : FileTree) (place : List String) : Except IoError Unit :=
  match t.at? place with
  | some .directory => .ok ()
  | some (.file _ _) => .error .notADirectory
  | none => .error .notFound

/-- Follows the parts of a path from a place on. Every place left on the way is a directory. -/
def walk (t : FileTree) (place : List String) : List String → Except IoError (List String)
  | [] => .ok place
  | part :: parts => do
    t.expectDirectory place
    if Path.isTrivial part then walk t place parts
    else if part = ".." then walk t place.dropLast parts
    else if maxNameBytes < part.utf8ByteSize then throw .nameTooLong
    -- whether anything is there is asked when the walk goes on from there
    else walk t (place ++ [part]) parts

/-- Refuses the texts that are no paths for the system. -/
def checkPath (p : Path) : Except IoError Unit :=
  if p.text.toList.contains '\x00' then
    .error (.other "file name contained an unexpected NUL byte")
  else if p.text = "" then .error .notFound
  else if maxPathBytes < p.text.utf8ByteSize then .error .nameTooLong
  else .ok ()

/-- Where a path starts. -/
def startOf (t : FileTree) (p : Path) : List String :=
  if p.isAbsolute then [] else t.workingDirectory

/-- The place that a path names. -/
def resolve (t : FileTree) (p : Path) : Except IoError (List String) := do
  checkPath p
  t.walk (t.startOf p) p.segments

/-- What is at a path. -/
def node? (t : FileTree) (p : Path) : Except IoError FileNode := do
  match t.at? (← t.resolve p) with
  | some n => return n
  | none => throw .notFound

/-- Whether something is at a path. -/
def present (t : FileTree) (p : Path) : Bool := (t.node? p).isOk

/-- Whether a directory is at a path. -/
def isDirectory (t : FileTree) (p : Path) : Bool :=
  match t.node? p with
  | .ok .directory => true
  | _ => false

/-- The text of the file at a path. -/
def read? (t : FileTree) (p : Path) : Option String :=
  match t.node? p with
  | .ok (.file text _) => some text
  | _ => none

/-- The name of an entry right below a place. -/
def entryName? (place entry : List String) : Option String :=
  match entry.getLast? with
  | some name => if entry.dropLast = place then some name else none
  | none => none

/-- The sorted names of the entries of the directory at a path. -/
def list? (t : FileTree) (p : Path) : Option (List String) :=
  match t.resolve p with
  | .ok place =>
    if t.at? place = some .directory then
      some ((t.nodes.filterMap fun n => entryName? place n.1).mergeSort
        fun a b => decide (¬ b < a))
    else none
  | .error _ => none

/-- Puts something at a place, in place of what was there. -/
def set (t : FileTree) (place : List String) (n : FileNode) : FileTree :=
  { t with nodes := (place, n) :: t.nodes.filter (·.1 ≠ place) }

/-- What was put at a place below the root is there. -/
theorem at?_set_self (t : FileTree) {place : List String} (n : FileNode) (below : place ≠ []) :
    (t.set place n).at? place = some n := by
  cases place with
  | nil => contradiction
  | cons name names => simp [set, at?]

/-- The place at which a path creates a file, in place of a file that is there. Nothing can be
created behind a slash at the end, at a dot or two, or where there is a directory. -/
def creationPlace (t : FileTree) (p : Path) : Except IoError (List String) := do
  checkPath p
  match p.segments.reverse.dropWhile (· = "") with
  | [] => throw .isADirectory
  | name :: before =>
    let dir ← t.walk (t.startOf p) before.reverse
    t.expectDirectory dir
    -- the directory has to exist before the last part is refused
    if p.text.endsWith "/" || name = "." || name = ".." then throw .isADirectory
    if maxNameBytes < name.utf8ByteSize then throw .nameTooLong
    if t.at? (dir ++ [name]) = some .directory then throw .isADirectory
    return dir ++ [name]

/-- Gives the file at a place a text. A file that is there keeps whether it is executable. -/
def fill (t : FileTree) (place : List String) (text : String) : FileTree :=
  match t.at? place with
  | some (.file _ executable) => t.set place (.file text executable)
  | _ => t.set place (.file text false)

/-- The fault of the system under a path. -/
def fault? (t : FileTree) (p : Path) : Option Fault := (t.faults.find? (·.1 = p)).map (·.2)

/-- The tree after a fault: where a file was created, it has the start of the text. -/
def afterFault (t : FileTree) (p : Path) (text : String) (fault : Fault) : FileTree :=
  match fault.kept, t.creationPlace p with
  | some length, .ok place => t.fill place (String.ofList (text.toList.take length))
  | _, _ => t

/-- Writes a file. -/
def write (t : FileTree) (p : Path) (text : String) : Except IoError FileTree :=
  (t.creationPlace p).map fun place => t.fill place text

/-- Makes the directories on the way to a place, as far as they are missing. -/
def makePlaces (t : FileTree) (place : List String) : List String → FileTree
  | [] => t
  | name :: names =>
    if name = ".." then makePlaces t place.dropLast names
    else
      let next := place ++ [name]
      let t := if (t.at? next).isSome then t else t.set next .directory
      makePlaces t next names

/-- Makes a directory and those above it, as far as they are missing. -/
def makeDirectories (t : FileTree) (p : Path) : FileTree :=
  t.makePlaces (t.startOf p) (p.segments.filter (! Path.isTrivial ·))

end FileTree

end Readback
