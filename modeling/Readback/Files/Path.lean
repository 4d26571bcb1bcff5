/-!
# Paths

A path is a text whose parts are separated by slashes. Two paths name the same place when they have
the same components: empty parts vanish, and so do parts that are a single dot, except at the start
of a path that is not absolute. Nothing here looks at files, so `..` is a component like any other.

## Main definitions

* `Path`, `Path.segments`, `Path.components` — a path, its parts as written, and its components
* `Path.join` — a path below another one
* `Path.stripPrefix?` — the rest of a path below a directory
* `Path.fileName?`, `Path.extension?`, `Path.withExtension` — the last component and its ending
-/

namespace Readback

/-- A path, as it is written. It is a Unicode text, so that it is shown, and written into a file, as
it is; the names that a file system may have beyond Unicode are left out. -/
structure Path where
  text : String
  deriving DecidableEq, Repr, Inhabited

/-- What a path goes through. -/
inductive Component
  | root
  | here
  | parent
  | normal (name : String)
  deriving DecidableEq, Repr

namespace Path

/-- The parts of a text between slashes; one more than there are slashes. -/
def splitSlashes : List Char → List (List Char)
  | [] => [[]]
  | c :: cs =>
    if c = '/' then [] :: splitSlashes cs
    else
      match splitSlashes cs with
      | [] => [[c]]
      | part :: parts => (c :: part) :: parts

/-- The parts of a path between slashes. -/
def segments (p : Path) : List String := (splitSlashes p.text.toList).map String.ofList

/-- The path with the given parts. -/
def ofSegments (parts : List String) : Path := ⟨"/".intercalate parts⟩

/-- Whether a part of a path is no component where it is not the first part. -/
def isTrivial (segment : String) : Bool := segment = "" || segment = "."

/-- The component that a part of a path is where it is not the first part. -/
def component? (segment : String) : Option Component :=
  if isTrivial segment then none
  else if segment = ".." then some .parent
  else some (.normal segment)

/-- The component that only the start of a path can be, and the parts after it. -/
def start : List String → Option Component × List String
  -- a single empty part is the empty path, which does not start at the root
  | "" :: part :: parts => (some .root, part :: parts)
  | "." :: parts => (some .here, parts)
  | parts => (none, parts)

/-- Whether the path starts at the root. -/
def isAbsolute (p : Path) : Bool := (start p.segments).1 = some .root

/-- The components of a path. -/
def components (p : Path) : List Component :=
  let (first, parts) := start p.segments
  first.toList ++ parts.filterMap component?

/-- Drops the trivial parts at the end. -/
def trimEnd (parts : List String) : List String := (parts.reverse.dropWhile isTrivial).reverse

/-- Drops the trivial parts at both ends. -/
def trim (parts : List String) : List String := trimEnd (parts.dropWhile isTrivial)

/-- The place that a path names, seen from a directory. An absolute path does not depend on it. -/
def join (dir p : Path) : Path :=
  if p.isAbsolute then p
  else if dir.text = "" || dir.text.endsWith "/" then ⟨dir.text ++ p.text⟩
  else ⟨dir.text ++ "/" ++ p.text⟩

/-- Drops components off the front of the parts of a path; `none` if they are others. -/
def dropComponents : List Component → List String → Option (List String)
  | [], parts => some parts
  | _ :: _, [] => none
  | c :: cs, part :: parts =>
    match component? part with
    | none => dropComponents (c :: cs) parts
    | some d => if c = d then dropComponents cs parts else none

/-- The path without trivial parts at its end. -/
def withoutTrailing (p : Path) : Path :=
  match start p.segments with
  | (some .root, parts) => ⟨"/" ++ (ofSegments (trimEnd parts)).text⟩
  | (some _, parts) => ofSegments ("." :: trimEnd parts)
  | (none, parts) => ofSegments (trimEnd parts)

/-- The rest of the path behind a directory, as it is written; `none` if the path does not lead
through the directory. -/
def stripPrefix? (p dir : Path) : Option Path :=
  match dir.components with
  | [] => some p.withoutTrailing
  | c :: cs =>
    let rest := match start p.segments with
      | (some d, parts) => if c = d then dropComponents cs parts else none
      | (none, parts) => dropComponents (c :: cs) parts
    rest.map fun parts => ofSegments (trim parts)

/-- The last component if it is a name, with the parts before it. -/
def lastName? (p : Path) : Option (List String × String) :=
  match p.segments.reverse.dropWhile isTrivial with
  | [] => none
  | name :: before => if name = ".." then none else some (before.reverse, name)

/-- The last component if it is a name. -/
def fileName? (p : Path) : Option String := p.lastName?.map (·.2)

/-- A file name up to its last dot, and the ending behind the dot. A dot at the start of a name
begins no ending. -/
def splitEnding (name : String) : String × Option String :=
  let reversed := name.toList.reverse
  match reversed.dropWhile (· ≠ '.') with
  | _ :: stem@(_ :: _) =>
    (String.ofList stem.reverse, some (String.ofList (reversed.takeWhile (· ≠ '.')).reverse))
  | _ => (name, none)

/-- The ending of the last component. -/
def extension? (p : Path) : Option String := p.fileName?.bind fun name => (splitEnding name).2

/-- The path with the given text behind the stem of its last component. -/
def replaceEnding (p : Path) (ending : String) : Path :=
  match p.lastName? with
  | none => p
  | some (before, name) => ofSegments (before ++ [(splitEnding name).1 ++ ending])

/-- The path with another ending. The text of the old ending is taken off the end of the path
first; where this leaves no file name, as in `..h`, nothing takes its place. -/
def withExtension (p : Path) (extension : String) : Path :=
  let length := (p.extension?.getD "").length
  let cut : Path := ⟨String.ofList (p.text.toList.take (p.text.length - length))⟩
  cut.replaceEnding (if extension = "" then "" else "." ++ extension)

end Path

end Readback
