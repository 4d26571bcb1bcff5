import Readback.Files.Tree
import Readback.Process.Script

/-!
# Starting programs

Two standard programs do nothing but end, one well and one badly. A program named without a slash is
looked for among the standard ones; any other name is the path of a script in the file tree.

## Main definitions

* `standardProgram?` — how the standard programs end
* `FileTree.spawn` — what running a command comes to
-/

namespace Readback

/-- How a standard program ends, by its name or its full path. -/
def standardProgram? (program : String) : Option ProcessStatus :=
  if program ∈ ["true", "/bin/true", "/usr/bin/true"] then some (.exited 0)
  else if program ∈ ["false", "/bin/false", "/usr/bin/false"] then some (.exited 1)
  else none

namespace FileTree

/-- The line with which an executable script begins. -/
def scriptHead : String := "#!/bin/sh\n"

/-- What running a command comes to. -/
def spawn (t : FileTree) (c : Command) : ProcessOutcome :=
  if (c.program :: c.args).any fun part => part.toList.contains '\x00' then
    .notStarted (.other "nul byte found in provided data")
  else
    match standardProgram? c.program with
    | some status => .ended status []
    | none =>
      if c.program.toList.contains '/' then
        match t.node? ⟨c.program⟩ with
        | .error cause => .notStarted cause
        | .ok (.file text true) =>
          Script.run (text.drop scriptHead.length).toString c.program c.args
        | .ok _ => .notStarted .permissionDenied
      else .notStarted .notFound

/-- Makes a script at a path. -/
def addScript (t : FileTree) (p : Path) (script : String) : FileTree :=
  match t.creationPlace p with
  | .ok place => t.set place (.file (scriptHead ++ script) true)
  | .error _ => t

end FileTree

end Readback
