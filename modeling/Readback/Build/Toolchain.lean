import Readback.Build.Options
import Readback.Process.Command
import Readback.Text.Lossy

/-!
# Compiling and linking

The C compiler turns a generated source into an object and links it, with the objects of the runtime
and of the imports, into a library.

## Main definitions

* `BuildJob` — the files of one build
* `Toolchain`, `Toolchain.compileCommand`, `Toolchain.linkCommand` — the commands of a build
* `ToolchainError`, `Toolchain.judge` — what a command's outcome means
* `Toolchain.detect` — the toolchain that the surroundings ask for
-/

namespace Readback

/-- The two steps of a build. -/
inductive BuildStage
  | compile
  | link
  deriving DecidableEq, Repr

/-- The word for a step. -/
def BuildStage.render : BuildStage → String
  | compile => "compile"
  | link => "link"

/-- The files of one build. -/
structure BuildJob where
  buildDir : Path
  source : Path
  object : Path
  library : Path
  dependencies : List Path
  optLevel : Nat
  deriving DecidableEq, Repr

/-- Why a build step failed. -/
inductive ToolchainError
  | failed (stage : BuildStage) (status : ProcessStatus) (command errorOutput : String)
  | notStarted (stage : BuildStage) (program : String) (cause : IoError)
  | runtimeNotFound (searched : List Path)
  deriving DecidableEq, Repr

/-- The text of a toolchain error. -/
def ToolchainError.message : ToolchainError → String
  | failed stage status command errorOutput =>
    stage.render ++ " step failed (" ++ status.message ++ ")\n\ncommand: " ++ command ++
      "\n\nstderr:\n" ++ errorOutput
  | notStarted stage program cause =>
    "could not run `" ++ program ++ "` for the " ++ stage.render ++ " step: " ++ cause.message
  | runtimeNotFound searched =>
    "runtime directory not found (set KILN_RUNTIME_DIR); searched: " ++
      ", ".intercalate (searched.map (·.text))

/-- A C compiler with the directory and the objects of the runtime. -/
structure Toolchain where
  cc : Path
  runtimeDir : Path
  runtimeObjects : List Path := []
  deriving DecidableEq, Repr

namespace Toolchain

/-- The command that compiles the source of a job. -/
def compileCommand (t : Toolchain) (job : BuildJob) : Command where
  program := t.cc.text
  args := ["-I", job.buildDir.text, "-I", t.runtimeDir.text, "-O" ++ toString job.optLevel,
    "-fPIC", "-c", "-o", job.object.text, job.source.text]

/-- The command that links the library of a job. -/
def linkCommand (t : Toolchain) (job : BuildJob) : Command where
  program := t.cc.text
  args := ["-L", job.buildDir.text, "-L", t.runtimeDir.text, "-shared", "-o", job.library.text] ++
    t.runtimeObjects.map (·.text) ++ [job.object.text] ++ job.dependencies.map (·.text)

/-- The command of a step. -/
def command (t : Toolchain) : BuildStage → BuildJob → Command
  | .compile => t.compileCommand
  | .link => t.linkCommand

/-- What the outcome of a step's command means for the build. -/
def judge (stage : BuildStage) (c : Command) : ProcessOutcome → Except ToolchainError Unit
  | .notStarted cause => .error (.notStarted stage c.program cause)
  | .ended status errorOutput =>
    if status.isSuccess then .ok ()
    else .error (.failed stage status c.line (Text.decodeLossy errorOutput))

/-- The objects in a directory, by name. -/
def objectsIn (files : FileTree) (dir : Path) : List Path :=
  (((files.list? dir).getD []).map fun name => dir.join ⟨name⟩).filter (·.extension? = some "o")

/-- The toolchain that the surroundings ask for: the compiler `cc` unless another is named, and the
runtime in the directory that is named, or else in the one that was installed beside the program. -/
def detect (files : FileTree) (cc : Option Path) (runtimeDir installed : Option Path) :
    Except ToolchainError Toolchain :=
  -- a directory that is named is not replaced, even if it is missing
  match runtimeDir <|> installed with
  | none => .error (.runtimeNotFound [])
  | some dir =>
    if files.isDirectory dir then
      .ok { cc := cc.getD ⟨"cc"⟩, runtimeDir := dir, runtimeObjects := objectsIn files dir }
    else .error (.runtimeNotFound [dir])

end Toolchain

end Readback
