import Readback.Evaluation.Backend
import Readback.Evaluation.Session

/-!
# Evaluating programs natively

An evaluator compiles a program, writes the generated files, builds and loads them, runs the entry
point and reads its result back. Whatever is registered under the identifier of a request is run
without building it again. The type of the result is looked at first, so that nothing is built for a
result that cannot be read.

## Main definitions

* `Evaluator`, `Request`, `Evaluation`, `Emitted` — an evaluator, what it is asked and what it gives
* `Evaluator.evaluate`, `Evaluator.runCached` — the result of a program
* `Evaluator.generate` — generated files without a build
-/

namespace Readback

/-- A program to evaluate: the identifier that its artifact is kept under, the program, the type of
its result, and what the generated files include. -/
structure Request (Source : Type) where
  id : String
  source : Source
  type : Term
  imports : List Import := []

/-- A result that was read back. -/
structure Evaluation where
  term : Term
  diagnostics : Diagnostics
  cached : Bool
  timed : Bool
  messages : List Message
  symbol : String
  deriving DecidableEq, Repr

/-- The files that were written, and what they include. -/
structure Emitted where
  source : Path
  header : Path
  imports : List Import
  diagnostics : Diagnostics
  deriving DecidableEq, Repr

/-- A backend with options. -/
structure Evaluator (World Source Module Entry : Type) where
  backend : Backend World Source Module Entry
  options : Options

namespace Evaluator

open Session (Run call require attaching reserve register takePending)

variable {World Source Module Entry : Type}

/-- The include lines of a generated file, and a blank line. -/
def includeLines (includes : List Import) : String :=
  String.join (includes.map fun i => i.line ++ "\n") ++ "\n"

/-- Writes a generated file: the include lines, a blank line, and the module as far as it can be
written. If the system fails before the module, the compiler is not asked for it. -/
def writeModule (ev : Evaluator World Source Module Entry) (path : Path) (includes : List Import)
    (m : Module) : Run World Entry Unit := do
  let files := (← get).files
  match files.fault? path with
  | some fault =>
    modify fun s => { s with files := s.files.afterFault path (includeLines includes) fault }
    throw (.io path fault.cause)
  | none =>
    let place ← require ((files.creationPlace path).mapError (.io path))
    let emission ← call (ev.backend.emit m)
    -- the text goes to the file even if the rest of the module is missing
    modify fun s =>
      { s with files := s.files.fill place (includeLines includes ++ emission.text) }
    match emission.failure with
    | some cause => throw (.io path cause)
    | none => return ()

/-- Writes what the compiler generated: the header, then the source, which includes it. -/
def emit (ev : Evaluator World Source Module Entry) (outcome : Compilation Module)
    (paths : ArtifactPaths) (imports : List Import) : Run World Entry Emitted := do
  match outcome.result with
  | .error message => throw (.compile message outcome.diagnostics)
  | .ok modules =>
    let imports := Import.resolveAll ev.options.convention ev.options.outputDir imports
    attaching outcome.diagnostics do
      ev.writeModule paths.header imports modules.header
      -- the generated header comes behind all others, by its name alone
      ev.writeModule paths.source (imports ++ [.build paths.headerName]) modules.definitions
    return { source := paths.source, header := paths.header, imports
             diagnostics := outcome.diagnostics }

/-- Builds and loads the files of an artifact and registers it. -/
def linkAndLoad (ev : Evaluator World Source Module Entry) (id symbol : String) (options : Options)
    (imports : List Import) : Run World Entry (Artifact Entry) := do
  let paths := options.paths
  let job : BuildJob := {
    buildDir := options.outputDir, source := paths.source, object := paths.object
    library := paths.library, dependencies := Import.objects options.outputDir imports
    optLevel := options.optLevel }
  require ((← call (ev.backend.build .compile job)).mapError .toolchain)
  require ((← call (ev.backend.build .link job)).mapError .toolchain)
  let entry ← require (← call (ev.backend.load paths.library symbol))
  register { id, symbol, entry }

/-- Makes the artifact of a request, under a symbol of its own. -/
def build (ev : Evaluator World Source Module Entry) (request : Request Source) :
    Run World Entry (Artifact Entry × Diagnostics) := do
  let symbol ← reserve (cSymbol ev.options.symbolPrefix request.id)
  -- from here on the symbol is taken, whatever fails
  let options := ev.options.forArtifact symbol
  let outcome ← call (ev.backend.compile .program options request.source)
  let emitted ← ev.emit outcome options.paths request.imports
  let artifact ← attaching emitted.diagnostics
    (ev.linkAndLoad request.id symbol options emitted.imports)
  return (artifact, emitted.diagnostics)

/-- Runs an artifact and reads its result back. What was pending in the channel before is dropped,
and a fatal error counts for more than the result. -/
def execute (ev : Evaluator World Source Module Entry) (env : Environment) (type : Readable)
    (artifact : Artifact Entry) : Run World Entry (Term × List Message) := do
  -- a run that fails has been a run
  modify fun s => { s with channel := {}, registry := s.registry.markInvoked artifact.id }
  let invocation ← call (ev.backend.invoke artifact.entry)
  modify fun s => { s with channel := s.channel.receiveAll invocation.calls }
  let pending ← takePending
  if let some message := pending.fatal then
    throw (.fatal message)
  let v ← require invocation.result
  let term ← require ((type.decode env defaultFuel v).mapError .decode)
  return (term, pending.messages)

/-- Runs an artifact for a request. The diagnostics of its build go with the result or the error. -/
def finish (ev : Evaluator World Source Module Entry) (env : Environment) (type : Readable)
    (artifact : Artifact Entry) (diagnostics : Diagnostics) (cached : Bool) :
    Run World Entry Evaluation := do
  let (term, messages) ← attaching diagnostics (ev.execute env type artifact)
  return { term, diagnostics, cached, messages
           timed := ev.options.flags.timing, symbol := artifact.symbol }

/-- The readable type of a result. -/
def resultType (env : Environment) (type : Term) : Run World Entry Readable :=
  require ((Readable.ofResultType env defaultFuel type).mapError (.decode ∘ .type))

/-- Evaluates a program and reads its result back. A program whose identifier is registered is not
built again. -/
def evaluate (ev : Evaluator World Source Module Entry) (env : Environment)
    (request : Request Source) : Run World Entry Evaluation := do
  let type ← resultType env request.type
  match (← get).registry.lookup? request.id with
  | some artifact => ev.finish env type artifact {} true
  | none =>
    let (artifact, diagnostics) ← ev.build request
    ev.finish env type artifact diagnostics false

/-- Runs the artifact that is registered under an identifier and reads its result back. -/
def runCached (ev : Evaluator World Source Module Entry) (env : Environment) (id : String)
    (type : Term) : Run World Entry Evaluation := do
  let type ← resultType env type
  match (← get).registry.lookup? id with
  | some artifact => ev.finish env type artifact {} true
  | none => throw (.notFound id)

/-- Generates and writes the files of a product under the stem of the options, without a build. -/
def generate (ev : Evaluator World Source Module Entry) (product : Product) (source : Source)
    (imports : List Import) : Run World Entry Emitted := do
  let outcome ← call (ev.backend.compile product ev.options source)
  ev.emit outcome (ev.options.pathsFor (product.stem ev.options.fileStem)) imports

end Evaluator

end Readback
