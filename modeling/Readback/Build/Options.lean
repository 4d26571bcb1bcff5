import Readback.Files.Tree
import Readback.FreshName
import Readback.Name

/-!
# Build options

How a program is compiled and where its files go. Options are checked once against the file tree;
the options of one artifact differ from those of the evaluator in the names only.

## Main definitions

* `Options`, `OptionsError`, `Options.check` — the options and what is wrong with some of them
* `Options.forArtifact` — the options for building one artifact
* `ArtifactPaths`, `Options.pathsFor` — the files of an artifact
-/

namespace Readback

/-- How generated functions call each other. -/
inductive Convention
  | cps
  | direct
  deriving DecidableEq, Repr

namespace Convention

/-- The word for a convention. -/
def render : Convention → String
  | cps => "cps"
  | direct => "direct"

/-- The header of the runtime that goes with a convention. -/
def runtimeHeader : Convention → String
  | cps => "gc.h"
  | direct => "gc_stack.h"

end Convention

/-- What is recorded while compiling and running. -/
structure DebugFlags where
  debug : Bool := false
  timing : Bool := false
  timingAnf : Bool := false
  deriving DecidableEq, Repr

/-- The flags as the bits of a number. -/
def DebugFlags.bits (f : DebugFlags) : Nat :=
  f.debug.toNat + 2 * f.timing.toNat + 4 * f.timingAnf.toNat

/-- A constant that compiled code takes from a native symbol. -/
structure PrimitiveSymbol where
  constant : Name
  symbol : String
  deriving DecidableEq, Repr

/-- How a program is compiled and where its files go. -/
structure Options where
  convention : Convention := .direct
  optLevel : Nat := 1
  flags : DebugFlags := {}
  argHint : Nat := 5
  outputDir : Path
  extension : String := ""
  symbolPrefix : String := ""
  entryName : String := "body"
  fileStem : String := "program"
  primitives : List PrimitiveSymbol := []
  deriving DecidableEq, Repr

/-- What is wrong with options. -/
inductive OptionsError
  | missingOutputDir (dir : Path)
  | notADirectory (path : Path)
  | optLevel (level : Nat)
  | emptyFileStem
  | emptyEntryName
  | invalidIdentifier (text : String)
  deriving DecidableEq, Repr

/-- The text of a complaint about options. -/
def OptionsError.message : OptionsError → String
  | missingOutputDir dir => "output directory `" ++ dir.text ++ "` does not exist"
  | notADirectory path => "output path `" ++ path.text ++ "` is not a directory"
  | optLevel level => "optimization level " ++ toString level ++ " is out of range (0-3)"
  | emptyFileStem => "file-name stem must not be empty"
  | emptyEntryName => "entry symbol must not be empty"
  | invalidIdentifier text => "`" ++ text ++ "` is not a valid C identifier fragment"

/-- Whether a text has only characters of C identifiers. -/
def isIdentifierFragment (text : String) : Bool := text.toList.all isIdentifierChar

/-- The files of an artifact. -/
structure ArtifactPaths where
  source : Path
  header : Path
  object : Path
  library : Path
  deriving DecidableEq, Repr

/-- The name under which the generated source includes the generated header. -/
def ArtifactPaths.headerName (p : ArtifactPaths) : String := p.header.fileName?.getD ""

namespace Options

/-- Looks at the output directory, then at the numbers and names. The first complaint counts. -/
def check (files : FileTree) (o : Options) : Except OptionsError Unit := do
  if ! files.present o.outputDir then throw (.missingOutputDir o.outputDir)
  if ! files.isDirectory o.outputDir then throw (.notADirectory o.outputDir)
  if 3 < o.optLevel then throw (.optLevel o.optLevel)
  if o.fileStem = "" then throw .emptyFileStem
  if o.entryName = "" then throw .emptyEntryName
  if ! isIdentifierFragment o.symbolPrefix then throw (.invalidIdentifier o.symbolPrefix)
  if ! isIdentifierFragment o.entryName then throw (.invalidIdentifier o.entryName)

/-- The options for building the artifact with a native symbol, which names its files too. -/
def forArtifact (o : Options) (symbol : String) : Options :=
  { o with fileStem := symbol, entryName := symbol }

/-- The files with a stem. -/
def pathsFor (o : Options) (stem : String) : ArtifactPaths :=
  let file (name : String) : Path := o.outputDir.join ⟨name⟩
  { source := file (stem ++ o.extension ++ ".c")
    header := file (stem ++ o.extension ++ ".h")
    object := file (stem ++ o.extension ++ ".o")
    library := file ("lib" ++ stem ++ o.extension ++ ".so") }

/-- The files with the stem of the options. -/
def paths (o : Options) : ArtifactPaths := o.pathsFor o.fileStem

end Options

end Readback
