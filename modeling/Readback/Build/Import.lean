import Readback.Build.Options

/-!
# Include lines

Generated files include headers of the runtime, headers in the build directory, and headers given by
their path. Before files are written, the paths are turned into names relative to the build
directory; a header outside it is included by its file name alone.

## Main definitions

* `Import`, `Import.line` — an included header and its line
* `Import.resolve`, `Import.resolveAll` — imports without paths, the runtime header first
* `Import.object?` — the compiled object that goes with a header in the build directory
-/

namespace Readback

/-- A header that a generated file includes. -/
inductive Import
  | library (name : String)
  | build (name : String)
  | absolute (path : Path)
  deriving DecidableEq, Repr

namespace Import

/-- The line that includes the header. -/
def line : Import → String
  | library name => "#include <" ++ name ++ ">"
  | build name => "#include \"" ++ name ++ "\""
  | absolute path => "#include \"" ++ path.text ++ "\""

/-- The import without a path: relative to the build directory if the path leads there, otherwise
the file name. A path is a Unicode text, and no part of it is replaced when it becomes a name. -/
def resolve (buildDir : Path) : Import → Import
  | absolute path =>
    match path.stripPrefix? buildDir with
    | some rest => build rest.text
    | none => build (path.fileName?.getD "")
  | i => i

/-- The header of the runtime. -/
def runtime (c : Convention) : Import := library c.runtimeHeader

/-- What a generated file includes: the header of the runtime, then the imports in their order. -/
def resolveAll (c : Convention) (buildDir : Path) (imports : List Import) : List Import :=
  runtime c :: imports.map (resolve buildDir)

/-- The object that has to be linked for a header in the build directory. -/
def object? (buildDir : Path) : Import → Option Path
  | build name => some (buildDir.join ((Path.mk name).withExtension "o"))
  | _ => none

/-- The objects that have to be linked for the imports. -/
def objects (buildDir : Path) (imports : List Import) : List Path :=
  imports.filterMap (object? buildDir)

end Import

end Readback
