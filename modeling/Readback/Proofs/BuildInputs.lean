import Readback.Proofs.BuildFiles
import Readback.Proofs.ImportPaths

/-!
# Builds and their inputs

The headers that a request includes by name are looked up in the output directory, where the files
of the build go too, and so are the objects that are linked for them. The stem of the files is
chosen so that no other build has it, but nobody asks whether an import has it. A build overwrites
its own input if an import names one of its files, or if it names a header with their stem, whose
object is then the object of the build. By its stem the generated header may also take the place of
the header of the runtime.

## Main definitions

* `Import.inputs` — what imports name in the build directory
* `Options.Overwrites` — builds that have an input among their files
* `Options.SameStem` — headers beside the generated one with the same name up to the ending

## Main statements

* `Path.components_join_withExtension_eq_iff` — where a path with another ending leads
* `Options.object_eq_file_iff` — when the object of an import is a file of the build
* `Options.build_overwrites_iff` — when a build overwrites an input, and when its header has the
  name of the header of the runtime
* `Session.build_overwrites_header` — builds for which that is so
-/

namespace Readback

namespace Path

variable {dir p : Path}

theorem component?_of_mem {part : String} {c : Char} (member : c ∈ part.toList) (notDot : c ≠ '.') :
    component? part = some (.normal part) := by
  refine component?_eq_normal_iff.mpr ⟨rfl, isTrivial_of_mem member notDot, ?_⟩
  rintro rfl
  have dots : ∀ c ∈ "..".toList, c = '.' := by simp
  exact notDot (dots c member)

theorem outline_of_plain {text : String} (plain : '/' ∉ text.toList) : outline text = [text] := by
  rw [outline, segments_of_plain plain]
  rfl

/-- A path without a file name leads to nothing below a directory by way of a file name. -/
theorem components_join_ne_of_lastName?_eq_none (nonempty : dir.text ≠ "")
    (noName : p.lastName? = none) {inner : List Component} {name : String} :
    (dir.join p).components ≠ dir.components ++ inner ++ [.normal name] := by
  intro last
  rcases p.exists_endsIn_or_trivial with ⟨before, part, endsIn⟩ | trivial
  · have parent : part = ".." := by simpa [endsIn.lastName?] using noName
    obtain ⟨init, joined⟩ := exists_components_join dir before
    rw [joined p part endsIn, parent] at last
    have lasts := (List.append_inj' last rfl).2
    cases lasts
  · cases absolute : p.isAbsolute with
    | true =>
      rw [join, absolute, if_pos rfl, components_of_trivial trivial] at last
      have starts : Component.normal name ∈ (start p.segments).1.toList := by simp [last]
      exact absurd (Option.mem_toList.mp starts) (start_ne_normal _)
    | false =>
      rw [components_join_of_relative nonempty absolute, innerComponents,
        filterMap_component?_of_trivial trivial, List.append_assoc,
        List.append_cancel_left_eq] at last
      simp at last

/-- A path that leads below a directory to a file has the name of the file. -/
theorem fileName?_of_components_join (nonempty : dir.text ≠ "") {inner : List Component}
    {name : String} (last : (dir.join p).components = dir.components ++ inner ++ [.normal name]) :
    p.fileName? = some name := by
  cases named : p.lastName? with
  | none => exact absurd last (components_join_ne_of_lastName?_eq_none nonempty named)
  | some parts =>
    obtain ⟨before, part⟩ := parts
    obtain ⟨endsIn, notParent⟩ := endsIn_of_lastName? named
    obtain ⟨init, joined⟩ := exists_components_join dir before
    have whole := endsIn.isTrivial_eq_false
    rw [joined p part endsIn, component?_eq_normal_iff.mpr ⟨rfl, whole, notParent⟩] at last
    rw [fileName?, named, Option.map_some, (append_normal_inj last).2]

/-- With another ending a path leads below a directory to a file exactly if it does so without it,
and keeps its name. -/
theorem components_join_withExtension_eq_iff (nonempty : dir.text ≠ "") {extension : String}
    (some : extension ≠ "") (plain : '/' ∉ extension.toList) {inner : List Component}
    {last : String} : (dir.join (p.withExtension extension)).components =
        dir.components ++ inner ++ [.normal last] ↔
      (∃ name, (dir.join p).components = dir.components ++ inner ++ [.normal name] ∧
        (splitEnding name).1 ++ "." ++ extension = last) ∧ ¬ p.LosesName := by
  cases named : p.lastName? with
  | none =>
    have above : ∀ {name : String}, (dir.join p).components ≠
        dir.components ++ inner ++ [.normal name] :=
      components_join_ne_of_lastName?_eq_none nonempty named
    rw [withExtension_of_lastName?_eq_none some named]
    exact ⟨fun below => absurd below above, fun ⟨⟨_, below, _⟩, _⟩ => absurd below above⟩
  | some parts =>
    obtain ⟨before, name⟩ := parts
    obtain ⟨endsIn, notParent⟩ := endsIn_of_lastName? named
    obtain ⟨init, joined⟩ := exists_components_join dir before
    by_cases loses : p.LosesName
    · rw [joined _ _ (endsIn.withExtension_of_losesName loses some)]
      constructor
      · intro below
        have lasts := (List.append_inj' below rfl).2
        cases lasts
      · exact fun ⟨_, keeps⟩ => absurd loses keeps
    · have whole := endsIn.isTrivial_eq_false
      have normal : component? name = .some (.normal name) :=
        component?_eq_normal_iff.mpr ⟨rfl, whole, notParent⟩
      rw [joined _ _ (endsIn.withExtension notParent loses some plain), component?_stem whole some,
        joined p name endsIn, normal]
      constructor
      · intro below
        obtain ⟨rfl, names⟩ := append_normal_inj below
        exact ⟨⟨name, rfl, names⟩, loses⟩
      · rintro ⟨⟨name', below, rfl⟩, -⟩
        obtain ⟨rfl, rfl⟩ := append_normal_inj below
        rfl

end Path

namespace Import

/-- The headers and the objects that imports name in the build directory. -/
def inputs (buildDir : Path) (imports : List Import) : List Path :=
  (imports.filterMap buildName?).map (fun name => buildDir.join ⟨name⟩) ++ objects buildDir imports

theorem mem_filterMap_buildName? {imports : List Import} {name : String} :
    name ∈ imports.filterMap buildName? ↔ build name ∈ imports := by
  rw [List.mem_filterMap]
  constructor
  · rintro ⟨i, member, named⟩
    cases i with
    | build name' => exact Option.some.inj named ▸ member
    | _ => cases named
  · exact fun member => ⟨_, member, rfl⟩

theorem exists_mem_inputs {buildDir : Path} {imports : List Import} {P : Path → Prop} :
    (∃ input ∈ inputs buildDir imports, P input) ↔ ∃ name, build name ∈ imports ∧
      (P (buildDir.join ⟨name⟩) ∨ P (buildDir.join ((Path.mk name).withExtension "o"))) := by
  simp only [inputs, objects_eq, List.mem_append, List.mem_map, mem_filterMap_buildName?]
  constructor
  · rintro ⟨input, ⟨name, member, rfl⟩ | ⟨name, member, rfl⟩, holds⟩
    · exact ⟨name, member, .inl holds⟩
    · exact ⟨name, member, .inr holds⟩
  · rintro ⟨name, member, holds | holds⟩
    · exact ⟨_, .inl ⟨name, member, rfl⟩, holds⟩
    · exact ⟨_, .inr ⟨name, member, rfl⟩, holds⟩

end Import

/-- The name of the header of the runtime up to its ending. -/
def Convention.runtimeStem : Convention → String
  | cps => "gc"
  | direct => "gc_stack"

theorem Convention.runtimeHeader_eq (c : Convention) : c.runtimeHeader = c.runtimeStem ++ ".h" := by
  cases c <;> rfl

namespace Options

variable {o : Options} {affixes : String × String} {n : Path}

/-- A file of the build is somewhere in the output directory, and its name ends as the affixes say.
The source, the header and the object differ in the ending only. -/
theorem exists_components_file (identifier : IsIdentifier o.fileStem) (front : String) :
    ∃ inner last, (Path.outline (front ++ (o.fileStem ++ o.extension))).getLast? = some last ∧
      ∀ affixes ∈ fileAffixes, affixes.1 = front → (o.file affixes).components =
        o.outputDir.components ++ inner ++ [.normal (last ++ affixes.2)] := by
  obtain ⟨before, last, parts, behind⟩ :=
    Path.exists_outline_append_right (front ++ (o.fileStem ++ o.extension))
  refine ⟨before.filterMap Path.component?, last, by simp [parts], ?_⟩
  rintro affixes member rfl
  obtain ⟨plain, c, inEnding, notDot⟩ := (isSolid_of_mem_fileAffixes member identifier).2
  have text : affixes.1 ++ o.fileStem ++ (o.extension ++ affixes.2) =
      affixes.1 ++ (o.fileStem ++ o.extension) ++ affixes.2 := by
    simp only [String.append_assoc]
  have named : Path.component? (last ++ affixes.2) = some (.normal (last ++ affixes.2)) :=
    Path.component?_of_mem (by simp [inEnding]) notDot
  rw [components_file identifier member, text, Path.innerComponents_eq, behind affixes.2 plain]
  simp [named]

theorem header_eq (o : Options) : o.paths.header = o.file ("", ".h") := by
  simp [paths, pathsFor, file, String.append_assoc]

/-- The header of an import stands beside the generated header and has its name up to the ending. -/
def SameStem (o : Options) (n : Path) : Prop :=
  ∃ init stem name, o.paths.header.components = init ++ [.normal (stem ++ ".h")] ∧
    (o.outputDir.join n).components = init ++ [.normal name] ∧ (Path.splitEnding name).1 = stem

theorem sameStem_iff {init : List Component} {last : String}
    (header : o.paths.header.components = init ++ [.normal (last ++ ".h")]) :
    o.SameStem n ↔ ∃ name, (o.outputDir.join n).components = init ++ [.normal name] ∧
      (Path.splitEnding name).1 = last := by
  constructor
  · rintro ⟨init', stem, name, header', import', rfl⟩
    obtain ⟨rfl, stems⟩ := Path.append_normal_inj (header'.symm.trans header)
    exact ⟨name, import', (String.append_left_inj ".h").mp stems⟩
  · rintro ⟨name, import', rfl⟩
    exact ⟨init, _, name, header, import', rfl⟩

/-- The object of an import is a file of the build if it is its object, which is so if the header
has the stem of the files and keeps its name without the ending. -/
theorem object_eq_file_iff (identifier : IsIdentifier o.fileStem) (nonempty : o.outputDir.text ≠ "")
    (member : affixes ∈ fileAffixes) (n : Path) :
    (o.outputDir.join (n.withExtension "o")).components = (o.file affixes).components ↔
      affixes = ("", ".o") ∧ o.SameStem n ∧ ¬ n.LosesName := by
  obtain ⟨inner, last, -, files⟩ := exists_components_file identifier ""
  have header := o.header_eq ▸ files ("", ".h") (by decide) rfl
  have object := files ("", ".o") (by decide) rfl
  have leadsTo : ∀ {inner : List Component} {last : String},
      (o.outputDir.join (n.withExtension "o")).components =
        o.outputDir.components ++ inner ++ [.normal last] ↔ _ :=
    Path.components_join_withExtension_eq_iff nonempty (by decide) (by decide)
  rw [sameStem_iff header]
  constructor
  · intro same
    obtain ⟨inner', last', -, files'⟩ := exists_components_file identifier affixes.1
    have file := files' affixes member rfl
    obtain ⟨⟨name, import', named⟩, keeps⟩ := leadsTo.mp (same.trans file)
    rw [String.append_assoc] at named
    obtain rfl := eq_of_endings (show ("", "." ++ "o") ∈ fileAffixes by decide) member named
    obtain ⟨inits, stems⟩ := Path.append_normal_inj (file.symm.trans object)
    refine ⟨rfl, ⟨name, by rw [import', inits], ?_⟩, keeps⟩
    exact (String.append_left_inj _).mp (named.trans stems)
  · rintro ⟨rfl, ⟨name, import', rfl⟩, keeps⟩
    rw [object]
    exact leadsTo.mpr ⟨⟨name, import', String.append_assoc ..⟩, keeps⟩

/-- A build overwrites one of its inputs. -/
def Overwrites (o : Options) (imports : List Import) : Prop :=
  ∃ file ∈ o.paths.all, ∃ input ∈ Import.inputs o.outputDir
    (Import.resolveAll o.convention o.outputDir imports), input.components = file.components

theorem overwrites_iff (identifier : IsIdentifier o.fileStem) (nonempty : o.outputDir.text ≠ "")
    (imports : List Import) : o.Overwrites imports ↔
      ∃ name, .build name ∈ Import.resolveAll o.convention o.outputDir imports ∧
        ((∃ file ∈ o.paths.all, (o.outputDir.join ⟨name⟩).components = file.components) ∨
          o.SameStem ⟨name⟩ ∧ ¬ (Path.mk name).LosesName) := by
  have object : ∀ n : Path, (∃ file ∈ o.paths.all,
      (o.outputDir.join (n.withExtension "o")).components = file.components) ↔
        o.SameStem n ∧ ¬ n.LosesName := by
    intro n
    rw [all_paths]
    constructor
    · rintro ⟨file, member, same⟩
      obtain ⟨affixes, listed, rfl⟩ := List.mem_map.mp member
      exact ((object_eq_file_iff identifier nonempty listed n).mp same).2
    · intro sameStem
      have listed : ("", ".o") ∈ fileAffixes := by decide
      exact ⟨_, List.mem_map_of_mem listed,
        (object_eq_file_iff identifier nonempty listed n).mpr ⟨rfl, sameStem⟩⟩
  simp only [← object]
  constructor
  · rintro ⟨file, member, overwritten⟩
    obtain ⟨name, listed, header | object⟩ := Import.exists_mem_inputs.mp overwritten
    · exact ⟨name, listed, .inl ⟨file, member, header⟩⟩
    · exact ⟨name, listed, .inr ⟨file, member, object⟩⟩
  · rintro ⟨name, listed, ⟨file, member, header⟩ | ⟨file, member, object⟩⟩
    · exact ⟨file, member, Import.exists_mem_inputs.mpr ⟨name, listed, .inl header⟩⟩
    · exact ⟨file, member, Import.exists_mem_inputs.mpr ⟨name, listed, .inr object⟩⟩

/-- The generated header has the last part of the stem with the tag as its name. -/
theorem headerName_eq_runtimeHeader_iff (identifier : IsIdentifier o.fileStem) :
    o.paths.headerName = o.convention.runtimeHeader ↔
      (Path.outline (o.fileStem ++ o.extension)).getLast? = some o.convention.runtimeStem := by
  obtain ⟨inner, last, stem, files⟩ := exists_components_file identifier ""
  have header := o.header_eq ▸ files ("", ".h") (by decide) rfl
  rw [String.empty_append] at stem
  rw [ArtifactPaths.headerName, Path.fileName?_of_components header, Option.getD_some,
    Convention.runtimeHeader_eq, stem, String.append_left_inj, Option.some.injEq]

/-- With a tag without slashes the files are in the output directory itself. -/
theorem exists_components_file_of_plain (identifier : IsIdentifier o.fileStem)
    (plain : '/' ∉ o.extension.toList) (member : affixes ∈ fileAffixes) :
    ∃ inner, (o.file affixes).components = o.outputDir.components ++ inner ++
      [.normal (affixes.1 ++ (o.fileStem ++ o.extension) ++ affixes.2)] := by
  obtain ⟨inner, last, stem, files⟩ := exists_components_file identifier affixes.1
  have plainFront : '/' ∉ affixes.1.toList := by
    intro slash
    exact (isSolid_of_mem_fileAffixes member identifier).1.plain (by simp [slash])
  rw [Path.outline_of_plain (by simp [plain, plainFront, identifier.slash_not_mem]),
    List.getLast?_singleton] at stem
  obtain rfl := Option.some.inj stem
  exact ⟨inner, files affixes member rfl⟩

/-- Nothing is overwritten if the imports have other names than the files up to the ending. -/
theorem not_overwrites_of_names (identifier : IsIdentifier o.fileStem)
    (nonempty : o.outputDir.text ≠ "") (plain : '/' ∉ o.extension.toList) {imports : List Import}
    (others : ∀ name file, .build name ∈ Import.resolveAll o.convention o.outputDir imports →
      (Path.mk name).fileName? = some file → (Path.splitEnding file).1 ≠ o.fileStem ++ o.extension ∧
        file ≠ "lib" ++ (o.fileStem ++ o.extension) ++ ".so") : ¬ o.Overwrites imports := by
  have stemNonempty : o.fileStem ++ o.extension ≠ "" := by
    obtain ⟨first, rest, chars, -⟩ := identifier.start
    intro empty
    have none := congrArg String.toList empty
    simp [chars] at none
  rw [overwrites_iff identifier nonempty]
  rintro ⟨name, listed, ⟨file, member, same⟩ | ⟨⟨init, stem, file, header, same, rfl⟩, -⟩⟩
  · rw [all_paths] at member
    obtain ⟨affixes, inAffixes, rfl⟩ := List.mem_map.mp member
    obtain ⟨inner, path⟩ := exists_components_file_of_plain identifier plain inAffixes
    have named := Path.fileName?_of_components_join nonempty (same.trans path)
    obtain ⟨otherStem, otherLibrary⟩ := others name _ listed named
    have kinds : ∀ a ∈ fileAffixes, a = ("lib", ".so") ∨
        a.1 = "" ∧ ∃ ending ∈ ["c", "h", "o"], a.2 = "." ++ ending := by decide
    have dotless : ∀ ending ∈ ["c", "h", "o"], '.' ∉ ending.toList := by decide
    rcases kinds affixes inAffixes with rfl | ⟨front, ending, isEnding, back⟩
    · exact otherLibrary rfl
    · rw [front, back, String.empty_append, ← String.append_assoc,
        Path.splitEnding_append stemNonempty (dotless ending isEnding)] at otherStem
      exact otherStem rfl
  · obtain ⟨inner, path⟩ := exists_components_file_of_plain identifier plain
      (show ("", ".h") ∈ fileAffixes by decide)
    rw [header_eq] at header
    obtain ⟨rfl, stems⟩ := Path.append_normal_inj (header.symm.trans path)
    rw [String.empty_append] at stems
    have named := Path.fileName?_of_components_join nonempty same
    exact (others name file listed named).1 ((String.append_left_inj _).mp stems)

theorem text_ne_empty_of_present {files : FileTree} {p : Path} (present : files.present p) :
    p.text ≠ "" := by
  intro empty
  obtain ⟨text⟩ := p
  obtain rfl : text = "" := empty
  cases present

/-- A build overwrites an input exactly if an import names one of its files, or a header beside the
generated one with the same name up to the ending, whose name does not get lost without it. The
generated header has the name of the header of the runtime exactly if the symbol with the tag ends
in a part `gc` or `gc_stack`. None of this is so if the tag has no slash, the symbol with the tag is
another one than the stem of the header of the runtime, and the imports have other names. -/
theorem build_overwrites_iff {Entry : Type} {files : FileTree} (accepted : o.check files = .ok ())
    (r : Registry Entry) (id : String) (imports : List Import) :
    let b := o.forArtifact (r.reserve (cSymbol o.symbolPrefix id)).1
    (b.Overwrites imports ↔
      ∃ name, .build name ∈ Import.resolveAll b.convention b.outputDir imports ∧
        ((∃ file ∈ b.paths.all, (b.outputDir.join ⟨name⟩).components = file.components) ∨
          b.SameStem ⟨name⟩ ∧ ¬ (Path.mk name).LosesName)) ∧
    (b.paths.headerName = b.convention.runtimeHeader ↔
      (Path.outline (b.fileStem ++ b.extension)).getLast? = some b.convention.runtimeStem) ∧
    ('/' ∉ b.extension.toList → b.fileStem ++ b.extension ≠ b.convention.runtimeStem →
      (∀ name file, .build name ∈ Import.resolveAll b.convention b.outputDir imports →
        (Path.mk name).fileName? = some file →
          (Path.splitEnding file).1 ≠ b.fileStem ++ b.extension ∧
          file ≠ "lib" ++ (b.fileStem ++ b.extension) ++ ".so") →
      ¬ b.Overwrites imports ∧ b.paths.headerName ≠ b.convention.runtimeHeader) := by
  intro b
  have identifier : IsIdentifier b.fileStem :=
    (isIdentifier_cSymbol o.symbolPrefix id).freshName r.usedNames
  have nonempty : b.outputDir.text ≠ "" :=
    text_ne_empty_of_present (check_eq_ok_iff.mp accepted).1
  refine ⟨overwrites_iff identifier nonempty imports, headerName_eq_runtimeHeader_iff identifier,
    fun plain stem others => ⟨not_overwrites_of_names identifier nonempty plain others, ?_⟩⟩
  have plainStem : '/' ∉ (b.fileStem ++ b.extension).toList := by
    simp [plain, identifier.slash_not_mem]
  rw [Ne, headerName_eq_runtimeHeader_iff identifier, Path.outline_of_plain plainStem]
  simpa using stem

/-- A program that includes a header of another name. -/
theorem build_overwrites_iff_list :
    (Session.tagged "").check Session.withOutput.files = .ok () ∧
      let b := (Session.tagged "").forArtifact "fact"
      ¬ b.Overwrites [.build "list.h"] ∧ b.paths.headerName ≠ b.convention.runtimeHeader := by
  have accepted : (Session.tagged "").check Session.withOutput.files = .ok () := by decide +kernel
  have symbol : ((Session.withOutput.registry).reserve (cSymbol "" "fact")).1 = "fact" := by
    decide +kernel
  have spec := build_overwrites_iff accepted Session.withOutput.registry "fact" [.build "list.h"]
  refine ⟨accepted, ?_⟩
  have b : (Session.tagged "").symbolPrefix = "" := rfl
  rw [b, symbol] at spec
  refine spec.2.2 (by decide) (by decide) fun name file listed named => ?_
  obtain rfl : name = "list.h" := by
    simpa [Import.resolveAll, Import.runtime, Import.resolve] using listed
  have fileName : (Path.mk "list.h").fileName? = some "list.h" := by decide +kernel
  obtain rfl := Option.some.inj (fileName.symm.trans named)
  decide +kernel

end Options

namespace Session

/-- The evaluation of a program that includes headers. -/
def evaluateIncluding (id : String) (imports : List Import) : Step Unit String String Unit :=
  .evaluate ⟨copyingBackend, tagged ""⟩ Prelude.environment
    { id, source := "program", type := Prelude.indTerm Prelude.natName, imports }

/-- A session with a header in the output directory. -/
def withHeader : Session Unit Unit where
  files := { nodes := [(["out"], .directory), (["out", "fact.h"], .file "int fact(int);" false)] }
  world := ()

/-- A program with the identifier `fact` that includes the header `fact.h` takes the place of this
header and of its object. The generated header of a program with the identifier `gc_stack` has the
name of the header of the runtime. -/
theorem build_overwrites_header :
    let step : Step Unit String String Unit := evaluateIncluding "fact" [.build "fact.h"]
    let b := (tagged "").forArtifact "fact"
    (tagged "").check withHeader.files = .ok () ∧ withHeader.builds [step] = [b] ∧
      Import.inputs b.outputDir (Import.resolveAll b.convention b.outputDir [.build "fact.h"]) =
        [b.paths.header, b.paths.object] ∧
      withHeader.files.read? ⟨"out/fact.h"⟩ = some "int fact(int);" ∧
      (withHeader.run [step]).files.read? ⟨"out/fact.h"⟩ =
        some "#include <gc_stack.h>\n#include \"fact.h\"\n\ndeclarations" ∧
      withHeader.builds [evaluateIncluding "gc_stack" []] = [(tagged "").forArtifact "gc_stack"] ∧
      ((tagged "").forArtifact "gc_stack").paths.headerName = Convention.direct.runtimeHeader := by
  intro step b
  have accepted : (tagged "").check withHeader.files = .ok () := by decide +kernel
  have build : withHeader.builds [step] = [b] := by decide +kernel
  have inputs : Import.inputs b.outputDir
      (Import.resolveAll b.convention b.outputDir [.build "fact.h"]) =
        [b.paths.header, b.paths.object] := by
    decide +kernel
  have provided : withHeader.files.read? ⟨"out/fact.h"⟩ = some "int fact(int);" := by
    decide +kernel
  have overwritten : (withHeader.run [step]).files.read? ⟨"out/fact.h"⟩ =
      some "#include <gc_stack.h>\n#include \"fact.h\"\n\ndeclarations" := by
    decide +kernel
  have runtimeBuild : withHeader.builds [evaluateIncluding "gc_stack" []] =
      [(tagged "").forArtifact "gc_stack"] := by
    decide +kernel
  have runtimeHeader : ((tagged "").forArtifact "gc_stack").paths.headerName =
      Convention.direct.runtimeHeader := by
    decide +kernel
  exact ⟨accepted, build, inputs, provided, overwritten, runtimeBuild, runtimeHeader⟩

end Session

end Readback
