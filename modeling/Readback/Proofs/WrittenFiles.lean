import Readback.Proofs.Components
import Readback.Proofs.Except
import Readback.Proofs.Plan

/-!
# Files that are written

A build writes its header and then its source, each to a place of its own. What a place holds
afterwards is told by the calls for the modules: the include lines, and what the compiler has
printed behind them. A file that the system does not let begin holds a part of the include lines at
most, and its module is not asked for.

## Main definitions

* `FileTree.fillAll` — several files that are written one after the other
* `FileTree.refusal?` — why a file does not get as far as its module
* `Evaluator.Fills`, `Evaluator.Wrote` — what is written for one file, and for a build

## Main statements

* `FileTree.exists_at?_fillAll` — files at different places keep their texts
* `Options.places_ne` — header and source have different places
* `Evaluator.Wrote.holds` — each place that a build writes holds the text that was written
-/

namespace Readback

variable {World Source Module Entry : Type}

/-! ## Places -/

namespace FileTree

variable {files : FileTree} {place : List String} {text : String}

/-- Giving a file a text changes no other place. -/
theorem at?_fill_of_ne (files : FileTree) {other : List String} (text : String)
    (different : other ≠ place) : (files.fill place text).at? other = files.at? other := by
  have set : ∀ n, (files.set place n).at? other = files.at? other := by
    intro n
    cases other with
    | nil => rfl
    | cons name names =>
      have skipped : (fun node : List String × FileNode =>
          decide (decide (node.1 ≠ place) ∧ decide (node.1 = name :: names))) =
          fun node => decide (node.1 = name :: names) := by
        funext node
        by_cases here : node.1 = name :: names <;> simp [here, different]
      simp only [FileTree.set, FileTree.at?]
      rw [List.find?_cons_of_neg (by simpa using Ne.symm different), List.find?_filter, skipped]
  unfold fill
  split <;> exact set _

theorem exists_at?_fill (files : FileTree) (text : String) (below : place ≠ []) :
    ∃ executable, (files.fill place text).at? place = some (.file text executable) := by
  unfold fill
  split
  · exact ⟨_, files.at?_set_self _ below⟩
  · exact ⟨false, files.at?_set_self _ below⟩

/-- The tree after files have got texts, one after the other. -/
def fillAll (files : FileTree) (writes : List (List String × String)) : FileTree :=
  writes.foldl (fun files write => files.fill write.1 write.2) files

theorem fillAll_cons (files : FileTree) (write : List String × String)
    (writes : List (List String × String)) :
    files.fillAll (write :: writes) = (files.fill write.1 write.2).fillAll writes := rfl

theorem at?_fillAll_of_not_mem {writes : List (List String × String)}
    (elsewhere : place ∉ writes.map (·.1)) :
    (files.fillAll writes).at? place = files.at? place := by
  induction writes generalizing files with
  | nil => rfl
  | cons write writes ih =>
    obtain ⟨other, others⟩ : place ≠ write.1 ∧ place ∉ writes.map (·.1) := by
      simpa using elsewhere
    rw [fillAll_cons, ih others, files.at?_fill_of_ne _ other]

/-- Files at different places keep their texts. -/
theorem exists_at?_fillAll {writes : List (List String × String)}
    (apart : (writes.map (·.1)).Nodup) (below : ∀ write ∈ writes, write.1 ≠ [])
    (written : (place, text) ∈ writes) :
    ∃ executable, (files.fillAll writes).at? place = some (.file text executable) := by
  induction writes generalizing files with
  | nil => cases written
  | cons write writes ih =>
    obtain ⟨first, apart⟩ := List.nodup_cons.mp apart
    obtain ⟨belowFirst, below⟩ := List.forall_mem_cons.mp below
    rw [fillAll_cons]
    rcases List.mem_cons.mp written with rfl | later
    · rw [at?_fillAll_of_not_mem first]
      exact files.exists_at?_fill text belowFirst
    · exact ih apart below later

/-- A file is created below a directory under the last part of its path that is not empty. -/
theorem exists_of_creationPlace {p : Path} (placed : files.creationPlace p = .ok place) :
    ∃ dir name before, place = dir ++ [name] ∧
      p.segments.reverse.dropWhile (· = "") = name :: before := by
  unfold creationPlace at placed
  obtain ⟨-, -, placed⟩ := bind_eq_ok.mp placed
  split at placed
  · cases placed
  next name before parts =>
    obtain ⟨dir, -, placed⟩ := bind_eq_ok.mp placed
    obtain ⟨-, -, placed⟩ := bind_eq_ok.mp placed
    simp only [unless_throw_eq_ok] at placed
    obtain ⟨-, -, -, placed⟩ := placed
    exact ⟨dir, name, before, (Except.ok.inj placed).symm, parts⟩

/-- Why a file does not get as far as its module: a fault of the system, or what the tree says. -/
def refusal? (files : FileTree) (p : Path) : Option IoError :=
  match files.fault? p with
  | some fault => some fault.cause
  | none =>
    match files.creationPlace p with
    | .error cause => some cause
    | .ok _ => none

theorem fault?_fill (files : FileTree) (place : List String) (text : String) (p : Path) :
    (files.fill place text).fault? p = files.fault? p := by
  unfold fill
  split <;> rfl

theorem fault?_afterFault (files : FileTree) (path : Path) (text : String) (fault : Fault)
    (p : Path) : (files.afterFault path text fault).fault? p = files.fault? p := by
  unfold afterFault
  split
  · exact fault?_fill _ _ _ _
  · rfl

end FileTree

/-! ## Paths of generated files -/

namespace Path

/-- A text without slashes at the end of a path belongs to its last part. -/
theorem exists_segments_append (front : String) {ending : String} (plain : '/' ∉ ending.toList) :
    ∃ before last, (⟨front ++ ending⟩ : Path).segments = before ++ [last ++ ending] := by
  obtain ⟨before, last, -, behind⟩ := exists_splitSlashes_append_right front.toList
  refine ⟨before.map String.ofList, String.ofList last, ?_⟩
  rw [segments, String.toList_append, behind _ plain, List.map_append, List.map_singleton,
    String.ofList_append, String.ofList_toList]

theorem exists_text_join (dir p : Path) : ∃ front, (dir.join p).text = front ++ p.text := by
  unfold join
  split
  · exact ⟨"", by simp⟩
  · split
    · exact ⟨dir.text, rfl⟩
    · exact ⟨dir.text ++ "/", rfl⟩

end Path

/-- A path that ends in a text without slashes leads to places that end in the text. -/
theorem FileTree.exists_place_append {files : FileTree} {place : List String} {p : Path}
    {front ending : String} (placed : files.creationPlace p = .ok place)
    (ends : p.text = front ++ ending) (plain : '/' ∉ ending.toList) (some : ending ≠ "") :
    ∃ dir last, place = dir ++ [last ++ ending] := by
  obtain ⟨dir, name, rest, rfl, parts⟩ := exists_of_creationPlace placed
  obtain ⟨before, last, segments⟩ := Path.exists_segments_append front plain
  obtain ⟨text⟩ := p
  obtain rfl : text = front ++ ending := ends
  have whole : last ++ ending ≠ "" := by
    rw [ne_eq, String.append_eq_empty_iff]
    exact fun empty => some empty.2
  rw [segments, List.reverse_append, List.reverse_singleton, List.singleton_append,
    List.dropWhile_cons_of_neg (by simpa using whole)] at parts
  exact ⟨dir, last, by rw [(List.cons.inj parts).1]⟩

/-- The header and the source of a stem have different places. -/
theorem Options.places_ne (o : Options) (stem : String) {files files' : FileTree}
    {place place' : List String} (header : files.creationPlace (o.pathsFor stem).header = .ok place)
    (source : files'.creationPlace (o.pathsFor stem).source = .ok place') : place ≠ place' := by
  obtain ⟨front, headerText⟩ := o.outputDir.exists_text_join ⟨stem ++ o.extension ++ ".h"⟩
  obtain ⟨front', sourceText⟩ := o.outputDir.exists_text_join ⟨stem ++ o.extension ++ ".c"⟩
  rw [← String.append_assoc] at headerText sourceText
  obtain ⟨dir, last, rfl⟩ :=
    FileTree.exists_place_append header headerText (by decide) (by decide)
  obtain ⟨dir', last', rfl⟩ :=
    FileTree.exists_place_append source sourceText (by decide) (by decide)
  intro same
  have names := congrArg String.toList (List.singleton_inj.mp (List.append_inj' same rfl).2)
  rw [String.toList_append, String.toList_append] at names
  exact absurd (List.append_inj' names rfl).2 (by decide)

/-! ## What a build writes -/

namespace Evaluator

/-- What is written for a generated file, with what has come of its module: nothing, a part of the
include lines, or all of them and the module behind them. -/
inductive Fills (files : FileTree) (path : Path) (includes : List Import) :
    List Emission → List (List String × String) → Prop
  | nothing : Fills files path includes [] []
  | begun {place : List String} (length : Nat) (placed : files.creationPlace path = .ok place) :
      Fills files path includes []
        [(place, String.ofList ((includeLines includes).toList.take length))]
  | emitted {place : List String} (emission : Emission)
      (placed : files.creationPlace path = .ok place) :
      Fills files path includes [emission] [(place, includeLines includes ++ emission.text)]

/-- What is written for a build, with what has come of its modules: something for the header, or the
whole header and then something for the source. -/
inductive Wrote (paths : ArtifactPaths) (includes : List Import) (files : FileTree) :
    List Emission → List (List String × String) → Prop
  | header {emissions : List Emission} {writes : List (List String × String)}
      (header : Fills files paths.header includes emissions writes) :
      Wrote paths includes files emissions writes
  | both {place : List String} {emission : Emission} {emissions : List Emission}
      {writes : List (List String × String)}
      (placed : files.creationPlace paths.header = .ok place) (whole : emission.failure = none)
      (source : Fills (files.fill place (includeLines includes ++ emission.text)) paths.source
        (includes ++ [.build paths.headerName]) emissions writes) :
      Wrote paths includes files (emission :: emissions)
        ((place, includeLines includes ++ emission.text) :: writes)

/-- What is written for a file is written to the place of its path. -/
theorem Fills.places {files : FileTree} {path : Path} {includes : List Import}
    {emissions : List Emission} {writes : List (List String × String)}
    (fills : Fills files path includes emissions writes) :
    (writes.map (·.1)).Nodup ∧ ∀ write ∈ writes, files.creationPlace path = .ok write.1 := by
  cases fills with
  | nothing => exact ⟨List.nodup_nil, by simp⟩
  | begun length placed => simpa using placed
  | emitted emission placed => simpa using placed

/-- Each place that a build writes holds the text that was written there. -/
theorem Wrote.holds {o : Options} {stem : String} {includes : List Import} {files : FileTree}
    {emissions : List Emission} {writes : List (List String × String)}
    (wrote : Wrote (o.pathsFor stem) includes files emissions writes) {place : List String}
    {text : String} (written : (place, text) ∈ writes) :
    ∃ executable, (files.fillAll writes).at? place = some (.file text executable) := by
  have below {files : FileTree} {p : Path} {place : List String}
      (placed : files.creationPlace p = .ok place) : place ≠ [] := by
    obtain ⟨dir, name, -, rfl, -⟩ := FileTree.exists_of_creationPlace placed
    simp
  cases wrote with
  | header header =>
    obtain ⟨apart, placed⟩ := header.places
    exact FileTree.exists_at?_fillAll apart (fun _ member => below (placed _ member)) written
  | @both header emission emissions writes placed whole source =>
    obtain ⟨apart, placed'⟩ := source.places
    refine FileTree.exists_at?_fillAll (List.nodup_cons.mpr ⟨?_, apart⟩) ?_ written
    · intro again
      obtain ⟨write, member, same⟩ := List.mem_map.mp again
      exact o.places_ne stem placed (placed' write member) same.symm
    · exact List.forall_mem_cons.mpr ⟨below placed, fun _ member => below (placed' _ member)⟩

/-! ## Steps that write -/

variable {ev : Evaluator World Source Module Entry} {s t : Session World Entry}
  {calls : List (Call Source Module Entry)}

theorem Writes.fills {path : Path} {includes : List Import} {m : Module}
    {answer : Except EvalError Unit} (told : ev.Writes path includes m s calls answer t) :
    ∃ writes, Fills s.files path includes (calls.filterMap Call.emission?) writes ∧
      t.files = s.files.fillAll writes ∧ t.channel = s.channel := by
  cases told with
  | @faulty fault faulty =>
    rcases kept : fault.kept with _ | length
    · exact ⟨[], .nothing, by simp [FileTree.afterFault, kept, FileTree.fillAll], rfl⟩
    rcases placed : s.files.creationPlace path with cause | place
    · exact ⟨[], .nothing, by simp [FileTree.afterFault, kept, placed, FileTree.fillAll], rfl⟩
    · exact ⟨_, .begun length placed,
        by simp [FileTree.afterFault, kept, placed, FileTree.fillAll], rfl⟩
  | unplaced => exact ⟨[], .nothing, rfl, rfl⟩
  | cut faultless placed => exact ⟨_, .emitted _ placed, rfl, rfl⟩
  | written faultless placed => exact ⟨_, .emitted _ placed, rfl, rfl⟩

theorem WritesFiles.wrote {paths : ArtifactPaths} {imports : List Import}
    {modules : Modules Module} {answer : Except EvalError Unit}
    (told : ev.WritesFiles paths imports modules s calls answer t) :
    ∃ writes, Wrote paths (ev.resolved imports) s.files (calls.filterMap Call.emission?) writes ∧
      t.files = s.files.fillAll writes ∧ t.channel = s.channel := by
  cases told with
  | headerFailed header =>
    obtain ⟨writes, fills, files, channel⟩ := header.fills
    exact ⟨writes, .header fills, files, channel⟩
  | headerWritten header source =>
    cases header with
    | written faultless placed emits whole =>
      obtain ⟨writes, fills, files, channel⟩ := source.fills
      exact ⟨_, .both placed whole fills, files, channel⟩

/-- A file that fails does so with its module, or before it. -/
theorem Writes.of_error {path : Path} {includes : List Import} {m : Module} {e : EvalError}
    (told : ev.Writes path includes m s calls (.error e) t) :
    ∃ cause, e = .io path cause ∧
      (calls = [] ∧ t.files.refusal? path = some cause ∨
        ∃ emission, calls = [.emit m emission] ∧ emission.failure = some cause) := by
  cases told with
  | faulty faulty =>
    refine ⟨_, rfl, .inl ⟨rfl, ?_⟩⟩
    simp only [FileTree.refusal?, FileTree.fault?_afterFault, faulty]
  | unplaced faultless unplaced =>
    refine ⟨_, rfl, .inl ⟨rfl, ?_⟩⟩
    simp only [FileTree.refusal?, faultless, unplaced]
  | cut faultless placed emits short => exact ⟨_, rfl, .inr ⟨_, rfl, short⟩⟩

theorem Emits.wrote {outcome : Compilation Module} {paths : ArtifactPaths} {imports : List Import}
    {answer : Except EvalError Emitted}
    (told : ev.Emits outcome paths imports s calls answer t) :
    ∃ writes, Wrote paths (ev.resolved imports) s.files (calls.filterMap Call.emission?) writes ∧
      t.files = s.files.fillAll writes ∧ t.channel = s.channel := by
  cases told with
  | rejected => exact ⟨[], .header .nothing, rfl, rfl⟩
  | failed accepted files => exact files.wrote
  | emitted accepted files => exact files.wrote

theorem Links.files_eq {id symbol : String} {options : Options} {imports : List Import}
    {answer : Except EvalError (Artifact Entry)}
    (told : ev.Links id symbol options imports s calls answer t) :
    calls.filterMap Call.emission? = [] ∧ t.files = s.files ∧ t.channel = s.channel := by
  cases told <;> exact ⟨rfl, rfl, rfl⟩

/-- The evaluator writes no other file for a build, and it hears of no message. -/
theorem Builds.wrote {request : Request Source}
    {answer : Except EvalError (Artifact Entry × Diagnostics)}
    (told : ev.Builds request s calls answer t) :
    ∃ writes, Wrote (ev.optionsFor s request.id).paths (ev.resolved request.imports) s.files
        (calls.filterMap Call.emission?) writes ∧
      t.files = s.files.fillAll writes ∧ t.channel = s.channel := by
  cases told with
  | notEmitted compiles emission => exact emission.wrote
  | notLinked compiles emission link | built compiles emission link =>
    obtain ⟨writes, wrote, files, channel⟩ := emission.wrote
    obtain ⟨silent, files', channel'⟩ := link.files_eq
    refine ⟨writes, ?_, files'.trans files, channel'.trans channel⟩
    rw [List.filterMap_cons_none rfl, List.filterMap_append, silent, List.append_nil]
    exact wrote

end Evaluator

end Readback
