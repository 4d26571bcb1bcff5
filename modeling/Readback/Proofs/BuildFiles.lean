import Readback.Prelude
import Readback.Proofs.Components
import Readback.Proofs.Failure
import Readback.Proofs.Symbol

/-!
# Files of different builds

Each build of a session has a symbol of its own, which names its files together with the tag of the
evaluator. The symbol alone would keep the files of different builds apart. With the tags it does so
unless one symbol goes on where another ends, with text that the tag of the other starts with.

## Main definitions

* `Call.options?`, `Session.builds` — the options of the builds in a run
* `ArtifactPaths.all`, `ArtifactPaths.Share` — the files of a build, and builds that have one in
  common
* `Options.Continues` — a symbol that goes on into the tag of another

## Main statements

* `Session.builds_spec` — the builds of a run are named by different identifiers
* `Options.share_iff` — which builds have a file in common
* `Session.builds_share_iff` — which builds of a run do
* `Session.builds_share_overwritten` — a build that overwrites the files of an earlier one
-/

namespace Readback

variable {World Source Module Entry : Type}

/-! ## The builds of a run -/

/-- The options under which a call has compiled a program. -/
def Call.options? : Call Source Module Entry → Option Options
  | compile .program options _ _ => some options
  | _ => none

/-- The options of the build that an event has started. -/
def Event.options? (e : Event World Source Module Entry) : Option Options :=
  match e.step with
  | .evaluate _ _ _ => e.calls.findSome? Call.options?
  | _ => none

/-- The options of the builds in a run, one after the other, whether they succeed or fail. -/
def Session.builds (s : Session World Entry)
    (steps : List (Session.Step World Source Module Entry)) : List Options :=
  (s.history steps).filterMap Event.options?

theorem Call.symbol?_eq (call : Call Source Module Entry) :
    call.symbol? = call.options?.map (·.entryName) := by
  cases call with
  | compile product => cases product <;> rfl
  | _ => rfl

/-- A build is started under the symbol that its options name as the entry point. -/
theorem Event.symbol?_eq (e : Event World Source Module Entry) :
    e.symbol? = e.options?.map (·.entryName) := by
  obtain ⟨step, calls⟩ := e
  cases step with
  | evaluate =>
    have each : (Call.symbol? : Call Source Module Entry → Option String) =
        Option.map (·.entryName) ∘ Call.options? := by
      funext call
      exact call.symbol?_eq
    simp only [symbol?, options?, each]
    exact List.map_findSome?.symm
  | _ => rfl

theorem Evaluator.Evaluates.options? {ev : Evaluator World Source Module Entry} {env : Environment}
    {request : Request Source} {s t : Session World Entry}
    {calls : List (Call Source Module Entry)} {answer : Except EvalError Evaluation}
    (told : ev.Evaluates env request s calls answer t) :
    calls.findSome? Call.options? = none ∨
      calls.findSome? Call.options? = some (ev.optionsFor s request.id) := by
  cases told with
  | unreadable => exact .inl rfl
  | registered readable registered finish =>
    obtain ⟨invocation, rfl⟩ := finish.exists_invoke
    exact .inl rfl
  | notBuilt readable unregistered build =>
    obtain ⟨outcome, rest, rfl, -⟩ := build.compiled
    exact .inr rfl
  | built readable unregistered build finish =>
    obtain ⟨outcome, rest, rfl, -⟩ := build.compiled
    exact .inr rfl

/-- The options of a build name its entry point and its files by one identifier. -/
theorem Session.Step.named_of_options? {step : Step World Source Module Entry}
    {s : Session World Entry} {o : Options}
    (built : Event.options? ⟨step, step.calls s⟩ = some o) :
    IsIdentifier o.fileStem ∧ o.entryName = o.fileStem := by
  cases step with
  | evaluate ev env request =>
    have told := (ev.recounts_evaluate s env request).story_noted
    rcases told.options? with none | some
    · cases none.symm.trans built
    · obtain rfl := Option.some.inj (some.symm.trans built)
      exact ⟨(isIdentifier_cSymbol _ _).freshName _, rfl⟩
  | runCached => cases built
  | generate => cases built
  | outside => cases built

/-- A build takes a symbol that was not taken, and symbols stay taken. -/
theorem Event.Changes.symbols {e : Event World Source Module Entry} {r r' : Registry Entry}
    (changes : e.Changes r r') : r.symbols ⊆ r'.symbols ∧
      ∀ name, e.symbol? = some name → name ∉ r.symbols ∧ name ∈ r'.symbols := by
  have unused : ∀ base, (r.reserve base).1 ∉ r.symbols := fun base taken =>
    Registry.reserve_not_mem r base (List.mem_append_right _ taken)
  cases changes with
  | nothing built symbol =>
    exact ⟨fun _ taken => taken, fun name named => by simp [symbol] at named⟩
  | invoked id built symbol =>
    exact ⟨fun _ taken => taken, fun name named => by simp [symbol] at named⟩
  | reserved base built symbol =>
    refine ⟨Registry.symbols_subset_apply r (.reserve base), fun name named => ?_⟩
    obtain rfl := Option.some.inj (symbol.symm.trans named)
    exact ⟨unused base, Registry.reserve_mem r base⟩
  | registered base a free fresh notRun built symbol =>
    have grown := Registry.symbols_subset_apply (r.reserve base).2 (.insert a)
    refine ⟨fun _ taken => grown (Registry.symbols_subset_apply r (.reserve base) taken), ?_⟩
    intro name named
    obtain rfl := Option.some.inj (symbol.symm.trans named)
    rw [fresh]
    exact ⟨unused base, grown (Registry.reserve_mem r base)⟩

/-- The builds of a run are named by identifiers that were not taken before, and no two by one. -/
theorem Session.builds_spec (s : Session World Entry)
    (steps : List (Step World Source Module Entry)) :
    (∀ o ∈ s.builds steps, IsIdentifier o.fileStem ∧ o.fileStem ∉ s.registry.symbols) ∧
      (s.builds steps).Pairwise fun o o' => o.fileStem ≠ o'.fileStem := by
  induction steps generalizing s with
  | nil => exact ⟨by simp [builds, history], List.Pairwise.nil⟩
  | cons step steps ih =>
    obtain ⟨named, different⟩ := ih (step.after s)
    obtain ⟨kept, taken⟩ := (step.changes s).symbols
    have later : ∀ o ∈ (step.after s).builds steps,
        IsIdentifier o.fileStem ∧ o.fileStem ∉ s.registry.symbols := by
      intro o member
      obtain ⟨identifier, unused⟩ := named o member
      exact ⟨identifier, fun old => unused (kept old)⟩
    cases built : Event.options? ⟨step, step.calls s⟩ with
    | none =>
      have same : s.builds (step :: steps) = (step.after s).builds steps := by
        rw [builds, history, List.filterMap_cons_none built]
        rfl
      rw [same]
      exact ⟨later, different⟩
    | some o =>
      have first : s.builds (step :: steps) = o :: (step.after s).builds steps := by
        rw [builds, history, List.filterMap_cons_some built]
        rfl
      obtain ⟨identifier, entry⟩ := Step.named_of_options? built
      have symbol : Event.symbol? ⟨step, step.calls s⟩ = some o.fileStem := by
        rw [Event.symbol?_eq, built, Option.map_some, entry]
      obtain ⟨fresh, nowTaken⟩ := taken _ symbol
      rw [first]
      refine ⟨List.forall_mem_cons.mpr ⟨⟨identifier, fresh⟩, later⟩, ?_⟩
      refine List.pairwise_cons.mpr ⟨fun o' member same => ?_, different⟩
      exact (named o' member).2 (same ▸ nowTaken)

/-! ## Files in common -/

/-- The files of an artifact. -/
def ArtifactPaths.all (p : ArtifactPaths) : List Path := [p.source, p.header, p.object, p.library]

/-- A file of one artifact is a file of the other. -/
def ArtifactPaths.Share (p q : ArtifactPaths) : Prop :=
  ∃ a ∈ p.all, ∃ b ∈ q.all, a.components = b.components

/-- The texts before and behind the name of each file. -/
def fileAffixes : List (String × String) := [("", ".c"), ("", ".h"), ("", ".o"), ("lib", ".so")]

theorem IsIdentifier.slash_not_mem {name : String} (identifier : IsIdentifier name) :
    '/' ∉ name.toList := by
  intro slash
  exact absurd (identifier.chars '/' slash) (by decide)

/-- An identifier behind one of these texts is no part that vanishes, and neither is the ending. -/
theorem isSolid_of_mem_fileAffixes {affixes : String × String} (member : affixes ∈ fileAffixes)
    {name : String} (identifier : IsIdentifier name) :
    Path.IsSolid (affixes.1 ++ name) ∧ Path.IsSolid affixes.2 := by
  have plain : ∀ a ∈ fileAffixes, '/' ∉ a.1.toList ∧ '/' ∉ a.2.toList ∧
      a.2.toList.any (· ≠ '.') := by decide
  obtain ⟨plainFront, plainBack, notDots⟩ := plain affixes member
  obtain ⟨c, cs, chars, -⟩ := identifier.start
  have inName : c ∈ name.toList := by simp [chars]
  have notDot : c ≠ '.' := by
    rintro rfl
    exact absurd (identifier.chars _ inName) (by decide)
  refine ⟨⟨?_, c, by simp [inName], notDot⟩, plainBack, by simpa using notDots⟩
  intro slash
  rw [String.toList_append, List.mem_append] at slash
  rcases slash with inFront | inName
  · exact plainFront inFront
  · exact identifier.slash_not_mem inName

/-- The endings tell the files of an artifact apart. -/
theorem eq_of_endings {affixes affixes' : String × String} (member : affixes ∈ fileAffixes)
    (member' : affixes' ∈ fileAffixes) {last last' : String}
    (same : last ++ affixes.2 = last' ++ affixes'.2) : affixes = affixes' := by
  have long : ∀ a ∈ fileAffixes, 2 ≤ a.2.toList.reverse.length := by decide
  have tip : ∀ text : String, ∀ a ∈ fileAffixes,
      (text ++ a.2).toList.reverse.take 2 = a.2.toList.reverse.take 2 := by
    intro text a inAffixes
    rw [String.toList_append, List.reverse_append,
      List.take_append_of_le_length (long a inAffixes)]
  have tips : affixes.2.toList.reverse.take 2 = affixes'.2.toList.reverse.take 2 := by
    rw [← tip last affixes member, ← tip last' affixes' member', same]
  have distinct : ∀ a ∈ fileAffixes, ∀ b ∈ fileAffixes,
      a.2.toList.reverse.take 2 = b.2.toList.reverse.take 2 → a = b := by decide
  exact distinct affixes member affixes' member' tips

namespace Options

variable {o o' : Options}

/-- The file with the given affixes. -/
def file (o : Options) (affixes : String × String) : Path :=
  o.outputDir.join ⟨affixes.1 ++ o.fileStem ++ (o.extension ++ affixes.2)⟩

theorem all_paths (o : Options) : o.paths.all = fileAffixes.map o.file := by
  simp [ArtifactPaths.all, paths, pathsFor, fileAffixes, file, String.append_assoc]

theorem components_file (identifier : IsIdentifier o.fileStem) {affixes : String × String}
    (member : affixes ∈ fileAffixes) : (o.file affixes).components =
      o.outputDir.components ++
        Path.innerComponents (affixes.1 ++ o.fileStem ++ (o.extension ++ affixes.2)) := by
  have solid := (isSolid_of_mem_fileAffixes member identifier).1
  exact Path.components_join _ (Path.start_of_isSolid solid _)

/-- Files are the same if they are of one kind and their stems with the tags have one outline. -/
theorem components_file_eq_iff (identifier : IsIdentifier o.fileStem)
    (identifier' : IsIdentifier o'.fileStem)
    (sameDir : o.outputDir.components = o'.outputDir.components)
    {affixes affixes' : String × String} (member : affixes ∈ fileAffixes)
    (member' : affixes' ∈ fileAffixes) :
    (o.file affixes).components = (o'.file affixes').components ↔ affixes = affixes' ∧
      Path.outline (o.fileStem ++ o.extension) = Path.outline (o'.fileStem ++ o'.extension) := by
  obtain ⟨solid, solidEnd⟩ := isSolid_of_mem_fileAffixes member identifier
  obtain ⟨solid', solidEnd'⟩ := isSolid_of_mem_fileAffixes member' identifier'
  rw [components_file identifier member, components_file identifier' member', sameDir,
    List.append_cancel_left_eq, Path.innerComponents_eq_iff solid solid' solidEnd solidEnd']
  have parted : ∀ (p : Options) (a : String × String),
      a.1 ++ p.fileStem ++ (p.extension ++ a.2) = a.1 ++ (p.fileStem ++ p.extension) ++ a.2 := by
    intro p a
    simp [String.append_assoc]
  rw [parted, parted]
  have plainFront : '/' ∉ affixes.1.toList := by
    intro slash
    exact solid.plain (by simp [slash])
  constructor
  · intro same
    obtain ⟨before, last, -, ends⟩ :=
      Path.exists_outline_append_right (affixes.1 ++ (o.fileStem ++ o.extension))
    obtain ⟨before', last', -, ends'⟩ :=
      Path.exists_outline_append_right (affixes'.1 ++ (o'.fileStem ++ o'.extension))
    have lasts := (ends _ solidEnd.plain).symm.trans (same.trans (ends' _ solidEnd'.plain))
    obtain rfl : affixes = affixes' :=
      eq_of_endings member member' (List.singleton_inj.mp (List.append_inj' lasts rfl).2)
    rw [Path.outline_append_right_inj solidEnd.plain,
      Path.outline_append_left_inj plainFront] at same
    exact ⟨rfl, same⟩
  · rintro ⟨rfl, same⟩
    rwa [Path.outline_append_right_inj solidEnd.plain, Path.outline_append_left_inj plainFront]

/-- The stem of the other build goes on where that of the build ends, with text that the tag of the
build starts with, and its own tag is the rest. Tags are compared by their outlines, since trivial
parts in the middle of a tag lead nowhere else. -/
def Continues (o o' : Options) : Prop :=
  ∃ u, u ≠ "" ∧ o'.fileStem = o.fileStem ++ u ∧
    Path.outline o.extension = Path.outline (u ++ o'.extension)

/-- What goes on from a stem is made of characters of the other stem. -/
theorem slash_not_mem_rest (identifier : IsIdentifier o'.fileStem) {u : String}
    (stem : o'.fileStem = o.fileStem ++ u) : '/' ∉ u.toList := by
  intro slash
  apply identifier.slash_not_mem
  simp [stem, slash]

theorem continues_of_append {first first' : String} {rest : List String} {u : List Char}
    (identifier : IsIdentifier o'.fileStem) (different : o.fileStem ≠ o'.fileStem)
    (parts : Path.outline o.extension = first :: rest)
    (parts' : Path.outline o'.extension = first' :: rest)
    (stem : o'.fileStem.toList = o.fileStem.toList ++ u)
    (tag : first.toList = u ++ first'.toList) : o.Continues o' := by
  have stem' : o'.fileStem = o.fileStem ++ String.ofList u := by
    simp [← String.toList_inj, stem]
  have tag' : first = String.ofList u ++ first' := by
    simp [← String.toList_inj, tag]
  refine ⟨String.ofList u, ?_, stem', ?_⟩
  · intro empty
    apply different
    rw [stem', empty, String.append_empty]
  · rw [Path.outline_append_left (slash_not_mem_rest identifier stem') parts', parts, tag']

theorem Continues.outline_eq (identifier : IsIdentifier o.fileStem) (continues : o.Continues o') :
    Path.outline (o.fileStem ++ o.extension) = Path.outline (o'.fileStem ++ o'.extension) := by
  obtain ⟨u, -, stem, tags⟩ := continues
  rw [stem, String.append_assoc, Path.outline_append_left_inj identifier.slash_not_mem]
  exact tags

/-- Different stems with their tags have one outline if one goes on into the tag of the other. -/
theorem outline_eq_iff_continues (identifier : IsIdentifier o.fileStem)
    (identifier' : IsIdentifier o'.fileStem) (different : o.fileStem ≠ o'.fileStem) :
    Path.outline (o.fileStem ++ o.extension) = Path.outline (o'.fileStem ++ o'.extension) ↔
      o.Continues o' ∨ o'.Continues o := by
  constructor
  · intro same
    obtain ⟨first, rest, parts⟩ := Path.exists_outline o.extension
    obtain ⟨first', rest', parts'⟩ := Path.exists_outline o'.extension
    rw [Path.outline_append_left identifier.slash_not_mem parts,
      Path.outline_append_left identifier'.slash_not_mem parts'] at same
    obtain ⟨firsts, rfl⟩ := List.cons.inj same
    have chars := congrArg String.toList firsts
    rw [String.toList_append, String.toList_append] at chars
    -- the longer stem goes on where the shorter one ends
    rcases List.append_eq_append_iff.mp chars with ⟨u, stem, tag⟩ | ⟨u, stem, tag⟩
    · exact .inl (continues_of_append identifier' different parts parts' stem tag)
    · exact .inr (continues_of_append identifier different.symm parts' parts stem tag)
  · rintro (continues | continues)
    · exact continues.outline_eq identifier
    · exact (continues.outline_eq identifier').symm

/-- Different builds in one directory have a file in common if the stem of one goes on into the tag
of the other. -/
theorem share_iff (identifier : IsIdentifier o.fileStem) (identifier' : IsIdentifier o'.fileStem)
    (different : o.fileStem ≠ o'.fileStem)
    (sameDir : o.outputDir.components = o'.outputDir.components) :
    o.paths.Share o'.paths ↔ o.Continues o' ∨ o'.Continues o := by
  rw [← outline_eq_iff_continues identifier identifier' different]
  have files : o.paths.Share o'.paths ↔ ∃ affixes ∈ fileAffixes, ∃ affixes' ∈ fileAffixes,
      (o.file affixes).components = (o'.file affixes').components := by
    simp [ArtifactPaths.Share, all_paths]
  rw [files]
  constructor
  · rintro ⟨affixes, member, affixes', member', same⟩
    exact ((components_file_eq_iff identifier identifier' sameDir member member').mp same).2
  · intro same
    have member : ("", ".c") ∈ fileAffixes := List.mem_cons_self
    exact ⟨_, member, _, member,
      (components_file_eq_iff identifier identifier' sameDir member member).mpr ⟨rfl, same⟩⟩

/-- A stem does not go on into its own tag. -/
theorem Continues.extension_ne (identifier : IsIdentifier o'.fileStem)
    (continues : o.Continues o') : o.extension ≠ o'.extension := by
  obtain ⟨u, nonempty, stem, tags⟩ := continues
  intro same
  obtain ⟨first, rest, parts⟩ := Path.exists_outline o'.extension
  rw [same, Path.outline_append_left (slash_not_mem_rest identifier stem) parts, parts] at tags
  have chars := congrArg String.toList (List.cons.inj tags).1
  rw [String.toList_append, List.self_eq_append_left] at chars
  exact nonempty (String.toList_eq_nil_iff.mp chars)

/-- A stem goes on into a tag with a character of identifiers. -/
theorem Continues.exists_isIdentifierChar (identifier : IsIdentifier o'.fileStem)
    (continues : o.Continues o') :
    ∃ c cs, o.extension.toList = c :: cs ∧ isIdentifierChar c := by
  obtain ⟨u, nonempty, stem, tags⟩ := continues
  obtain ⟨first, rest, parts⟩ := Path.exists_outline o'.extension
  rw [Path.outline_append_left (slash_not_mem_rest identifier stem) parts] at tags
  obtain ⟨later, text⟩ := Path.outline_prefix tags
  cases chars : u.toList with
  | nil => exact absurd (String.toList_eq_nil_iff.mp chars) nonempty
  | cons c cs =>
    refine ⟨c, cs ++ first.toList ++ later, ?_, ?_⟩
    · rw [← text, String.toList_append, chars]
      rfl
    · apply identifier.chars
      simp [stem, chars]

end Options

/-! ## Which builds of a run overwrite each other -/

namespace Session

/-- Two different builds of a run in one directory have a file in common if, and only if, the symbol
of one goes on where that of the other ends, with text that the tag of the other starts with. So
they have none if their tags are the same, or if no tag starts with a character of identifiers. -/
theorem builds_share_iff (s : Session World Entry)
    (steps : List (Step World Source Module Entry)) :
    (s.builds steps).Pairwise fun o o' => o.outputDir.components = o'.outputDir.components →
      (o.paths.Share o'.paths ↔ o.Continues o' ∨ o'.Continues o) ∧
      (o.extension = o'.extension → ¬ o.paths.Share o'.paths) ∧
      ((∀ c cs, o.extension.toList = c :: cs → isIdentifierChar c = false) →
        (∀ c cs, o'.extension.toList = c :: cs → isIdentifierChar c = false) →
        ¬ o.paths.Share o'.paths) := by
  obtain ⟨named, different⟩ := s.builds_spec steps
  refine different.imp_of_mem fun {o o'} member member' distinct sameDir => ?_
  have identifier := (named o member).1
  have identifier' := (named o' member').1
  have share := Options.share_iff identifier identifier' distinct sameDir
  refine ⟨share, ?_, ?_⟩
  · intro sameTag shared
    rcases share.mp shared with continues | continues
    · exact continues.extension_ne identifier' sameTag
    · exact continues.extension_ne identifier sameTag.symm
  · intro separate separate' shared
    rcases share.mp shared with continues | continues
    · obtain ⟨c, cs, starts, valid⟩ := continues.exists_isIdentifierChar identifier'
      simp [separate c cs starts] at valid
    · obtain ⟨c, cs, starts, valid⟩ := continues.exists_isIdentifierChar identifier
      simp [separate' c cs starts] at valid

/-- A backend whose compiler copies the program into the source. The writing of the first program is
cut short. -/
def copyingBackend : Backend Unit String String Unit where
  compile _ _ source := pure { result := .ok ⟨"declarations", source⟩ }
  emit m := pure (if m = "first" then { text := m, failure := some (.other "disk full") }
    else { text := m })
  build _ _ := pure (.ok ())
  load _ _ := pure (.ok ())
  invoke _ := pure { result := .ok (.immediate 0) }

/-- Options with a tag. -/
def tagged (tag : String) : Options := { outputDir := ⟨"out"⟩, extension := tag }

/-- The evaluation of a program under options with a tag. -/
def evaluateTagged (tag id source : String) : Step Unit String String Unit :=
  .evaluate ⟨copyingBackend, tagged tag⟩ Prelude.environment
    { id, source, type := Prelude.indTerm Prelude.natName }

/-- A build of `fact` with the tag `_dbg`, and one of `fact_dbg` without a tag. -/
def colliding : List (Step Unit String String Unit) :=
  [evaluateTagged "_dbg" "fact" "first", evaluateTagged "" "fact_dbg" "second"]

/-- A session with an output directory. -/
def withOutput : Session Unit Unit where
  files := { nodes := [(["out"], .directory)] }
  world := ()

/-- The options of both builds are valid, and they have all files in common. What the first one has
written before it was cut short is overwritten by the second. -/
theorem builds_share_overwritten :
    (tagged "_dbg").check withOutput.files = .ok () ∧ (tagged "").check withOutput.files = .ok () ∧
      withOutput.builds colliding =
        [(tagged "_dbg").forArtifact "fact", (tagged "").forArtifact "fact_dbg"] ∧
      ((tagged "_dbg").forArtifact "fact").paths = ((tagged "").forArtifact "fact_dbg").paths ∧
      (withOutput.run (colliding.take 1)).files.read? ⟨"out/fact_dbg.c"⟩ =
        some "#include <gc_stack.h>\n#include \"fact_dbg.h\"\n\nfirst" ∧
      (withOutput.run colliding).files.read? ⟨"out/fact_dbg.c"⟩ =
        some "#include <gc_stack.h>\n#include \"fact_dbg.h\"\n\nsecond" := by
  have accepted : (tagged "_dbg").check withOutput.files = .ok () := by decide +kernel
  have accepted' : (tagged "").check withOutput.files = .ok () := by decide +kernel
  have different : withOutput.builds colliding =
      [(tagged "_dbg").forArtifact "fact", (tagged "").forArtifact "fact_dbg"] := by
    decide +kernel
  have samePaths : ((tagged "_dbg").forArtifact "fact").paths =
      ((tagged "").forArtifact "fact_dbg").paths := by
    decide +kernel
  have written : (withOutput.run (colliding.take 1)).files.read? ⟨"out/fact_dbg.c"⟩ =
      some "#include <gc_stack.h>\n#include \"fact_dbg.h\"\n\nfirst" := by
    decide +kernel
  have overwritten : (withOutput.run colliding).files.read? ⟨"out/fact_dbg.c"⟩ =
      some "#include <gc_stack.h>\n#include \"fact_dbg.h\"\n\nsecond" := by
    decide +kernel
  exact ⟨accepted, accepted', different, samePaths, written, overwritten⟩

end Session

end Readback
