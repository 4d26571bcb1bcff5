import Readback.Build.Import
import Readback.Proofs.FileNames

/-!
# Paths of imports

An import with a path inside the build directory is turned into the rest of the path behind the
directory. However the two paths are spelled, the rest leads to the same file when it is joined to
the directory again. The object that is linked for it is the file beside it with the ending `o`.
Where the path goes on behind a name that would be lost without its ending, the rest does not, and
the object is another one.

## Main statements

* `Path.exists_stripPrefix?` — the rest of a path behind a directory
* `Import.resolve_inside`, `Import.resolve_outside` — an import with a path
* `Import.resolveAll_keeps_files` — what the resolved imports and their objects are
* `Import.object_ne_withExtension` — an import whose object is another one
-/

namespace Readback

namespace Path

variable {p dir : Path} {before : List String} {name : String}

/-! ## The rest behind a directory -/

/-- Every path but the empty one has a component. -/
theorem components_ne_nil (nonempty : p.text ≠ "") : p.components ≠ [] := by
  obtain ⟨text⟩ := p
  intro none
  have single := segments_ne_empty nonempty
  rcases exists_endsIn_or_trivial ⟨text⟩ with ⟨before, name, endsIn⟩ | trivial
  · obtain ⟨init, _, components⟩ := exists_components_of_endsIn before
    have whole := endsIn.isTrivial_eq_false
    obtain ⟨c, named⟩ := exists_component? whole
    rw [(components _ name endsIn).1, named] at none
    simp at none
  · rw [components_of_trivial trivial] at none
    cases parts : (Path.mk text).segments with
    | nil => exact segments_ne_nil _ parts
    | cons first rest =>
      rw [parts] at none single
      have isTrivialFirst := trivial first (by simp [parts])
      rw [isTrivial, Bool.or_eq_true, decide_eq_true_eq, decide_eq_true_eq] at isTrivialFirst
      rcases isTrivialFirst with rfl | rfl
      · cases rest with
        | nil => exact single rfl
        | cons next rest => cases none
      · cases none

/-- Components are dropped off the front of the parts up to the last one of them. -/
theorem dropComponents_eq_some {cs : List Component} {parts rest : List String}
    (dropped : dropComponents cs parts = some rest) :
    ∃ front, parts = front ++ rest ∧ front.filterMap component? = cs := by
  induction parts generalizing cs with
  | nil =>
    cases cs with
    | nil => exact ⟨[], Option.some.inj dropped, rfl⟩
    | cons c cs => cases dropped
  | cons part parts ih =>
    cases cs with
    | nil => exact ⟨[], Option.some.inj dropped, rfl⟩
    | cons c cs =>
      rw [dropComponents] at dropped
      cases found : component? part with
      | none =>
        rw [found] at dropped
        obtain ⟨front, rfl, same⟩ := ih dropped
        exact ⟨part :: front, rfl, by rw [List.filterMap_cons_none found, same]⟩
      | some d =>
        simp only [found] at dropped
        split at dropped
        case isTrue first =>
          obtain ⟨front, rfl, same⟩ := ih dropped
          exact ⟨part :: front, rfl, by rw [List.filterMap_cons_some found, same, first]⟩
        case isFalse => cases dropped

/-- Components that the parts start with can be dropped. -/
theorem dropComponents_ne_none {cs : List Component} {parts : List String}
    (starts : cs <+: parts.filterMap component?) : dropComponents cs parts ≠ none := by
  induction parts generalizing cs with
  | nil =>
    rw [List.prefix_nil.mp starts]
    simp [dropComponents]
  | cons part parts ih =>
    cases cs with
    | nil => simp [dropComponents]
    | cons c cs =>
      rw [dropComponents]
      cases found : component? part with
      | none =>
        rw [List.filterMap_cons_none found] at starts
        exact ih starts
      | some d =>
        rw [List.filterMap_cons_some found, List.cons_prefix_cons] at starts
        simp only [if_pos starts.1]
        exact ih starts.2

/-- Drops components off the front of a path, that of the start first. -/
def dropFront (cs : List Component) (p : Path) : Option (List String) :=
  match cs, start p.segments with
  | c :: cs, (some d, parts) => if c = d then dropComponents cs parts else none
  | cs, (_, parts) => dropComponents cs parts

theorem stripPrefix?_eq (nonempty : dir.text ≠ "") :
    p.stripPrefix? dir = (dropFront dir.components p).map fun parts => ofSegments (trim parts) := by
  unfold stripPrefix? dropFront
  cases dirs : dir.components with
  | nil => exact absurd dirs (components_ne_nil nonempty)
  | cons c cs =>
    obtain ⟨first, parts⟩ := start p.segments
    cases first <;> rfl

/-- What is left of a path is the end of its parts, and has the components that were not dropped. -/
theorem dropFront_eq_some {cs : List Component} {parts : List String} (nonempty : cs ≠ [])
    (dropped : dropFront cs p = some parts) : ∃ front, p.segments = front ++ parts ∧
      p.components = cs ++ parts.filterMap component? := by
  obtain ⟨front, behind⟩ := exists_append_start p.segments
  unfold components
  unfold dropFront at dropped
  generalize start p.segments = split at dropped behind ⊢
  obtain ⟨first, inner⟩ := split
  obtain ⟨c, cs, rfl⟩ := List.exists_cons_of_ne_nil nonempty
  cases first with
  | none =>
    obtain ⟨middle, rfl, same⟩ := dropComponents_eq_some dropped
    refine ⟨front ++ middle, by rw [behind, List.append_assoc], ?_⟩
    simp [same]
  | some d =>
    dsimp only at dropped
    split at dropped
    case isTrue first =>
      obtain ⟨middle, rfl, same⟩ := dropComponents_eq_some dropped
      refine ⟨front ++ middle, by rw [behind, List.append_assoc], ?_⟩
      simp [same, first]
    case isFalse => cases dropped

theorem dropFront_ne_none {cs : List Component} (nonempty : cs ≠ [])
    (starts : cs <+: p.components) :
    dropFront cs p ≠ none := by
  unfold components at starts
  unfold dropFront
  generalize start p.segments = split at starts ⊢
  obtain ⟨first, inner⟩ := split
  obtain ⟨c, cs, rfl⟩ := List.exists_cons_of_ne_nil nonempty
  cases first with
  | none => exact dropComponents_ne_none starts
  | some d =>
    obtain ⟨first, later⟩ := List.cons_prefix_cons.mp starts
    dsimp only
    rw [if_pos first]
    exact dropComponents_ne_none later

/-- A path that does not lead through the directory has no rest behind it. -/
theorem stripPrefix?_eq_none (nonempty : dir.text ≠ "")
    (outside : ¬ dir.components <+: p.components) : p.stripPrefix? dir = none := by
  rw [stripPrefix?_eq nonempty, Option.map_eq_none_iff]
  by_contra dropped
  obtain ⟨parts, found⟩ := Option.ne_none_iff_exists'.mp dropped
  obtain ⟨front, -, same⟩ := dropFront_eq_some (components_ne_nil nonempty) found
  exact outside ⟨parts.filterMap component?, same.symm⟩

/-! ## A rest with a file name -/

theorem filterMap_component?_dropWhile (parts : List String) :
    (parts.dropWhile isTrivial).filterMap component? = parts.filterMap component? := by
  have split := List.takeWhile_append_dropWhile (p := isTrivial) (l := parts)
  have none : (parts.takeWhile isTrivial).filterMap component? = [] :=
    filterMap_component?_of_trivial fun part member => List.mem_takeWhile_imp member
  conv_rhs => rw [← split, List.filterMap_append, none, List.nil_append]

/-- The trivial parts at both ends are gone. -/
theorem trim_append {trailing : List String} (whole : isTrivial name = false)
    (trivial : ∀ part ∈ trailing, isTrivial part) :
    trim (before ++ name :: trailing) = before.dropWhile isTrivial ++ [name] := by
  have front : (before ++ name :: trailing).dropWhile isTrivial =
      before.dropWhile isTrivial ++ name :: trailing := by
    rw [List.dropWhile_append]
    split
    case isTrue none => simp [List.isEmpty_iff.mp none, whole]
    case isFalse => rfl
  have back : ∀ parts : List String, trimEnd (parts ++ name :: trailing) = parts ++ [name] := by
    intro parts
    rw [trimEnd, List.reverse_append, List.reverse_cons, List.append_assoc,
      List.dropWhile_append_of_pos (by simpa using trivial)]
    simp [whole]
  rw [trim, front, back]

/-- The parts of the rest that has a file name: it starts with none of the trivial ones. -/
theorem start_dropWhile (whole : isTrivial name = false) (before : List String) :
    start (before.dropWhile isTrivial ++ [name]) =
      (none, before.dropWhile isTrivial ++ [name]) := by
  cases front : before.dropWhile isTrivial with
  | nil => exact start_of_not_trivial whole []
  | cons part rest =>
    refine start_of_not_trivial ?_ (rest ++ [name])
    have first := List.head?_dropWhile_not isTrivial before
    rw [front] at first
    simpa using first

/-- A path through a directory that ends in a file name has a rest which leads to the same file from
there, and ends in the same name. -/
theorem exists_stripPrefix? {init : List Component} (nonempty : dir.text ≠ "")
    (inside : p.components = dir.components ++ (init ++ [.normal name])) :
    ∃ rest before before', p.stripPrefix? dir = some rest ∧ rest.isAbsolute = false ∧
      (dir.join rest).components = p.components ∧ rest.EndsIn before name ∧
      rest.segments.getLast? = some name ∧ p.EndsIn before' name ∧ name ≠ ".." := by
  have starts : dir.components <+: p.components := ⟨_, inside.symm⟩
  obtain ⟨parts, found⟩ := Option.ne_none_iff_exists'.mp
    (dropFront_ne_none (components_ne_nil nonempty) starts)
  obtain ⟨front, segments, components⟩ := dropFront_eq_some (components_ne_nil nonempty) found
  have last : parts.filterMap component? = init ++ [.normal name] :=
    List.append_cancel_left (components.symm.trans inside)
  obtain ⟨before, trailing, rfl, whole, trivial, notParent⟩ := exists_parts_of_components last
  have plain : ∀ part ∈ before.dropWhile isTrivial ++ [name], '/' ∉ part.toList := by
    intro part member
    apply slash_not_mem_of_mem_segments (p := p)
    rw [segments]
    rcases List.mem_append.mp member with early | isName
    · simp [List.dropWhile_subset _ early]
    · simp [List.mem_singleton.mp isName]
  have restParts := segments_ofSegments (by simp) plain
  have restStart := start_dropWhile whole before
  refine ⟨ofSegments (before.dropWhile isTrivial ++ [name]), before.dropWhile isTrivial,
    front ++ before, ?_, ?_, ?_, ⟨[], restParts, whole, by simp⟩, by simp [restParts],
    ⟨trailing, by rw [segments, List.append_assoc], whole, trivial⟩, notParent⟩
  · rw [stripPrefix?_eq nonempty, found, Option.map_some, trim_append whole trivial]
  · rw [isAbsolute, restParts, restStart]
    rfl
  · have relative :
        (start (Path.mk (ofSegments (before.dropWhile isTrivial ++ [name])).text).segments).1 =
          none := by rw [restParts, restStart]
    rw [components_join dir relative, components, innerComponents, restParts, List.filterMap_append,
      List.filterMap_append, filterMap_component?_dropWhile]
    have none := filterMap_component?_of_trivial trivial
    simp [List.filterMap_cons, none]

/-- Another ending leads a path and its rest to the same file, unless the rest loses its name and
the path does not. -/
theorem components_join_withExtension_iff {rest : Path} {before' : List String}
    (endsIn : rest.EndsIn before name) (bare : rest.segments.getLast? = some name)
    (endsIn' : p.EndsIn before' name) (notParent : name ≠ "..")
    (same : (dir.join rest).components = p.components) {extension : String}
    (nonempty : extension ≠ "") (plain : '/' ∉ extension.toList) :
    (dir.join (rest.withExtension extension)).components = (p.withExtension extension).components ↔
      (rest.LosesName → p.LosesName) := by
  obtain ⟨init, joined⟩ := exists_components_join dir before
  obtain ⟨init', _, components⟩ := exists_components_of_endsIn before'
  have whole := endsIn.isTrivial_eq_false
  rw [joined _ _ endsIn, (components _ _ endsIn').1] at same
  obtain rfl := List.append_cancel_right same
  have parent : component? ".." = some .parent := rfl
  have ended := component?_stem whole nonempty
  by_cases loses' : p.LosesName
  · have loses : rest.LosesName := by
      obtain ⟨ending, some, dotless, last⟩ := loses'
      have counts : isTrivial ("." ++ "." ++ ending) = false := isTrivial_stem (by decide) ending
      exact ⟨ending, some, dotless, by rw [bare, endsIn'.eq_of_getLast? last counts]⟩
    rw [joined _ _ (endsIn.withExtension_of_losesName loses nonempty),
      (components _ _ (endsIn'.withExtension_of_losesName loses' nonempty)).1]
    simp [loses']
  · rw [(components _ _ (endsIn'.withExtension notParent loses' nonempty plain)).1, ended]
    by_cases loses : rest.LosesName
    · rw [joined _ _ (endsIn.withExtension_of_losesName loses nonempty), parent]
      simp [loses, loses']
    · rw [joined _ _ (endsIn.withExtension notParent loses nonempty plain), ended]
      simp [loses]

end Path

/-! ## Resolved imports -/

namespace Import

variable {dir p : Path} {name : String} {init : List Component}

/-- An import with a path inside the build directory names the same file from there. -/
theorem resolve_inside (nonempty : dir.text ≠ "")
    (inside : p.components = dir.components ++ (init ++ [.normal name])) : ∃ rest : Path,
      (absolute p).resolve dir = build rest.text ∧ rest.isAbsolute = false ∧
      (dir.join rest).components = p.components ∧
      ((dir.join (rest.withExtension "o")).components = (p.withExtension "o").components ↔
        (rest.LosesName → p.LosesName)) := by
  obtain ⟨rest, before, before', stripped, relative, same, endsIn, bare, endsIn', notParent⟩ :=
    Path.exists_stripPrefix? nonempty inside
  refine ⟨rest, by simp only [resolve, stripped], relative, same, ?_⟩
  exact Path.components_join_withExtension_iff endsIn bare endsIn' notParent same (by decide)
    (by decide)

/-- An import with a path outside of the build directory becomes its file name. -/
theorem resolve_outside (nonempty : dir.text ≠ "") (outside : ¬ dir.components <+: p.components)
    (last : p.components = init ++ [.normal name]) : (absolute p).resolve dir = build name := by
  simp only [resolve, Path.stripPrefix?_eq_none nonempty outside,
    Path.fileName?_of_components last, Option.getD_some]

/-- A resolved import has no path. -/
theorem resolve_ne_absolute (dir : Path) (i : Import) (path : Path) :
    i.resolve dir ≠ absolute path := by
  cases i with
  | absolute p =>
    simp only [resolve]
    split <;> simp
  | _ => simp [resolve]

theorem resolve_resolve (dir : Path) (i : Import) :
    (i.resolve dir).resolve dir = i.resolve dir := by
  cases resolved : i.resolve dir with
  | absolute path => exact absurd resolved (resolve_ne_absolute dir i path)
  | _ => rfl

/-- The name of a header in the build directory. -/
def buildName? : Import → Option String
  | build name => some name
  | _ => none

/-- Only headers in the build directory have objects. -/
theorem objects_eq (dir : Path) (imports : List Import) : objects dir imports =
    (imports.filterMap buildName?).map fun name => dir.join ((Path.mk name).withExtension "o") := by
  rw [objects, List.map_filterMap]
  congr 1
  funext i
  cases i <;> rfl

/-- The resolved imports are the header of the runtime and one import for each given one, and are
resolved already. An import with a path inside the build directory names the same file from there,
and one with a path outside is included by its file name. The objects are those of the headers in
the build directory, in their order. For a path inside it, the object is the path with the ending
`o`, unless the rest behind the directory loses its name with the ending and the path itself does
not. -/
theorem resolveAll_keeps_files (c : Convention) {dir : Path} (nonempty : dir.text ≠ "")
    (imports : List Import) :
    resolveAll c dir imports = runtime c :: imports.map (resolve dir) ∧
    (∀ i ∈ resolveAll c dir imports, (∀ path, i ≠ absolute path) ∧ i.resolve dir = i) ∧
    objects dir (resolveAll c dir imports) =
      ((resolveAll c dir imports).filterMap buildName?).map
        (fun name => dir.join ((Path.mk name).withExtension "o")) ∧
    (∀ (p : Path) (init : List Component) (name : String),
      p.components = dir.components ++ (init ++ [.normal name]) → ∃ rest : Path,
        (absolute p).resolve dir = build rest.text ∧ rest.isAbsolute = false ∧
        (dir.join rest).components = p.components ∧
        ((dir.join (rest.withExtension "o")).components = (p.withExtension "o").components ↔
          (rest.LosesName → p.LosesName))) ∧
    ∀ (p : Path) (init : List Component) (name : String), ¬ dir.components <+: p.components →
      p.components = init ++ [.normal name] → (absolute p).resolve dir = build name := by
  refine ⟨rfl, fun i member => ?_, objects_eq dir _, fun p init name => resolve_inside nonempty,
    fun p init name => resolve_outside nonempty⟩
  rcases List.mem_cons.mp member with rfl | resolved
  · exact ⟨nofun, rfl⟩
  · obtain ⟨given, -, rfl⟩ := List.mem_map.mp resolved
    exact ⟨resolve_ne_absolute dir given, resolve_resolve dir given⟩

/-- A header of a library in the build directory, given by another spelling of its path. -/
theorem resolveAll_keeps_files_list :
    let dir : Path := ⟨"/work/build"⟩
    let p : Path := ⟨"/work/./build//lib/list.h/"⟩
    (absolute p).resolve dir = build "lib/list.h" ∧
      (dir.join ⟨"lib/list.h"⟩).components = p.components ∧
      (dir.join ((Path.mk "lib/list.h").withExtension "o")).components =
        (p.withExtension "o").components := by
  intro dir p
  have nonempty : dir.text ≠ "" := by decide
  obtain ⟨-, -, -, inside, -⟩ := resolveAll_keeps_files .direct nonempty []
  obtain ⟨rest, resolved, -, same, object⟩ := inside p [.normal "lib"] "list.h" (by decide)
  have text : (absolute p).resolve dir = build "lib/list.h" := by decide
  obtain rfl : rest = ⟨"lib/list.h"⟩ := congrArg Path.mk (build.inj (resolved.symm.trans text))
  refine ⟨text, same, object.mpr ?_⟩
  rintro ⟨ending, -, -, last⟩
  have name : "list.h" = ".." ++ ending := Option.some.inj last
  have starts : (".." ++ ending).toList.head? = some '.' := by
    rw [String.toList_append]
    rfl
  rw [← name] at starts
  exact absurd starts (by decide)

/-- Of the header `..h` a slash behind the path leaves nothing but the directory above, where the
object is looked for. -/
theorem object_ne_withExtension :
    let dir : Path := ⟨"/b"⟩
    let p : Path := ⟨"/b/..h/"⟩
    p.components = dir.components ++ [.normal "..h"] ∧
      objects dir (resolveAll .direct dir [absolute p]) = [⟨"/b/.."⟩] ∧
      p.withExtension "o" = ⟨"/b/..o"⟩ ∧
      (Path.mk "/b/..").components ≠ (Path.mk "/b/..o").components := by
  decide +kernel

end Import

end Readback
