import Readback.Files.Path
import Mathlib.Data.List.Basic

/-!
# Components of joined paths

A text that is joined to a directory adds its own components to those of the directory. Which they
are is seen from its outline: the parts between its slashes, without the trivial ones in the middle.
Text put in front of another goes into the first part of the outline, and text behind it into the
last.

## Main definitions

* `Path.innerComponents` — the components of a text inside a path
* `Path.outline` — the parts of a text that count
* `Path.IsSolid` — texts that no part vanishes with

## Main statements

* `Path.components_join` — the components of a joined path
* `Path.outline_append_left`, `Path.exists_outline_append_right` — text in front and behind
* `Path.innerComponents_eq_iff` — texts between solid ones are told by their outlines
-/

namespace Readback

namespace Path

/-! ## Parts -/

theorem splitSlashes_ne_nil (cs : List Char) : splitSlashes cs ≠ [] := by
  cases cs with
  | nil => simp [splitSlashes]
  | cons c cs =>
    rw [splitSlashes]
    split
    · simp
    · split <;> simp

/-- A slash separates the parts before it from those behind it. -/
theorem splitSlashes_append_slash (front back : List Char) :
    splitSlashes (front ++ '/' :: back) = splitSlashes front ++ splitSlashes back := by
  induction front with
  | nil => simp [splitSlashes]
  | cons c front ih =>
    rw [List.cons_append, splitSlashes, splitSlashes]
    by_cases slash : c = '/'
    · simp [slash, ih]
    · rw [if_neg slash, if_neg slash, ih]
      cases parts : splitSlashes front with
      | nil => exact absurd parts (splitSlashes_ne_nil front)
      | cons part parts => simp

/-- Text without slashes in front goes into the first part. -/
theorem splitSlashes_append_left {front : List Char} (plain : '/' ∉ front) {back : List Char}
    {first : List Char} {rest : List (List Char)} (parts : splitSlashes back = first :: rest) :
    splitSlashes (front ++ back) = (front ++ first) :: rest := by
  induction front with
  | nil => simpa using parts
  | cons c front ih =>
    obtain ⟨notSlash, plain'⟩ : '/' ≠ c ∧ '/' ∉ front := by simpa using plain
    rw [List.cons_append, splitSlashes, if_neg notSlash.symm, ih plain']
    rfl

/-- Text without slashes behind goes into the last part. -/
theorem exists_splitSlashes_append_right (front : List Char) :
    ∃ before last, splitSlashes front = before ++ [last] ∧
      ∀ back, '/' ∉ back → splitSlashes (front ++ back) = before ++ [last ++ back] := by
  induction front with
  | nil =>
    refine ⟨[], [], rfl, fun back plain => ?_⟩
    have empty : splitSlashes [] = [[]] := rfl
    simpa using splitSlashes_append_left plain empty
  | cons c front ih =>
    obtain ⟨before, last, parts, behind⟩ := ih
    by_cases slash : c = '/'
    · refine ⟨[] :: before, last, by simp [splitSlashes, slash, parts], fun back plain => ?_⟩
      simp [splitSlashes, slash, behind back plain]
    · cases before with
      | nil =>
        refine ⟨[], c :: last, by simp [splitSlashes, slash, parts], fun back plain => ?_⟩
        simp [splitSlashes, slash, behind back plain]
      | cons first before =>
        refine ⟨(c :: first) :: before, last, by simp [splitSlashes, slash, parts], ?_⟩
        intro back plain
        simp [splitSlashes, slash, behind back plain]

/-- The first part is what the text starts with. -/
theorem first_prefix {cs first : List Char} {rest : List (List Char)}
    (parts : splitSlashes cs = first :: rest) : first <+: cs := by
  induction cs generalizing first rest with
  | nil =>
    obtain ⟨rfl, -⟩ := List.cons.inj parts
    exact List.nil_prefix
  | cons c cs ih =>
    rw [splitSlashes] at parts
    by_cases slash : c = '/'
    · rw [if_pos slash] at parts
      obtain ⟨rfl, -⟩ := List.cons.inj parts
      exact List.nil_prefix
    · rw [if_neg slash] at parts
      cases later : splitSlashes cs with
      | nil => exact absurd later (splitSlashes_ne_nil cs)
      | cons first' rest' =>
        rw [later] at parts
        obtain ⟨rfl, -⟩ := List.cons.inj parts
        exact (List.prefix_cons_inj c).mpr (ih later)

theorem segments_ne_nil (p : Path) : p.segments ≠ [] := by
  simp [segments, splitSlashes_ne_nil]

theorem segments_append_slash (front back : String) :
    (Path.mk (front ++ "/" ++ back)).segments =
      (Path.mk front).segments ++ (Path.mk back).segments := by
  have slash : (front ++ "/" ++ back).toList = front.toList ++ '/' :: back.toList := by simp
  simp only [segments]
  rw [slash, splitSlashes_append_slash, List.map_append]

/-! ## Joined paths -/

/-- The components of a text that is not at the start of a path. -/
def innerComponents (text : String) : List Component :=
  (Path.mk text).segments.filterMap component?

/-- Parts that start with neither the root nor a dot are looked at one by one. -/
theorem components_of_start {p : Path} (inner : (start p.segments).1 = none) :
    p.components = innerComponents p.text := by
  have rest : (start p.segments).2 = p.segments := by
    revert inner
    unfold start
    split <;> simp
  simp only [components, inner, rest]
  rfl

/-- How a path starts does not depend on parts behind it, unless it is empty. -/
theorem start_append {parts : List String} (some : parts ≠ []) (nonempty : parts ≠ [""])
    (later : List String) :
    start (parts ++ later) = ((start parts).1, (start parts).2 ++ later) := by
  match parts with
  | [] => exact absurd rfl some
  | [part] =>
    have notEmpty : part ≠ "" := by simpa using nonempty
    by_cases dot : part = "."
    · simp [start, dot]
    · simp [start, notEmpty, dot]
  | part :: next :: parts =>
    by_cases empty : part = ""
    · simp [start, empty]
    · by_cases dot : part = "." <;> simp [start, empty, dot]

/-- Only the empty text is a single empty part. -/
theorem segments_ne_empty {text : String} (nonempty : text ≠ "") :
    (Path.mk text).segments ≠ [""] := by
  intro single
  have parts : splitSlashes text.toList = [[]] := by
    simpa [segments, List.map_eq_singleton_iff] using single
  cases chars : text.toList with
  | nil => exact nonempty (String.toList_eq_nil_iff.mp chars)
  | cons c cs =>
    rw [chars, splitSlashes] at parts
    by_cases slash : c = '/'
    · simp [slash, splitSlashes_ne_nil] at parts
    · rw [if_neg slash] at parts
      split at parts <;> simp at parts

theorem components_append {front : String} (nonempty : front ≠ "") (back : String) :
    (Path.mk (front ++ "/" ++ back)).components =
      (Path.mk front).components ++ innerComponents back := by
  simp only [components, segments_append_slash,
    start_append (segments_ne_nil ⟨front⟩) (segments_ne_empty nonempty), innerComponents]
  simp

/-- A slash at the end of a path changes nothing, unless there is nothing else. -/
theorem components_append_slash {front : String} (nonempty : front ≠ "") :
    (Path.mk (front ++ "/")).components = (Path.mk front).components := by
  have nothing : innerComponents "" = [] := rfl
  have joined := components_append nonempty ""
  rwa [String.append_empty, nothing, List.append_nil] at joined

/-- Behind the root every part is looked at. -/
theorem components_root (back : String) :
    (Path.mk ("" ++ "/" ++ back)).components =
      (Path.mk ("" ++ "/")).components ++ innerComponents back := by
  have parts := segments_append_slash "" back
  cases later : (Path.mk back).segments with
  | nil => exact absurd later (segments_ne_nil _)
  | cons part rest =>
    have empty : (Path.mk "").segments = [""] := rfl
    rw [later, empty] at parts
    simp only [components, parts, innerComponents, later]
    rfl

theorem exists_append_slash {text : String} (slash : text.endsWith "/") :
    ∃ front, text = front ++ "/" := by
  rw [String.endsWith_eq_endsWith_toSlice, String.Slice.endsWith_string_iff] at slash
  obtain ⟨front, same⟩ := slash
  exact ⟨String.ofList front, by simpa [← String.toList_inj] using same.symm⟩

/-- A joined path that is not absolute adds the components of its text to those of the directory. -/
theorem components_join_of_relative {dir p : Path} (nonempty : dir.text ≠ "")
    (relative : p.isAbsolute = false) :
    (dir.join p).components = dir.components ++ innerComponents p.text := by
  obtain ⟨dirText⟩ := dir
  rw [join, relative, if_neg Bool.false_ne_true]
  by_cases slash : dirText.endsWith "/"
  · rw [if_pos (by simp [slash])]
    obtain ⟨front, rfl⟩ := exists_append_slash slash
    by_cases root : front = ""
    · rw [root]
      exact components_root p.text
    · rw [components_append root, components_append_slash root]
  · rw [if_neg (by simpa [slash] using nonempty)]
    exact components_append nonempty p.text

/-- A joined text that starts with neither the root nor a dot adds its own components. -/
theorem components_join (dir : Path) {text : String}
    (inner : (start (Path.mk text).segments).1 = none) :
    (dir.join ⟨text⟩).components = dir.components ++ innerComponents text := by
  have relative : (Path.mk text).isAbsolute = false := by simp [isAbsolute, inner]
  by_cases empty : dir.text = ""
  · obtain ⟨dirText⟩ := dir
    obtain rfl : dirText = "" := empty
    rw [join, relative, if_neg Bool.false_ne_true, if_pos (by simp), String.empty_append,
      components_of_start inner]
    rfl
  · exact components_join_of_relative empty relative

/-! ## Outlines -/

/-- The parts of a text between slashes, without the trivial ones that stand between others. -/
def outline (text : String) : List String :=
  match (Path.mk text).segments with
  | [] => []
  | first :: rest => first :: (rest.dropLast.filter (! isTrivial ·) ++ rest.getLast?.toList)

/-- The outline has all components of the text. -/
theorem innerComponents_eq (text : String) :
    innerComponents text = (outline text).filterMap component? := by
  have skipped : (fun part => if (! isTrivial part) then component? part else none) =
      component? := by
    funext part
    by_cases empty : isTrivial part <;> simp [component?, empty]
  have trivial : ∀ parts : List String,
      (parts.filter (! isTrivial ·)).filterMap component? = parts.filterMap component? := by
    intro parts
    rw [List.filterMap_filter, skipped]
  unfold innerComponents outline
  cases (Path.mk text).segments with
  | nil => rfl
  | cons first rest =>
    rcases List.eq_nil_or_concat' rest with rfl | ⟨middle, last, rfl⟩
    · rfl
    · simp [List.filterMap_cons, trivial]

theorem exists_outline (text : String) : ∃ first rest, outline text = first :: rest := by
  unfold outline
  cases parts : (Path.mk text).segments with
  | nil => exact absurd parts (segments_ne_nil _)
  | cons first rest => exact ⟨_, _, rfl⟩

/-- Text without slashes in front goes into the first part. -/
theorem outline_append_left {front back first : String} {rest : List String}
    (plain : '/' ∉ front.toList) (parts : outline back = first :: rest) :
    outline (front ++ back) = (front ++ first) :: rest := by
  cases split : splitSlashes back.toList with
  | nil => exact absurd split (splitSlashes_ne_nil _)
  | cons first' rest' =>
    have joined := splitSlashes_append_left plain split
    simp only [outline, segments, split, String.toList_append, joined, List.map_cons] at parts ⊢
    obtain ⟨rfl, rfl⟩ := List.cons.inj parts
    simp

/-- Text without slashes behind goes into the last part. -/
theorem exists_outline_append_right (front : String) :
    ∃ before last, outline front = before ++ [last] ∧
      ∀ back : String, '/' ∉ back.toList → outline (front ++ back) = before ++ [last ++ back] := by
  obtain ⟨before, last, split, behind⟩ := exists_splitSlashes_append_right front.toList
  cases before with
  | nil =>
    refine ⟨[], String.ofList last, by simp [outline, segments, split], fun back plain => ?_⟩
    simp [outline, segments, behind _ plain]
  | cons first middle =>
    refine ⟨String.ofList first :: (middle.map String.ofList).filter (! isTrivial ·),
      String.ofList last, by simp [outline, segments, split], fun back plain => ?_⟩
    simp [outline, segments, behind _ plain]

theorem outline_append_left_inj {front : String} (plain : '/' ∉ front.toList) (a b : String) :
    outline (front ++ a) = outline (front ++ b) ↔ outline a = outline b := by
  obtain ⟨first, rest, parts⟩ := exists_outline a
  obtain ⟨first', rest', parts'⟩ := exists_outline b
  rw [outline_append_left plain parts, outline_append_left plain parts', parts, parts']
  simp

theorem outline_append_right_inj {back : String} (plain : '/' ∉ back.toList) (a b : String) :
    outline (a ++ back) = outline (b ++ back) ↔ outline a = outline b := by
  obtain ⟨before, last, parts, behind⟩ := exists_outline_append_right a
  obtain ⟨before', last', parts', behind'⟩ := exists_outline_append_right b
  rw [behind back plain, behind' back plain, parts, parts']
  simp

/-- A text without slashes that is not made of dots alone, so that a part with it counts. -/
structure IsSolid (text : String) : Prop where
  plain : '/' ∉ text.toList
  notDots : ∃ c ∈ text.toList, c ≠ '.'

theorem isTrivial_of_mem {part : String} {c : Char} (member : c ∈ part.toList) (notDot : c ≠ '.') :
    isTrivial part = false := by
  by_cases empty : part = ""
  · simp [empty] at member
  · by_cases dot : part = "."
    · simp [dot, notDot] at member
    · simp [isTrivial, empty, dot]

/-- A path that starts with a solid text starts with neither the root nor a dot. -/
theorem start_of_isSolid {front : String} (solid : IsSolid front) (back : String) :
    (start (Path.mk (front ++ back)).segments).1 = none := by
  obtain ⟨c, inFront, notDot⟩ := solid.notDots
  cases split : splitSlashes back.toList with
  | nil => exact absurd split (splitSlashes_ne_nil _)
  | cons first rest =>
    have parts := splitSlashes_append_left solid.plain split
    have whole : isTrivial (String.ofList (front.toList ++ first)) = false :=
      isTrivial_of_mem (by simp [inFront]) notDot
    have counts : String.ofList (front.toList ++ first) ≠ "" ∧
        String.ofList (front.toList ++ first) ≠ "." := by simpa [isTrivial] using whole
    rw [segments, String.toList_append, parts, List.map_cons]
    unfold start
    split <;> simp_all

/-- The first part of an outline is what the text starts with. -/
theorem outline_prefix {text first : String} {rest : List String}
    (parts : outline text = first :: rest) : first.toList <+: text.toList := by
  cases split : splitSlashes text.toList with
  | nil => exact absurd split (splitSlashes_ne_nil _)
  | cons first' rest' =>
    simp only [outline, segments, split, List.map_cons] at parts
    obtain ⟨rfl, -⟩ := List.cons.inj parts
    rw [String.toList_ofList]
    exact first_prefix split

/-- Between the first part and the last there are no trivial ones. -/
theorem isTrivial_of_mem_middle {text first last part : String} {middle : List String}
    (parts : outline text = first :: (middle ++ [last])) (member : part ∈ middle) :
    isTrivial part = false := by
  unfold outline at parts
  cases split : (Path.mk text).segments with
  | nil => exact absurd split (segments_ne_nil _)
  | cons first' rest =>
    rw [split] at parts
    rcases List.eq_nil_or_concat' rest with rfl | ⟨middle', last', rfl⟩
    · simp at parts
    · simp only [List.dropLast_concat, List.getLast?_concat, Option.toList_some,
        List.cons.injEq] at parts
      obtain ⟨-, same⟩ := parts
      obtain ⟨rfl, -⟩ := List.append_inj' same rfl
      simpa using (List.mem_filter.mp member).2

/-- Between solid texts there are no trivial parts in an outline. -/
theorem isTrivial_of_mem_outline {front back : String} (solid : IsSolid front)
    (solid' : IsSolid back) (middle : String) {part : String}
    (member : part ∈ outline (front ++ (middle ++ back))) : isTrivial part = false := by
  obtain ⟨c, inFront, notDot⟩ := solid.notDots
  obtain ⟨d, inBack, notDot'⟩ := solid'.notDots
  obtain ⟨first, rest, parts⟩ := exists_outline (middle ++ back)
  obtain ⟨before, last, -, behind⟩ := exists_outline_append_right (front ++ middle)
  have ends := behind back solid'.plain
  have starts := outline_append_left solid.plain parts
  rw [String.append_assoc, starts] at ends
  have wholeFirst : isTrivial (front ++ first) = false :=
    isTrivial_of_mem (by simp [inFront]) notDot
  have wholeLast : isTrivial (last ++ back) = false :=
    isTrivial_of_mem (by simp [inBack]) notDot'
  rw [starts] at member
  -- the text in front is in the first part, and the text behind in the last
  rcases List.mem_cons.mp member with rfl | inRest
  · exact wholeFirst
  cases before with
  | nil =>
    obtain ⟨-, rfl⟩ := List.cons.inj ends
    cases inRest
  | cons first' between =>
    obtain ⟨-, rfl⟩ := List.cons.inj ends
    rcases List.mem_append.mp inRest with inMiddle | isLast
    · exact isTrivial_of_mem_middle starts inMiddle
    · rw [List.mem_singleton.mp isLast]
      exact wholeLast

theorem component?_inj {part part' : String} (whole : isTrivial part = false)
    (whole' : isTrivial part' = false) (same : component? part = component? part') :
    part = part' := by
  simp only [component?, whole, whole'] at same
  by_cases parent : part = ".." <;> by_cases parent' : part' = ".." <;>
    simp [parent, parent'] at same ⊢
  exact same

/-- A part that is not trivial is a component. -/
theorem exists_component? {part : String} (whole : isTrivial part = false) :
    ∃ c, component? part = some c := by
  by_cases parent : part = ".."
  · exact ⟨.parent, by rw [component?, whole, parent]; rfl⟩
  · exact ⟨.normal part, by simp [component?, whole, parent]⟩

/-- Parts that are not trivial are told by their components. -/
theorem filterMap_component?_inj {parts parts' : List String}
    (whole : ∀ part ∈ parts, isTrivial part = false)
    (whole' : ∀ part ∈ parts', isTrivial part = false)
    (same : parts.filterMap component? = parts'.filterMap component?) : parts = parts' := by
  induction parts generalizing parts' with
  | nil =>
    cases parts' with
    | nil => rfl
    | cons part' parts' =>
      obtain ⟨c, component⟩ := exists_component? (whole' part' List.mem_cons_self)
      simp [component] at same
  | cons part parts ih =>
    obtain ⟨c, component⟩ := exists_component? (whole part List.mem_cons_self)
    cases parts' with
    | nil => simp [component] at same
    | cons part' parts' =>
      obtain ⟨c', component'⟩ := exists_component? (whole' part' List.mem_cons_self)
      rw [List.filterMap_cons_some component, List.filterMap_cons_some component'] at same
      obtain ⟨rfl, rest⟩ := List.cons.inj same
      have first : part = part' := component?_inj (whole part List.mem_cons_self)
        (whole' part' List.mem_cons_self) (component.trans component'.symm)
      rw [first, ih (fun p member => whole p (List.mem_cons_of_mem _ member))
        (fun p member => whole' p (List.mem_cons_of_mem _ member)) rest]

/-- Texts between solid ones have the same components when they have the same outline. -/
theorem innerComponents_eq_iff {front front' back back' : String} (solid : IsSolid front)
    (solid' : IsSolid front') (solidBack : IsSolid back) (solidBack' : IsSolid back')
    (middle middle' : String) :
    innerComponents (front ++ (middle ++ back)) = innerComponents (front' ++ (middle' ++ back')) ↔
      outline (front ++ (middle ++ back)) = outline (front' ++ (middle' ++ back')) := by
  rw [innerComponents_eq, innerComponents_eq]
  constructor
  · apply filterMap_component?_inj
    · exact fun _ member => isTrivial_of_mem_outline solid solidBack middle member
    · exact fun _ member => isTrivial_of_mem_outline solid' solidBack' middle' member
  · intro same
    rw [same]

end Path

end Readback
