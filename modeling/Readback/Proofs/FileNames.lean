import Readback.Proofs.Components
import Mathlib.Data.List.TakeWhile

/-!
# File names and their endings

The last part of a path that is not trivial names the file that the path leads to. Another ending
takes the place of the old one in this part, and the trivial parts behind it are gone. A name of two
dots and an ending without further dots is the exception: without the ending it would be no name.

## Main definitions

* `Path.EndsIn` — the last part that is not trivial, with the parts before it
* `Path.LosesName` — paths that are left without a file name when the ending is taken off

## Main statements

* `Path.exists_components_of_endsIn`, `Path.exists_endsIn_join` — what comes before the last part
  does not depend on it
* `Path.fileName?_of_components` — the file name is the last component
* `Path.EndsIn.withExtension`, `Path.EndsIn.withExtension_of_losesName` — paths with another ending
-/

namespace Readback

namespace Path

variable {p : Path} {before : List String} {name : String}

/-! ## Parts as they are written -/

theorem slash_not_mem_of_mem_segments {part : String} (member : part ∈ p.segments) :
    '/' ∉ part.toList := by
  have plain : ∀ cs, ∀ part ∈ splitSlashes cs, '/' ∉ part := by
    intro cs
    induction cs with
    | nil => simp [splitSlashes]
    | cons c cs ih =>
      rw [splitSlashes]
      by_cases slash : c = '/'
      · simpa [slash] using ih
      · rw [if_neg slash]
        cases parts : splitSlashes cs with
        | nil => simpa using Ne.symm slash
        | cons first rest =>
          rw [parts] at ih
          obtain ⟨inFirst, inRest⟩ := List.forall_mem_cons.mp ih
          exact List.forall_mem_cons.mpr ⟨by simp [Ne.symm slash, inFirst], inRest⟩
  obtain ⟨part, inParts, rfl⟩ := List.mem_map.mp member
  rw [String.toList_ofList]
  exact plain _ part inParts

theorem segments_of_plain {text : String} (plain : '/' ∉ text.toList) :
    (Path.mk text).segments = [text] := by
  have empty : splitSlashes [] = [[]] := rfl
  have single := splitSlashes_append_left plain empty
  rw [List.append_nil] at single
  simp [segments, single]

theorem ofSegments_cons (part : String) {parts : List String} (some : parts ≠ []) :
    ofSegments (part :: parts) = ⟨part ++ "/" ++ (ofSegments parts).text⟩ := by
  rw [ofSegments, String.intercalate_cons_of_ne_nil some, ofSegments]

theorem ofSegments_singleton (part : String) : ofSegments [part] = ⟨part⟩ := by
  rw [ofSegments, String.intercalate_singleton]

theorem segments_ofSegments {parts : List String} (some : parts ≠ [])
    (plain : ∀ part ∈ parts, '/' ∉ part.toList) : (ofSegments parts).segments = parts := by
  induction parts with
  | nil => exact absurd rfl some
  | cons part parts ih =>
    obtain ⟨plainPart, plainParts⟩ := List.forall_mem_cons.mp plain
    cases parts with
    | nil => rw [ofSegments_singleton, segments_of_plain plainPart]
    | cons next parts =>
      rw [ofSegments_cons part (by simp), segments_append_slash, segments_of_plain plainPart,
        ih (by simp) plainParts]
      rfl

theorem ofSegments_append_left (front first : String) (rest : List String) :
    (ofSegments ((front ++ first) :: rest)).text = front ++ (ofSegments (first :: rest)).text := by
  cases rest with
  | nil => rw [ofSegments_singleton, ofSegments_singleton]
  | cons next rest =>
    have some : next :: rest ≠ [] := by simp
    rw [ofSegments_cons (front ++ first) some, ofSegments_cons first some]
    simp only [String.append_assoc]

/-- The parts of a path make up the path. -/
theorem ofSegments_segments (p : Path) : ofSegments p.segments = p := by
  have whole : ∀ cs, ofSegments ((splitSlashes cs).map String.ofList) = ⟨String.ofList cs⟩ := by
    intro cs
    induction cs with
    | nil => rfl
    | cons c cs ih =>
      rw [splitSlashes]
      cases parts : splitSlashes cs with
      | nil => exact absurd parts (splitSlashes_ne_nil cs)
      | cons first rest =>
        rw [parts] at ih
        by_cases slash : c = '/'
        · rw [if_pos slash, List.map_cons, ofSegments_cons _ (by simp), ih, slash]
          simp
        · have grown : String.ofList (c :: first) = String.ofList [c] ++ String.ofList first := by
            simp
          have text := ofSegments_append_left (String.ofList [c]) (String.ofList first)
            (rest.map String.ofList)
          rw [← List.map_cons, ih, ← grown] at text
          rw [if_neg slash]
          exact congrArg Path.mk (text.trans (by simp))
  have text := whole p.text.toList
  rwa [String.ofList_toList] at text

/-- Parts in front are a text in front. -/
theorem exists_front (plain : ∀ part ∈ before, '/' ∉ part.toList) :
    ∃ front, (∀ back, (Path.mk (front ++ back)).segments = before ++ (Path.mk back).segments) ∧
      ∀ parts, parts ≠ [] →
        (ofSegments (before ++ parts)).text = front ++ (ofSegments parts).text := by
  induction before with
  | nil => exact ⟨"", by simp, by simp⟩
  | cons part before ih =>
    obtain ⟨plainPart, plainBefore⟩ := List.forall_mem_cons.mp plain
    obtain ⟨front, behind, joined⟩ := ih plainBefore
    refine ⟨part ++ "/" ++ front, fun back => ?_, fun parts some => ?_⟩
    · rw [String.append_assoc, segments_append_slash, behind, segments_of_plain plainPart]
      rfl
    · rw [List.cons_append, ofSegments_cons part (by simp [some]), joined parts some]
      simp [String.append_assoc]

/-- The parts of the start of a text are starts of its parts. -/
theorem exists_prefix_of_mem_splitSlashes {cs part : List Char} (member : part ∈ splitSlashes cs)
    (more : List Char) : ∃ whole ∈ splitSlashes (cs ++ more), part <+: whole := by
  obtain ⟨before, last, parts, behind⟩ := exists_splitSlashes_append_right cs
  have plain : ∀ back, '/' ∉ back → ∃ whole ∈ splitSlashes (cs ++ back), part <+: whole := by
    intro back plain
    rw [behind back plain]
    rw [parts] at member
    rcases List.mem_append.mp member with early | isLast
    · exact ⟨part, List.mem_append_left _ early, List.prefix_rfl⟩
    · rw [List.mem_singleton.mp isLast]
      exact ⟨_, List.mem_append_right _ List.mem_cons_self, List.prefix_append last back⟩
  by_cases slash : '/' ∈ more
  · obtain ⟨back, later, rfl, plainBack⟩ := List.eq_append_cons_of_mem slash
    obtain ⟨whole, listed, starts⟩ := plain back plainBack
    rw [← List.append_assoc, splitSlashes_append_slash]
    exact ⟨whole, List.mem_append_left _ listed, starts⟩
  · exact plain more slash

theorem isTrivial_of_prefix {part whole : List Char} (starts : part <+: whole)
    (trivial : isTrivial (String.ofList whole)) : isTrivial (String.ofList part) := by
  have short : whole = [] ∨ whole = ['.'] := by
    simpa [isTrivial, ← String.toList_inj] using trivial
  rcases short with rfl | rfl
  · rw [List.prefix_nil.mp starts]
    rfl
  · rcases List.prefix_cons_iff.mp starts with rfl | ⟨rest, rfl, none⟩
    · rfl
    · rw [List.prefix_nil.mp none]
      rfl

/-- A text starts with trivial parts as far as it is written. -/
theorem isTrivial_of_mem_take {text : String}
    (trivial : ∀ part ∈ (Path.mk text).segments, isTrivial part) (count : Nat) {part : String}
    (member : part ∈ (Path.mk (String.ofList (text.toList.take count))).segments) :
    isTrivial part := by
  obtain ⟨cs, listed, rfl⟩ := List.mem_map.mp member
  rw [String.toList_ofList] at listed
  obtain ⟨whole, inText, starts⟩ :=
    exists_prefix_of_mem_splitSlashes listed (text.toList.drop count)
  rw [List.take_append_drop] at inText
  exact isTrivial_of_prefix starts (trivial _ (List.mem_map_of_mem inText))

/-! ## The last part -/

/-- The part is the last one that is not trivial, behind the parts `before`. -/
def EndsIn (p : Path) (before : List String) (name : String) : Prop :=
  ∃ trailing, p.segments = before ++ name :: trailing ∧ isTrivial name = false ∧
    ∀ part ∈ trailing, isTrivial part

theorem EndsIn.isTrivial_eq_false (endsIn : p.EndsIn before name) : isTrivial name = false := by
  obtain ⟨-, -, whole, -⟩ := endsIn
  exact whole

theorem EndsIn.slash_not_mem (endsIn : p.EndsIn before name) : '/' ∉ name.toList := by
  obtain ⟨trailing, parts, -, -⟩ := endsIn
  exact slash_not_mem_of_mem_segments (p := p) (by simp [parts])

theorem EndsIn.slash_not_mem_before (endsIn : p.EndsIn before name) :
    ∀ part ∈ before, '/' ∉ part.toList := by
  obtain ⟨trailing, parts, -, -⟩ := endsIn
  exact fun part early => slash_not_mem_of_mem_segments (p := p) (by simp [parts, early])

/-- A path made of parts ends in the last of them, unless it is trivial. -/
theorem endsIn_ofSegments (plain : ∀ part ∈ before, '/' ∉ part.toList)
    (plainName : '/' ∉ name.toList) (whole : isTrivial name = false) :
    (ofSegments (before ++ [name])).EndsIn before name := by
  refine ⟨[], segments_ofSegments (by simp) fun part member => ?_, whole, by simp⟩
  rcases List.mem_append.mp member with early | isName
  · exact plain part early
  · rwa [List.mem_singleton.mp isName]

/-- The last part is the file name, unless it leads to the directory above. -/
theorem EndsIn.lastName? (endsIn : p.EndsIn before name) :
    p.lastName? = if name = ".." then none else some (before, name) := by
  obtain ⟨trailing, parts, whole, trivial⟩ := endsIn
  have last : p.segments.reverse.dropWhile isTrivial = name :: before.reverse := by
    rw [parts, List.reverse_append, List.reverse_cons, List.append_assoc,
      List.dropWhile_append_of_pos (by simpa using trivial)]
    simp [whole]
  rw [Path.lastName?, last]
  simp

theorem exists_last_of_not_trivial {parts : List String}
    (some : ∃ part ∈ parts, isTrivial part = false) :
    ∃ before name trailing, parts = before ++ name :: trailing ∧ isTrivial name = false ∧
      ∀ part ∈ trailing, isTrivial part := by
  induction parts with
  | nil => simp at some
  | cons part parts ih =>
    by_cases later : ∃ part ∈ parts, isTrivial part = false
    · obtain ⟨before, name, trailing, rfl, whole, trivial⟩ := ih later
      exact ⟨part :: before, name, trailing, rfl, whole, trivial⟩
    · have trivial : ∀ part ∈ parts, isTrivial part := by simpa using later
      obtain ⟨first, listed, whole⟩ := some
      rcases List.mem_cons.mp listed with rfl | inParts
      · exact ⟨[], first, parts, rfl, whole, trivial⟩
      · simp [trivial first inParts] at whole

/-- A path has a last part that is not trivial, if there is any. -/
theorem exists_endsIn_or_trivial (p : Path) :
    (∃ before name, p.EndsIn before name) ∨ ∀ part ∈ p.segments, isTrivial part := by
  by_cases some : ∃ part ∈ p.segments, isTrivial part = false
  · obtain ⟨before, name, trailing, parts, whole, trivial⟩ := exists_last_of_not_trivial some
    exact .inl ⟨before, name, trailing, parts, whole, trivial⟩
  · exact .inr (by simpa using some)

theorem filterMap_component?_of_trivial {parts : List String}
    (trivial : ∀ part ∈ parts, isTrivial part) : parts.filterMap component? = [] := by
  simp only [List.filterMap_eq_nil_iff]
  intro part member
  simp [component?, trivial part member]

/-- The file name at the end of some components is told from what is before it. -/
theorem append_normal_inj {init init' : List Component} {name name' : String}
    (same : init ++ [.normal name] = init' ++ [.normal name']) : init = init' ∧ name = name' := by
  obtain ⟨inits, lasts⟩ := List.append_inj' same rfl
  exact ⟨inits, Component.normal.inj (List.singleton_inj.mp lasts)⟩

theorem component?_eq_normal_iff {part : String} :
    component? part = some (.normal name) ↔ part = name ∧ isTrivial name = false ∧ name ≠ ".." := by
  unfold component?
  split_ifs <;> grind

theorem components_of_start_eq {first : Option Component} {inner trailing : List String}
    (starts : start p.segments = (first, inner ++ name :: trailing))
    (trivial : ∀ part ∈ trailing, isTrivial part) :
    p.components = first.toList ++ inner.filterMap component? ++ (component? name).toList ∧
      p.isAbsolute = decide (first = some .root) := by
  refine ⟨?_, by rw [isAbsolute, starts]⟩
  have none := filterMap_component?_of_trivial trivial
  cases named : component? name <;> simp [components, starts, named, none]

/-- A part that is not trivial is neither the root nor a dot at the start. -/
theorem start_of_not_trivial (whole : isTrivial name = false) (trailing : List String) :
    start (name :: trailing) = (none, name :: trailing) := by
  have notEmpty : name ≠ "" := by
    rintro rfl
    cases whole
  have notDot : name ≠ "." := by
    rintro rfl
    cases whole
  unfold start
  split <;> simp_all

/-- What comes before the last part does not depend on it. -/
theorem exists_components_of_endsIn (before : List String) :
    ∃ init absolute, ∀ (p : Path) (name : String), p.EndsIn before name →
      p.components = init ++ (component? name).toList ∧ p.isAbsolute = absolute := by
  suffices same : ∃ first inner, ∀ name trailing, isTrivial name = false →
      start (before ++ name :: trailing) = (first, inner ++ name :: trailing) by
    obtain ⟨first, inner, starts⟩ := same
    refine ⟨first.toList ++ inner.filterMap component?, decide (first = some .root), ?_⟩
    rintro p name ⟨trailing, parts, whole, trivial⟩
    exact components_of_start_eq (parts ▸ starts name trailing whole) trivial
  cases before with
  | nil => exact ⟨none, [], fun _ trailing whole => start_of_not_trivial whole trailing⟩
  | cons part rest =>
    by_cases empty : part = ""
    · refine ⟨some .root, rest, fun name trailing _ => ?_⟩
      cases rest <;> simp [empty, start]
    · by_cases dot : part = "."
      · exact ⟨some .here, rest, fun name trailing _ => by simp [dot, start]⟩
      · refine ⟨none, part :: rest, fun name trailing _ => start_of_not_trivial ?_ _⟩
        simp [isTrivial, empty, dot]

theorem lastName?_of_trivial (trivial : ∀ part ∈ p.segments, isTrivial part) :
    p.lastName? = none := by
  have none : p.segments.reverse.dropWhile isTrivial = [] :=
    List.dropWhile_eq_nil_iff.mpr fun part member => trivial part (List.mem_reverse.mp member)
  rw [lastName?, none]

theorem endsIn_of_lastName? (found : p.lastName? = some (before, name)) :
    p.EndsIn before name ∧ name ≠ ".." := by
  rcases p.exists_endsIn_or_trivial with ⟨before', name', endsIn⟩ | trivial
  · rw [endsIn.lastName?] at found
    split at found
    case isTrue => cases found
    case isFalse notParent =>
      cases found
      exact ⟨endsIn, notParent⟩
  · rw [lastName?_of_trivial trivial] at found
    cases found

/-- What stands behind the start of a path is the end of its parts. -/
theorem exists_append_start (parts : List String) : ∃ front, parts = front ++ (start parts).2 := by
  unfold start
  split
  · exact ⟨[""], rfl⟩
  · exact ⟨["."], rfl⟩
  · exact ⟨[], rfl⟩

/-- Of trivial parts only the start of a path counts. -/
theorem components_of_trivial (trivial : ∀ part ∈ p.segments, isTrivial part) :
    p.components = (start p.segments).1.toList := by
  obtain ⟨front, parts⟩ := exists_append_start p.segments
  have behind : ∀ part ∈ (start p.segments).2, isTrivial part := by
    intro part member
    apply trivial
    rw [parts]
    exact List.mem_append_right _ member
  simp only [components, filterMap_component?_of_trivial behind, List.append_nil]

theorem start_ne_normal (parts : List String) : (start parts).1 ≠ some (.normal name) := by
  unfold start
  split <;> simp

/-- A file name among the components of some parts is the last of them that is not trivial. -/
theorem exists_parts_of_components {parts : List String} {init : List Component}
    (last : parts.filterMap component? = init ++ [.normal name]) :
    ∃ before trailing, parts = before ++ name :: trailing ∧ isTrivial name = false ∧
      (∀ part ∈ trailing, isTrivial part) ∧ name ≠ ".." := by
  have some : ∃ part ∈ parts, isTrivial part = false := by
    by_contra none
    rw [filterMap_component?_of_trivial (by simpa using none)] at last
    simp at last
  obtain ⟨before, part, trailing, rfl, whole, trivial⟩ := exists_last_of_not_trivial some
  obtain ⟨c, named⟩ := exists_component? whole
  rw [List.filterMap_append, List.filterMap_cons_some named,
    filterMap_component?_of_trivial trivial] at last
  obtain rfl := List.singleton_inj.mp (List.append_inj' last rfl).2
  obtain ⟨rfl, -, notParent⟩ := component?_eq_normal_iff.mp named
  exact ⟨before, trailing, rfl, whole, trivial, notParent⟩

/-- A file name among the components is the last part that is not trivial. -/
theorem exists_endsIn_of_components {init : List Component}
    (last : p.components = init ++ [.normal name]) :
    ∃ before, p.EndsIn before name ∧ name ≠ ".." := by
  obtain ⟨front, segments⟩ := exists_append_start p.segments
  simp only [components] at last
  rcases List.eq_nil_or_concat' ((start p.segments).2.filterMap component?) with none | ⟨_, c, some⟩
  · have starts : Component.normal name ∈ (start p.segments).1.toList := by
      rw [none, List.append_nil] at last
      simp [last]
    exact absurd (Option.mem_toList.mp starts) (start_ne_normal _)
  · rw [some, ← List.append_assoc] at last
    obtain rfl := List.singleton_inj.mp (List.append_inj' last rfl).2
    obtain ⟨before, trailing, parts, whole, trivial, notParent⟩ := exists_parts_of_components some
    rw [parts, ← List.append_assoc] at segments
    exact ⟨front ++ before, ⟨trailing, segments, whole, trivial⟩, notParent⟩

theorem fileName?_of_components {init : List Component}
    (last : p.components = init ++ [.normal name]) : p.fileName? = some name := by
  obtain ⟨before, endsIn, notParent⟩ := exists_endsIn_of_components last
  rw [fileName?, endsIn.lastName?, if_neg notParent]
  rfl

theorem EndsIn.of_segments {q : Path} {front : List String} (endsIn : p.EndsIn before name)
    (parts : q.segments = front ++ p.segments) : q.EndsIn (front ++ before) name := by
  obtain ⟨trailing, parts', whole, trivial⟩ := endsIn
  exact ⟨trailing, by rw [parts, parts', List.append_assoc], whole, trivial⟩

/-- A path that is not absolute has the parts of the directory in front when it is joined. -/
theorem exists_segments_join (dir : Path) :
    ∃ front, ∀ p : Path, p.isAbsolute = false → (dir.join p).segments = front ++ p.segments := by
  obtain ⟨dirText⟩ := dir
  by_cases empty : dirText = ""
  · refine ⟨[], fun p relative => ?_⟩
    rw [join, relative, if_neg Bool.false_ne_true, if_pos (by simp [empty]), empty,
      String.empty_append]
    rfl
  · by_cases slash : dirText.endsWith "/"
    · obtain ⟨front, rfl⟩ := exists_append_slash slash
      refine ⟨(Path.mk front).segments, fun p relative => ?_⟩
      rw [join, relative, if_neg Bool.false_ne_true, if_pos (by simp [slash]),
        segments_append_slash]
    · refine ⟨(Path.mk dirText).segments, fun p relative => ?_⟩
      rw [join, relative, if_neg Bool.false_ne_true, if_neg (by simp [empty, slash]),
        segments_append_slash]

/-- What comes before the last part of a joined path does not depend on it. -/
theorem exists_endsIn_join (dir : Path) (before : List String) :
    ∃ before', ∀ (p : Path) (name : String), p.EndsIn before name →
      (dir.join p).EndsIn before' name := by
  obtain ⟨_, absolute, starts⟩ := exists_components_of_endsIn before
  cases absolute with
  | true =>
    refine ⟨before, fun p name endsIn => ?_⟩
    rwa [join, (starts p name endsIn).2, if_pos rfl]
  | false =>
    obtain ⟨front, parts⟩ := exists_segments_join dir
    exact ⟨front ++ before, fun p name endsIn =>
      endsIn.of_segments (parts p (starts p name endsIn).2)⟩

/-- The components of a joined path are those before its last part, and the last part. -/
theorem exists_components_join (dir : Path) (before : List String) :
    ∃ init, ∀ (p : Path) (name : String), p.EndsIn before name →
      (dir.join p).components = init ++ (component? name).toList := by
  obtain ⟨before', joined⟩ := exists_endsIn_join dir before
  obtain ⟨init, _, components⟩ := exists_components_of_endsIn before'
  exact ⟨init, fun p name endsIn => (components _ name (joined p name endsIn)).1⟩

/-! ## Endings -/

theorem dropWhile_reverse_append {front back : List Char} (dotless : '.' ∉ back) :
    (front ++ '.' :: back).reverse.dropWhile (· ≠ '.') = '.' :: front.reverse := by
  rw [List.reverse_append, List.reverse_cons, List.append_assoc, List.dropWhile_append_of_pos]
  · rfl
  · intro c member
    exact decide_eq_true fun dot => dotless (dot ▸ List.mem_reverse.mp member)

theorem takeWhile_reverse_append {front back : List Char} (dotless : '.' ∉ back) :
    (front ++ '.' :: back).reverse.takeWhile (· ≠ '.') = back.reverse := by
  rw [List.reverse_append, List.reverse_cons, List.append_assoc, List.takeWhile_append_of_pos]
  · simp
  · intro c member
    exact decide_eq_true fun dot => dotless (dot ▸ List.mem_reverse.mp member)

/-- An ending begins behind the last dot, which is not the first character. -/
theorem splitEnding_append {stem ending : String} (nonempty : stem ≠ "")
    (dotless : '.' ∉ ending.toList) :
    splitEnding (stem ++ "." ++ ending) = (stem, some ending) := by
  have chars : (stem ++ "." ++ ending).toList = stem.toList ++ '.' :: ending.toList := by simp
  cases reversed : stem.toList.reverse with
  | nil => simp_all
  | cons c cs =>
    simp only [splitEnding, chars, dropWhile_reverse_append dotless,
      takeWhile_reverse_append dotless, reversed]
    rw [← reversed]
    simp

theorem splitEnding_of_start {ending : String} (dotless : '.' ∉ ending.toList) :
    splitEnding ("." ++ ending) = ("." ++ ending, none) := by
  have chars : ("." ++ ending).toList = [] ++ '.' :: ending.toList := by simp
  simp only [splitEnding, chars, dropWhile_reverse_append dotless, List.reverse_nil]

/-- A name is its own stem, or it is a stem with an ending. -/
theorem splitEnding_cases (name : String) :
    splitEnding name = (name, none) ∨ ∃ stem ending, stem ≠ "" ∧ '.' ∉ ending.toList ∧
      name = stem ++ "." ++ ending ∧ splitEnding name = (stem, some ending) := by
  by_cases dot : '.' ∈ name.toList.reverse
  · obtain ⟨back, front, chars, dotless⟩ := List.eq_append_cons_of_mem dot
    have dotless' : '.' ∉ (String.ofList back.reverse).toList := by simpa using dotless
    have text : name = String.ofList front.reverse ++ "." ++ String.ofList back.reverse := by
      rw [← String.toList_inj, ← List.reverse_inj, chars]
      simp
    by_cases empty : String.ofList front.reverse = ""
    · rw [empty, String.empty_append] at text
      rw [text]
      exact .inl (splitEnding_of_start dotless')
    · refine .inr ⟨_, _, empty, dotless', text, ?_⟩
      conv => lhs; rw [text]
      exact splitEnding_append empty dotless'
  · have none : name.toList.reverse.dropWhile (· ≠ '.') = [] := by
      rw [List.dropWhile_eq_nil_iff]
      exact fun c member => decide_eq_true fun same => dot (same ▸ member)
    simp only [splitEnding, none, true_or]

/-! ## Another ending -/

/-- Behind the last part that is not trivial there is nothing, or a slash and trivial parts, which
stay trivial where the text is cut off. -/
theorem EndsIn.exists_text (endsIn : p.EndsIn before name) : ∃ front tail,
    p.text = front ++ (name ++ tail) ∧
      (∀ back, (Path.mk (front ++ back)).segments = before ++ (Path.mk back).segments) ∧
      (tail = "" ↔ p.segments.getLast? = some name) ∧
      ∀ part count, '/' ∉ part.toList → ∃ trailing, (∀ part ∈ trailing, isTrivial part) ∧
        (Path.mk (part ++ String.ofList (tail.toList.take count))).segments = part :: trailing := by
  obtain ⟨front, behind, joined⟩ := exists_front endsIn.slash_not_mem_before
  obtain ⟨trailing, parts, whole, trivial⟩ := endsIn
  have text : p.text = front ++ (ofSegments (name :: trailing)).text := by
    rw [← joined _ (by simp), ← parts, ofSegments_segments]
  cases trailing with
  | nil =>
    rw [ofSegments_singleton] at text
    refine ⟨front, "", by simpa using text, behind, by simp [parts], fun part count plain => ?_⟩
    exact ⟨[], by simp, by simpa using segments_of_plain plain⟩
  | cons first rest =>
    rw [ofSegments_cons name (by simp), String.append_assoc] at text
    have parts' : (ofSegments (first :: rest)).segments = first :: rest := by
      apply segments_ofSegments (by simp)
      intro part member
      apply slash_not_mem_of_mem_segments (p := p)
      rw [parts]
      exact List.mem_append_right _ (List.mem_cons_of_mem _ member)
    refine ⟨front, "/" ++ (ofSegments (first :: rest)).text, text, behind, ?_, ?_⟩
    · refine ⟨fun empty => by simp at empty, fun last => ?_⟩
      rw [parts, List.getLast?_append_cons, List.getLast?_cons_cons] at last
      have isTrivialName := trivial name (List.mem_of_getLast? last)
      simp [whole] at isTrivialName
    · intro part count plain
      cases count with
      | zero => exact ⟨[], by simp, by simpa using segments_of_plain plain⟩
      | succ count =>
        have slash : part ++ String.ofList (("/" ++ (ofSegments (first :: rest)).text).toList.take
            (count + 1)) = part ++ "/" ++
              String.ofList ((ofSegments (first :: rest)).text.toList.take count) := by
          simp [← String.toList_inj]
        refine ⟨_, fun part => isTrivial_of_mem_take (parts' ▸ trivial) count, ?_⟩
        rw [slash, segments_append_slash, segments_of_plain plain]
        rfl

/-- A stem with a dot is no part that vanishes. -/
theorem isTrivial_stem {stem : String} (nonempty : stem ≠ "") (ending : String) :
    isTrivial (stem ++ "." ++ ending) = false := by
  by_contra trivial
  have short : (stem ++ "." ++ ending).length ≤ 1 := by
    rw [Bool.not_eq_false, isTrivial, Bool.or_eq_true, decide_eq_true_eq,
      decide_eq_true_eq] at trivial
    rcases trivial with empty | dot
    · simp [empty]
    · rw [dot]
      decide
  have long : stem.length ≠ 0 := fun zero => nonempty (String.length_eq_zero_iff.mp zero)
  have dot : ".".length = 1 := by decide
  simp only [String.length_append, dot] at short
  omega

/-- The path without as many characters at its end. -/
def cut (p : Path) (count : Nat) : Path :=
  ⟨String.ofList (p.text.toList.take (p.text.length - count))⟩

theorem cut_zero (p : Path) : p.cut 0 = p := by
  rw [cut, Nat.sub_zero, ← String.length_toList, List.take_length, String.ofList_toList]

/-- Where as much is cut off as the ending is long, the stem and the dot are left. Of the ending
there is something left if the path goes on behind its last part. -/
theorem EndsIn.exists_cut {stem ending : String} (endsIn : p.EndsIn before (stem ++ "." ++ ending))
    (nonempty : stem ≠ "") (dotless : '.' ∉ ending.toList) :
    ∃ left, '.' ∉ left.toList ∧
      (p.cut ending.length).EndsIn before (stem ++ "." ++ left) ∧
      (left = "" ↔ ending = "" ∨ p.segments.getLast? = some (stem ++ "." ++ ending)) := by
  obtain ⟨front, tail, text, behind, atEnd, kept⟩ := endsIn.exists_text
  have plain := endsIn.slash_not_mem
  let left := String.ofList (ending.toList.take tail.length)
  let back := String.ofList (tail.toList.take (tail.length - ending.length))
  have cutText : p.cut ending.length = ⟨front ++ (stem ++ "." ++ left ++ back)⟩ := by
    have chars : p.text.toList = front.toList ++ stem.toList ++ ['.'] ++
        (ending.toList ++ tail.toList) := by
      simp [text]
    have count : p.text.length - ending.length =
        (front.toList ++ stem.toList ++ ['.']).length + tail.length := by
      rw [← String.length_toList, chars]
      simp only [List.length_append, String.length_toList]
      omega
    rw [cut, count, chars, List.take_length_add_append, List.take_append, String.length_toList]
    simp [← String.toList_inj, left, back]
  have sub : ∀ c ∈ left.toList, c ∈ ending.toList := fun c member =>
    List.mem_of_mem_take (by simpa [left] using member)
  have plainLeft : '/' ∉ (stem ++ "." ++ left).toList := by
    simp only [String.toList_append, List.mem_append, not_or] at plain ⊢
    exact ⟨plain.1, fun slash => plain.2 (sub _ slash)⟩
  obtain ⟨trailing, trivial, parts⟩ := kept _ (tail.length - ending.length) plainLeft
  refine ⟨left, fun dot => dotless (sub _ dot), ⟨trailing, ?_, ?_, trivial⟩, ?_⟩
  · rw [cutText, behind, parts]
  · exact isTrivial_stem nonempty left
  · rw [← atEnd, ← String.length_eq_zero_iff, ← String.length_eq_zero_iff,
      ← String.length_eq_zero_iff]
    simp only [left, String.length_ofList, List.length_take, String.length_toList]
    omega

/-- Only a dot behind a single dot makes two dots. -/
theorem eq_of_stem_eq_parent {stem ending : String} (nonempty : stem ≠ "")
    (parent : stem ++ "." ++ ending = "..") : stem = "." ∧ ending = "" := by
  have chars : stem.toList ++ '.' :: ending.toList = ['.', '.'] := by
    have text := congrArg String.toList parent
    simpa using text
  have some : stem.toList ≠ [] := fun empty => nonempty (String.toList_eq_nil_iff.mp empty)
  cases front : stem.toList with
  | nil => exact absurd front some
  | cons c cs =>
    rw [front, List.cons_append] at chars
    obtain ⟨rfl, rest⟩ := List.cons.inj chars
    cases cs with
    | nil =>
      rw [List.nil_append] at rest
      refine ⟨by rw [← String.toList_inj, front]; rfl, ?_⟩
      exact String.toList_eq_nil_iff.mp (List.cons.inj rest).2
    | cons d ds =>
      have length := congrArg List.length rest
      simp at length

theorem EndsIn.eq_of_getLast? (endsIn : p.EndsIn before name) {part : String}
    (last : p.segments.getLast? = some part) (whole : isTrivial part = false) : part = name := by
  obtain ⟨trailing, parts, -, trivial⟩ := endsIn
  rw [parts, List.getLast?_append_cons] at last
  cases trailing with
  | nil => exact (Option.some.inj last).symm
  | cons first rest =>
    rw [List.getLast?_cons_cons] at last
    simp [trivial part (List.mem_of_getLast? last)] at whole

theorem stem_ne_empty (whole : isTrivial name = false) : (splitEnding name).1 ≠ "" := by
  obtain whole' | ⟨stem, ending, nonempty, -, -, split⟩ := splitEnding_cases name
  · rw [whole']
    rintro rfl
    cases whole
  · rwa [split]

theorem slash_not_mem_stem (plain : '/' ∉ name.toList) : '/' ∉ (splitEnding name).1.toList := by
  obtain whole | ⟨stem, ending, -, -, text, split⟩ := splitEnding_cases name
  · rwa [whole]
  · rw [split]
    exact fun slash => plain (by simp [text, slash])

theorem EndsIn.replaceEnding (endsIn : p.EndsIn before name) (notParent : name ≠ "..")
    {extension : String} (plain : '/' ∉ extension.toList) :
    (p.replaceEnding ("." ++ extension)).EndsIn before
      ((splitEnding name).1 ++ "." ++ extension) := by
  have plainBefore := endsIn.slash_not_mem_before
  have plainStem := slash_not_mem_stem endsIn.slash_not_mem
  rw [Path.replaceEnding, endsIn.lastName?, if_neg notParent]
  dsimp only
  rw [← String.append_assoc]
  have nonempty := stem_ne_empty endsIn.isTrivial_eq_false
  refine endsIn_ofSegments plainBefore ?_ (isTrivial_stem nonempty extension)
  simp [plainStem, plain]

theorem withExtension_eq {extension : String} (nonempty : extension ≠ "") :
    p.withExtension extension =
      (p.cut (p.extension?.getD "").length).replaceEnding ("." ++ extension) := by
  rw [withExtension, cut, if_neg nonempty]

/-- A path without a file name gets no ending. -/
theorem withExtension_of_lastName?_eq_none {extension : String} (nonempty : extension ≠ "")
    (noName : p.lastName? = none) : p.withExtension extension = p := by
  have noEnding : p.extension? = none := by simp [Path.extension?, fileName?, noName]
  have zero : "".length = 0 := rfl
  rw [withExtension_eq nonempty, noEnding, Option.getD_none, zero, cut_zero, Path.replaceEnding,
    noName]

theorem EndsIn.extension? (endsIn : p.EndsIn before name) (notParent : name ≠ "..") :
    p.extension? = (splitEnding name).2 := by
  rw [Path.extension?, fileName?, endsIn.lastName?, if_neg notParent]
  rfl

/-- The path ends in a name of two dots and an ending without further dots. Without the ending, two
dots would be left, which are no name. -/
def LosesName (p : Path) : Prop :=
  ∃ ending : String, ending ≠ "" ∧ '.' ∉ ending.toList ∧
    p.segments.getLast? = some (".." ++ ending)

/-- The last part with another ending. -/
theorem EndsIn.withExtension (endsIn : p.EndsIn before name) (notParent : name ≠ "..")
    (keeps : ¬ p.LosesName) {extension : String} (nonempty : extension ≠ "")
    (plain : '/' ∉ extension.toList) :
    (p.withExtension extension).EndsIn before ((splitEnding name).1 ++ "." ++ extension) := by
  rw [withExtension_eq nonempty, endsIn.extension? notParent]
  obtain whole | ⟨stem, ending, some, dotless, rfl, split⟩ := splitEnding_cases name
  · have replaced := endsIn.replaceEnding notParent plain
    rw [whole] at replaced ⊢
    exact p.cut_zero.symm ▸ replaced
  · obtain ⟨left, dotlessLeft, cutEndsIn, nothing⟩ := endsIn.exists_cut some dotless
    have notParent' : stem ++ "." ++ left ≠ ".." := by
      intro parent
      obtain ⟨rfl, empty⟩ := eq_of_stem_eq_parent some parent
      rcases nothing.mp empty with rfl | last
      · exact notParent rfl
      · by_cases noEnding : ending = ""
        · exact notParent (by rw [noEnding]; rfl)
        · exact keeps ⟨ending, noEnding, dotless, last⟩
    have replaced := cutEndsIn.replaceEnding notParent' plain
    rw [splitEnding_append some dotlessLeft] at replaced
    rw [split]
    exact replaced

/-- Two dots are left of a name that is lost. -/
theorem EndsIn.withExtension_of_losesName (endsIn : p.EndsIn before name) (loses : p.LosesName)
    {extension : String} (nonempty : extension ≠ "") :
    (p.withExtension extension).EndsIn before ".." := by
  obtain ⟨ending, noEnding, dotless, last⟩ := loses
  have stem : ".." ++ ending = "." ++ "." ++ ending := rfl
  rw [stem] at last
  obtain rfl := endsIn.eq_of_getLast? last (isTrivial_stem (by decide) ending)
  have notParent : "." ++ "." ++ ending ≠ ".." := fun parent =>
    noEnding (eq_of_stem_eq_parent (by decide) parent).2
  obtain ⟨left, -, cutEndsIn, nothing⟩ := endsIn.exists_cut (by decide) dotless
  rw [nothing.mpr (.inr last)] at cutEndsIn
  have parent : "." ++ "." ++ "" = ".." := by decide
  rw [parent] at cutEndsIn
  rw [withExtension_eq nonempty, endsIn.extension? notParent,
    splitEnding_append (by decide) dotless, Option.getD_some, Path.replaceEnding,
    cutEndsIn.lastName?, if_pos rfl]
  exact cutEndsIn

/-- A stem with an ending is a file name. -/
theorem component?_stem (whole : isTrivial name = false) {extension : String}
    (nonempty : extension ≠ "") : component? ((splitEnding name).1 ++ "." ++ extension) =
      some (.normal ((splitEnding name).1 ++ "." ++ extension)) := by
  have stem := stem_ne_empty whole
  refine component?_eq_normal_iff.mpr ⟨rfl, isTrivial_stem stem extension, fun parent => ?_⟩
  exact nonempty (eq_of_stem_eq_parent stem parent).2

end Path

end Readback
