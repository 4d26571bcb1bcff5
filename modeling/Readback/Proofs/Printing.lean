import Readback.Proofs.Substitution
import Readback.Proofs.Token

/-!
# What printed terms show

A printed term shows a sketch of the term: the tree of its applications, function types, functions
and definitions with the names that they bind, and the texts of its leaves. It shows no more, since
a constant and a function parameter may be written alike, and no less: if the names are words and no
application is empty, terms of different sketches have different texts.

The notation can be read from the left without looking ahead. Where a term may start, the first
token tells binders from applications; where an application may go on, the character behind the
blank tells an argument from the rest of what stands around it.

## Main definitions

* `Sketch`, `Term.sketch` — what the text of a term shows
* `Sketch.chars` — the text of a sketch
* `Sketch.Proper` — the leaves and the names are tokens, and no application is empty
* `Term.hasWordNames` — the names in the text of a term are words

## Main statements

* `Term.toList_render` — the text of a term is the text of its sketch
* `Sketch.Proper.reads` — a sketch is told from what follows it
* `pretty_eq_iff_sketch_eq` — terms have the same text iff they have the same sketch
-/

namespace Readback

/-- What the text of a term shows of it. -/
inductive Sketch
  | leaf (text : String)
  | app (head : Sketch) (args : List Sketch)
  | pi (binder : Name) (domain codomain : Sketch)
  | lam (binder : Name) (domain body : Sketch)
  | letIn (binder : Name) (value type body : Sketch)
  deriving Repr, Inhabited

namespace Sketch

/-- Sets the text of a compound sketch in parentheses where it stands inside an application. -/
def enclose (nested : Bool) (cs : List Char) : List Char :=
  if nested then '(' :: (cs ++ [')']) else cs

/-- A word of the notation and the name that it binds, with the text that starts with the type. -/
def binding (keyword : String) (binder : Name) (rest : List Char) : List Char :=
  keyword.toList ++ ' ' :: (binder.text.toList ++ ' ' :: ':' :: ' ' :: rest)

mutual

/-- The text of a sketch, `nested` when it stands as head or argument of an application. -/
def chars (nested : Bool) : Sketch → List Char
  | leaf text => text.toList
  | app head args => enclose nested (chars true head ++ charsAll args)
  | pi x domain codomain =>
    enclose nested (binding "forall" x (chars false domain ++ ',' :: ' ' :: chars false codomain))
  | lam x domain body =>
    enclose nested
      (binding "fun" x (chars false domain ++ ' ' :: '=' :: '>' :: ' ' :: chars false body))
  | letIn x value type body =>
    enclose nested
      (binding "let" x (chars false type ++ ' ' :: ':' :: '=' :: ' ' ::
        (chars false value ++ ' ' :: 'i' :: 'n' :: ' ' :: chars false body)))

/-- The arguments of an application, each after a blank. -/
def charsAll : List Sketch → List Char
  | [] => []
  | arg :: args => ' ' :: (chars true arg ++ charsAll args)

end

section Chars

variable {x : Name}

theorem chars_pi (domain codomain : Sketch) : (pi x domain codomain).chars false =
    binding "forall" x (domain.chars false ++ ',' :: ' ' :: codomain.chars false) := rfl

theorem chars_lam (domain body : Sketch) : (lam x domain body).chars false =
    binding "fun" x (domain.chars false ++ ' ' :: '=' :: '>' :: ' ' :: body.chars false) := rfl

theorem chars_letIn (value type body : Sketch) : (letIn x value type body).chars false =
    binding "let" x (type.chars false ++ ' ' :: ':' :: '=' :: ' ' ::
      (value.chars false ++ ' ' :: 'i' :: 'n' :: ' ' :: body.chars false)) := rfl

end Chars

/-- The leaves and the bound names are tokens, and no application is empty. -/
inductive Proper : Sketch → Prop
  | leaf {text : String} (isLeaf : IsLeafText text.toList) : Proper (leaf text)
  | app {head : Sketch} {args : List Sketch} (properHead : Proper head) (some : args ≠ [])
    (properArgs : ∀ arg ∈ args, Proper arg) : Proper (app head args)
  | pi {x : Name} {domain codomain : Sketch} (binder : IsToken x.text.toList)
    (properDomain : Proper domain) (properCodomain : Proper codomain) :
    Proper (pi x domain codomain)
  | lam {x : Name} {domain body : Sketch} (binder : IsToken x.text.toList)
    (properDomain : Proper domain) (properBody : Proper body) : Proper (lam x domain body)
  | letIn {x : Name} {value type body : Sketch} (binder : IsToken x.text.toList)
    (properValue : Proper value) (properType : Proper type) (properBody : Proper body) :
    Proper (letIn x value type body)

/-! ## What may follow a sketch -/

/-- What may follow a sketch that stands on its own. -/
inductive Closes : List Char → Prop
  | nil : Closes []
  | comma (rest : List Char) : Closes (',' :: rest)
  | parenthesis (rest : List Char) : Closes (')' :: rest)
  | arrow (rest : List Char) : Closes (' ' :: '=' :: rest)
  | equals (rest : List Char) : Closes (' ' :: ':' :: rest)
  | inBody (rest : List Char) : Closes (' ' :: 'i' :: 'n' :: ' ' :: rest)

theorem Closes.stops {rest : List Char} (closes : Closes rest) : Stops rest := by
  cases closes with
  | nil => exact stops_nil
  | _ => exact stops_cons (by decide) _

/-- The text starts with the head of an application or with a leaf. -/
def Opens (cs : List Char) : Prop :=
  cs.head? = some '(' ∨ leadingToken cs ≠ [] ∧ ∀ k ∈ keywords, leadingToken cs ≠ k.toList

theorem opens_parenthesis (cs : List Char) : Opens ('(' :: cs) := .inl rfl

theorem opens_leaf {text rest : List Char} (isLeaf : IsLeafText text) (stops : Stops rest) :
    Opens (text ++ rest) := by
  obtain ⟨token, levels, isToken, isLevels, rfl⟩ := isLeaf
  rw [List.append_assoc, Opens, isToken.leadingToken_append (isLevels.breaks stops)]
  exact .inr ⟨isToken.nonempty, isToken.notKeyword⟩

theorem leadingToken_keyword {k : String} (listed : k ∈ keywords) (rest : List Char) :
    leadingToken (k.toList ++ ' ' :: rest) = k.toList := by
  have solid : ∀ k ∈ keywords, k.toList.all (! isDelimiter ·) := by decide
  exact takeWhile_append_of_endsBefore (List.all_eq_true.mp (solid k listed)) (breaks_cons rfl rest)

theorem not_opens_keyword {k : String} (listed : k ∈ keywords) (rest : List Char) :
    ¬ Opens (k.toList ++ ' ' :: rest) := by
  have letter : ∀ k ∈ keywords, k.toList ≠ [] ∧ k.toList.head? ≠ some '(' := by decide
  rintro (parenthesis | ⟨-, other⟩)
  · obtain ⟨nonempty, noParenthesis⟩ := letter k listed
    rw [List.head?_append_of_ne_nil _ nonempty] at parenthesis
    exact noParenthesis parenthesis
  · exact other k listed (leadingToken_keyword listed rest)

/-- What follows a sketch is told from a further argument. -/
theorem not_opens_of_closes {cs : List Char} (closes : Closes (' ' :: cs)) : ¬ Opens cs := by
  cases closes with
  | inBody rest => exact not_opens_keyword (k := "in") (by decide) rest
  | _ => simp [Opens, leadingToken, isDelimiter, delimiters]

/-! ## Reading a sketch -/

section Chars

variable {s t head head' : Sketch} {args args' : List Sketch} {r u : List Char}

/-- The word that a sketch starts with if it binds a name. -/
def keyword? : Sketch → Option String
  | pi .. => some "forall"
  | lam .. => some "fun"
  | letIn .. => some "let"
  | _ => none

theorem keyword?_mem {k : String} (found : s.keyword? = some k) : k ∈ keywords := by
  cases s <;> cases found <;> decide

theorem chars_of_keyword? {k : String} (found : s.keyword? = some k) :
    ∃ rest, s.chars false = k.toList ++ ' ' :: rest := by
  cases s <;> cases found <;> exact ⟨_, rfl⟩

/-- Only leaves stand inside an application without parentheses. -/
theorem eq_leaf_or_chars_true (s : Sketch) :
    (∃ text, s = leaf text) ∨ s.chars true = '(' :: (s.chars false ++ [')']) := by
  cases s with
  | leaf text => exact .inl ⟨text, rfl⟩
  | _ => exact .inr rfl

theorem Proper.opens_chars_true (proper : Proper s) (stops : Stops r) :
    Opens (s.chars true ++ r) := by
  obtain ⟨text, rfl⟩ | compound := s.eq_leaf_or_chars_true
  · cases proper with
    | leaf isLeaf => exact opens_leaf isLeaf stops
  · rw [compound]
    exact opens_parenthesis _

theorem stops_charsAll (args : List Sketch) (closes : Closes r) : Stops (charsAll args ++ r) := by
  cases args with
  | nil => exact closes.stops
  | cons arg args => exact stops_cons (by decide) _

theorem Proper.opens_of_keyword? (proper : Proper s) (none : s.keyword? = none)
    (closes : Closes r) : Opens (s.chars false ++ r) := by
  cases proper with
  | leaf isLeaf => exact opens_leaf isLeaf closes.stops
  | @app head args properHead some properArgs =>
    have start : (Sketch.app head args).chars false ++ r =
        head.chars true ++ (charsAll args ++ r) := List.append_assoc ..
    rw [start]
    exact properHead.opens_chars_true (stops_charsAll args closes)
  | _ => cases none

/-- The text of a sketch shows whether it binds a name and how. -/
theorem keyword?_eq (proper : Proper s) (proper' : Proper t) (closes : Closes r)
    (closes' : Closes u) (same : s.chars false ++ r = t.chars false ++ u) :
    s.keyword? = t.keyword? := by
  have shown : ∀ {s : Sketch} {k : String} {r : List Char}, s.keyword? = some k →
      ∃ rest, s.chars false ++ r = k.toList ++ ' ' :: rest := by
    intro s k r found
    obtain ⟨rest, shape⟩ := chars_of_keyword? found
    exact ⟨rest ++ r, by rw [shape, List.append_assoc, List.cons_append]⟩
  cases binds : s.keyword? with
  | none =>
    cases binds' : t.keyword? with
    | none => rfl
    | some k' =>
      obtain ⟨rest', shape'⟩ := shown (r := u) binds'
      have opens := proper.opens_of_keyword? binds closes
      rw [same, shape'] at opens
      exact absurd opens (not_opens_keyword (keyword?_mem binds') rest')
  | some k =>
    obtain ⟨rest, shape⟩ := shown (r := r) binds
    cases binds' : t.keyword? with
    | none =>
      have opens := proper'.opens_of_keyword? binds' closes'
      rw [← same, shape] at opens
      exact absurd opens (not_opens_keyword (keyword?_mem binds) rest)
    | some k' =>
      obtain ⟨rest', shape'⟩ := shown (r := u) binds'
      have words : k.toList = k'.toList := by
        rw [← leadingToken_keyword (keyword?_mem binds) rest, ← shape, same, shape',
          leadingToken_keyword (keyword?_mem binds') rest']
      rw [String.toList_inj.mp words]

/-- The sketch on its own is told from what follows it. -/
def Reads (s : Sketch) : Prop :=
  ∀ ⦃t r u⦄, Proper t → Closes r → Closes u → s.chars false ++ r = t.chars false ++ u →
    s = t ∧ r = u

/-- The sketch inside an application is told from what follows it. -/
def ReadsNested (s : Sketch) : Prop :=
  ∀ ⦃t r u⦄, Proper t → Stops r → Stops u → s.chars true ++ r = t.chars true ++ u → s = t ∧ r = u

theorem leaf_ne_parenthesis {text : List Char} (isLeaf : IsLeafText text) (stops : Stops r) :
    text ++ r ≠ '(' :: u := by
  obtain ⟨token, levels, isToken, isLevels, rfl⟩ := isLeaf
  intro same
  rw [List.append_assoc] at same
  apply isToken.nonempty
  rw [← isToken.leadingToken_append (isLevels.breaks stops), same]
  rfl

theorem readsNested_leaf {text : String} (isLeaf : IsLeafText text.toList) :
    ReadsNested (leaf text) := by
  intro t r u proper' stops stops' same
  obtain ⟨text', rfl⟩ | compound' := t.eq_leaf_or_chars_true
  · cases proper' with
    | leaf isLeaf' =>
      obtain ⟨texts, rest⟩ := isLeaf.append_inj isLeaf' stops stops' same
      exact ⟨congrArg leaf (String.toList_inj.mp texts), rest⟩
  · rw [compound'] at same
    exact absurd same (leaf_ne_parenthesis isLeaf stops)

/-- Parentheses close what stands between them. -/
theorem Proper.readsNested (proper : Proper s) (reads : Reads s) : ReadsNested s := by
  obtain ⟨text, rfl⟩ | compound := s.eq_leaf_or_chars_true
  · cases proper with
    | leaf isLeaf => exact readsNested_leaf isLeaf
  · intro t r u proper' stops stops' same
    rw [compound] at same
    obtain ⟨text', rfl⟩ | compound' := t.eq_leaf_or_chars_true
    · cases proper' with
      | leaf isLeaf' => exact absurd same.symm (leaf_ne_parenthesis isLeaf' stops')
    · rw [compound'] at same
      have inside : s.chars false ++ ')' :: r = t.chars false ++ ')' :: u := by simpa using same
      obtain ⟨rfl, rest⟩ := reads proper' (.parenthesis r) (.parenthesis u) inside
      exact ⟨rfl, List.tail_eq_of_cons_eq rest⟩

/-- The arguments of an application are told from each other and from what follows them. -/
theorem charsAll_append_inj (reads : ∀ arg ∈ args, ReadsNested arg)
    (proper : ∀ arg ∈ args, Proper arg) (proper' : ∀ arg ∈ args', Proper arg) (closes : Closes r)
    (closes' : Closes u) (same : charsAll args ++ r = charsAll args' ++ u) :
    args = args' ∧ r = u := by
  -- a further argument on one side only would be what closes the application on the other side
  have stops : ∀ {arg : Sketch} {args : List Sketch} {r u : List Char}, Proper arg → Closes r →
      Closes u → u ≠ ' ' :: (arg.chars true ++ (charsAll args ++ r)) := by
    rintro arg args r u properArg closes closes' rfl
    exact not_opens_of_closes closes' (properArg.opens_chars_true (stops_charsAll args closes))
  induction args generalizing args' with
  | nil =>
    cases args' with
    | nil => exact ⟨rfl, same⟩
    | cons arg' args' =>
      simp only [charsAll, List.nil_append, List.cons_append, List.append_assoc] at same
      exact absurd same (stops (proper' arg' List.mem_cons_self) closes' closes)
  | cons arg args ih =>
    obtain ⟨readsArg, reads⟩ := List.forall_mem_cons.mp reads
    obtain ⟨properArg, proper⟩ := List.forall_mem_cons.mp proper
    simp only [charsAll, List.cons_append, List.append_assoc] at same
    cases args' with
    | nil => exact absurd same.symm (stops properArg closes closes')
    | cons arg' args' =>
      obtain ⟨properArg', properArgs'⟩ := List.forall_mem_cons.mp proper'
      simp only [charsAll, List.cons_append, List.append_assoc, List.cons.injEq, true_and] at same
      obtain ⟨rfl, behind⟩ :=
        readsArg properArg' (stops_charsAll args closes) (stops_charsAll args' closes') same
      obtain ⟨rfl, rest⟩ := ih reads proper properArgs' behind
      exact ⟨rfl, rest⟩

/-- An application is told from what follows it. -/
theorem application_inj (readsHead : ReadsNested head) (reads : ∀ arg ∈ args, ReadsNested arg)
    (proper : ∀ arg ∈ args, Proper arg) (properHead' : Proper head')
    (proper' : ∀ arg ∈ args', Proper arg) (closes : Closes r) (closes' : Closes u)
    (same : head.chars true ++ (charsAll args ++ r) = head'.chars true ++ (charsAll args' ++ u)) :
    head = head' ∧ args = args' ∧ r = u := by
  obtain ⟨heads, rest⟩ :=
    readsHead properHead' (stops_charsAll args closes) (stops_charsAll args' closes') same
  exact ⟨heads, charsAll_append_inj reads proper proper' closes closes' rest⟩

/-- A bound name is told from its type. -/
theorem binding_inj {k : String} {x y : Name} (binder : IsToken x.text.toList)
    (binder' : IsToken y.text.toList) (same : binding k x r = binding k y u) : x = y ∧ r = u := by
  have behind := (List.cons.inj (List.append_cancel_left same)).2
  obtain ⟨texts, rest⟩ :=
    binder.append_inj binder' (breaks_cons rfl _) (breaks_cons rfl _) behind
  refine ⟨?_, by simpa using rest⟩
  exact congrArg Name.mk (String.toList_inj.mp texts)

theorem binding_append {k : String} {x : Name} : binding k x r ++ u = binding k x (r ++ u) := by
  simp [binding]

/-- A sketch is told from what follows it. -/
theorem Proper.reads (proper : Proper s) : Reads s := by
  induction proper with
  | @leaf text isLeaf =>
    intro t r u proper' closes closes' same
    have forms := keyword?_eq (.leaf isLeaf) proper' closes closes' same
    cases proper' with
    | leaf isLeaf' => exact readsNested_leaf isLeaf (.leaf isLeaf') closes.stops closes'.stops same
    | @app head' args' properHead' some' properArgs' =>
      have parts : (Sketch.leaf text).chars true ++ (charsAll [] ++ r) =
          head'.chars true ++ (charsAll args' ++ u) := same.trans (List.append_assoc ..)
      obtain ⟨-, none, -⟩ := application_inj (readsNested_leaf isLeaf) (by simp) (by simp)
        properHead' properArgs' closes closes' parts
      exact absurd none.symm some'
    | _ => simp [keyword?] at forms
  | @app head args properHead some properArgs ihHead ihArgs =>
    intro t r u proper' closes closes' same
    have forms := keyword?_eq (.app properHead some properArgs) proper' closes closes' same
    have readsHead := properHead.readsNested ihHead
    have readsArgs : ∀ arg ∈ args, ReadsNested arg :=
      fun arg member => (properArgs arg member).readsNested (ihArgs arg member)
    have parts : head.chars true ++ (charsAll args ++ r) = t.chars false ++ u :=
      (List.append_assoc ..).symm.trans same
    cases proper' with
    | @leaf text' isLeaf' =>
      have parts' : head.chars true ++ (charsAll args ++ r) =
          (Sketch.leaf text').chars true ++ (charsAll [] ++ u) := parts
      obtain ⟨-, none, -⟩ := application_inj readsHead readsArgs properArgs (.leaf isLeaf')
        (by simp) closes closes' parts'
      exact absurd none some
    | app properHead' some' properArgs' =>
      obtain ⟨rfl, rfl, rest⟩ := application_inj readsHead readsArgs properArgs properHead'
        properArgs' closes closes' (parts.trans (List.append_assoc ..))
      exact ⟨rfl, rest⟩
    | _ => simp [keyword?] at forms
  | @pi x domain codomain binder properDomain properCodomain ihDomain ihCodomain =>
    intro t r u proper' closes closes' same
    have forms := keyword?_eq (.pi binder properDomain properCodomain) proper' closes closes' same
    cases proper' with
    | @pi y domain' codomain' binder' properDomain' properCodomain' =>
      simp only [chars_pi, binding_append, List.append_assoc, List.cons_append] at same
      obtain ⟨rfl, fromDomain⟩ := binding_inj binder binder' same
      obtain ⟨rfl, comma⟩ := ihDomain properDomain' (.comma _) (.comma _) fromDomain
      simp only [List.cons.injEq, true_and] at comma
      obtain ⟨rfl, rest⟩ := ihCodomain properCodomain' closes closes' comma
      exact ⟨rfl, rest⟩
    | _ => simp [keyword?] at forms
  | @lam x domain body binder properDomain properBody ihDomain ihBody =>
    intro t r u proper' closes closes' same
    have forms := keyword?_eq (.lam binder properDomain properBody) proper' closes closes' same
    cases proper' with
    | @lam y domain' body' binder' properDomain' properBody' =>
      simp only [chars_lam, binding_append, List.append_assoc, List.cons_append] at same
      obtain ⟨rfl, fromDomain⟩ := binding_inj binder binder' same
      obtain ⟨rfl, arrow⟩ := ihDomain properDomain' (.arrow _) (.arrow _) fromDomain
      simp only [List.cons.injEq, true_and] at arrow
      obtain ⟨rfl, rest⟩ := ihBody properBody' closes closes' arrow
      exact ⟨rfl, rest⟩
    | _ => simp [keyword?] at forms
  | @letIn x value type body binder properValue properType properBody ihValue ihType ihBody =>
    intro t r u proper' closes closes' same
    have forms :=
      keyword?_eq (.letIn binder properValue properType properBody) proper' closes closes' same
    cases proper' with
    | @letIn y value' type' body' binder' properValue' properType' properBody' =>
      simp only [chars_letIn, binding_append, List.append_assoc, List.cons_append] at same
      obtain ⟨rfl, fromType⟩ := binding_inj binder binder' same
      obtain ⟨rfl, equals⟩ := ihType properType' (.equals _) (.equals _) fromType
      simp only [List.cons.injEq, true_and] at equals
      obtain ⟨rfl, inBody⟩ := ihValue properValue' (.inBody _) (.inBody _) equals
      simp only [List.cons.injEq, true_and] at inBody
      obtain ⟨rfl, rest⟩ := ihBody properBody' closes closes' inBody
      exact ⟨rfl, rest⟩
    | _ => simp [keyword?] at forms

/-- Sketches on their own have different texts. -/
theorem Proper.chars_inj (proper : Proper s) (proper' : Proper t)
    (same : s.chars false = t.chars false) : s = t := by
  have atEnd : s.chars false ++ [] = t.chars false ++ [] := by rw [same]
  exact (proper.reads proper' .nil .nil atEnd).1

end Chars

end Sketch

/-! ## The text of a term -/

namespace Term

variable {env : Environment}

mutual

/-- What the text of the term shows. -/
def sketch (env : Environment) : Term → Sketch
  | app head args => .app (sketch env head) (sketchAll env args)
  | pi x domain codomain => .pi x (sketch env domain) (sketch env codomain)
  | lam x domain body => .lam x (sketch env domain) (sketch env body)
  | letIn x value type body => .letIn x (sketch env value) (sketch env type) (sketch env body)
  | t => .leaf (t.render env false)

/-- What the texts of the terms show. -/
def sketchAll (env : Environment) : List Term → List Sketch
  | [] => []
  | t :: ts => sketch env t :: sketchAll env ts

end

theorem sketchAll_eq_map (ts : List Term) : sketchAll env ts = ts.map (sketch env) := by
  induction ts with
  | nil => rfl
  | cons t ts ih => rw [sketchAll, ih, List.map_cons]

theorem toList_parenthesize (nested : Bool) (text : String) :
    (parenthesize nested text).toList = Sketch.enclose nested text.toList := by
  cases nested <;> simp [parenthesize, Sketch.enclose]

/-- The text of a term is the text of its sketch. -/
theorem toList_render (t : Term) (nested : Bool) :
    (t.render env nested).toList = (t.sketch env).chars nested := by
  induction t using Term.induction generalizing nested with
  | app head args ihHead ihArgs =>
    have arguments : (renderArgs env args).toList = Sketch.charsAll (sketchAll env args) := by
      induction args with
      | nil => rfl
      | cons arg args ih =>
        obtain ⟨ihArg, ihRest⟩ := List.forall_mem_cons.mp ihArgs
        simp [renderArgs, sketchAll, Sketch.charsAll, ihArg, ih ihRest]
    simp [render, sketch, Sketch.chars, toList_parenthesize, ihHead, arguments]
  | pi x domain codomain ihDomain ihCodomain =>
    simp [render, sketch, Sketch.chars, Sketch.binding, toList_parenthesize, ihDomain, ihCodomain]
  | lam x domain body ihDomain ihBody =>
    simp [render, sketch, Sketch.chars, Sketch.binding, toList_parenthesize, ihDomain, ihBody]
  | letIn x value type body ihValue ihType ihBody =>
    simp [render, sketch, Sketch.chars, Sketch.binding, toList_parenthesize, ihValue, ihType,
      ihBody]
  | _ => simp only [sketch, Sketch.chars, render]

mutual

/-- Whether the names in the text of the term are words. -/
def hasWordNames (env : Environment) : Term → Bool
  | const name levels | ind name levels => isWord name.text && levels.levels.all isWord
  | ctor type index levels =>
    (match env.constructor? type index with
      | some c => isWord c.name.text
      | none => isWord type.text) && levels.levels.all isWord
  | app head args => hasWordNames env head && allHaveWordNames env args
  | pi x domain codomain | lam x domain codomain =>
    isWord x.text && hasWordNames env domain && hasWordNames env codomain
  | letIn x value type body =>
    isWord x.text && hasWordNames env value && hasWordNames env type && hasWordNames env body
  | _ => true

/-- Whether the names in the texts of the terms are words. -/
def allHaveWordNames (env : Environment) : List Term → Bool
  | [] => true
  | t :: ts => hasWordNames env t && allHaveWordNames env ts

end

theorem allHaveWordNames_iff {ts : List Term} :
    allHaveWordNames env ts ↔ ∀ t ∈ ts, t.hasWordNames env := by
  induction ts with
  | nil => simp [allHaveWordNames]
  | cons t ts ih => simp [allHaveWordNames, ih]

/-- Words with levels are leaves. -/
theorem isLeafText_named {text : String} {levels : Levels} (isToken : IsToken text.toList)
    (words : levels.levels.all isWord) : IsLeafText (text ++ levels.render).toList := by
  have each : ∀ level ∈ levels.levels, isWord level := List.all_eq_true.mp words
  exact ⟨_, _, isToken, Levels.isLevels_render each, String.toList_append⟩

/-- Terms in spine form with words for names have sketches that can be read off their texts. -/
theorem proper_sketch (t : Term) (spine : t.inSpineForm) (words : t.hasWordNames env) :
    (t.sketch env).Proper := by
  induction t using Term.induction with
  | var i =>
    have text : ((var i).render env false).toList = [] ++ '#' :: Nat.toDigits 10 i := by
      rw [← Nat.toList_repr]
      exact String.toList_append
    exact .leaf (text ▸ (isToken_numbered (by simp) i).isLeafText)
  | sort u => exact .leaf u.isLeafText_render
  | const name levels | ind name levels =>
    obtain ⟨word, levelWords⟩ := Bool.and_eq_true_iff.mp words
    exact .leaf (isLeafText_named (isToken_of_isWord word) levelWords)
  | ctor type index levels =>
    obtain ⟨word, levelWords⟩ := Bool.and_eq_true_iff.mp words
    refine .leaf (isLeafText_named ?_ levelWords)
    unfold constructorText
    cases found : env.constructor? type index with
    | some c =>
      rw [found] at word
      exact isToken_of_isWord word
    | none =>
      rw [found] at word
      have text : (type.text ++ "#" ++ toString index).toList =
          type.text.toList ++ '#' :: Nat.toDigits 10 index := by
        rw [← Nat.toList_repr]
        simp
      exact text ▸ isToken_numbered (fun c => isWordChar_of_isWord word) index
  | app head args ihHead ihArgs =>
    obtain ⟨-, some, spineHead, spineArgs⟩ := inSpineForm_app.1 spine
    rw [hasWordNames, Bool.and_eq_true, allHaveWordNames_iff] at words
    rw [sketch, sketchAll_eq_map]
    refine .app (ihHead spineHead words.1) (by simpa using some) fun arg member => ?_
    obtain ⟨t, listed, rfl⟩ := List.mem_map.mp member
    exact ihArgs t listed (spineArgs t listed) (words.2 t listed)
  | pi x domain codomain ihDomain ihCodomain =>
    simp only [inSpineForm, hasWordNames, Bool.and_eq_true] at spine words
    exact .pi (isToken_of_isWord words.1.1) (ihDomain spine.1 words.1.2)
      (ihCodomain spine.2 words.2)
  | lam x domain body ihDomain ihBody =>
    simp only [inSpineForm, hasWordNames, Bool.and_eq_true] at spine words
    exact .lam (isToken_of_isWord words.1.1) (ihDomain spine.1 words.1.2) (ihBody spine.2 words.2)
  | letIn x value type body ihValue ihType ihBody =>
    simp only [inSpineForm, hasWordNames, Bool.and_eq_true] at spine words
    exact .letIn (isToken_of_isWord words.1.1.1) (ihValue spine.1.1 words.1.1.2)
      (ihType spine.1.2 words.1.2) (ihBody spine.2 words.2)
  | int n => exact .leaf (isToken_int n).isLeafText
  | float x => exact .leaf (isToken_float x).isLeafText

end Term

/-- Terms in spine form with words for names have the same text exactly if they have the same tree
of applications, function types, functions and definitions, bind the same names, and have the same
texts at their leaves. -/
theorem pretty_eq_iff_sketch_eq {env : Environment} {s t : Term} (spine : s.inSpineForm)
    (spine' : t.inSpineForm) (words : s.hasWordNames env) (words' : t.hasWordNames env) :
    env.pretty s = env.pretty t ↔ s.sketch env = t.sketch env := by
  rw [Environment.pretty, Environment.pretty, ← String.toList_inj, Term.toList_render,
    Term.toList_render]
  constructor
  · exact (s.proper_sketch spine words).chars_inj (t.proper_sketch spine' words')
  · exact fun same => by rw [same]

/-- A function type with a function type as domain, which has no parentheses around it. -/
def takesFunction : Term :=
  .pi ⟨"f"⟩ (.pi ⟨"x"⟩ (.ind ⟨"nat"⟩ .empty) (.ind ⟨"nat"⟩ .empty)) (.ind ⟨"nat"⟩ .empty)

/-- A function type with a function type as codomain. -/
def givesFunction : Term :=
  .pi ⟨"f"⟩ (.ind ⟨"nat"⟩ .empty) (.pi ⟨"x"⟩ (.ind ⟨"nat"⟩ .empty) (.ind ⟨"nat"⟩ .empty))

/-- The one is printed as `forall f : forall x : nat, nat, nat` and the other one as
`forall f : nat, forall x : nat, nat`. -/
theorem pretty_eq_iff_sketch_eq_takesFunction :
    (takesFunction.inSpineForm ∧ givesFunction.inSpineForm ∧ takesFunction.hasWordNames {} ∧
      givesFunction.hasWordNames {}) ∧
    Environment.pretty {} takesFunction ≠ Environment.pretty {} givesFunction := by
  refine ⟨by decide, fun same => ?_⟩
  have sketches := (pretty_eq_iff_sketch_eq (by decide) (by decide) (by decide) (by decide)).mp same
  cases sketches

end Readback
