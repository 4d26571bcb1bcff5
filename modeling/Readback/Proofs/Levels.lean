import Readback.Proofs.Conversion
import Readback.Proofs.Instantiation
import Readback.Proofs.RoundTrip

/-!
# The universe levels of decoded terms

A value is decoded at an inductive type with levels, and the constructor at the root of the term has
these levels. A field of the inductive type itself is decoded at its own type, as the declaration
writes it, with the parameters filled in but not the levels. So the constructors of the type that
are found through such fields have the levels that the declaration writes.

## Main definitions

* `InductiveDecl.RecursiveField` — the fields of the inductive type itself
* `InductiveDecl.Carries`, `InductiveDecl.Reaches` — the constructors of the type and their levels

## Main statements

* `Inhabits.of_holds`, `Inhabits.exists_of_reaches` — what is found through fields of the type
* `decodeAt_carries_iff` — when all constructors have the levels of the type that was decoded at
-/

namespace Readback

variable {env : Environment} {fuel : Nat}

namespace InductiveDecl

/-- The parameters as variables, in the context of the parameters and of so many fields. -/
def ownParams (d : InductiveDecl) (fields : Nat) : List Term :=
  (List.range d.params.length).reverse.map fun i => .var (i + fields)

/-- The type of a field, written at some levels, is the inductive type applied to its own
parameters. -/
def RecursiveField (d : InductiveDecl) (index k : Nat) (levels : Levels) : Prop :=
  ∃ c, d.constructor? index = some c ∧
    c.fields[k]? = some ((Term.ind d.name levels).mkApp (d.ownParams k))

/-- The term is built by a constructor of the type at these levels. -/
def Carries (d : InductiveDecl) (t : Term) (levels : Levels) : Prop :=
  ∃ index, t.spine.1 = .ctor d.name index levels

/-- The term is built by a constructor of the type, and the second one is its argument for a field
whose type is the inductive type itself, written at the levels. -/
def Holds (d : InductiveDecl) (t : Term) (levels : Levels) (field : Term) : Prop :=
  ∃ index own args k, t.spine = (.ctor d.name index own, args) ∧ d.RecursiveField index k levels ∧
    args[d.params.length + k]? = some field

/-- The second term is found in the first one through fields of the inductive type itself. -/
def Reaches (d : InductiveDecl) : Term → Term → Prop :=
  Relation.ReflTransGen fun t field => ∃ levels, d.Holds t levels field

variable {d : InductiveDecl} {t : Term} {levels levels' : Levels}

theorem Carries.unique (carries : d.Carries t levels) (carries' : d.Carries t levels') :
    levels = levels' := by
  obtain ⟨index, head⟩ := carries
  obtain ⟨index', head'⟩ := carries'
  exact (Term.ctor.inj (head.symm.trans head')).2.2

/-- Filled in, the type of a recursive field is the type with its parameters. -/
theorem instantiate_ownParams {params : List Term} (before : List Term) (name : Name)
    (levels : Levels) (count : params.length = d.params.length) :
    ((Term.ind name levels).mkApp (d.ownParams before.length)).instantiate (params ++ before) =
      (Term.ind name levels).mkApp params := by
  by_cases empty : params ++ before = []
  · obtain ⟨rfl, rfl⟩ := List.append_eq_nil_iff.mp empty
    simp [ownParams, ← count]
  have own : (d.ownParams before.length).map (Term.subst (Term.instantiation (params ++ before))) =
      params := by
    rw [ownParams, List.map_map, ← count]
    refine Eq.trans ?_ (Term.map_instantiation_range params)
    apply List.map_congr_left
    intro i _
    rw [Function.comp_apply, Term.subst, Term.instantiation_append_of_le (Nat.le_add_left _ _),
      Nat.add_sub_cancel]
  rw [Term.instantiate_eq_subst _ empty, Term.subst_mkApp, own]
  rfl

end InductiveDecl

variable {d : InductiveDecl} {ty : InductiveType} {t s : Term} {levels : Levels}

/-- An inductive type with arguments is classified as itself, at its levels. -/
theorem Readable.eq_of_ofType_ind {name : Name} {args : List Term} {r : Readable}
    (found : env.inductive? name = some d)
    (classified : Readable.ofType env fuel ((Term.ind name levels).mkApp args) = .ok r) :
    r = .inductiveType ⟨name, levels, args.take d.params.length, Layout.of d⟩ := by
  obtain ⟨s, whnf, readOff⟩ := Readable.ofType_eq_ok_iff.mp classified
  have normal : Term.HeadNormal env ((Term.ind name levels).mkApp args) :=
    (Term.Rigid.inductiveType name levels).headNormal args
  obtain rfl := Except.ok.inj ((normal.whnfWithin fuel fuel).symm.trans whnf)
  have shape : ((Term.ind name levels).mkApp args).spine = (.ind name levels, args) :=
    Term.spine_mkApp rfl args
  cases readOff with
  | inductiveType spine found' =>
    cases shape.symm.trans spine
    cases found.symm.trans found'
    rfl
  | primitive spine => cases shape.symm.trans spine

theorem InductiveType.Declares.atLevels (declares : ty.Declares env d) (levels : Levels) :
    InductiveType.Declares env { ty with levels := levels } d :=
  ⟨declares.found, declares.params_length, declares.layout_eq, declares.supported⟩

theorem FieldsInhabit.exists_ofType {context types fields : List Term} {k : Nat} {type field : Term}
    (inhabitants : FieldsInhabit env fuel context types fields) (typed : types[k]? = some type)
    (held : fields[k]? = some field) :
    ∃ r, Readable.ofType env fuel (type.instantiate (context ++ fields.take k)) = .ok r ∧
      Inhabits env fuel r field := by
  induction k generalizing context types fields with
  | zero =>
    cases inhabitants with
    | nil => cases typed
    | cons classified inhabits rest =>
      cases typed
      cases held
      rw [List.take_zero, List.append_nil]
      exact ⟨_, classified, inhabits⟩
  | succ k ih =>
    cases inhabitants with
    | nil => cases typed
    | cons classified inhabits rest =>
      simpa using ih rest typed held

theorem Inhabits.carries (declares : ty.Declares env d)
    (inhabits : Inhabits env fuel (.inductiveType ty) t) : d.Carries t ty.levels := by
  cases inhabits with
  | constructor index fields declared inhabitants =>
    refine ⟨index, ?_⟩
    rw [Term.spine_mkApp rfl, Environment.name_of_inductive? declares.found]

/-- The argument for a recursive field inhabits the type at the levels of the field. -/
theorem Inhabits.of_holds (declares : ty.Declares env d)
    (inhabits : Inhabits env fuel (.inductiveType ty) t) (holds : d.Holds t levels s) :
    Inhabits env fuel (.inductiveType { ty with levels := levels }) s := by
  obtain ⟨index, own, args, k, shape, ⟨c, declared, typed⟩, held⟩ := holds
  cases inhabits with
  | @constructor _ index' c' fields declared' inhabitants =>
    rw [Term.spine_mkApp rfl] at shape
    obtain ⟨head, rfl⟩ := Prod.mk.inj shape
    obtain ⟨-, rfl, -⟩ := Term.ctor.inj head
    rw [declares.constructor?_eq] at declared'
    cases declared.symm.trans declared'
    have held : fields[k]? = some s := by
      rwa [← declares.params_length, List.getElem?_append_right (Nat.le_add_right _ _),
        Nat.add_sub_cancel_left] at held
    obtain ⟨r, classified, inhabits⟩ := inhabitants.exists_ofType typed held
    have bound : k < fields.length := (List.getElem?_eq_some_iff.mp held).1
    have before : (fields.take k).length = k := List.length_take_of_le (Nat.le_of_lt bound)
    have filled := InductiveDecl.instantiate_ownParams (fields.take k) d.name levels
      declares.params_length
    rw [before] at filled
    rw [filled, Environment.name_of_inductive? declares.found] at classified
    obtain rfl := Readable.eq_of_ofType_ind declares.found classified
    have all : ty.params.take d.params.length = ty.params :=
      List.take_of_length_le (Nat.le_of_eq declares.params_length)
    rwa [← declares.layout_eq, all] at inhabits

/-- Whatever is found through recursive fields inhabits the type at some levels. -/
theorem Inhabits.exists_of_reaches (declares : ty.Declares env d)
    (inhabits : Inhabits env fuel (.inductiveType ty) t) (reaches : d.Reaches t s) :
    ∃ levels, Inhabits env fuel (.inductiveType { ty with levels := levels }) s := by
  induction reaches with
  | refl => exact ⟨ty.levels, inhabits⟩
  | tail _ holds ih =>
    obtain ⟨levels, inhabits⟩ := ih
    obtain ⟨levels', holds⟩ := holds
    have inner := inhabits.of_holds (declares.atLevels levels) holds
    exact ⟨levels', inner⟩

/-- What is decoded at an inductive type carries its levels at the root, and below a recursive field
those that the declaration writes for the field. So all constructors that are found through such
fields carry the levels of the type exactly if the declaration writes these for every field on the
way. -/
theorem decodeAt_carries_iff {name : Name} {args : List Term} {v : Value}
    (found : env.inductive? name = some d)
    (decoded : decodeAt env fuel ((Term.ind name levels).mkApp args) v = .ok t) :
    d.Carries t levels ∧
    (∀ s written field, d.Reaches t s → d.Holds s written field → d.Carries field written) ∧
    ((∀ s, d.Reaches t s → d.Carries s levels) ↔
      ∀ s written field, d.Reaches t s → d.Holds s written field → written = levels) := by
  obtain ⟨r, classified, inhabits, -⟩ := decodeAt_eq_ok_iff.mp decoded
  have classified := Readable.ofType_of_ofResultType classified
  obtain rfl := Readable.eq_of_ofType_ind found classified
  obtain ⟨d', declares⟩ := Readable.declares_of_ofType classified
  obtain rfl := Option.some.inj (found.symm.trans declares.found)
  have below : ∀ s written field, d.Reaches t s → d.Holds s written field →
      d.Carries field written := by
    intro s written field reaches holds
    obtain ⟨own, inhabits⟩ := inhabits.exists_of_reaches declares reaches
    have declares := declares.atLevels own
    exact (inhabits.of_holds declares holds).carries (declares.atLevels written)
  refine ⟨inhabits.carries declares, below, ?_, ?_⟩
  · intro all s written field reaches holds
    have carries := all field (reaches.tail ⟨written, holds⟩)
    exact (below s written field reaches holds).unique carries
  · intro same s reaches
    -- the term at the end is the root, or the argument for a field of what is found before it
    rcases Relation.ReflTransGen.cases_tail reaches with rfl | ⟨before, reached, written, holds⟩
    · exact inhabits.carries declares
    · obtain rfl := same before written s reached holds
      exact below before written s reached holds

namespace Prelude

/-- The levels of a polymorphic list. -/
def listLevels : Levels := ⟨["u"]⟩

/-- A list with one number, whose constructors have these levels. -/
def singleton (name : Name) (outer inner : Levels) : Term :=
  (Term.ctor name 1 outer).mkApp
    [indTerm natName, nat 0, (Term.ctor name 0 inner).mkApp [indTerm natName]]

/-- The prelude declares the tail of a list without levels, and so the levels are lost. -/
theorem decodeAt_carries_lost :
    decodeAt environment defaultFuel ((Term.ind listName listLevels).mkApp [indTerm natName])
        (.block 0 [.immediate 0, .immediate 0]) = .ok (singleton listName listLevels .empty) ∧
      ∃ d, environment.inductive? listName = some d ∧
        ¬ ∀ s, d.Reaches (singleton listName listLevels .empty) s → d.Carries s listLevels := by
  refine ⟨rfl, _, rfl, fun all => ?_⟩
  obtain ⟨index, head⟩ := all _ (.single ⟨.empty, 1, _, _, 1, rfl, ⟨_, rfl, rfl⟩, rfl⟩)
  cases head

/-- The name of a list type whose declaration writes levels. -/
def levelledName : Name := ⟨"plist"⟩

/-- Lists whose tail is declared with levels. -/
def levelledList : InductiveDecl where
  name := levelledName
  params := [⟨⟨"A"⟩, smallTypes⟩]
  constructors := [⟨⟨"pnil"⟩, []⟩,
    ⟨⟨"pcons"⟩, [.var 0, (Term.ind levelledName listLevels).mkApp [.var 1]]⟩]

theorem levels_of_recursiveField {index k : Nat} {levels : Levels}
    (recursive : levelledList.RecursiveField index k levels) : levels = listLevels := by
  obtain ⟨c, declared, typed⟩ := recursive
  match index, k with
  | 0, k =>
    cases declared
    cases typed
  | 1, 0 =>
    cases declared
    cases typed
  | 1, 1 =>
    cases declared
    cases typed
    rfl
  | 1, k + 2 =>
    cases declared
    cases typed
  | index + 2, k => cases declared

/-- The prelude with these lists. -/
def levelled : Environment := environment.declare (.inductiveType levelledList)

/-- Where the declaration writes the levels that a value is decoded at, they are kept. -/
theorem decodeAt_carries_kept :
    levelled.inductive? levelledName = some levelledList ∧
      decodeAt levelled defaultFuel ((Term.ind levelledName listLevels).mkApp [indTerm natName])
        (.block 0 [.immediate 0, .immediate 0]) =
          .ok (singleton levelledName listLevels listLevels) ∧
      ∀ s, levelledList.Reaches (singleton levelledName listLevels listLevels) s →
        levelledList.Carries s listLevels := by
  have found : levelled.inductive? levelledName = some levelledList := rfl
  have decoded : decodeAt levelled defaultFuel
      ((Term.ind levelledName listLevels).mkApp [indTerm natName])
      (.block 0 [.immediate 0, .immediate 0]) =
        .ok (singleton levelledName listLevels listLevels) := rfl
  obtain ⟨-, -, kept⟩ := decodeAt_carries_iff found decoded
  refine ⟨found, decoded, kept.mpr ?_⟩
  rintro s written field - ⟨index, own, args, k, -, recursive, -⟩
  exact levels_of_recursiveField recursive

end Prelude

end Readback
