import Readback.Proofs.Budget
import Readback.Proofs.Classification
import Readback.Proofs.Layout

/-!
# Reducing types before reading them

A type whose head is an inductive type is read at once. Reducing it first would give the same answer
and the same errors, so that what a term stands for is a matter of its normal form. The term of a
readable type is this normal form without its indices, and is read as the same type without any
reduction.

## Main definitions

* `Readable.ofNormal`, `Readable.ofReduced` — reading a normal form, and reducing before reading
* `Term.dropIndices` — a type without the arguments behind the parameters

## Main statements

* `Readable.ofType_reduces_first` — reading a type is reading its normal form
* `Prelude.toTerm_ne_dropIndices` — normal forms that are not in spine form are not given back
-/

namespace Readback

variable {env : Environment} {fuel : Nat} {type t n : Term} {d : InductiveDecl} {r : Readable}

/-! ## Normal forms -/

theorem Layout.isSupported_of_iff (d : InductiveDecl) :
    (of d).isSupported = true ↔ d.blocks.length ≤ 251 := by
  rw [← (forall₂_blocks d).length_eq]
  exact decide_eq_true_iff

theorem Layout.ofSupported_eq_ite (d : InductiveDecl) :
    ofSupported d =
      if 251 < d.blocks.length then .error (.unsupportedLayout d.name d.blocks.length 251)
      else .ok (of d) := by
  have count : (of d).blocks.length = d.blocks.length := (forall₂_blocks d).length_eq
  have tags : maxBlocks = 251 := rfl
  simp only [ofSupported, isSupported_of_iff, count, tags]
  by_cases many : 251 < d.blocks.length
  · rw [if_neg (Nat.not_le.mpr many), if_pos many]
  · rw [if_pos (Nat.le_of_not_lt many), if_neg many]

/-- What a type turns out to be, with its constructors laid out. -/
def TypeHead.readable : TypeHead → Except TypeError Readable
  | .primitive use => .ok (.primitive use)
  | .inductiveType d levels params => do
    return .inductiveType ⟨d.name, levels, params, ← Layout.ofSupported d⟩

namespace Readable

/-- The readable type that a term in normal form stands for by its head. An error tells of the type
that was reduced, except that too few parameters are those of the normal form. -/
def ofNormal (env : Environment) (type t : Term) : Except TypeError Readable :=
  match t.spine with
  | (.ind name levels, args) =>
    match env.inductive? name with
    | none => .error (.unknownInductive name)
    | some d =>
      if args.length < d.params.length then
        .error (.missingParameters (env.pretty t) name d.params.length args.length)
      else if 251 < d.blocks.length then .error (.unsupportedLayout name d.blocks.length 251)
      else .ok (.inductiveType ⟨name, levels, args.take d.params.length, Layout.of d⟩)
  | (.const name levels, args) =>
    match env.primitive? name with
    | none => .error (.notReadable (env.pretty type))
    | some kind => .ok (.primitive ⟨name, kind, levels, args⟩)
  | _ => .error (.notReadable (env.pretty type))

/-- The readable type that a term stands for if it is reduced in any case. -/
def ofReduced (env : Environment) (fuel : Nat) (type : Term) : Except TypeError Readable := do
  let t ← (type.whnf env fuel).mapError (.reduction (env.pretty type))
  ofNormal env type t

theorem ofNormal_eq_bind (env : Environment) (type t : Term) :
    ofNormal env type t = TypeHead.ofNormal env type t >>= TypeHead.readable := by
  unfold ofNormal TypeHead.ofNormal TypeHead.ofInductive? TypeHead.ofPrimitive?
  generalize t.spine = parts
  obtain ⟨head, args⟩ := parts
  cases head with
  | ind name levels =>
    cases found : env.inductive? name with
    | none => simp only [found]; rfl
    | some d =>
      simp only [found]
      by_cases few : args.length < d.params.length
      · simp only [if_pos few]
        rfl
      · simp only [if_neg few]
        change _ = TypeHead.readable (.inductiveType d levels (args.take d.params.length))
        rw [TypeHead.readable, Layout.ofSupported_eq_ite, Environment.name_of_inductive? found]
        split <;> rfl
  | const name levels => cases found : env.primitive? name <;> simp only [found] <;> rfl
  | _ => rfl

/-- Whether a type is reduced before its head is looked at makes no difference. -/
theorem ofType_eq_ofReduced (env : Environment) (fuel : Nat) (type : Term) :
    ofType env fuel type = ofReduced env fuel type := by
  have reads : ofType env fuel type = TypeHead.ofType env fuel type >>= TypeHead.readable := rfl
  rw [reads, TypeHead.ofType_eq_bind, bind_assoc, ofReduced]
  simp only [ofNormal_eq_bind]

/-! ## The term of a readable type -/

/-- The head of a normal form stays where it is. -/
theorem ReadOff.headNormal (readOff : ReadOff env t r) : t.HeadNormal env := by
  cases readOff with
  | inductiveType spine => rw [Term.HeadNormal, Term.headStep, spine]
  | primitive spine found =>
    rw [Term.HeadNormal, Term.headStep, spine]
    simp only [found]

/-- The term of a readable type stands for it by its head. -/
theorem ReadOff.toTerm (readOff : ReadOff env t r) : ReadOff env r.toTerm r := by
  cases readOff with
  | @inductiveType name levels args d spine found enough supported =>
    have spine' : ((Term.ind name levels).mkApp (args.take d.params.length)).spine =
        (.ind name levels, args.take d.params.length) := Term.spine_mkApp rfl _
    have kept : (args.take d.params.length).length = d.params.length :=
      List.length_take_of_le enough
    have again := ReadOff.inductiveType spine' found (Nat.le_of_eq kept.symm) supported
    rwa [List.take_take, Nat.min_self] at again
  | primitive spine found => exact .primitive (Term.spine_mkApp rfl _) found

/-- The term of a readable type is read as this type without reduction. -/
theorem ofType_toTerm (classified : ofType env fuel type = .ok r) (more : Nat) :
    ofType env more r.toTerm = .ok r := by
  obtain ⟨t, -, readOff⟩ := ofType_eq_ok_iff.mp classified
  have readOff' := readOff.toTerm
  exact ofType_eq_ok_iff.mpr ⟨_, readOff'.headNormal.whnfWithin more more, readOff'⟩

end Readable

/-- A type without the arguments behind the parameters, if an inductive type is applied. -/
def Term.dropIndices (env : Environment) : Term → Term
  | app (ind name levels) args =>
    match env.inductive? name with
    | none => app (ind name levels) args
    | some d => (ind name levels).mkApp (args.take d.params.length)
  | t => t

theorem Term.dropIndices_ind {name : Name} (found : env.inductive? name = some d) (levels : Levels)
    (args : List Term) : ((ind name levels).mkApp args).dropIndices env =
      (ind name levels).mkApp (args.take d.params.length) := by
  cases args with
  | nil => simp [dropIndices]
  | cons arg args => simp [mkApp, dropIndices, found]

theorem Term.dropIndices_const (name : Name) (levels : Levels) (args : List Term) :
    ((const name levels).mkApp args).dropIndices env = (const name levels).mkApp args := by
  cases args <;> rfl

namespace Readable

/-- The term of a readable type is what was read, up to its indices. -/
theorem ReadOff.toTerm_eq_dropIndices (readOff : ReadOff env t r) :
    r.toTerm = (t.spine.1.mkApp t.spine.2).dropIndices env := by
  cases readOff with
  | inductiveType spine found => rw [spine, Term.dropIndices_ind found, Readable.toTerm]
  | primitive spine => rw [spine, Term.dropIndices_const, Readable.toTerm]

theorem ofType_eq_inductiveType_iff {ty : InductiveType} :
    ofType env fuel type = .ok (.inductiveType ty) ↔ ∃ n args d, type.whnf env fuel = .ok n ∧
      n.spine = (.ind ty.head ty.levels, args) ∧ env.inductive? ty.head = some d ∧
        d.params.length ≤ args.length ∧ d.blocks.length ≤ 251 ∧
          ty.params = args.take d.params.length ∧ ty.layout = Layout.of d := by
  rw [ofType_eq_ok_iff]
  constructor
  · rintro ⟨n, whnf, readOff⟩
    cases readOff with
    | @inductiveType name levels args d spine found enough fits =>
      have few := (Layout.isSupported_of_iff d).mp fits
      exact ⟨n, args, d, whnf, spine, found, enough, few, rfl, rfl⟩
  · rintro ⟨n, args, d, whnf, spine, found, enough, fits, params, layout⟩
    obtain ⟨head, levels, _, _⟩ := ty
    obtain rfl := params
    obtain rfl := layout
    exact ⟨n, whnf, .inductiveType spine found enough ((Layout.isSupported_of_iff d).mpr fits)⟩

theorem ofType_eq_primitive_iff {use : PrimitiveUse} :
    ofType env fuel type = .ok (.primitive use) ↔ ∃ n, type.whnf env fuel = .ok n ∧
      n.spine = (.const use.head use.levels, use.params) ∧
        env.primitive? use.head = some use.kind := by
  rw [ofType_eq_ok_iff]
  refine exists_congr fun n => and_congr_right fun _ => ?_
  constructor
  · rintro (_ | ⟨spine, found⟩)
    exact ⟨spine, found⟩
  · rintro ⟨spine, found⟩
    exact .primitive spine found

/-- Reading a type is reading its normal form: with the same answer, with the same errors, as an
inductive type exactly if one is applied to all its parameters and laid out, and as a primitive type
exactly if one is applied. The term of the readable type is the head of the normal form applied to
its arguments up to the indices, which is the normal form without the indices if no definition has a
body outside of spine form, and it is read as the same readable type with any budget. -/
theorem ofType_reduces_first (env : Environment) (fuel : Nat) (type : Term) :
    ofType env fuel type = ofReduced env fuel type ∧
    (∀ ty, ofType env fuel type = .ok (.inductiveType ty) ↔
      ∃ n args d, type.whnf env fuel = .ok n ∧ n.spine = (.ind ty.head ty.levels, args) ∧
        env.inductive? ty.head = some d ∧ d.params.length ≤ args.length ∧
          d.blocks.length ≤ 251 ∧ ty.params = args.take d.params.length ∧
            ty.layout = Layout.of d) ∧
    (∀ use, ofType env fuel type = .ok (.primitive use) ↔
      ∃ n, type.whnf env fuel = .ok n ∧ n.spine = (.const use.head use.levels, use.params) ∧
        env.primitive? use.head = some use.kind) ∧
    ∀ r, ofType env fuel type = .ok r →
      (∃ n, type.whnf env fuel = .ok n ∧
        r.toTerm = (n.spine.1.mkApp n.spine.2).dropIndices env ∧
        (env.SpineBodies → type.inSpineForm → r.toTerm = n.dropIndices env)) ∧
      ∀ more, ofType env more r.toTerm = .ok r := by
  refine ⟨ofType_eq_ofReduced env fuel type, fun _ => ofType_eq_inductiveType_iff,
    fun _ => ofType_eq_primitive_iff, fun r classified => ?_⟩
  obtain ⟨n, whnf, readOff⟩ := ofType_eq_ok_iff.mp classified
  have given := readOff.toTerm_eq_dropIndices
  refine ⟨⟨n, whnf, given, fun bodies spine => ?_⟩, ofType_toTerm classified⟩
  have spineN := Term.inSpineForm_of_whnf bodies spine whnf
  have whole : n = n.spine.1.mkApp n.spine.2 := (Term.eq_mkApp_of_spine spineN rfl).1
  rw [given, ← whole]

end Readable

namespace Prelude

/-- The lists of numbers under other names, as if zero were an index of the type. The index shows in
the normal form, but not in the term that is given back. -/
theorem ofType_reduces_first_aliasedList :
    ∃ n r, (aliasedList.mkApp [nat 0]).whnf aliases 2 = .ok n ∧
      n = applied listName [.const aliasName .empty, nat 0] ∧
      Readable.ofType aliases 2 (aliasedList.mkApp [nat 0]) = .ok r ∧
      r.toTerm = n.dropIndices aliases ∧ r.toTerm = applied listName [.const aliasName .empty] ∧
      Readable.ofType aliases 0 r.toTerm = .ok r := by
  have classified : Readable.ofType aliases 2 (aliasedList.mkApp [nat 0]) =
      .ok (.inductiveType
        ⟨listName, .empty, [.const aliasName .empty], .of environment.inductives[3]⟩) := rfl
  obtain ⟨-, -, -, given⟩ := Readable.ofType_reduces_first aliases 2 (aliasedList.mkApp [nat 0])
  obtain ⟨⟨n, whnf, -, normal⟩, again⟩ := given _ classified
  refine ⟨n, _, whnf, ?_, classified, normal aliases_closedBodies.spineBodies rfl, rfl, again 0⟩
  exact Except.ok.inj (whnf.symm.trans rfl)

/-- The prelude with a constant that stands for the primitive integers, applied to nothing. -/
def emptyApplication : Environment :=
  environment.declare
    (.constant ⟨aliasName, .sort .set, some (.app (.const intName .empty) [])⟩)

/-- A body that is not in spine form is a normal form that the readable type does not give back. -/
theorem toTerm_ne_dropIndices :
    (Term.const aliasName .empty).inSpineForm ∧
      ∃ n r, (Term.const aliasName .empty).whnf emptyApplication defaultFuel = .ok n ∧
        Readable.ofType emptyApplication defaultFuel (.const aliasName .empty) = .ok r ∧
          r.toTerm ≠ n.dropIndices emptyApplication := by
  refine ⟨rfl, _, .primitive ⟨intName, .int, .empty, []⟩, rfl, rfl, ?_⟩
  exact nofun

end Prelude

end Readback
