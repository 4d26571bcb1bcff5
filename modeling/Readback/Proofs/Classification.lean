import Readback.Proofs.Except
import Readback.Readable

/-!
# What the classifier promises

An inductive type that the classifier answers is declared, has exactly the parameters of its
declaration, and comes with the layout of the declaration, for which there are tags enough. What the
classifier answers can be read off the weak head normal form of the type.

## Main definitions

* `InductiveType.Declares` — the promise about an inductive type
* `Readable.ReadOff` — the readable type that a term in normal form stands for
* `TypeHead.ofNormal` — what is seen at the head of a term in normal form

## Main statements

* `Readable.declares_of_ofType` — the classifier keeps the promise
* `TypeHead.ofType_eq_bind` — a type could as well be reduced before its head is looked at
* `Readable.ofType_eq_ok_iff` — the classifier reads the type off the normal form
-/

namespace Readback

variable {env : Environment} {fuel : Nat} {type : Term} {d : InductiveDecl}

/-- The inductive type is declared as `d`, and its parameters and its layout fit the declaration. -/
structure InductiveType.Declares (env : Environment) (t : InductiveType) (d : InductiveDecl) :
    Prop where
  found : env.inductive? t.head = some d
  params_length : t.params.length = d.params.length
  layout_eq : t.layout = Layout.of d
  supported : (Layout.of d).isSupported = true

theorem Layout.ofSupported_eq_ok {l : Layout} :
    Layout.ofSupported d = .ok l ↔ l = Layout.of d ∧ (Layout.of d).isSupported = true := by
  unfold ofSupported
  dsimp only
  split
  next supported => simp [supported, eq_comm]
  next unsupported => simp [unsupported]

namespace Readable

/-- As the type of a result a term stands for the readable type that it stands for as the type of a
field, if it stands for one at all. -/
theorem ofType_of_ofResultType {r : Readable} (classified : ofResultType env fuel type = .ok r) :
    ofType env fuel type = .ok r := by
  obtain ⟨s, classified, accepted⟩ := bind_eq_ok.mp classified
  unfold asResult at accepted
  split at accepted
  · cases accepted
  · rw [classified, accepted]

/-- The readable type that a term stands for by its head. -/
inductive ReadOff (env : Environment) (t : Term) : Readable → Prop
  | inductiveType {name : Name} {levels : Levels} {args : List Term} {d : InductiveDecl}
      (spine : t.spine = (.ind name levels, args)) (found : env.inductive? name = some d)
      (enough : d.params.length ≤ args.length) (supported : (Layout.of d).isSupported = true) :
      ReadOff env t (.inductiveType ⟨name, levels, args.take d.params.length, Layout.of d⟩)
  | primitive {name : Name} {levels : Levels} {args : List Term} {kind : PrimitiveKind}
      (spine : t.spine = (.const name levels, args)) (found : env.primitive? name = some kind) :
      ReadOff env t (.primitive ⟨name, kind, levels, args⟩)

end Readable

namespace TypeHead

variable {t : Term} {head : TypeHead}

theorem ofInductive?_eq_some_iff :
    ofInductive? env t = .ok (some head) ↔ ∃ name levels args d,
      t.spine = (.ind name levels, args) ∧ env.inductive? name = some d ∧
        d.params.length ≤ args.length ∧
        head = .inductiveType d levels (args.take d.params.length) := by
  constructor
  · intro read
    unfold ofInductive? at read
    split at read
    next name levels args spine =>
      split at read
      · cases read
      next d found =>
        split at read
        · cases read
        next enough =>
          refine ⟨name, levels, args, d, spine, found, Nat.le_of_not_lt enough, ?_⟩
          exact (Option.some.inj (Except.ok.inj read)).symm
    · cases Except.ok.inj read
  · rintro ⟨name, levels, args, d, spine, found, enough, rfl⟩
    simp only [ofInductive?, spine, found, if_neg (Nat.not_lt.mpr enough)]

/-- A term with an inductive type as its head is in normal form. -/
theorem whnf_of_ofInductive? (read : ofInductive? env t ≠ .ok none) :
    t.whnf env fuel = .ok t := by
  have normal : t.headStep env = .ok none := by
    unfold ofInductive? at read
    split at read
    next spine => rw [Term.headStep, spine]
    · exact absurd rfl read
  rw [Term.whnf, Term.whnfWithin, normal]

/-- What a term in normal form turns out to be. The error tells of the type that was reduced. -/
def ofNormal (env : Environment) (type t : Term) : Except TypeError TypeHead := do
  if let some found ← ofInductive? env t then
    return found
  match ofPrimitive? env t with
  | some found => return found
  | none => throw (.notReadable (env.pretty type))

/-- A type with an inductive type as its head could as well be reduced first. -/
theorem ofType_eq_bind (env : Environment) (fuel : Nat) (type : Term) :
    ofType env fuel type =
      (type.whnf env fuel).mapError (.reduction (env.pretty type)) >>= ofNormal env type := by
  by_cases reduces : ofInductive? env type = .ok none
  · rw [ofType, reduces]
    rfl
  · rw [ofType, whnf_of_ofInductive? reduces, mapError_ok]
    change _ = ofNormal env type type
    rw [ofNormal]
    rcases read : ofInductive? env type with e | _ | found
    · rfl
    · exact absurd read reduces
    · rfl

/-- What a type turns out to be is seen in its normal form. -/
theorem ofType_eq_ok_iff :
    ofType env fuel type = .ok head ↔ ∃ t, type.whnf env fuel = .ok t ∧
      (ofInductive? env t = .ok (some head) ∨
        ofInductive? env t = .ok none ∧ ofPrimitive? env t = some head) := by
  have seen (t : Term) : ofNormal env type t = .ok head ↔
      ofInductive? env t = .ok (some head) ∨
        ofInductive? env t = .ok none ∧ ofPrimitive? env t = some head := by
    unfold ofNormal
    rcases read : ofInductive? env t with e | _ | found
    · simp [bind, Except.bind]
    · cases primitive : ofPrimitive? env t <;>
        simp [bind, Except.bind, pure, Except.pure, throw, throwThe, MonadExceptOf.throw]
    · simp [bind, Except.bind, pure, Except.pure]
  rw [ofType_eq_bind, bind_eq_ok]
  simp only [mapError_eq_ok, seen]

/-- A declaration that is found is the one of its name. -/
theorem inductive?_of_ofType {levels : Levels} {params : List Term}
    (read : ofType env fuel type = .ok (.inductiveType d levels params)) :
    env.inductive? d.name = some d := by
  obtain ⟨t, -, direct | ⟨-, primitive⟩⟩ := ofType_eq_ok_iff.mp read
  · obtain ⟨name, levels', args, d', -, found, -, same⟩ := ofInductive?_eq_some_iff.mp direct
    cases same
    rwa [Environment.name_of_inductive? found]
  · unfold ofPrimitive? at primitive
    split at primitive
    · obtain ⟨kind, -, other⟩ := Option.map_eq_some_iff.mp primitive
      cases other
    · cases primitive

end TypeHead

/-- The classifier reads a type off the normal form of a term. -/
theorem Readable.ofType_eq_ok_iff {r : Readable} :
    ofType env fuel type = .ok r ↔ ∃ t, type.whnf env fuel = .ok t ∧ ReadOff env t r := by
  constructor
  · intro classified
    obtain ⟨head, read, classified⟩ := bind_eq_ok.mp classified
    obtain ⟨t, whnf, direct | ⟨-, primitive⟩⟩ := TypeHead.ofType_eq_ok_iff.mp read
    · obtain ⟨name, levels, args, d, spine, found, enough, rfl⟩ :=
        TypeHead.ofInductive?_eq_some_iff.mp direct
      obtain ⟨l, laidOut, classified⟩ := bind_eq_ok.mp classified
      obtain ⟨rfl, supported⟩ := Layout.ofSupported_eq_ok.mp laidOut
      obtain rfl := Except.ok.inj classified
      refine ⟨t, whnf, ?_⟩
      rw [Environment.name_of_inductive? found]
      exact .inductiveType spine found enough supported
    · unfold TypeHead.ofPrimitive? at primitive
      split at primitive
      next spine =>
        obtain ⟨kind, found, rfl⟩ := Option.map_eq_some_iff.mp primitive
        obtain rfl := Except.ok.inj classified
        exact ⟨t, whnf, .primitive spine found⟩
      · cases primitive
  · rintro ⟨t, whnf, readOff⟩
    refine bind_eq_ok.mpr ?_
    cases readOff with
    | @inductiveType name levels args d spine found enough supported =>
      refine ⟨.inductiveType d levels (args.take d.params.length),
        TypeHead.ofType_eq_ok_iff.mpr ⟨t, whnf, .inl ?_⟩, ?_⟩
      · exact TypeHead.ofInductive?_eq_some_iff.mpr
          ⟨name, levels, args, d, spine, found, enough, rfl⟩
      · have laidOut : Layout.ofSupported d = .ok (Layout.of d) :=
          Layout.ofSupported_eq_ok.mpr ⟨rfl, supported⟩
        rw [← Environment.name_of_inductive? found]
        exact bind_eq_ok.mpr ⟨Layout.of d, laidOut, rfl⟩
    | @primitive name levels args kind spine found =>
      refine ⟨.primitive ⟨name, kind, levels, args⟩,
        TypeHead.ofType_eq_ok_iff.mpr ⟨t, whnf, .inr ⟨?_, ?_⟩⟩, rfl⟩
      · rw [TypeHead.ofInductive?, spine]
      · rw [TypeHead.ofPrimitive?, spine]
        simp only [found, Option.map_some]

/-- The classifier answers declared inductive types only. -/
theorem Readable.declares_of_ofType {t : InductiveType}
    (classified : ofType env fuel type = .ok (.inductiveType t)) : ∃ d, t.Declares env d := by
  obtain ⟨s, -, readOff⟩ := ofType_eq_ok_iff.mp classified
  cases readOff with
  | @inductiveType _ _ args d spine found enough supported =>
    exact ⟨d, found, List.length_take_of_le enough, rfl, supported⟩

end Readback
