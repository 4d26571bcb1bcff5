import Readback.Proofs.RoundTrip

/-!
# Where decoding fails

Decoding fails at the first value that does not belong to its type, in the order in which the fields
of blocks are read. The way to this value is a path of field positions: at each block on it the
fields before the next one decode, and the next one is read at its own type, which has these fields
filled in. The complaint says which of the conditions on a value is violated there, counting the
constructors as the declaration of the type lists them.

## Main definitions

* `IllFormedValue.Describes` — what a complaint says of a value at a readable type
* `Readable.ComesTo`, `Readable.Leads` — the next field to be read, and the path to a value
* `Readable.FailsAt` — the failures that are not those of a field

## Main statements

* `decodeFields_eq_error_iff` — fields fail with the first field that fails
* `Readable.decode_eq_error_iff` — a failure is that of a value that a path leads to
* `Readable.Leads.unique` — there is one such path
* `decodeAt_complains` — complaints about values and about types
-/

namespace Readback

variable {env : Environment} {fuel : Nat}

/-- The complaint is true of a value at a readable type. -/
def IllFormedValue.Describes (env : Environment) (r : Readable) (v : Value) :
    IllFormedValue → Prop
  | immediateOrdinal type ordinal available =>
    ∃ t d, r = .inductiveType t ∧ env.inductive? t.head = some d ∧ v = .immediate ordinal ∧
      (ordinal < 0 ∨ (available : Int) ≤ ordinal) ∧ available = d.constants.length ∧
      type = r.render env
  | blockTag type tag available =>
    ∃ t d fields, r = .inductiveType t ∧ env.inductive? t.head = some d ∧ v = .block tag fields ∧
      available ≤ tag.toNat ∧ available = d.blocks.length ∧ type = r.render env
  | fieldCount type constructor tag expected found =>
    ∃ t d fields c, r = .inductiveType t ∧ env.inductive? t.head = some d ∧
      v = .block tag fields ∧ d.blocks[tag.toNat]? = some c ∧ found ≠ expected ∧
      constructor = c.name ∧ expected = c.arity ∧ found = fields.length ∧ type = r.render env
  | scalarShape type shape raw =>
    ∃ t, r = .primitive t ∧
      (t.kind = .int ∧ v.shape = .block ∨ t.kind = .float ∧ ∀ x, v ≠ .ofFloat x) ∧
      shape = v.shape ∧ raw = v.raw ∧ type = r.render env
  | nullBlock => False

/-! ## Fields -/

/-- Reading one field at its type. -/
def decodeField (env : Environment) (fuel : Nat) (type : Term) (v : Value) :
    Except DecodeError Term := do
  let r ← (Readable.ofType env fuel type).mapError .type
  r.decode env fuel v

theorem decodeField_eq_error_iff {type : Term} {v : Value} {e : DecodeError} :
    decodeField env fuel type v = .error e ↔
      (∃ cause, Readable.ofType env fuel type = .error cause ∧ e = .type cause) ∨
        ∃ r, Readable.ofType env fuel type = .ok r ∧ r.decode env fuel v = .error e := by
  rw [decodeField, bind_eq_error, mapError_eq_error]
  simp only [mapError_eq_ok, eq_comm (a := e)]

theorem decodeFields_cons (context types : List Term) (type : Term) (v : Value)
    (values : List Value) :
    decodeFields env fuel context (type :: types) (v :: values) =
      decodeField env fuel (type.instantiate context) v >>= fun field =>
        decodeFields env fuel (context ++ [field]) types values := by
  rw [decodeFields, decodeField, bind_assoc]

/-- Fields fail with the first of them that fails, read in the context of those before it. -/
theorem decodeFields_eq_error_iff {context types : List Term} {values : List Value}
    {e : DecodeError} :
    decodeFields env fuel context types values = .error e ↔
      ∃ k type v before, types[k]? = some type ∧ values[k]? = some v ∧
        decodeFields env fuel context (types.take k) (values.take k) = .ok before ∧
        decodeField env fuel (type.instantiate before) v = .error e := by
  induction values generalizing context types with
  | nil => simp [decodeFields]
  | cons v values ih =>
    cases types with
    | nil => simp [decodeFields]
    | cons type types =>
      rw [decodeFields_cons, bind_eq_error]
      constructor
      · rintro (failed | ⟨field, decoded, failed⟩)
        · exact ⟨0, type, v, context, rfl, rfl, by simp [decodeFields], failed⟩
        · obtain ⟨k, type', v', before, typed, held, decodedBefore, failed⟩ := ih.mp failed
          refine ⟨k + 1, type', v', before, typed, held, ?_, failed⟩
          rw [List.take_succ_cons, List.take_succ_cons, decodeFields_cons, decoded]
          exact decodedBefore
      · rintro ⟨k, type', v', before, typed, held, decodedBefore, failed⟩
        cases k with
        | zero =>
          simp only [List.getElem?_cons_zero, Option.some.injEq] at typed held
          simp only [List.take_zero, decodeFields, Except.ok.injEq] at decodedBefore
          subst typed held decodedBefore
          exact .inl failed
        | succ k =>
          rw [List.take_succ_cons, List.take_succ_cons, decodeFields_cons, bind_eq_ok]
            at decodedBefore
          obtain ⟨field, decoded, decodedBefore⟩ := decodedBefore
          exact .inr ⟨field, decoded, ih.mpr ⟨k, type', v', before, typed, held, decodedBefore,
            failed⟩⟩

/-! ## Complaints about one value -/

namespace IllFormedValue

variable {cause : IllFormedValue} {v : Value}

theorem describes_primitive_iff {t : PrimitiveUse} :
    cause.Describes env (.primitive t) v ↔
      (t.kind = .int ∧ v.shape = .block ∨ t.kind = .float ∧ ∀ x, v ≠ .ofFloat x) ∧
        cause = .scalarShape ((Readable.primitive t).render env) v.shape v.raw := by
  cases cause <;> simp [Describes]
  tauto

variable {t : InductiveType} {d : InductiveDecl}

theorem describes_immediate_iff {ordinal : Int} (found : env.inductive? t.head = some d) :
    cause.Describes env (.inductiveType t) (.immediate ordinal) ↔
      (ordinal < 0 ∨ (d.constants.length : Int) ≤ ordinal) ∧
        cause = .immediateOrdinal (t.render env) ordinal d.constants.length := by
  cases cause <;> simp [Describes, found, InductiveType.render]
  grind

theorem describes_block_iff {tag : UInt8} {fields : List Value}
    (found : env.inductive? t.head = some d) :
    cause.Describes env (.inductiveType t) (.block tag fields) ↔
      d.blocks.length ≤ tag.toNat ∧
          cause = .blockTag (t.render env) tag d.blocks.length ∨
        ∃ c, d.blocks[tag.toNat]? = some c ∧ fields.length ≠ c.arity ∧
          cause = .fieldCount (t.render env) c.name tag c.arity fields.length := by
  cases cause <;> simp [Describes, found, InductiveType.render] <;> grind

end IllFormedValue

/-- A literal is refused for its shape, and an array whatever it is. -/
theorem PrimitiveUse.decode_eq_error_iff {t : PrimitiveUse} {v : Value} {e : DecodeError} :
    t.decode env v = .error e ↔
      (∃ cause, e = .value cause ∧ cause.Describes env (.primitive t) v) ∨
        t.kind = .array ∧
          e = .type (.unsupportedPrimitive ((Readable.primitive t).render env) .array) := by
  simp only [IllFormedValue.describes_primitive_iff]
  cases kind : t.kind with
  | int => cases v <;> simp [decode, kind, misshapen, Value.shape, Value.raw, eq_comm (a := e)]
  | float =>
    have refused : v.float? = none ↔ ∀ x, v ≠ .ofFloat x := by
      simp only [Option.eq_none_iff_forall_ne_some, ne_eq, Value.float?_eq_some_iff]
    simp only [← refused]
    cases read : v.float? <;> simp [decode, kind, read, misshapen, eq_comm (a := e)]
  | array => simp [decode, kind, eq_comm (a := e)]

namespace InductiveType

variable {t : InductiveType} {d : InductiveDecl} {tag : UInt8} {fields : List Value}

/-- An immediate is refused if it numbers no constant. -/
theorem decodeImmediate_eq_error_iff {ordinal : Int} {e : DecodeError}
    (declares : t.Declares env d) :
    t.decodeImmediate env ordinal = .error e ↔
      ∃ cause, e = .value cause ∧ cause.Describes env (.inductiveType t) (.immediate ordinal) := by
  have count : t.layout.constants.length = d.constants.length := by
    rw [declares.layout_eq, (Layout.forall₂_constants d).length_eq]
  simp only [IllFormedValue.describes_immediate_iff declares.found, ← count]
  unfold decodeImmediate Layout.constant?
  by_cases nonneg : 0 ≤ ordinal
  · cases found : t.layout.constants[ordinal.toNat]? with
    | some s =>
      have within := (List.getElem?_eq_some_iff.mp found).1
      simp only [if_pos nonneg]
      grind
    | none =>
      have outside := List.getElem?_eq_none_iff.mp found
      simp only [if_pos nonneg]
      grind
  · simp only [if_neg nonneg]
    grind

/-- A block is refused if its tag numbers no constructor, or if it has not as many fields as the
constructor. -/
theorem blockSignature_eq_error_iff {e : DecodeError} (declares : t.Declares env d) :
    t.blockSignature env tag fields.length = .error e ↔
      ∃ cause, e = .value cause ∧ cause.Describes env (.inductiveType t) (.block tag fields) := by
  have numbered := Layout.forall₂_blocks d
  rw [← declares.layout_eq] at numbered
  simp only [IllFormedValue.describes_block_iff declares.found]
  unfold blockSignature Layout.block?
  cases found : t.layout.blocks[tag.toNat]? with
  | none =>
    have beyond := List.getElem?_eq_none_iff.mp found
    rw [numbered.length_eq] at beyond
    simp only [numbered.length_eq]
    grind
  | some s =>
    obtain ⟨c, listed, signs⟩ := exists_getElem?_of_forall₂ numbered found
    have within := (List.getElem?_eq_some_iff.mp listed).1
    simp only [listed, signs.name_eq, signs.arity_eq]
    grind

/-- A block that is not refused has a constructor of the declaration, with its field types. -/
theorem exists_of_blockSignature {s : Signature} {count : Nat} (declares : t.Declares env d)
    (signature : t.blockSignature env tag count = .ok s) :
    ∃ c, d.blocks[tag.toNat]? = some c ∧ s.Signs d c ∧ count = c.arity ∧
      t.fieldTypes env s = .ok c.fields := by
  obtain ⟨numbered, fits⟩ := block_of_blockSignature declares signature
  obtain ⟨c, listed, signs⟩ := exists_getElem?_of_forall₂ (Layout.forall₂_blocks d) numbered
  refine ⟨c, listed, signs, fits.trans signs.arity_eq, ?_⟩
  rw [fieldTypes, declares.constructor?_eq, signs.declared]

/-- A block with a constructor of the declaration is not refused if it has as many fields. -/
theorem exists_blockSignature {c : ConstructorDecl} (declares : t.Declares env d)
    (listed : d.blocks[tag.toNat]? = some c) (count : fields.length = c.arity) :
    ∃ s, t.blockSignature env tag fields.length = .ok s ∧ t.fieldTypes env s = .ok c.fields := by
  cases signature : t.blockSignature env tag fields.length with
  | error e =>
    obtain ⟨cause, rfl, describes⟩ := (blockSignature_eq_error_iff declares).mp signature
    have within := (List.getElem?_eq_some_iff.mp listed).1
    rw [IllFormedValue.describes_block_iff declares.found] at describes
    grind
  | ok s =>
    obtain ⟨c', listed', -, -, typed⟩ := exists_of_blockSignature declares signature
    obtain rfl := Option.some.inj (listed.symm.trans listed')
    exact ⟨s, rfl, typed⟩

end InductiveType

/-! ## Paths -/

namespace Readable

/-- Decoding a block comes to the field at a position, which is to be read at a type: the tag
numbers a constructor that has as many fields as the block, and the fields before it decode. -/
inductive ComesTo (env : Environment) (fuel : Nat) : Readable → Value → Nat → Term → Value → Prop
  | field {t : InductiveType} {d : InductiveDecl} {c : ConstructorDecl} {tag : UInt8}
      {fields : List Value} {k : Nat} {type : Term} {v : Value} {before : List Term}
      (found : env.inductive? t.head = some d) (numbered : d.blocks[tag.toNat]? = some c)
      (count : fields.length = c.arity) (typed : c.fields[k]? = some type)
      (held : fields[k]? = some v)
      (decoded : decodeFields env fuel t.params (c.fields.take k) (fields.take k) = .ok before) :
      ComesTo env fuel (.inductiveType t) (.block tag fields) k (type.instantiate before) v

/-- Decoding a value at a readable type comes to the value at the end of the path, at the readable
type that its own type stands for. -/
inductive Leads (env : Environment) (fuel : Nat) :
    Readable → Value → List Nat → Readable → Value → Prop
  | root {r : Readable} {v : Value} : Leads env fuel r v [] r v
  | field {r c field : Readable} {v s w : Value} {k : Nat} {path : List Nat} {type : Term}
      (comes : ComesTo env fuel r v k type w) (classified : ofType env fuel type = .ok field)
      (leads : Leads env fuel field w path c s) : Leads env fuel r v (k :: path) c s

/-- Decoding fails at the value itself: a complaint about it is true, its type is an array, or the
next of its fields has a type that is not readable. -/
inductive FailsAt (env : Environment) (fuel : Nat) (r : Readable) (v : Value) : DecodeError → Prop
  | value {cause : IllFormedValue} (describes : cause.Describes env r v) :
      FailsAt env fuel r v (.value cause)
  | array {t : PrimitiveUse} (primitive : r = .primitive t) (kind : t.kind = .array) :
      FailsAt env fuel r v (.type (.unsupportedPrimitive (r.render env) .array))
  | fieldType {k : Nat} {type : Term} {w : Value} {cause : TypeError}
      (comes : ComesTo env fuel r v k type w) (failed : ofType env fuel type = .error cause) :
      FailsAt env fuel r v (.type cause)

variable {r c : Readable} {v s w : Value} {e : DecodeError} {k : Nat} {path : List Nat}
  {type : Term}

/-- A block fails at itself or with the first of its fields that fails. -/
theorem decode_block_eq_error_iff {t : InductiveType} {d : InductiveDecl} {tag : UInt8}
    {fields : List Value} (declares : t.Declares env d) :
    (inductiveType t).decode env fuel (.block tag fields) = .error e ↔
      (∃ cause, e = .value cause ∧ cause.Describes env (.inductiveType t) (.block tag fields)) ∨
        ∃ k type w, ComesTo env fuel (.inductiveType t) (.block tag fields) k type w ∧
          decodeField env fuel type w = .error e := by
  rw [decode, bind_eq_error, InductiveType.blockSignature_eq_error_iff declares]
  refine or_congr_right ⟨?_, ?_⟩
  · rintro ⟨s, signature, failed⟩
    obtain ⟨c, numbered, -, count, typed⟩ :=
      InductiveType.exists_of_blockSignature declares signature
    -- the constructor is known, so that only a field can have failed
    obtain failed | ⟨types, typed', failed⟩ := bind_eq_error.mp failed
    · cases typed.symm.trans failed
    obtain rfl := Except.ok.inj (typed.symm.trans typed')
    obtain failed | ⟨args, -, failed⟩ := bind_eq_error.mp failed
    · obtain ⟨k, type, w, before, typed, held, decoded, failed⟩ :=
        decodeFields_eq_error_iff.mp failed
      exact ⟨k, _, w, .field declares.found numbered count typed held decoded, failed⟩
    · cases failed
  · rintro ⟨k, type, w, comes, failed⟩
    cases comes with
    | field found numbered count typed held decoded =>
      obtain rfl := Option.some.inj (declares.found.symm.trans found)
      obtain ⟨s, signature, types⟩ := InductiveType.exists_blockSignature declares numbered count
      have failed := decodeFields_eq_error_iff.mpr ⟨k, _, w, _, typed, held, decoded, failed⟩
      refine ⟨s, signature, bind_eq_error.mpr (.inr ⟨_, types, ?_⟩)⟩
      exact bind_eq_error.mpr (.inl failed)

theorem ComesTo.mem {tag : UInt8} {fields : List Value}
    (comes : ComesTo env fuel r (.block tag fields) k type w) : w ∈ fields := by
  cases comes with
  | field found numbered count typed held decoded => exact List.mem_of_getElem? held

/-- Decoding fails at the value itself or at a field that it comes to. -/
theorem decode_eq_error_iff_or {root : Term} (classified : ofType env fuel root = .ok r) :
    r.decode env fuel v = .error e ↔ FailsAt env fuel r v e ∨
      ∃ k type w field, ComesTo env fuel r v k type w ∧ ofType env fuel type = .ok field ∧
        field.decode env fuel w = .error e := by
  cases r with
  | primitive t =>
    have decodes : (primitive t).decode env fuel v = t.decode env v := by cases v <;> rw [decode]
    rw [decodes, PrimitiveUse.decode_eq_error_iff]
    constructor
    · rintro (⟨cause, rfl, describes⟩ | ⟨kind, rfl⟩)
      · exact .inl (.value describes)
      · exact .inl (.array rfl kind)
    · rintro ((describes | ⟨same, kind⟩ | ⟨comes, -⟩) | ⟨k, type, w, field, comes, -⟩)
      · exact .inl ⟨_, rfl, describes⟩
      · cases same
        exact .inr ⟨kind, rfl⟩
      · cases comes
      · cases comes
  | inductiveType t =>
    obtain ⟨d, declares⟩ := declares_of_ofType classified
    cases v with
    | immediate n =>
      rw [decode, InductiveType.decodeImmediate_eq_error_iff declares]
      constructor
      · rintro ⟨cause, rfl, describes⟩
        exact .inl (.value describes)
      · rintro ((describes | ⟨same, -⟩ | ⟨comes, -⟩) | ⟨k, type, w, field, comes, -⟩)
        · exact ⟨_, rfl, describes⟩
        · cases same
        · cases comes
        · cases comes
    | block tag fields =>
      rw [decode_block_eq_error_iff declares]
      constructor
      · rintro (⟨cause, rfl, describes⟩ | ⟨k, type, w, comes, failed⟩)
        · exact .inl (.value describes)
        · obtain ⟨cause, unreadable, rfl⟩ | ⟨field, classified, failed⟩ :=
            decodeField_eq_error_iff.mp failed
          · exact .inl (.fieldType comes unreadable)
          · exact .inr ⟨k, type, w, field, comes, classified, failed⟩
      · rintro ((describes | ⟨same, -⟩ | ⟨comes, failed⟩) |
          ⟨k, type, w, field, comes, classified, failed⟩)
        · exact .inl ⟨_, rfl, describes⟩
        · cases same
        · exact .inr ⟨_, _, _, comes, decodeField_eq_error_iff.mpr (.inl ⟨_, failed, rfl⟩)⟩
        · exact .inr ⟨k, type, w, comes,
            decodeField_eq_error_iff.mpr (.inr ⟨field, classified, failed⟩)⟩

/-- Decoding fails exactly with what fails at a value that a path leads to. -/
theorem decode_eq_error_iff {root : Term} (classified : ofType env fuel root = .ok r) :
    r.decode env fuel v = .error e ↔
      ∃ path c s, Leads env fuel r v path c s ∧ FailsAt env fuel c s e := by
  constructor
  · intro failed
    induction v using Value.induction generalizing r root with
    | immediate n =>
      obtain fails | ⟨k, type, w, field, comes, -⟩ := (decode_eq_error_iff_or classified).mp failed
      · exact ⟨[], r, _, .root, fails⟩
      · cases comes
    | block tag fields ih =>
      obtain fails | ⟨k, type, w, field, comes, classifiedField, failed⟩ :=
        (decode_eq_error_iff_or classified).mp failed
      · exact ⟨[], r, _, .root, fails⟩
      · obtain ⟨path, c, s, leads, fails⟩ := ih w comes.mem classifiedField failed
        exact ⟨k :: path, c, s, .field comes classifiedField leads, fails⟩
  · rintro ⟨path, c, s, leads, fails⟩
    induction leads generalizing root with
    | root => exact (decode_eq_error_iff_or classified).mpr (.inl fails)
    | field comes classifiedField leads ih =>
      exact (decode_eq_error_iff_or classified).mpr
        (.inr ⟨_, _, _, _, comes, classifiedField, ih classifiedField fails⟩)

theorem Leads.exists_ofType {root : Term} (classified : ofType env fuel root = .ok r)
    (leads : Leads env fuel r v path c s) : ∃ type, ofType env fuel type = .ok c := by
  induction leads generalizing root with
  | root => exact ⟨root, classified⟩
  | field _ classifiedField _ ih => exact ih classifiedField

/-! ## There is one path -/

/-- No field behind one that fails is come to. -/
theorem le_of_decodeField_eq_error {context types before before' : List Term} {values : List Value}
    {k' : Nat} (typed : types[k]? = some type) (held : values[k]? = some w)
    (decoded : decodeFields env fuel context (types.take k) (values.take k) = .ok before)
    (failed : decodeField env fuel (type.instantiate before) w = .error e)
    (decoded' : decodeFields env fuel context (types.take k') (values.take k') = .ok before') :
    k' ≤ k := by
  by_contra later
  have stuck : decodeFields env fuel context (types.take k') (values.take k') = .error e := by
    refine decodeFields_eq_error_iff.mpr ⟨k, type, w, before, ?_, ?_, ?_, failed⟩
    · rw [List.getElem?_take_of_lt (by omega), typed]
    · rw [List.getElem?_take_of_lt (by omega), held]
    · rwa [List.take_take, List.take_take, Nat.min_eq_left (by omega)]
  cases decoded'.symm.trans stuck

/-- The field that fails is the first that does, and so the only one that is come to and fails. -/
theorem ComesTo.unique {k' : Nat} {type' : Term} {w' : Value} {e' : DecodeError}
    (comes : ComesTo env fuel r v k type w) (failed : decodeField env fuel type w = .error e)
    (comes' : ComesTo env fuel r v k' type' w')
    (failed' : decodeField env fuel type' w' = .error e') : k = k' ∧ type = type' ∧ w = w' := by
  cases comes with
  | field found numbered count typed held decoded =>
    cases comes' with
    | field found' numbered' count' typed' held' decoded' =>
      obtain rfl := Option.some.inj (found.symm.trans found')
      obtain rfl := Option.some.inj (numbered.symm.trans numbered')
      have above := le_of_decodeField_eq_error typed held decoded failed decoded'
      have below := le_of_decodeField_eq_error typed' held' decoded' failed' decoded
      obtain rfl : k = k' := Nat.le_antisymm below above
      obtain rfl := Option.some.inj (typed.symm.trans typed')
      obtain rfl := Option.some.inj (held.symm.trans held')
      obtain rfl := Except.ok.inj (decoded.symm.trans decoded')
      exact ⟨rfl, rfl, rfl⟩

/-- A block with a field that fails does not fail itself. -/
theorem ComesTo.not_failsAt {field : Readable} {e' : DecodeError}
    (comes : ComesTo env fuel r v k type w) (classified : ofType env fuel type = .ok field)
    (failed : field.decode env fuel w = .error e) : ¬ FailsAt env fuel r v e' := by
  have fieldFailed := decodeField_eq_error_iff.mpr (.inr ⟨field, classified, failed⟩)
  intro fails
  cases fails with
  | value describes =>
    cases comes with
    | field found numbered count typed held decoded =>
      have within := (List.getElem?_eq_some_iff.mp numbered).1
      rw [IllFormedValue.describes_block_iff found] at describes
      grind
  | array primitive kind =>
    subst primitive
    cases comes
  | fieldType comes' unreadable =>
    obtain ⟨-, rfl, -⟩ := comes.unique fieldFailed comes'
      (decodeField_eq_error_iff.mpr (.inl ⟨_, unreadable, rfl⟩))
    cases classified.symm.trans unreadable

/-- Decoding fails at the end of one path only, and in one way. -/
theorem Leads.unique {root : Term} {path' : List Nat} {c' : Readable} {s' : Value}
    {e' : DecodeError} (classified : ofType env fuel root = .ok r)
    (leads : Leads env fuel r v path c s) (fails : FailsAt env fuel c s e)
    (leads' : Leads env fuel r v path' c' s') (fails' : FailsAt env fuel c' s' e') :
    path = path' ∧ c = c' ∧ s = s' ∧ e = e' := by
  have failed := (decode_eq_error_iff classified).mpr ⟨path, c, s, leads, fails⟩
  have failed' := (decode_eq_error_iff classified).mpr ⟨path', c', s', leads', fails'⟩
  obtain rfl := Except.error.inj (failed.symm.trans failed')
  suffices same : path = path' ∧ c = c' ∧ s = s' from ⟨same.1, same.2.1, same.2.2, rfl⟩
  clear failed failed'
  induction leads generalizing root path' with
  | root =>
    cases leads' with
    | root => exact ⟨rfl, rfl, rfl⟩
    | field comes classifiedField leads' =>
      have failed := (decode_eq_error_iff classifiedField).mpr ⟨_, _, _, leads', fails'⟩
      exact absurd fails (comes.not_failsAt classifiedField failed)
  | field comes classifiedField leads ih =>
    have failed := (decode_eq_error_iff classifiedField).mpr ⟨_, _, _, leads, fails⟩
    cases leads' with
    | root => exact absurd fails' (comes.not_failsAt classifiedField failed)
    | field comes' classifiedField' leads' =>
      have failed' := (decode_eq_error_iff classifiedField').mpr ⟨_, _, _, leads', fails'⟩
      obtain ⟨rfl, rfl, rfl⟩ := comes.unique
        (decodeField_eq_error_iff.mpr (.inr ⟨_, classifiedField, failed⟩)) comes'
        (decodeField_eq_error_iff.mpr (.inr ⟨_, classifiedField', failed'⟩))
      obtain rfl := Except.ok.inj (classifiedField.symm.trans classifiedField')
      obtain ⟨rfl, rfl, rfl⟩ := ih classifiedField fails leads'
      exact ⟨rfl, rfl, rfl⟩

/-! ## What is complained of -/

/-- A complaint about a value is the only one that is true of it. -/
theorem failsAt_value_iff {root : Term} {cause : IllFormedValue}
    (classified : ofType env fuel root = .ok c) :
    FailsAt env fuel c s (.value cause) ↔
      ∀ other : IllFormedValue, other.Describes env c s ↔ other = cause := by
  constructor
  · rintro ⟨describes⟩ other
    constructor
    · intro describes'
      obtain ⟨-, -, -, same⟩ := Leads.root.unique classified (.value describes') Leads.root
        (.value describes)
      exact DecodeError.value.inj same
    · rintro rfl
      exact describes
  · intro only
    exact .value ((only cause).mpr rfl)

theorem failsAt_type_iff {cause : TypeError} :
    FailsAt env fuel c s (.type cause) ↔
      (∃ k field w, ComesTo env fuel c s k field w ∧ ofType env fuel field = .error cause) ∨
        ∃ t, c = .primitive t ∧ t.kind = .array ∧
          cause = .unsupportedPrimitive (c.render env) .array := by
  constructor
  · rintro (_ | ⟨primitive, kind⟩ | ⟨comes, failed⟩)
    · exact .inr ⟨_, primitive, kind, rfl⟩
    · exact .inl ⟨_, _, _, comes, failed⟩
  · rintro (⟨k, field, w, comes, failed⟩ | ⟨t, primitive, kind, rfl⟩)
    · exact .fieldType comes failed
    · exact .array primitive kind

/-- An array is no readable type of a result. -/
theorem kind_ne_array_of_ofResultType {root : Term} {t : PrimitiveUse}
    (classified : ofResultType env fuel root = .ok (.primitive t)) : t.kind ≠ .array := by
  obtain ⟨r, -, accepted⟩ := bind_eq_ok.mp classified
  unfold asResult at accepted
  split at accepted
  · cases accepted
  next noArray =>
    intro kind
    exact noArray t.head t.levels t.params (by rw [Except.ok.inj accepted, ← kind])

end Readable

open Readable

/-- Decoding complains of a value exactly if a path leads to it, on which all fields before decode,
and then with the only complaint that is true of it. It complains of a type exactly if the type is
that of the next field, or that of an array that is a field. There is one path to what is complained
of. And the constructor of a block, once its tag and its fields are accepted, is always found. -/
theorem decodeAt_complains {type : Term} {r : Readable}
    (classified : ofResultType env fuel type = .ok r) (v : Value) :
    (∀ cause, decodeAt env fuel type v = .error (.value cause) ↔
      ∃ path c s, Leads env fuel r v path c s ∧
        ∀ other : IllFormedValue, other.Describes env c s ↔ other = cause) ∧
    (∀ cause, decodeAt env fuel type v = .error (.type cause) ↔
      ∃ path c s, Leads env fuel r v path c s ∧
        ((∃ k field w, ComesTo env fuel c s k field w ∧ ofType env fuel field = .error cause) ∨
          path ≠ [] ∧ ∃ t, c = .primitive t ∧ t.kind = .array ∧
            cause = .unsupportedPrimitive (c.render env) .array)) ∧
    (∀ path path' c c' s s' e e', Leads env fuel r v path c s → FailsAt env fuel c s e →
      Leads env fuel r v path' c' s' → FailsAt env fuel c' s' e' →
        path = path' ∧ c = c' ∧ s = s' ∧ e = e') ∧
    ∀ path t tag fields s, Leads env fuel r v path (.inductiveType t) (.block tag fields) →
      t.blockSignature env tag fields.length = .ok s →
        ∃ c, env.constructor? t.head s.index = some c := by
  have accepted := classified
  have classified := ofType_of_ofResultType classified
  have decodes : decodeAt env fuel type v = r.decode env fuel v := by
    rw [decodeAt, accepted]
    rfl
  rw [decodes]
  refine ⟨fun cause => ?_, fun cause => ?_, ?_, ?_⟩
  · rw [decode_eq_error_iff classified]
    refine exists_congr fun path => exists_congr fun c => exists_congr fun s => ?_
    refine and_congr_right fun leads => ?_
    obtain ⟨field, classifiedField⟩ := leads.exists_ofType classified
    exact failsAt_value_iff classifiedField
  · rw [decode_eq_error_iff classified]
    refine exists_congr fun path => exists_congr fun c => exists_congr fun s => ?_
    refine and_congr_right fun leads => ?_
    rw [failsAt_type_iff]
    refine or_congr_right ⟨?_, And.right⟩
    rintro ⟨t, rfl, kind, same⟩
    refine ⟨?_, t, rfl, kind, same⟩
    rintro rfl
    cases leads
    exact kind_ne_array_of_ofResultType accepted kind
  · intro path path' c c' s s' e e' leads fails leads' fails'
    exact leads.unique classified fails leads' fails'
  · intro path t tag fields s leads signature
    obtain ⟨field, classifiedField⟩ := leads.exists_ofType classified
    obtain ⟨d, declares⟩ := declares_of_ofType classifiedField
    obtain ⟨c, -, signs, -⟩ := InductiveType.exists_of_blockSignature declares signature
    exact ⟨c, (declares.constructor?_eq s.index).trans signs.declared⟩

namespace Prelude

/-- A list whose second element is to be a number, but is an immediate that numbers no constant. -/
theorem decodeAt_complains_element :
    ofResultType environment defaultFuel (Readable.inductiveType natListType).toTerm =
        .ok (.inductiveType natListType) ∧
      decodeAt environment defaultFuel (Readable.inductiveType natListType).toTerm
          (.block 0 [.immediate 0, .block 0 [.immediate 5, .immediate 0]]) =
        .error (.value (.immediateOrdinal (natType.render environment) 5 1)) := by
  have classified : ofResultType environment defaultFuel
      (Readable.inductiveType natListType).toTerm = .ok (.inductiveType natListType) := rfl
  refine ⟨classified, ?_⟩
  apply ((decodeAt_complains classified _).1 _).mpr
  refine ⟨[1, 0], .inductiveType natType, .immediate 5, ?_, fun other => ?_⟩
  · refine .field (k := 1) (.field rfl rfl rfl rfl rfl rfl)
      (show _ = Except.ok (Readable.inductiveType natListType) from rfl) ?_
    exact .field (k := 0) (.field rfl rfl rfl rfl rfl rfl) rfl .root
  · rw [IllFormedValue.describes_immediate_iff (d := environment.inductives[1]) rfl]
    exact and_iff_right (.inr (by decide))

end Prelude

end Readback
