import Readback.Prelude
import Readback.Proofs.Classification
import Readback.Proofs.Inhabitant

/-!
# Native values and canonical inhabitants

Encoding and decoding are inverse to each other between the canonical inhabitants of a readable type
and the native values that can be read back at it.

## Main statements

* `decodeAt_encode?` — every canonical inhabitant has a native value, and decodes to itself
* `encode?_decodeAt` — whatever decodes to a term is the native value of this canonical inhabitant
-/

namespace Readback

variable {env : Environment} {fuel : Nat} {type : Term} {d : InductiveDecl}

namespace InductiveType

variable {t : InductiveType} {s : Signature} {n : Nat}

/-- The constructor of a declared type is the one at its position in the declaration. -/
theorem Declares.constructor?_eq (declares : t.Declares env d) (index : Nat) :
    env.constructor? t.head index = d.constructor? index := by
  simp only [Environment.constructor?, declares.found, Option.bind_some]

/-- The number of a constructor with fields is a tag. -/
theorem Declares.tag_toNat (declares : t.Declares env d)
    (numbered : (Layout.of d).blocks[n]? = some s) :
    n < UInt8.size ∧ (UInt8.ofNat n).toNat = n := by
  have bound : n < (Layout.of d).blocks.length := (List.getElem?_eq_some_iff.mp numbered).1
  have enough : (Layout.of d).blocks.length ≤ 251 := of_decide_eq_true declares.supported
  have small : n < UInt8.size := by
    simp only [UInt8.size]
    omega
  exact ⟨small, UInt8.toNat_ofNat_of_lt' small⟩

theorem decode_constant (declares : t.Declares env d)
    (numbered : (Layout.of d).constants[n]? = some s) :
    (Readable.inductiveType t).decode env fuel (.immediate n) =
      .ok ((t.constructor s).mkApp t.params) := by
  have numbered' : t.layout.constants[n]? = some s := declares.layout_eq ▸ numbered
  simp [Readable.decode, decodeImmediate, Layout.constant?, numbered']

theorem decode_block {c : ConstructorDecl} {values : List Value} {args : List Term}
    (declares : t.Declares env d) (numbered : (Layout.of d).blocks[n]? = some s)
    (declared : d.constructor? s.index = some c) (count : values.length = s.arity)
    (decoded : decodeFields env fuel t.params c.fields values = .ok args) :
    (Readable.inductiveType t).decode env fuel (.block (.ofNat n) values) =
      .ok ((t.constructor s).mkApp args) := by
  have tag : t.layout.block? (.ofNat n) = some s := by
    rw [Layout.block?, (declares.tag_toNat numbered).2, declares.layout_eq, numbered]
  have types : t.fieldTypes env s = .ok c.fields := by
    rw [fieldTypes, declares.constructor?_eq, declared]
  simp [Readable.decode, blockSignature, tag, count, types, decoded, bind, Except.bind, pure,
    Except.pure]

/-- Only the numbers of constants decode as immediates. -/
theorem eq_constant_of_decodeImmediate {ordinal : Int} {term : Term} (declares : t.Declares env d)
    (decoded : t.decodeImmediate env ordinal = .ok term) :
    ∃ (n : Nat) (s : Signature), ordinal = n ∧ (Layout.of d).constants[n]? = some s ∧
      term = (t.constructor s).mkApp t.params := by
  unfold decodeImmediate at decoded
  dsimp only at decoded
  split at decoded
  next s found =>
    split at found
    next nonneg =>
      rw [Layout.constant?, declares.layout_eq] at found
      refine ⟨ordinal.toNat, s, ?_, found, (Except.ok.inj decoded).symm⟩
      exact (Int.toNat_of_nonneg nonneg).symm
    · cases found
  · cases decoded

/-- Only the numbers of constructors with fields are tags, and only with as many fields. -/
theorem block_of_blockSignature {tag : UInt8} {count : Nat} (declares : t.Declares env d)
    (found : t.blockSignature env tag count = .ok s) :
    (Layout.of d).blocks[tag.toNat]? = some s ∧ count = s.arity := by
  unfold blockSignature at found
  split at found
  · cases found
  next signature numbered =>
    split at found
    next fits =>
      obtain rfl := Except.ok.inj found
      rw [Layout.block?, declares.layout_eq] at numbered
      exact ⟨numbered, fits⟩
    · cases found

end InductiveType

theorem PrimitiveUse.inhabits_of_decode {t : PrimitiveUse} {v : Value} {term : Term}
    (decoded : t.decode env v = .ok term) :
    Inhabits env fuel (.primitive t) term ∧ term.encode? env = some v := by
  unfold decode at decoded
  split at decoded
  next kind =>
    split at decoded
    next n =>
      obtain rfl := Except.ok.inj decoded
      exact ⟨.int n kind, rfl⟩
    · cases decoded
  next kind =>
    split at decoded
    next x read =>
      obtain rfl := Except.ok.inj decoded
      obtain rfl := Value.float?_eq_some_iff.mp read
      exact ⟨.float x kind, rfl⟩
    · cases decoded
  · cases decoded

/-! ## Decoding after encoding -/

mutual

/-- A canonical inhabitant of a classified type has a native value that decodes to it. -/
theorem Inhabits.exists_decode_eq {type : Term} : ∀ {r : Readable} {t : Term},
    Inhabits env fuel r t → Readable.ofType env fuel type = .ok r →
      ∃ v, t.encode? env = some v ∧ r.decode env fuel v = .ok t
  | .primitive t, _, .int n kind, _ =>
    ⟨.immediate n, rfl, by simp [Readable.decode, PrimitiveUse.decode, kind]⟩
  | .primitive t, _, .float x kind, _ => by
    have read : (Value.ofFloat x).float? = some x := Value.float?_eq_some_iff.mpr rfl
    refine ⟨.ofFloat x, rfl, ?_⟩
    simp only [Value.ofFloat] at read ⊢
    simp only [Readable.decode, PrimitiveUse.decode, kind, read]
  | _, _, @Inhabits.constructor _ _ t index c fields declared inhabitants, classified => by
    obtain ⟨d, declares⟩ := Readable.declares_of_ofType classified
    obtain ⟨values, encoded, count, decoded⟩ := inhabitants.exists_decodeFields_eq
    rw [declares.constructor?_eq] at declared
    rw [Term.encode?_constructor index t.levels fields declares.found declares.params_length,
      encoded, Option.bind_some]
    by_cases noFields : c.arity = 0
    · obtain ⟨n, numbered⟩ := Layout.exists_constant declared noFields
      obtain rfl : fields = [] := by
        rw [← List.length_eq_zero_iff, inhabitants.length_eq]
        exact noFields
      refine ⟨.immediate n, InductiveDecl.encode?_constant numbered, ?_⟩
      rw [InductiveType.decode_constant declares numbered, List.append_nil]
      rfl
    · obtain ⟨n, numbered⟩ := Layout.exists_block declared noFields
      have small := (declares.tag_toNat numbered).1
      exact ⟨.block (.ofNat n) values, InductiveDecl.encode?_block numbered small,
        InductiveType.decode_block declares numbered declared count decoded⟩

/-- Canonical inhabitants of fields have native values that decode to them. -/
theorem FieldsInhabit.exists_decodeFields_eq : ∀ {context types fields : List Term},
    FieldsInhabit env fuel context types fields →
      ∃ values, encodeFields? env 0 fields = some values ∧ values.length = types.length ∧
        decodeFields env fuel context types values = .ok (context ++ fields)
  | context, _, _, .nil => ⟨[], rfl, rfl, by simp [decodeFields]⟩
  | context, type :: types, field :: fields, .cons classified inhabits rest => by
    obtain ⟨v, encoded, decoded⟩ := inhabits.exists_decode_eq classified
    obtain ⟨values, encodedRest, count, decodedRest⟩ := rest.exists_decodeFields_eq
    refine ⟨v :: values, ?_, by simp [count], ?_⟩
    · simp [encodeFields?, encoded, encodedRest]
    · simp [decodeFields, classified, decoded, decodedRest, bind, Except.bind]

end

/-- Every canonical inhabitant of the readable type of a result has a native value, which decodes to
the inhabitant. -/
theorem decodeAt_encode? {r : Readable} {t : Term}
    (classified : Readable.ofResultType env fuel type = .ok r) (inhabits : Inhabits env fuel r t) :
    ∃ v, t.encode? env = some v ∧ decodeAt env fuel type v = .ok t := by
  obtain ⟨v, encoded, decoded⟩ :=
    inhabits.exists_decode_eq (Readable.ofType_of_ofResultType classified)
  refine ⟨v, encoded, ?_⟩
  simp [decodeAt, classified, decoded, bind, Except.bind]

namespace Prelude

/-- The natural numbers as a readable type. -/
def natType : InductiveType := ⟨natName, .empty, [], .of environment.inductives[1]⟩

theorem inhabits_nat (n : Nat) :
    Inhabits environment defaultFuel (.inductiveType natType) (nat n) := by
  induction n with
  | zero =>
    refine .constructor 0 [] rfl ?_
    exact .nil
  | succ n ih =>
    refine .constructor 1 [nat n] rfl ?_
    exact .cons rfl ih .nil

/-- The lists of natural numbers as a readable type. -/
def natListType : InductiveType :=
  ⟨listName, .empty, [indTerm natName], .of environment.inductives[3]⟩

theorem inhabits_list (ns : List Nat) :
    Inhabits environment defaultFuel (.inductiveType natListType)
      (list (indTerm natName) (ns.map nat)) := by
  induction ns with
  | nil =>
    refine .constructor 0 [] rfl ?_
    exact .nil
  | cons n ns ih =>
    refine .constructor 1 [nat n, list (indTerm natName) (ns.map nat)] rfl ?_
    refine .cons (r := .inductiveType natType) rfl (inhabits_nat n) ?_
    exact .cons (r := .inductiveType natListType) rfl ih .nil

/-- The lists of natural numbers, indexed by a number. -/
def natListFamily : Term :=
  .lam ⟨"n"⟩ (indTerm natName) (applied listName [indTerm natName, .var 0])

/-- The pairs of a number and a list that it indexes. -/
def pairType : InductiveType :=
  ⟨sigTName, .empty, [indTerm natName, natListFamily], .of environment.inductives[5]⟩

/-- The number two paired with the list of one and zero. -/
def pair : Term :=
  (ctorTerm sigTName 0).mkApp
    [indTerm natName, natListFamily, nat 2, list (indTerm natName) [nat 1, nat 0]]

/-- A dependent pair, whose second field is typed by a family applied to the first. -/
theorem decodeAt_encode?_pair :
    Readable.ofResultType environment defaultFuel (Readable.inductiveType pairType).toTerm =
        .ok (.inductiveType pairType) ∧
      Inhabits environment defaultFuel (.inductiveType pairType) pair ∧
      ∃ v, pair.encode? environment = some v ∧
        decodeAt environment defaultFuel (Readable.inductiveType pairType).toTerm v = .ok pair := by
  have classified : Readable.ofResultType environment defaultFuel
      (Readable.inductiveType pairType).toTerm = .ok (.inductiveType pairType) := rfl
  have inhabits : Inhabits environment defaultFuel (.inductiveType pairType) pair := by
    refine .constructor 0 [nat 2, list (indTerm natName) [nat 1, nat 0]] rfl ?_
    refine .cons (r := .inductiveType natType) rfl (inhabits_nat 2) ?_
    exact .cons (r := .inductiveType natListType) rfl (inhabits_list [1, 0]) .nil
  exact ⟨classified, inhabits, decodeAt_encode? classified inhabits⟩

end Prelude

/-! ## Encoding after decoding -/

mutual

/-- What decodes at a classified type is a canonical inhabitant with the decoded native value. -/
theorem inhabits_of_decode {type : Term} : ∀ {r : Readable} {v : Value} {t : Term},
    Readable.ofType env fuel type = .ok r → r.decode env fuel v = .ok t →
      Inhabits env fuel r t ∧ t.encode? env = some v
  | .primitive t, .immediate n, _, _, decoded => by
    rw [Readable.decode] at decoded
    exact PrimitiveUse.inhabits_of_decode decoded
  | .primitive t, .block tag values, _, _, decoded => by
    rw [Readable.decode] at decoded
    exact PrimitiveUse.inhabits_of_decode decoded
  | .inductiveType t, .immediate ordinal, _, classified, decoded => by
    obtain ⟨d, declares⟩ := Readable.declares_of_ofType classified
    rw [Readable.decode] at decoded
    obtain ⟨n, s, rfl, numbered, rfl⟩ :=
      InductiveType.eq_constant_of_decodeImmediate declares decoded
    obtain ⟨noFields, c, signs⟩ := Layout.exists_signs_of_constant numbered
    have empty : c.fields = [] := List.length_eq_zero_iff.mp (signs.arity_eq.symm.trans noFields)
    have declared := signs.declared
    rw [← declares.constructor?_eq] at declared
    have inhabits : FieldsInhabit env fuel t.params c.fields [] := by
      rw [empty]
      exact .nil
    have built := Inhabits.constructor s.index [] declared inhabits
    have encoded := Term.encode?_constructor s.index t.levels [] declares.found
      declares.params_length
    rw [List.append_nil] at built encoded
    refine ⟨built, ?_⟩
    rw [InductiveType.constructor, encoded, encodeFields?, Option.bind_some,
      InductiveDecl.encode?_constant numbered]
  | .inductiveType t, .block tag values, _, classified, decoded => by
    obtain ⟨d, declares⟩ := Readable.declares_of_ofType classified
    rw [Readable.decode] at decoded
    obtain ⟨s, signature, decoded⟩ := bind_eq_ok.mp decoded
    obtain ⟨types, typed, decoded⟩ := bind_eq_ok.mp decoded
    obtain ⟨args, decodedFields, decoded⟩ := bind_eq_ok.mp decoded
    obtain rfl := Except.ok.inj decoded
    -- the tag stands for a constructor of the declaration, whose field types were decoded at
    obtain ⟨numbered, count⟩ := InductiveType.block_of_blockSignature declares signature
    obtain ⟨-, c, signs⟩ := Layout.exists_signs_of_block numbered
    have declared := signs.declared
    rw [← declares.constructor?_eq] at declared
    obtain rfl : c.fields = types := by
      simpa [InductiveType.fieldTypes, declared] using typed
    have arity : values.length = c.fields.length := count.trans signs.arity_eq
    obtain ⟨fields, rfl, inhabitants, encoded⟩ :=
      fieldsInhabit_of_decodeFields arity decodedFields
    refine ⟨.constructor s.index fields declared inhabitants, ?_⟩
    rw [InductiveType.constructor, Term.encode?_constructor s.index t.levels fields declares.found
      declares.params_length, encoded, Option.bind_some, InductiveDecl.encode?_block numbered
      (declares.tag_toNat numbered).1, UInt8.ofNat_toNat]

/-- What decodes at the types of fields are canonical inhabitants with the decoded values. -/
theorem fieldsInhabit_of_decodeFields : ∀ {values : List Value} {context types args : List Term},
    values.length = types.length → decodeFields env fuel context types values = .ok args →
      ∃ fields, args = context ++ fields ∧ FieldsInhabit env fuel context types fields ∧
        encodeFields? env 0 fields = some values
  | [], context, [], _, _, decoded => by
    rw [decodeFields] at decoded
    obtain rfl := Except.ok.inj decoded
    exact ⟨[], by simp, .nil, rfl⟩
  | v :: values, context, type :: types, _, count, decoded => by
    rw [decodeFields] at decoded
    obtain ⟨r, classified, decoded⟩ := bind_eq_ok.mp decoded
    obtain ⟨field, decodedField, decodedRest⟩ := bind_eq_ok.mp decoded
    have classified := mapError_eq_ok.mp classified
    obtain ⟨inhabits, encoded⟩ := inhabits_of_decode classified decodedField
    obtain ⟨fields, rfl, inhabitants, encodedRest⟩ :=
      fieldsInhabit_of_decodeFields (Nat.succ.inj count) decodedRest
    refine ⟨field :: fields, by simp, .cons classified inhabits inhabitants, ?_⟩
    rw [encodeFields?, encoded, Option.bind_some, encodedRest, Option.map_some]

end

/-- A value decodes to a term exactly when the term is a canonical inhabitant with that value. -/
theorem decodeAt_eq_ok_iff {v : Value} {t : Term} :
    decodeAt env fuel type v = .ok t ↔
      ∃ r, Readable.ofResultType env fuel type = .ok r ∧ Inhabits env fuel r t ∧
        t.encode? env = some v := by
  constructor
  · intro decoded
    obtain ⟨r, classified, decoded⟩ := bind_eq_ok.mp decoded
    have classified := mapError_eq_ok.mp classified
    obtain ⟨inhabits, encoded⟩ :=
      inhabits_of_decode (Readable.ofType_of_ofResultType classified) decoded
    exact ⟨r, classified, inhabits, encoded⟩
  · rintro ⟨r, classified, inhabits, encoded⟩
    obtain ⟨w, encoded', decoded⟩ :=
      inhabits.exists_decode_eq (Readable.ofType_of_ofResultType classified)
    obtain rfl : v = w := Option.some.inj (encoded.symm.trans encoded')
    exact bind_eq_ok.mpr ⟨r, mapError_eq_ok.mpr classified, decoded⟩

/-- What decodes is exactly the native values of canonical inhabitants. So different values never
decode to one term, and a value of no canonical inhabitant is refused. -/
theorem encode?_decodeAt (env : Environment) (fuel : Nat) (type : Term) :
    (∀ v t, decodeAt env fuel type v = .ok t ↔
      ∃ r, Readable.ofResultType env fuel type = .ok r ∧ Inhabits env fuel r t ∧
        t.encode? env = some v) ∧
    (∀ v w t, decodeAt env fuel type v = .ok t → decodeAt env fuel type w = .ok t → v = w) ∧
    ∀ v, (∀ r t, Readable.ofResultType env fuel type = .ok r → Inhabits env fuel r t →
      t.encode? env ≠ some v) → ∃ e, decodeAt env fuel type v = .error e := by
  refine ⟨fun v t => decodeAt_eq_ok_iff, ?_, ?_⟩
  · intro v w t first second
    obtain ⟨_, -, -, encoded⟩ := decodeAt_eq_ok_iff.mp first
    obtain ⟨_, -, -, encoded'⟩ := decodeAt_eq_ok_iff.mp second
    exact Option.some.inj (encoded.symm.trans encoded')
  · intro v noInhabitant
    cases decoded : decodeAt env fuel type v with
    | error e => exact ⟨e, rfl⟩
    | ok t =>
      obtain ⟨r, classified, inhabits, encoded⟩ := decodeAt_eq_ok_iff.mp decoded
      exact absurd encoded (noInhabitant r t classified inhabits)

end Readback
