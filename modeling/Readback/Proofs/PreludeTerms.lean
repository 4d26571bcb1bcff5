import Readback.Proofs.Complaint
import Readback.Proofs.Conversion
import Readback.Proofs.Extension
import Readback.Proofs.ReduceFirst

/-!
# Terms of the prelude types

Numbers, lists and optional terms are built from the end, while their native values are read from
the front. Both give the same terms, in every extension of the prelude. A list decodes when all its
elements do, at the type of the elements as it is written, and otherwise it fails as the first
element does that cannot be decoded.

## Main definitions

* `Prelude.natValue`, `Prelude.listValue`, `Prelude.optionValue` — native values of the types

## Main statements

* `decodeAt_eq_decodeField` — a value is read as a result as it is read as a field
* `Prelude.decodeAt_listValue` — a list is read element by element
* `Prelude.builders_match_decoding` — the terms that are decoded are those that are built
-/

namespace Readback

variable {env : Environment} {fuel : Nat}

/-- A value is read as a result as it is read as a field. Arrays, which are refused as the types of
results, are refused as fields when their value is read, for the same reason. -/
theorem decodeAt_eq_decodeField (env : Environment) (fuel : Nat) (type : Term) (v : Value) :
    decodeAt env fuel type v = decodeField env fuel type v := by
  rw [decodeAt, decodeField, Readable.ofResultType]
  cases Readable.ofType env fuel type with
  | error e => rfl
  | ok r =>
    cases r with
    | inductiveType t => rfl
    | primitive t =>
      obtain ⟨head, kind, levels, params⟩ := t
      cases kind with
      | array => cases v <;> rfl
      | _ => rfl

/-- A block whose tag and number of fields fit a constructor is read field by field. -/
theorem InductiveType.decode_block_eq {t : InductiveType} {s : Signature} {c : ConstructorDecl}
    {tag : UInt8} {values : List Value} (signature : t.blockSignature env tag values.length = .ok s)
    (declared : env.constructor? t.head s.index = some c) :
    (Readable.inductiveType t).decode env fuel (.block tag values) =
      decodeFields env fuel t.params c.fields values >>= fun args =>
        .ok ((t.constructor s).mkApp args) := by
  have types : t.fieldTypes env s = .ok c.fields := by
    rw [fieldTypes, declared]
  rw [Readable.decode, signature]
  change t.fieldTypes env s >>= _ = _
  rw [types]
  rfl

namespace Prelude

/-- An inductive type with as many parameters as it is declared with is read without reduction. -/
theorem decodeAt_applied {name : Name} {d : InductiveDecl} {params : List Term}
    (found : env.inductive? name = some d) (count : params.length = d.params.length)
    (supported : (Layout.of d).isSupported = true) (v : Value) :
    decodeAt env fuel (applied name params) v =
      (Readable.inductiveType ⟨name, .empty, params, .of d⟩).decode env fuel v := by
  have spine : (applied name params).spine = (.ind name .empty, params) :=
    Term.spine_mkApp rfl params
  have readOff := Readable.ReadOff.inductiveType spine found (Nat.le_of_eq count.symm) supported
  rw [List.take_of_length_le (Nat.le_of_eq count)] at readOff
  have classified : Readable.ofType env fuel (applied name params) =
      .ok (.inductiveType ⟨name, .empty, params, .of d⟩) :=
    Readable.ofType_eq_ok_iff.mpr ⟨_, readOff.headNormal.whnfWithin fuel fuel, readOff⟩
  rw [decodeAt_eq_decodeField, decodeField, classified]
  rfl

/-! ## Native values -/

/-- The native value of a number: a block for each successor around the constant zero. -/
def natValue : Nat → Value
  | 0 => .immediate 0
  | n + 1 => .block 0 [natValue n]

/-- The native value of a list: a block for each element, with the rest of the list behind it. -/
def listValue (items : List Value) : Value :=
  items.foldr (fun item rest => .block 0 [item, rest]) (.immediate 0)

/-- The native value of an optional value. -/
def optionValue : Option Value → Value
  | none => .immediate 0
  | some v => .block 0 [v]

section Extended

variable (extension : environment.Extends env)
include extension

/-- The constructors of the prelude are those of every extension. -/
theorem constructor?_of_extends (ind : Name) (index : Nat) {c : ConstructorDecl}
    (declared : environment.constructor? ind index = some c) :
    env.constructor? ind index = some c := by
  obtain ⟨d, found, listed⟩ := Option.bind_eq_some_iff.mp declared
  rw [Environment.constructor?, extension.inductives ind d found]
  exact listed

/-! ## Numbers -/

theorem decodeAt_nat (v : Value) : decodeAt env fuel (indTerm natName) v =
    (Readable.inductiveType natType).decode env fuel v :=
  show decodeAt env fuel (applied natName []) v = _ from
    decodeAt_applied (extension.inductives natName _ rfl) rfl rfl v

/-- What is inside a successor is a number again. -/
theorem decodeAt_successor (v : Value) : decodeAt env fuel (indTerm natName) (.block 0 [v]) =
    decodeAt env fuel (indTerm natName) v >>= fun n => .ok ((ctorTerm natName 1).mkApp [n]) := by
  have declared := constructor?_of_extends extension natName 1 rfl
  rw [decodeAt_nat extension,
    InductiveType.decode_block_eq (t := natType) (s := ⟨1, ⟨"S"⟩, 1⟩) rfl declared]
  simp only [decodeFields_cons, bind_assoc, decodeAt_eq_decodeField]
  rfl

/-- A number is read from the outermost successor on. -/
theorem decodeAt_natValue (n : Nat) :
    decodeAt env fuel (indTerm natName) (natValue n) = .ok (nat n) := by
  induction n with
  | zero => exact decodeAt_nat extension _
  | succ n ih =>
    rw [natValue, decodeAt_successor extension, ih]
    rfl

/-! ## Lists -/

theorem decodeAt_list (elem : Term) (v : Value) : decodeAt env fuel (applied listName [elem]) v =
    (Readable.inductiveType ⟨listName, .empty, [elem], .of environment.inductives[3]⟩).decode env
      fuel v :=
  decodeAt_applied (extension.inductives listName _ rfl) rfl rfl v

/-- An element is read at the type that the list is given, and before the rest of the list. -/
theorem decodeAt_cons (elem : Term) (v rest : Value) :
    decodeAt env fuel (applied listName [elem]) (.block 0 [v, rest]) =
      decodeAt env fuel elem v >>= fun item =>
        decodeAt env fuel (applied listName [elem]) rest >>= fun tail =>
          .ok ((ctorTerm listName 1).mkApp [elem, item, tail]) := by
  have declared := constructor?_of_extends extension listName 1 rfl
  rw [decodeAt_list extension, InductiveType.decode_block_eq (s := ⟨1, ⟨"cons"⟩, 2⟩) rfl declared]
  simp only [decodeFields_cons, bind_assoc, decodeAt_eq_decodeField]
  rfl

/-- A list is read element by element, each at the type of the elements. -/
theorem decodeAt_listValue (elem : Term) (vs : List Value) :
    decodeAt env fuel (applied listName [elem]) (listValue vs) =
      vs.mapM (decodeAt env fuel elem) >>= fun items => .ok (list elem items) := by
  induction vs with
  | nil => exact decodeAt_list extension elem _
  | cons v vs ih =>
    have first : listValue (v :: vs) = .block 0 [v, listValue vs] := rfl
    rw [first, decodeAt_cons extension, ih, List.mapM_cons]
    simp only [bind_assoc]
    rfl

/-! ## Optional values -/

theorem decodeAt_option (elem : Term) (v : Value) :
    decodeAt env fuel (applied optionName [elem]) v =
      (Readable.inductiveType ⟨optionName, .empty, [elem], .of environment.inductives[2]⟩).decode
        env fuel v :=
  decodeAt_applied (extension.inductives optionName _ rfl) rfl rfl v

theorem decodeAt_some (elem : Term) (v : Value) :
    decodeAt env fuel (applied optionName [elem]) (.block 0 [v]) =
      decodeAt env fuel elem v >>= fun item => .ok (option elem (some item)) := by
  have declared := constructor?_of_extends extension optionName 1 rfl
  rw [decodeAt_option extension, InductiveType.decode_block_eq (s := ⟨1, ⟨"Some"⟩, 1⟩) rfl declared]
  simp only [decodeFields_cons, bind_assoc, decodeAt_eq_decodeField]
  rfl

end Extended

/-- In every extension of the prelude, decoding gives back the terms that are built. A number of
nested blocks is that number. A chain of blocks is the list of its elements if these decode at the
type of the elements, and otherwise it fails as the first element does that cannot be decoded; an
optional value decodes or fails as what it holds. A value cannot be decoded either at a type that
cannot be classified. -/
theorem builders_match_decoding (extension : environment.Extends env) (fuel : Nat) :
    (∀ n, decodeAt env fuel (indTerm natName) (natValue n) = .ok (nat n)) ∧
    (∀ elem vs items, List.Forall₂ (fun v item => decodeAt env fuel elem v = .ok item) vs items →
      decodeAt env fuel (applied listName [elem]) (listValue vs) = .ok (list elem items)) ∧
    (∀ elem before items v after e,
      List.Forall₂ (fun v item => decodeAt env fuel elem v = .ok item) before items →
      decodeAt env fuel elem v = .error e →
      decodeAt env fuel (applied listName [elem]) (listValue (before ++ v :: after)) = .error e) ∧
    (∀ elem, decodeAt env fuel (applied optionName [elem]) (optionValue none) =
      .ok (option elem none)) ∧
    (∀ elem v item, decodeAt env fuel elem v = .ok item →
      decodeAt env fuel (applied optionName [elem]) (optionValue (some v)) =
        .ok (option elem (some item))) ∧
    (∀ elem v e, decodeAt env fuel elem v = .error e →
      decodeAt env fuel (applied optionName [elem]) (optionValue (some v)) = .error e) ∧
    ∀ elem v e, Readable.ofType env fuel elem = .error e →
      decodeAt env fuel elem v = .error (.type e) := by
  refine ⟨decodeAt_natValue extension, ?_, ?_, fun elem => decodeAt_option extension elem _,
    ?_, ?_, ?_⟩
  · intro elem vs items decoded
    rw [decodeAt_listValue extension, mapM_eq_ok.mpr decoded]
    rfl
  · intro elem before items v after e decoded failed
    rw [decodeAt_listValue extension, List.mapM_append, mapM_eq_ok.mpr decoded, List.mapM_cons,
      failed]
    rfl
  · intro elem v item decoded
    rw [optionValue, decodeAt_some extension, decoded]
    rfl
  · intro elem v e failed
    rw [optionValue, decodeAt_some extension, failed]
    rfl
  · intro elem v e unclassified
    rw [decodeAt_eq_decodeField, decodeField, unclassified]
    rfl

theorem extends_aliases : environment.Extends aliases := by
  have number : (Declaration.constant ⟨aliasName, smallTypes, some (indTerm natName)⟩).IsNew
      environment := rfl
  exact (Environment.extends_declare number).trans (Environment.extends_declare rfl)

/-- The type of the elements is another name for the numbers, and the list keeps it. Of two elements
that are no numbers, the first one is complained about. -/
theorem builders_match_decoding_aliases :
    let number : Term := .const aliasName .empty
    environment.Extends aliases ∧
      decodeAt aliases defaultFuel (applied listName [number])
        (listValue [natValue 2, natValue 0]) = .ok (list number [nat 2, nat 0]) ∧
      decodeAt aliases defaultFuel (applied listName [number])
        (listValue [natValue 1, .immediate 7, .block 9 []]) =
          .error (.value (.immediateOrdinal "nat" 7 1)) := by
  intro number
  obtain ⟨-, decodes, fails, -⟩ := builders_match_decoding extends_aliases defaultFuel
  have two : decodeAt aliases defaultFuel number (natValue 2) = .ok (nat 2) := rfl
  have zero : decodeAt aliases defaultFuel number (natValue 0) = .ok (nat 0) := rfl
  have one : decodeAt aliases defaultFuel number (natValue 1) = .ok (nat 1) := rfl
  have seven : decodeAt aliases defaultFuel number (.immediate 7) =
      .error (.value (.immediateOrdinal "nat" 7 1)) := by decide +kernel
  exact ⟨extends_aliases, decodes number _ _ (.cons two (.cons zero .nil)),
    fails number [natValue 1] [nat 1] (.immediate 7) [.block 9 []] _ (.cons one .nil) seven⟩

end Prelude

end Readback
