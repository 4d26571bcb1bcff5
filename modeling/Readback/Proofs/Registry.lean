import Readback.Evaluation.Registry
import Readback.Proofs.FreshName
import Mathlib.Data.List.Basic

/-!
# Runs of a registry

A registry changes by insertions, reservations and invocations, in any order. Seen through the
artifacts as they were built, it is a map in which each identifier is written once. Its names are
never given back, so that a reserved symbol differs from all names before it.

## Main definitions

* `Registry.Op`, `Registry.apply`, `Registry.run` — the changes of a registry, and runs of them
* `Registry.of` — a new registry after changes
* `Registry.handedOut` — the symbols that a run reserves
* `Registry.built?` — the artifact under an identifier as it was built

## Main statements

* `Registry.built?_run`, `Registry.exists_first_insert`, `Registry.exists_lookup?_of_insert` — the
  first insertion under an identifier stays
* `Registry.isUsed_run` — a used name stays used
* `Registry.reserve_not_mem` — a reserved symbol is no used name
* `Registry.handedOut_subset`, `Registry.symbolsTaken_run` — which names are used after a run
-/

namespace Readback

variable {Entry : Type}

/-- The artifact before it was run. -/
def Artifact.asBuilt (a : Artifact Entry) : Artifact Entry := { a with invoked := false }

/-- A change of a registry. -/
inductive Registry.Op (Entry : Type)
  | insert (a : Artifact Entry)
  | reserve (base : String)
  | invoke (id : String)

/-- The artifact that an operation inserts under an identifier. -/
def Registry.Op.inserts? (id : String) : Op Entry → Option (Artifact Entry)
  | .insert a => if a.id = id then some a else none
  | _ => none

namespace Registry

variable {r : Registry Entry} {id name : String}

/-- The registry after an operation. -/
def apply (r : Registry Entry) : Op Entry → Registry Entry
  | .insert a => (r.insert a).2
  | .reserve base => (r.reserve base).2
  | .invoke id => r.markInvoked id

/-- The registry after operations, one after the other. -/
def run (r : Registry Entry) (ops : List (Op Entry)) : Registry Entry := ops.foldl apply r

/-- A new registry after operations. -/
def of (ops : List (Op Entry)) : Registry Entry := run {} ops

/-- The symbols that operations reserve, one after the other. -/
def handedOut (r : Registry Entry) : List (Op Entry) → List String
  | [] => []
  | .reserve base :: ops => (r.reserve base).1 :: handedOut (r.apply (.reserve base)) ops
  | op :: ops => handedOut (r.apply op) ops

/-- The artifact that is registered under an identifier, as it was built. -/
def built? (r : Registry Entry) (id : String) : Option (Artifact Entry) :=
  (r.lookup? id).map Artifact.asBuilt

/-! ## Identifiers are written once -/

/-- An insertion under a taken identifier answers the registered artifact and changes nothing. -/
theorem insert_of_lookup? {a b : Artifact Entry} (taken : r.lookup? a.id = some b) :
    r.insert a = (b, r) := by
  simp only [insert, taken]

theorem insert_of_free {a : Artifact Entry} (free : r.lookup? a.id = none) :
    r.insert a =
      (a, { artifacts := r.artifacts ++ [a], symbols := r.symbols.insert a.symbol }) := by
  simp only [insert, free]

/-- An insertion changes nothing or adds the artifact and its symbol. -/
theorem insert_cases (r : Registry Entry) (a : Artifact Entry) :
    (r.insert a).2 = r ∨ (r.insert a).2 =
      { artifacts := r.artifacts ++ [a], symbols := r.symbols.insert a.symbol } := by
  cases found : r.lookup? a.id with
  | some b => exact .inl (congrArg Prod.snd (insert_of_lookup? found))
  | none => exact .inr (congrArg Prod.snd (insert_of_free found))

@[simp] theorem built?_reserve (r : Registry Entry) (base : String) :
    (r.reserve base).2.built? id = r.built? id := rfl

/-- Running an artifact marks it and no other one. -/
theorem lookup?_markInvoked (r : Registry Entry) (name id : String) :
    (r.markInvoked name).lookup? id =
      (r.lookup? id).map fun a => { a with invoked := a.invoked || id = name } := by
  unfold lookup? markInvoked
  have sameId : ((fun a : Artifact Entry => decide (a.id = id)) ∘ fun a =>
      if a.id = name then { a with invoked := true } else a) = fun a => decide (a.id = id) := by
    funext a
    simp only [Function.comp_apply]
    split <;> rfl
  rw [List.find?_map, sameId]
  cases found : r.artifacts.find? fun a => decide (a.id = id) with
  | none => rfl
  | some a =>
    obtain rfl : a.id = id := by simpa using List.find?_some found
    by_cases same : a.id = name <;> simp [same]

/-- Running an artifact leaves it as it was built. -/
@[simp] theorem built?_markInvoked (r : Registry Entry) (invoked : String) :
    (r.markInvoked invoked).built? id = r.built? id := by
  unfold built?
  rw [lookup?_markInvoked, Option.map_map]
  rfl

theorem markInvoked_of_free (free : r.lookup? id = none) : r.markInvoked id = r := by
  have unregistered : ∀ a ∈ r.artifacts, a.id ≠ id := by
    simpa [lookup?] using free
  have same : r.artifacts.map (fun a => if a.id = id then { a with invoked := true } else a) =
      r.artifacts := by
    refine (List.map_congr_left fun a member => ?_).trans (List.map_id _)
    rw [if_neg (unregistered a member), id_def]
  rw [markInvoked, same]

/-- A new artifact stands behind the others, which are as they were. -/
theorem artifacts_insert_markInvoked {a : Artifact Entry} (free : r.lookup? a.id = none) :
    ((r.insert a).2.markInvoked a.id).artifacts = r.artifacts ++ [{ a with invoked := true }] := by
  have others := congrArg Registry.artifacts (markInvoked_of_free free)
  rw [insert_of_free free]
  simp only [markInvoked, List.map_append, List.map_cons, List.map_nil, if_true] at others ⊢
  rw [others]

/-- An insertion writes a free identifier. -/
theorem built?_insert (r : Registry Entry) (a : Artifact Entry) :
    (r.insert a).2.built? id = (r.built? id).or ((Op.inserts? id (.insert a)).map .asBuilt) := by
  cases found : r.lookup? a.id with
  | some b =>
    rw [insert_of_lookup? found]
    by_cases same : a.id = id
    · subst same
      simp [built?, found]
    · simp [Op.inserts?, same]
  | none =>
    rw [insert_of_free found]
    by_cases same : a.id = id
    · subst same
      unfold lookup? at found
      simp [built?, lookup?, Op.inserts?, List.find?_append, found]
    · simp [built?, lookup?, Op.inserts?, List.find?_append, same]

theorem built?_apply (r : Registry Entry) (op : Op Entry) :
    (r.apply op).built? id = (r.built? id).or ((op.inserts? id).map .asBuilt) := by
  cases op with
  | insert a => exact built?_insert r a
  | reserve base => simp [apply, Op.inserts?]
  | invoke id => simp [apply, Op.inserts?]

/-- After a run the artifact under an identifier is the one from the start or else the first that
was inserted under the identifier. -/
theorem built?_run (r : Registry Entry) (ops : List (Op Entry)) :
    (r.run ops).built? id =
      (r.built? id).or ((ops.findSome? (Op.inserts? id)).map .asBuilt) := by
  induction ops generalizing r with
  | nil => simp [run]
  | cons op ops ih =>
    rw [run, List.foldl_cons, ← run, ih, built?_apply, List.findSome?_cons, Option.or_assoc]
    cases op.inserts? id <;> rfl

/-- The artifact under an identifier is the first that was inserted there. -/
theorem exists_first_insert {ops : List (Op Entry)} {id : String}
    {b : Artifact Entry} (found : (of ops).lookup? id = some b) :
    ∃ first, ops.findSome? (Op.inserts? id) = some first ∧ b.asBuilt = first.asBuilt := by
  have built : (of ops).built? id = _ := built?_run {} ops
  rw [built?, found] at built
  obtain ⟨first, inserted, same⟩ := Option.map_eq_some_iff.mp built.symm
  exact ⟨first, inserted, same.symm⟩

/-- Whatever was inserted under an identifier, an artifact is registered there, and it is the first
that was inserted. -/
theorem exists_lookup?_of_insert {ops : List (Op Entry)} {id : String} {first : Artifact Entry}
    (inserted : ops.findSome? (Op.inserts? id) = some first) :
    ∃ b, (of ops).lookup? id = some b ∧ b.asBuilt = first.asBuilt := by
  have built : (of ops).built? id = some first.asBuilt := by
    rw [of, built?_run, inserted]
    rfl
  exact Option.map_eq_some_iff.mp built

/-! ## Names are never given back -/

/-- The symbols of the artifacts are taken. -/
def SymbolsTaken (r : Registry Entry) : Prop := ∀ a ∈ r.artifacts, a.symbol ∈ r.symbols

/-- A reserved symbol is no used name. -/
theorem reserve_not_mem (r : Registry Entry) (base : String) :
    (r.reserve base).1 ∉ r.usedNames :=
  freshName_not_mem base r.usedNames

theorem reserve_ne_id {a : Artifact Entry} (member : a ∈ r.artifacts) (base : String) :
    (r.reserve base).1 ≠ a.id := by
  intro same
  refine reserve_not_mem r base (List.mem_append_left _ ?_)
  rw [same]
  exact List.mem_map_of_mem member

theorem reserve_ne_symbol (taken : r.SymbolsTaken) {a : Artifact Entry} (member : a ∈ r.artifacts)
    (base : String) : (r.reserve base).1 ≠ a.symbol := by
  intro same
  refine reserve_not_mem r base (List.mem_append_right _ ?_)
  rw [same]
  exact taken a member

theorem reserve_mem (r : Registry Entry) (base : String) :
    (r.reserve base).1 ∈ (r.reserve base).2.symbols :=
  List.mem_insert_self

theorem symbols_subset_apply (r : Registry Entry) (op : Op Entry) :
    r.symbols ⊆ (r.apply op).symbols := by
  intro name member
  cases op with
  | insert a =>
    rw [apply]
    rcases insert_cases r a with same | grown
    · rwa [same]
    · rw [grown]
      exact List.mem_insert_of_mem member
  | reserve base => exact List.mem_insert_of_mem member
  | invoke id => exact member

theorem symbols_subset_run (r : Registry Entry) (ops : List (Op Entry)) :
    r.symbols ⊆ (r.run ops).symbols := by
  induction ops generalizing r with
  | nil => exact List.Subset.refl _
  | cons op ops ih => exact List.Subset.trans (symbols_subset_apply r op) (ih (r.apply op))

/-- Running an artifact changes nothing else about the artifacts. -/
theorem map_markInvoked {β : Type} (view : Artifact Entry → β)
    (blind : ∀ a, view { a with invoked := true } = view a) (r : Registry Entry)
    (invoked : String) : (r.markInvoked invoked).artifacts.map view = r.artifacts.map view := by
  rw [markInvoked, List.map_map]
  apply List.map_congr_left
  intro a _
  rw [Function.comp_apply]
  split
  · exact blind a
  · rfl

theorem ids_subset_apply (r : Registry Entry) (op : Op Entry) :
    r.artifacts.map (·.id) ⊆ (r.apply op).artifacts.map (·.id) := by
  intro name member
  cases op with
  | insert a =>
    rw [apply]
    rcases insert_cases r a with same | grown
    · rwa [same]
    · rw [grown, List.map_append]
      exact List.mem_append_left _ member
  | reserve base => exact member
  | invoke id =>
    rw [apply, map_markInvoked _ fun _ => rfl]
    exact member

/-- A used name stays used. -/
theorem isUsed_run (used : r.isUsed name) (ops : List (Op Entry)) : (r.run ops).isUsed name := by
  induction ops generalizing r with
  | nil => exact used
  | cons op ops ih =>
    refine ih (r := r.apply op) ?_
    simp only [isUsed, usedNames, decide_eq_true_eq, List.mem_append] at used ⊢
    rcases used with identifier | symbol
    · exact .inl (ids_subset_apply r op identifier)
    · exact .inr (symbols_subset_apply r op symbol)

/-- The symbols that a run reserves are taken after it. -/
theorem handedOut_subset (r : Registry Entry) (ops : List (Op Entry)) :
    r.handedOut ops ⊆ (r.run ops).symbols := by
  induction ops generalizing r with
  | nil => exact List.nil_subset _
  | cons op ops ih =>
    cases op with
    | reserve base =>
      rw [handedOut, List.cons_subset]
      refine ⟨?_, ih _⟩
      exact symbols_subset_run (r.apply (.reserve base)) ops (reserve_mem r base)
    | insert a => exact ih _
    | invoke id => exact ih _

theorem symbolsTaken_apply (taken : r.SymbolsTaken) (op : Op Entry) :
    (r.apply op).SymbolsTaken := by
  intro a member
  cases op with
  | insert b =>
    rw [apply] at member ⊢
    rcases insert_cases r b with same | grown
    · rw [same] at member ⊢
      exact taken a member
    · rw [grown] at member ⊢
      rcases List.mem_append.mp member with old | new
      · exact List.mem_insert_of_mem (taken a old)
      · obtain rfl := List.mem_singleton.mp new
        exact List.mem_insert_self
  | reserve base => exact List.mem_insert_of_mem (taken a member)
  | invoke id =>
    obtain ⟨b, old, rfl⟩ := List.mem_map.mp member
    have symbol := taken b old
    split <;> exact symbol

/-- Along a run the symbols of the artifacts are taken. -/
theorem symbolsTaken_run (taken : r.SymbolsTaken) (ops : List (Op Entry)) :
    (r.run ops).SymbolsTaken := by
  induction ops generalizing r with
  | nil => exact taken
  | cons op ops ih => exact ih (symbolsTaken_apply taken op)

theorem symbolsTaken_of (ops : List (Op Entry)) : (of ops).SymbolsTaken := by
  refine symbolsTaken_run ?_ ops
  intro a member
  cases member

end Registry

end Readback
