import Readback.Proofs.History
import Mathlib.Data.List.Nodup

/-!
# Native names

A native symbol is given once. A registry hands out no name that it knows, whatever was done to it,
and the builds of a session take their symbols from it. So no two builds of a session ever have one
symbol, whether they succeed or fail.

## Main definitions

* `Registry.NamedBy` — the artifacts have symbols of their own among given names
* `Session.buildSymbols` — the symbols of the builds in a run

## Main statements

* `Session.namedBy_run` — the artifacts of a session are named by its builds
* `native_names_never_alias` — names are never given twice, to a registry or to a session
-/

namespace Readback

variable {World Source Module Entry : Type}

namespace Registry

variable {r r' : Registry Entry} {names : List String}

/-- The names are taken and all different, and the artifacts have some of them as symbols, each
artifact its own. -/
structure NamedBy (r : Registry Entry) (names : List String) : Prop where
  nodup : names.Nodup
  taken : names ⊆ r.symbols
  sublist : (r.artifacts.map (·.symbol)).Sublist names

/-- A reserved symbol is a new name. -/
theorem NamedBy.reserve_not_mem (named : r.NamedBy names) (base : String) :
    (r.reserve base).1 ∉ names := by
  intro member
  exact Registry.reserve_not_mem r base (List.mem_append_right _ (named.taken member))

theorem NamedBy.eq_of_symbol_eq (named : r.NamedBy names) {a b : Artifact Entry}
    (left : a ∈ r.artifacts) (right : b ∈ r.artifacts) (same : a.symbol = b.symbol) : a = b :=
  List.inj_on_of_nodup_map (named.nodup.sublist named.sublist) left right same

theorem NamedBy.markInvoked (named : r.NamedBy names) (id : String) :
    (r.markInvoked id).NamedBy names where
  nodup := named.nodup
  taken := named.taken
  sublist := by
    rw [map_markInvoked _ fun _ => rfl]
    exact named.sublist

theorem NamedBy.reserve (named : r.NamedBy names) (base : String) :
    (r.reserve base).2.NamedBy (names ++ [(r.reserve base).1]) where
  nodup := by
    rw [← List.concat_eq_append]
    exact List.Nodup.concat (named.reserve_not_mem base) named.nodup
  taken := by
    intro name member
    rcases List.mem_append.mp member with old | new
    · exact List.mem_insert_of_mem (named.taken old)
    · rw [List.mem_singleton.mp new]
      exact reserve_mem r base
  sublist := named.sublist.trans (List.sublist_append_left names _)

/-- Inserting an artifact under the symbol that was reserved last. -/
theorem NamedBy.insert (named : r.NamedBy names) {base : String} {a : Artifact Entry}
    (free : r.lookup? a.id = none) (fresh : a.symbol = (r.reserve base).1) :
    ((r.reserve base).2.insert a).2.NamedBy (names ++ [a.symbol]) := by
  have reserved := named.reserve base
  rw [← fresh] at reserved
  rw [insert_of_free (show (r.reserve base).2.lookup? a.id = none from free)]
  refine ⟨reserved.nodup, fun name member => List.mem_insert_of_mem (reserved.taken member), ?_⟩
  rw [List.map_append]
  exact named.sublist.append (List.Sublist.refl _)

end Registry

theorem Event.Changes.namedBy {e : Event World Source Module Entry} {r r' : Registry Entry}
    {names : List String} (changes : e.Changes r r') (named : r.NamedBy names) :
    r'.NamedBy (names ++ e.symbol?.toList) := by
  cases changes with
  | nothing built symbol =>
    rw [symbol, Option.toList_none, List.append_nil]
    exact named
  | invoked name built symbol =>
    rw [symbol, Option.toList_none, List.append_nil]
    exact named.markInvoked name
  | reserved base built symbol =>
    rw [symbol]
    exact named.reserve base
  | registered base a free fresh unused built symbol =>
    rw [symbol]
    exact (named.insert free fresh).markInvoked a.id

namespace Session

/-- The symbols of the builds in a run, one after the other. -/
def buildSymbols (s : Session World Entry) (steps : List (Step World Source Module Entry)) :
    List String :=
  (s.history steps).filterMap Event.symbol?

/-- Along a run the artifacts are named by the builds. -/
theorem namedBy_run {s : Session World Entry} {names : List String}
    (named : s.registry.NamedBy names) (steps : List (Step World Source Module Entry)) :
    (s.run steps).registry.NamedBy (names ++ s.buildSymbols steps) := by
  induction steps generalizing s names with
  | nil =>
    rw [buildSymbols, history, List.filterMap_nil, List.append_nil]
    exact named
  | cons step steps ih =>
    have rest := ih ((step.changes s).namedBy named)
    rw [List.append_assoc] at rest
    have symbols : s.buildSymbols (step :: steps) =
        (Event.symbol? ⟨step, step.calls s⟩).toList ++ (step.after s).buildSymbols steps := by
      rw [buildSymbols, history, List.filterMap_cons]
      cases Event.symbol? ⟨step, step.calls s⟩ <;> rfl
    rw [symbols]
    exact rest

end Session

/-! ## Names are never given twice -/

/-- A session in which nothing is registered. -/
def Session.fresh (channel : Channel) (files : FileTree) (world : World) : Session World Entry :=
  { channel, files, world }

theorem Registry.namedBy_nil : ({} : Registry Entry).NamedBy [] :=
  ⟨List.nodup_nil, List.nil_subset _, List.Sublist.refl _⟩

/-- After any operations on a registry a reserved symbol was not reserved before and is no
identifier and no symbol of an artifact. An inserted identifier is registered from then on, with the
artifact that was inserted first; another insertion under it answers this artifact and changes
nothing; and used names stay used. After any run of a session no two artifacts
have one symbol, no two builds have one, and no symbol of a build is ever reserved again. -/
theorem native_names_never_alias (ops : List (Registry.Op Entry)) (channel : Channel)
    (files : FileTree) (world : World) (steps : List (Session.Step World Source Module Entry)) :
    ((∀ base, ((Registry.of ops).reserve base).1 ∉ Registry.handedOut {} ops ∧
        ∀ a ∈ (Registry.of ops).artifacts, ((Registry.of ops).reserve base).1 ≠ a.id ∧
          ((Registry.of ops).reserve base).1 ≠ a.symbol) ∧
      (∀ a : Artifact Entry, ((Registry.of ops).insert a).2.lookup? a.id =
        some ((Registry.of ops).insert a).1) ∧
      (∀ id first, ops.findSome? (Registry.Op.inserts? id) = some first →
        ∃ b, (Registry.of ops).lookup? id = some b ∧ b.asBuilt = first.asBuilt) ∧
      (∀ a b, (Registry.of ops).lookup? a.id = some b →
        (Registry.of ops).insert a = (b, Registry.of ops) ∧
          ∃ first, ops.findSome? (Registry.Op.inserts? a.id) = some first ∧
            b.asBuilt = first.asBuilt) ∧
      ∀ name, (Registry.of ops).isUsed name →
        ∀ later, ((Registry.of ops).run later).isUsed name) ∧
    (∀ a ∈ ((Session.fresh channel files world).run steps).registry.artifacts,
      ∀ b ∈ ((Session.fresh channel files world).run steps).registry.artifacts,
        a.id ≠ b.id → a.symbol ≠ b.symbol) ∧
    (∀ a ∈ ((Session.fresh channel files world).run steps).registry.artifacts,
      a.symbol ∈ (Session.fresh channel files world).buildSymbols steps) ∧
    ((Session.fresh channel files world).buildSymbols steps).Nodup ∧
    ∀ base, (((Session.fresh channel files world).run steps).registry.reserve base).1 ∉
      (Session.fresh channel files world).buildSymbols steps := by
  have named : ((Session.fresh channel files world).run steps).registry.NamedBy
      ((Session.fresh channel files world).buildSymbols steps) :=
    Session.namedBy_run (s := Session.fresh channel files world) Registry.namedBy_nil steps
  refine ⟨⟨?_, Registry.lookup?_insert _, ?_, ?_, ?_⟩, ?_, ?_, named.nodup, named.reserve_not_mem⟩
  · intro base
    refine ⟨?_, fun a member => ⟨Registry.reserve_ne_id member base,
      Registry.reserve_ne_symbol (Registry.symbolsTaken_of ops) member base⟩⟩
    intro handedOut
    exact Registry.reserve_not_mem _ base
      (List.mem_append_right _ (Registry.handedOut_subset {} ops handedOut))
  · intro id first inserted
    exact Registry.exists_lookup?_of_insert inserted
  · intro a b taken
    exact ⟨Registry.insert_of_lookup? taken, Registry.exists_first_insert taken⟩
  · intro name used later
    exact Registry.isUsed_run used later
  · intro a left b right different same
    exact different (congrArg Artifact.id (named.eq_of_symbol_eq left right same))
  · intro a member
    exact named.sublist.subset (List.mem_map_of_mem member)

/-- An artifact that was inserted and has run. -/
def insertedAndRun : List (Registry.Op Unit) :=
  [.insert { id := "sum", symbol := "sum0", entry := () }, .invoke "sum"]

/-- The identifier is taken. Another insertion under it answers the first artifact, which has run by
then, and leaves the registry alone. -/
theorem native_names_never_alias_insertedAndRun :
    insertedAndRun.findSome? (Registry.Op.inserts? "sum") =
        some { id := "sum", symbol := "sum0", entry := () } ∧
      ∃ b, (Registry.of insertedAndRun).lookup? "sum" = some b ∧ b.symbol = "sum0" ∧ b.invoked ∧
        (Registry.of insertedAndRun).insert { id := "sum", symbol := "sum1", entry := () } =
          (b, Registry.of insertedAndRun) ∧
        ∀ base, ((Registry.of insertedAndRun).reserve base).1 ≠ "sum" := by
  obtain ⟨⟨unused, -, registered, again, -⟩, -⟩ :=
    native_names_never_alias insertedAndRun {} {} () ([] : List (Session.Step Unit Unit Unit Unit))
  have inserted : insertedAndRun.findSome? (Registry.Op.inserts? "sum") =
      some { id := "sum", symbol := "sum0", entry := () } := rfl
  obtain ⟨b, found, same⟩ := registered "sum" _ inserted
  have member := List.mem_of_find?_eq_some found
  refine ⟨inserted, b, found, congrArg Artifact.symbol same, ?_, ?_, fun base => ?_⟩
  · obtain rfl := Option.some.inj (found.symm.trans rfl)
    rfl
  · exact (again { id := "sum", symbol := "sum1", entry := () } b found).1
  · have other := ((unused base).2 b member).1
    rwa [show b.id = "sum" from congrArg Artifact.id same] at other

end Readback
