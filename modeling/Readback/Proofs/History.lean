import Readback.Proofs.Registry
import Readback.Proofs.Stages

/-!
# Histories of a session

A session lives through requests of any evaluators and through changes from outside. Its history
lists what happened with the calls that were made. Each event changes the registry in one of four
ways, and these are told by the calls of the event alone.

## Main definitions

* `Session.Step`, `Session.run` — what may happen to a session, and the session after several steps
* `Event`, `Session.history` — a step with the calls that it made, and the events of a run
* `Event.built?`, `Event.symbol?` — the artifact that an event built, and the symbol it built under
* `Event.Changes` — what an event does to a registry

## Main statements

* `Session.Step.changes` — what each step does to the registry
* `Session.built?_run` — the registry is what the history says
-/

namespace Readback

variable {World Source Module Entry : Type}

/-- What may happen to a session: a request through an evaluator, or a change from outside, which
leaves the registry alone. -/
inductive Session.Step (World Source Module Entry : Type)
  | evaluate (ev : Evaluator World Source Module Entry) (env : Environment)
      (request : Request Source)
  | runCached (ev : Evaluator World Source Module Entry) (env : Environment) (id : String)
      (type : Term)
  | generate (ev : Evaluator World Source Module Entry) (product : Product) (source : Source)
      (imports : List Import)
  | outside (channel : Channel) (files : FileTree) (world : World)

/-- A step with the calls that it made. -/
structure Event (World Source Module Entry : Type) where
  step : Session.Step World Source Module Entry
  calls : List (Call Source Module Entry)

namespace Session

/-- The session after a step. -/
def Step.after (s : Session World Entry) : Step World Source Module Entry → Session World Entry
  | evaluate ev env request => (ev.evaluate env request s).2
  | runCached ev env id type => (ev.runCached env id type s).2
  | generate ev product source imports => (ev.generate product source imports s).2
  | outside channel files world => { s with channel, files, world }

/-- The calls that a step makes in a session. -/
def Step.calls (s : Session World Entry) :
    Step World Source Module Entry → List (Call Source Module Entry)
  | evaluate ev env request => noted (ev.recording.evaluate env request) s
  | runCached ev env id type => noted (ev.recording.runCached env id type) s
  | generate ev product source imports => noted (ev.recording.generate product source imports) s
  | outside _ _ _ => []

/-- The session after steps, one after the other. -/
def run (s : Session World Entry) (steps : List (Step World Source Module Entry)) :
    Session World Entry :=
  steps.foldl Step.after s

/-- What happened in a run. -/
def history (s : Session World Entry) :
    List (Step World Source Module Entry) → List (Event World Source Module Entry)
  | [] => []
  | step :: steps => ⟨step, step.calls s⟩ :: history (step.after s) steps

end Session

/-- The artifact under an identifier that a call has loaded. -/
def Call.loaded? (id : String) : Call Source Module Entry → Option (Artifact Entry)
  | load _ symbol (.ok entry) => some { id, symbol, entry }
  | _ => none

/-- The symbol that a call has compiled a program under. -/
def Call.symbol? : Call Source Module Entry → Option String
  | compile .program options _ _ => some options.entryName
  | _ => none

namespace Event

/-- The artifact that an event has built for an identifier: the entry point that the loader answered
to its evaluation. -/
def built? (id : String) (e : Event World Source Module Entry) : Option (Artifact Entry) :=
  match e.step with
  | .evaluate _ _ request => if request.id = id then e.calls.findSome? (Call.loaded? id) else none
  | _ => none

/-- The symbol under which an event has started to build an artifact. -/
def symbol? (e : Event World Source Module Entry) : Option String :=
  match e.step with
  | .evaluate _ _ _ => e.calls.findSome? Call.symbol?
  | _ => none

/-- What an event does to a registry. -/
inductive Changes (e : Event World Source Module Entry) (r : Registry Entry) : Registry Entry → Prop
  | nothing (built : ∀ id, e.built? id = none) (symbol : e.symbol? = none) : Changes e r r
  | invoked (name : String) (built : ∀ id, e.built? id = none) (symbol : e.symbol? = none) :
      Changes e r (r.markInvoked name)
  | reserved (base : String) (built : ∀ id, e.built? id = none)
      (symbol : e.symbol? = some (r.reserve base).1) : Changes e r (r.reserve base).2
  | registered (base : String) (a : Artifact Entry) (free : r.lookup? a.id = none)
      (fresh : a.symbol = (r.reserve base).1) (unused : a.invoked = false)
      (built : ∀ id, e.built? id = if a.id = id then some a else none)
      (symbol : e.symbol? = some a.symbol) :
      Changes e r (((r.reserve base).2.insert a).2.markInvoked a.id)

end Event

/-! ## What the stages do to the registry -/

namespace Evaluator

variable {ev : Evaluator World Source Module Entry} {s t : Session World Entry}
  {calls : List (Call Source Module Entry)}

theorem Emits.findSome?_loaded? {outcome : Compilation Module} {paths : ArtifactPaths}
    {imports : List Import} {answer : Except EvalError Emitted}
    (told : ev.Emits outcome paths imports s calls answer t) (id : String) :
    calls.findSome? (Call.loaded? id) = none := by
  rw [List.findSome?_eq_none_iff]
  intro call made
  obtain ⟨m, emission, rfl⟩ := told.exists_emit made
  rfl

theorem Links.of_error {id symbol : String} {options : Options} {imports : List Import}
    {e : EvalError} (told : ev.Links id symbol options imports s calls (.error e) t) :
    t.registry = s.registry ∧ ∀ id, calls.findSome? (Call.loaded? id) = none := by
  cases told <;> exact ⟨rfl, fun _ => rfl⟩

/-- What is linked and loaded is registered under a free identifier. -/
theorem Links.of_ok {id symbol : String} {options : Options} {imports : List Import}
    {a : Artifact Entry} (told : ev.Links id symbol options imports s calls (.ok a) t)
    (free : s.registry.lookup? id = none) :
    a.id = id ∧ a.symbol = symbol ∧ a.invoked = false ∧ t.registry = (s.registry.insert a).2 ∧
      calls.findSome? (Call.loaded? id) = some a := by
  cases told with
  | @loaded entry =>
    have inserted := congrArg Prod.fst
      (Registry.insert_of_free (a := { id, symbol, entry : Artifact Entry }) free)
    rw [inserted]
    exact ⟨rfl, rfl, rfl, rfl, rfl⟩

/-- A build that fails has taken a symbol. -/
theorem Builds.of_error {request : Request Source} {e : EvalError}
    (told : ev.Builds request s calls (.error e) t) :
    t.registry = (s.registry.reserve (cSymbol ev.options.symbolPrefix request.id)).2 ∧
      (∀ id, calls.findSome? (Call.loaded? id) = none) ∧
      calls.findSome? Call.symbol? = some (ev.symbolFor s request.id) := by
  cases told with
  | notEmitted compiles emission => exact ⟨emission.registry_eq, emission.findSome?_loaded?, rfl⟩
  | notLinked compiles emission link =>
    obtain ⟨kept, unloaded⟩ := link.of_error
    refine ⟨kept.trans emission.registry_eq, ?_, rfl⟩
    intro id
    rw [List.findSome?_cons, List.findSome?_append, emission.findSome?_loaded?, unloaded]
    rfl

/-- A build that succeeds has registered an artifact under the symbol that it took. -/
theorem Builds.of_ok {request : Request Source} {a : Artifact Entry}
    {diagnostics : Diagnostics} (told : ev.Builds request s calls (.ok (a, diagnostics)) t)
    (free : s.registry.lookup? request.id = none) :
    a.id = request.id ∧ a.symbol = ev.symbolFor s request.id ∧ a.invoked = false ∧
      t.registry =
        ((s.registry.reserve (cSymbol ev.options.symbolPrefix request.id)).2.insert a).2 ∧
      calls.findSome? (Call.loaded? request.id) = some a ∧
      calls.findSome? Call.symbol? = some (ev.symbolFor s request.id) := by
  cases told with
  | built compiles emission link =>
    have reserved := emission.registry_eq
    obtain ⟨id, symbol, unused, grown, loaded⟩ := link.of_ok (by rw [reserved]; exact free)
    -- neither the compiler nor the files load anything, so the first load is that of the artifact
    refine ⟨id, symbol, unused, ?_, ?_, rfl⟩
    · rw [grown, reserved]
      rfl
    · rw [List.findSome?_cons, List.findSome?_append, emission.findSome?_loaded?, loaded]
      rfl

theorem Finishes.registry_eq {env : Environment} {type : Readable} {a : Artifact Entry}
    {diagnostics : Diagnostics} {cached : Bool} {answer : Except EvalError Evaluation}
    (told : ev.Finishes env type a diagnostics cached s calls answer t) :
    t.registry = s.registry.markInvoked a.id := by
  cases told <;> rfl

theorem Finishes.exists_invoke {env : Environment} {type : Readable}
    {a : Artifact Entry} {diagnostics : Diagnostics} {cached : Bool}
    {answer : Except EvalError Evaluation}
    (told : ev.Finishes env type a diagnostics cached s calls answer t) :
    ∃ invocation, calls = [.invoke a.entry invocation] := by
  cases told <;> exact ⟨_, rfl⟩

theorem Evaluates.changes {env : Environment} {request : Request Source}
    {answer : Except EvalError Evaluation} (told : ev.Evaluates env request s calls answer t) :
    Event.Changes ⟨.evaluate ev env request, calls⟩ s.registry t.registry := by
  cases told with
  | unreadable => exact .nothing (fun id => ite_self none) rfl
  | registered readable registered finish =>
    obtain ⟨invocation, rfl⟩ := finish.exists_invoke
    rw [finish.registry_eq]
    exact .invoked _ (fun id => ite_self none) rfl
  | notBuilt readable unregistered build =>
    obtain ⟨registry, unloaded, symbol⟩ := build.of_error
    rw [registry]
    refine .reserved _ ?_ symbol
    intro id
    simp only [Event.built?, unloaded, ite_self]
  | @built type calls calls' a diagnostics answer t u readable unregistered build finish =>
    obtain ⟨sameId, fresh, unused, registry, loaded, symbol⟩ := build.of_ok unregistered
    obtain ⟨invocation, rfl⟩ := finish.exists_invoke
    rw [finish.registry_eq, registry]
    refine .registered _ a (by rw [sameId, unregistered]) fresh unused ?_ ?_
    · intro id
      simp only [Event.built?, List.findSome?_append, sameId]
      split
      next same =>
        rw [← same, loaded]
        rfl
      next => rfl
    · simp only [Event.symbol?, List.findSome?_append, symbol, fresh]
      rfl

theorem RunsCached.changes {env : Environment} {id : String} {type : Term}
    {answer : Except EvalError Evaluation} (told : ev.RunsCached env id type s calls answer t) :
    Event.Changes ⟨.runCached ev env id type, calls⟩ s.registry t.registry := by
  cases told with
  | unreadable => exact .nothing (fun _ => rfl) rfl
  | registered readable registered finish =>
    rw [finish.registry_eq]
    exact .invoked _ (fun _ => rfl) rfl
  | unregistered => exact .nothing (fun _ => rfl) rfl

theorem Generates.changes {product : Product} {source : Source} {imports : List Import}
    {answer : Except EvalError Emitted}
    (told : ev.Generates product source imports s calls answer t) :
    Event.Changes ⟨.generate ev product source imports, calls⟩ s.registry t.registry := by
  cases told with
  | generated compiles emission =>
    rw [emission.registry_eq]
    exact .nothing (fun _ => rfl) rfl

end Evaluator

/-- What a step does to the registry is told by the calls that it makes. -/
theorem Session.Step.changes (step : Step World Source Module Entry) (s : Session World Entry) :
    Event.Changes ⟨step, step.calls s⟩ s.registry (step.after s).registry := by
  cases step with
  | evaluate ev env request => exact (ev.recounts_evaluate s env request).story_noted.changes
  | runCached ev env id type => exact (ev.recounts_runCached s env id type).story_noted.changes
  | generate ev product source imports =>
    exact (ev.recounts_generate s product source imports).story_noted.changes
  | outside channel files world => exact .nothing (fun _ => rfl) rfl

end Readback
