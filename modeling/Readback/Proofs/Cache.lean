import Readback.Prelude
import Readback.Proofs.Except
import Readback.Proofs.History

/-!
# The cache of a session

Whatever happens to a session, its registry is a map that is written once: an identifier gets the
entry point that the loader answered to the first evaluation that came so far, and keeps it. What is
registered is run and not built again, whether it is evaluated or run from the cache.

## Main definitions

* `Evaluator.Reuses` — a request that runs a registered artifact and does nothing else

## Main statements

* `Session.built?_run` — the registry is told by the history
* `Session.lookup?_run` — a registered artifact stays
* `Evaluator.evaluate_eq_runCached` — evaluating what is registered is running it
* `Session.cache_writes_once` — the cache is a map that is written once
-/

namespace Readback

variable {World Source Module Entry : Type}

/-- Artifacts that were built alike differ in having been run. -/
theorem Artifact.eq_of_asBuilt_eq {a b : Artifact Entry} (same : b.asBuilt = a.asBuilt) :
    b = { a with invoked := b.invoked } := by
  cases a
  cases b
  simpa [asBuilt] using same

/-! ## The registry and the history -/

theorem Event.Changes.built?_eq {e : Event World Source Module Entry} {r r' : Registry Entry}
    (changes : e.Changes r r') (id : String) : r'.built? id = (r.built? id).or (e.built? id) := by
  cases changes with
  | nothing built => rw [built, Option.or_none]
  | invoked name built => rw [built, Option.or_none, Registry.built?_markInvoked]
  | reserved base built => rw [built, Option.or_none, Registry.built?_reserve]
  | registered base a free fresh unused built =>
    have asBuilt : a.asBuilt = a := by
      rw [Artifact.asBuilt, ← unused]
    rw [Registry.built?_markInvoked, Registry.built?_insert, Registry.built?_reserve, built,
      Registry.Op.inserts?]
    split
    · rw [Option.map_some, asBuilt]
    · rfl

namespace Session

variable {s : Session World Entry} {id : String} {a : Artifact Entry}

/-- After a run the artifact under an identifier is the one from the start or else the first that
the history has built for it. -/
theorem built?_run (s : Session World Entry) (steps : List (Step World Source Module Entry))
    (id : String) :
    (s.run steps).registry.built? id =
      (s.registry.built? id).or ((s.history steps).findSome? (Event.built? id)) := by
  induction steps generalizing s with
  | nil => exact Option.or_none.symm
  | cons step steps ih =>
    rw [run, List.foldl_cons, ← run, ih, (step.changes s).built?_eq id, history,
      List.findSome?_cons, Option.or_assoc]
    cases Event.built? id ⟨step, step.calls s⟩ <;> rfl

/-- A registered artifact stays, though it may be run. -/
theorem lookup?_run (registered : s.registry.lookup? id = some a)
    (steps : List (Step World Source Module Entry)) :
    ∃ invoked, (s.run steps).registry.lookup? id = some { a with invoked } := by
  -- the history is not asked where there was an artifact from the start
  have kept : (s.run steps).registry.built? id = some a.asBuilt := by
    rw [built?_run, Registry.built?, registered]
    rfl
  obtain ⟨b, found, same⟩ := Option.map_eq_some_iff.mp kept
  exact ⟨b.invoked, found.trans (congrArg some (Artifact.eq_of_asBuilt_eq same))⟩

end Session

/-! ## Requests for what is registered -/

namespace Evaluator

open Session (noted Story)

/-- The request runs a registered artifact once and reads its result at the type. It does nothing
else, and nothing at all if there is no reading results at the type. -/
structure Reuses (ev : Evaluator World Source Module Entry) (env : Environment) (type : Term)
    (a : Artifact Entry) (s : Session World Entry) (calls : List (Call Source Module Entry))
    (answer : Except EvalError Evaluation) (t : Session World Entry) : Prop where
  files : t.files = s.files
  symbols : t.registry.symbols = s.registry.symbols
  unreadable : ∀ e, Readable.ofResultType env defaultFuel type = .error e →
    calls = [] ∧ answer = .error (.decode (.type e))
  readable : ∀ r, Readable.ofResultType env defaultFuel type = .ok r →
    ∃ invocation, calls = [.invoke a.entry invocation] ∧
      ∀ evaluation, answer = .ok evaluation →
        evaluation.cached = true ∧ evaluation.diagnostics = {} ∧ evaluation.symbol = a.symbol ∧
          ∃ v, invocation.result = .ok v ∧
            decodeAt env defaultFuel type v = .ok evaluation.term

variable {ev : Evaluator World Source Module Entry} {env : Environment}
  {s t : Session World Entry} {a : Artifact Entry} {calls : List (Call Source Module Entry)}
  {answer : Except EvalError Evaluation}

theorem Finishes.reuses {r : Readable} {type : Term}
    (told : ev.Finishes env r a {} true s calls answer t)
    (readable : Readable.ofResultType env defaultFuel type = .ok r) :
    ev.Reuses env type a s calls answer t := by
  have only : ∀ r', Readable.ofResultType env defaultFuel type = .ok r' → r' = r := by
    intro r' other
    exact Except.ok.inj (other.symm.trans readable)
  have never : ∀ e, Readable.ofResultType env defaultFuel type ≠ .error e := by
    intro e other
    cases other.symm.trans readable
  cases told with
  | failed invokes fails =>
    refine ⟨rfl, rfl, fun e other => absurd other (never e), fun r' other => ⟨_, rfl, ?_⟩⟩
    intro evaluation success
    cases success
  | finished invokes succeeds =>
    refine ⟨rfl, rfl, fun e other => absurd other (never e), fun r' other => ⟨_, rfl, ?_⟩⟩
    intro evaluation success
    cases success
    obtain ⟨v, result, decoded⟩ := Invocation.exists_decode_of_outcome succeeds
    refine ⟨rfl, rfl, rfl, v, result, ?_⟩
    rw [decodeAt, readable]
    exact decoded

theorem RunsCached.reuses {id : String} {type : Term}
    (told : ev.RunsCached env id type s calls answer t)
    (registered : s.registry.lookup? id = some a) : ev.Reuses env type a s calls answer t := by
  cases told with
  | unreadable unreadable =>
    refine ⟨rfl, rfl, ?_, ?_⟩
    · intro e other
      rw [Except.error.inj (other.symm.trans unreadable)]
      exact ⟨rfl, rfl⟩
    · intro r other
      cases other.symm.trans unreadable
  | registered readable found finish =>
    obtain rfl := Option.some.inj (found.symm.trans registered)
    exact finish.reuses readable
  | unregistered readable missing => cases missing.symm.trans registered

/-- Evaluating what is registered is running it. -/
theorem evaluate_eq_runCached (ev : Evaluator World Source Module Entry) (env : Environment)
    (request : Request Source) (registered : s.registry.lookup? request.id = some a) :
    ev.evaluate env request s = ev.runCached env request.id request.type s := by
  unfold evaluate runCached resultType
  cases readable : Readable.ofResultType env defaultFuel request.type with
  | error e => rfl
  | ok type =>
    simp only [mapError_ok, Session.bind_require_ok, Session.bind_get, registered]

/-- Running what is not registered fails and does nothing. -/
theorem runCached_of_missing {id : String} (ev : Evaluator World Source Module Entry)
    (env : Environment) (type : Term) (missing : s.registry.lookup? id = none) :
    noted (ev.recording.runCached env id type) s = [] ∧
      ev.runCached env id type s =
        (.error (match Readable.ofResultType env defaultFuel type with
          | .error e => .decode (.type e)
          | .ok _ => .notFound id), s) := by
  have told := (ev.recounts_runCached s env id type).story_noted
  generalize noted (ev.recording.runCached env id type) s = calls at told ⊢
  generalize ev.runCached env id type s = result at told ⊢
  obtain ⟨answer, t⟩ := result
  cases told with
  | unreadable unreadable =>
    rw [unreadable]
    exact ⟨rfl, rfl⟩
  | registered readable registered finish => cases missing.symm.trans registered
  | unregistered readable =>
    rw [readable]
    exact ⟨rfl, rfl⟩

end Evaluator

namespace Session

/-- After any run the registry is the map that the history has written, each identifier once. What
is registered stays, and every later request for it runs it and does nothing else; until then there
is nothing to run. -/
theorem cache_writes_once (s : Session World Entry)
    (steps : List (Step World Source Module Entry)) (id : String) :
    (s.run steps).registry.built? id =
        (s.registry.built? id).or ((s.history steps).findSome? (Event.built? id)) ∧
      (∀ a, (s.run steps).registry.lookup? id = some a →
        (∀ later : List (Step World Source Module Entry), ∃ invoked,
          ((s.run steps).run later).registry.lookup? id = some { a with invoked }) ∧
        ∀ (ev : Evaluator World Source Module Entry) (env : Environment),
          (∀ type, ev.Reuses env type a (s.run steps)
            (noted (ev.recording.runCached env id type) (s.run steps))
            (ev.runCached env id type (s.run steps)).1
            (ev.runCached env id type (s.run steps)).2) ∧
          ∀ request : Request Source, request.id = id →
            ev.evaluate env request (s.run steps) =
              ev.runCached env id request.type (s.run steps) ∧
            noted (ev.recording.evaluate env request) (s.run steps) =
              noted (ev.recording.runCached env id request.type) (s.run steps)) ∧
      ((s.run steps).registry.lookup? id = none →
        ∀ (ev : Evaluator World Source Module Entry) (env : Environment) (type : Term),
          noted (ev.recording.runCached env id type) (s.run steps) = [] ∧
          ev.runCached env id type (s.run steps) =
            (.error (match Readable.ofResultType env defaultFuel type with
              | .error e => .decode (.type e)
              | .ok _ => .notFound id), s.run steps)) := by
  refine ⟨built?_run s steps id, ?_, ?_⟩
  · intro a registered
    refine ⟨fun later => lookup?_run registered later, fun ev env => ⟨?_, ?_⟩⟩
    · intro type
      exact (ev.recounts_runCached _ env id type).story_noted.reuses registered
    · rintro request rfl
      refine ⟨ev.evaluate_eq_runCached env request registered, ?_⟩
      unfold noted
      rw [ev.recording.evaluate_eq_runCached env request (s := (s.run steps).record) registered]
  · intro missing ev env type
    exact ev.runCached_of_missing env type missing

/-- A backend whose builds succeed, and whose compiled code returns the first constant. -/
def constantBackend : Backend Unit Unit Unit Unit where
  compile _ _ _ := pure { result := .ok ⟨(), ()⟩ }
  emit _ := pure { text := "" }
  build _ _ := pure (.ok ())
  load _ _ := pure (.ok ())
  invoke _ := pure { result := .ok (.immediate 0) }

/-- The evaluation of zero. -/
def evaluateZero : Step Unit Unit Unit Unit :=
  .evaluate ⟨constantBackend, { outputDir := ⟨"/"⟩ }⟩ Prelude.environment
    { id := "zero", source := (), type := Prelude.indTerm Prelude.natName }

/-- Once zero was evaluated, every evaluator runs what was built then. -/
theorem cache_writes_once_zero :
    (run { world := () } [evaluateZero]).registry.lookup? "zero" =
        some { id := "zero", symbol := "zero", entry := (), invoked := true } ∧
      ∀ (ev : Evaluator Unit Unit Unit Unit) (env : Environment) (type : Term),
        ev.Reuses env type { id := "zero", symbol := "zero", entry := (), invoked := true }
          (run { world := () } [evaluateZero])
          (noted (ev.recording.runCached env "zero" type) (run { world := () } [evaluateZero]))
          (ev.runCached env "zero" type (run { world := () } [evaluateZero])).1
          (ev.runCached env "zero" type (run { world := () } [evaluateZero])).2 := by
  have registered : (run { world := () } [evaluateZero]).registry.lookup? "zero" =
      some { id := "zero", symbol := "zero", entry := (), invoked := true } := by
    decide +kernel
  refine ⟨registered, fun ev env type => ?_⟩
  obtain ⟨-, kept, -⟩ := cache_writes_once { world := () } [evaluateZero] "zero"
  exact ((kept _ registered).2 ev env).1 type

end Session

end Readback
