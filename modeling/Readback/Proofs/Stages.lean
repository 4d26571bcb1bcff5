import Readback.Proofs.Recording

/-!
# The stages of a request

For every step of an evaluator a relation tells how it can go: which stages it gets through, which
calls it has made by then, what it answers and what it leaves behind. Each step goes as its relation
tells, whatever the backend does.

## Main definitions

* `Evaluator.Writes`, `Evaluator.WritesFiles`, `Evaluator.Emits` — writing the generated files
* `Evaluator.Links`, `Evaluator.Builds` — making an artifact
* `Evaluator.Finishes`, `Invocation.outcome` — running an artifact and reading its result
* `Evaluator.Evaluates`, `Evaluator.RunsCached`, `Evaluator.Generates` — whole requests

## Main statements

* `Evaluator.recounts_evaluate`, `Evaluator.recounts_runCached`, `Evaluator.recounts_generate` —
  requests go as told
-/

namespace Readback

variable {World Source Module Entry : Type}

/-- What an invocation means for a request. A fatal error counts for more than the result. -/
def Invocation.outcome (i : Invocation) (env : Environment) (type : Readable) :
    Except EvalError (Term × List Message) :=
  let pending := ({} : Channel).receiveAll i.calls
  match pending.fatal with
  | some message => .error (.fatal message)
  | none => do
    let v ← i.result
    let term ← (type.decode env defaultFuel v).mapError .decode
    return (term, pending.messages)

namespace Invocation

variable {i : Invocation} {env : Environment} {type : Readable}

theorem outcome_of_fatal {message : String}
    (fatal : (({} : Channel).receiveAll i.calls).fatal = some message) :
    i.outcome env type = .error (.fatal message) := by
  simp only [outcome, fatal]

theorem outcome_of_error {e : EvalError} (quiet : (({} : Channel).receiveAll i.calls).fatal = none)
    (result : i.result = .error e) : i.outcome env type = .error e := by
  simp only [outcome, quiet, result]
  rfl

theorem outcome_of_ok {v : Value} (quiet : (({} : Channel).receiveAll i.calls).fatal = none)
    (result : i.result = .ok v) :
    i.outcome env type = ((type.decode env defaultFuel v).mapError .decode).map
      fun term => (term, (({} : Channel).receiveAll i.calls).messages) := by
  simp only [outcome, quiet, result]
  rfl

/-- An invocation that succeeds has returned a value that is read as the term. -/
theorem exists_decode_of_outcome {term : Term} {messages : List Message}
    (succeeds : i.outcome env type = .ok (term, messages)) :
    ∃ v, i.result = .ok v ∧ type.decode env defaultFuel v = .ok term := by
  cases fatal : (({} : Channel).receiveAll i.calls).fatal with
  | some message =>
    rw [outcome_of_fatal fatal] at succeeds
    cases succeeds
  | none =>
    cases result : i.result with
    | error e =>
      rw [outcome_of_error fatal result] at succeeds
      cases succeeds
    | ok v =>
      rw [outcome_of_ok fatal result] at succeeds
      cases decoded : type.decode env defaultFuel v with
      | error e =>
        rw [decoded] at succeeds
        cases succeeds
      | ok read =>
        rw [decoded] at succeeds
        cases succeeds
        exact ⟨v, rfl, decoded⟩

end Invocation

namespace Evaluator

open Session (Story Recounts)

/-- What the generated files of an evaluator include. -/
def resolved (ev : Evaluator World Source Module Entry) (imports : List Import) : List Import :=
  Import.resolveAll ev.options.convention ev.options.outputDir imports

/-- The build of an artifact. -/
def linkJob (options : Options) (imports : List Import) : BuildJob where
  buildDir := options.outputDir
  source := options.paths.source
  object := options.paths.object
  library := options.paths.library
  dependencies := Import.objects options.outputDir imports
  optLevel := options.optLevel

/-- The symbol that a request gets in a session where it is built. -/
def symbolFor (ev : Evaluator World Source Module Entry) (s : Session World Entry) (id : String) :
    String :=
  (s.registry.reserve (cSymbol ev.options.symbolPrefix id)).1

/-- The options under which a request is built in a session. -/
def optionsFor (ev : Evaluator World Source Module Entry) (s : Session World Entry) (id : String) :
    Options :=
  ev.options.forArtifact (ev.symbolFor s id)

/-- The session in which the files of a request are written: its symbol is taken, and the compiler
has changed the world. -/
def reserved (ev : Evaluator World Source Module Entry) (s : Session World Entry) (id : String)
    (world : World) : Session World Entry :=
  { s with registry := (s.registry.reserve (cSymbol ev.options.symbolPrefix id)).2, world }

/-- Writing a generated file. -/
inductive Writes (ev : Evaluator World Source Module Entry) (path : Path) (includes : List Import)
    (m : Module) (s : Session World Entry) : Story World Source Module Entry Unit
  | faulty {fault : Fault} (faulty : s.files.fault? path = some fault) :
      Writes ev path includes m s [] (.error (.io path fault.cause))
        { s with files := s.files.afterFault path (includeLines includes) fault }
  | unplaced {cause : IoError} (faultless : s.files.fault? path = none)
      (unplaced : s.files.creationPlace path = .error cause) :
      Writes ev path includes m s [] (.error (.io path cause)) s
  | cut {place : List String} {emission : Emission} {world : World} {cause : IoError}
      (faultless : s.files.fault? path = none)
      (placed : s.files.creationPlace path = .ok place)
      (emits : ev.backend.emit m s.world = (emission, world))
      (short : emission.failure = some cause) :
      Writes ev path includes m s [.emit m emission] (.error (.io path cause))
        { s with files := s.files.fill place (includeLines includes ++ emission.text), world }
  | written {place : List String} {emission : Emission} {world : World}
      (faultless : s.files.fault? path = none)
      (placed : s.files.creationPlace path = .ok place)
      (emits : ev.backend.emit m s.world = (emission, world)) (whole : emission.failure = none) :
      Writes ev path includes m s [.emit m emission] (.ok ())
        { s with files := s.files.fill place (includeLines includes ++ emission.text), world }

/-- Writing the header and then the source, which includes it. -/
inductive WritesFiles (ev : Evaluator World Source Module Entry) (paths : ArtifactPaths)
    (imports : List Import) (modules : Modules Module) (s : Session World Entry) :
    Story World Source Module Entry Unit
  | headerFailed {calls : List (Call Source Module Entry)} {e : EvalError}
      {t : Session World Entry}
      (header : Writes ev paths.header (ev.resolved imports) modules.header s calls (.error e) t) :
      WritesFiles ev paths imports modules s calls (.error e) t
  | headerWritten {calls calls' : List (Call Source Module Entry)} {answer : Except EvalError Unit}
      {t u : Session World Entry}
      (header : Writes ev paths.header (ev.resolved imports) modules.header s calls (.ok ()) t)
      (source : Writes ev paths.source (ev.resolved imports ++ [.build paths.headerName])
        modules.definitions t calls' answer u) :
      WritesFiles ev paths imports modules s (calls ++ calls') answer u

/-- Writing what the compiler generated. -/
inductive Emits (ev : Evaluator World Source Module Entry) (outcome : Compilation Module)
    (paths : ArtifactPaths) (imports : List Import) (s : Session World Entry) :
    Story World Source Module Entry Emitted
  | rejected {message : String} (rejected : outcome.result = .error message) :
      Emits ev outcome paths imports s [] (.error (.compile message outcome.diagnostics)) s
  | failed {modules : Modules Module} {calls : List (Call Source Module Entry)} {e : EvalError}
      {t : Session World Entry} (accepted : outcome.result = .ok modules)
      (files : WritesFiles ev paths imports modules s calls (.error e) t) :
      Emits ev outcome paths imports s calls (.error (e.withDiagnostics outcome.diagnostics)) t
  | emitted {modules : Modules Module} {calls : List (Call Source Module Entry)}
      {t : Session World Entry} (accepted : outcome.result = .ok modules)
      (files : WritesFiles ev paths imports modules s calls (.ok ()) t) :
      Emits ev outcome paths imports s calls
        (.ok { source := paths.source, header := paths.header, imports := ev.resolved imports
               diagnostics := outcome.diagnostics }) t

/-- Building, loading and registering an artifact. -/
inductive Links (ev : Evaluator World Source Module Entry) (id symbol : String) (options : Options)
    (imports : List Import) (s : Session World Entry) :
    Story World Source Module Entry (Artifact Entry)
  | objectFailed {cause : ToolchainError} {world : World}
      (object : ev.backend.build .compile (linkJob options imports) s.world =
        (.error cause, world)) :
      Links ev id symbol options imports s
        [.build .compile (linkJob options imports) (.error cause)] (.error (.toolchain cause))
        { s with world }
  | libraryFailed {cause : ToolchainError} {world world' : World}
      (object : ev.backend.build .compile (linkJob options imports) s.world = (.ok (), world))
      (library : ev.backend.build .link (linkJob options imports) world = (.error cause, world')) :
      Links ev id symbol options imports s
        [.build .compile (linkJob options imports) (.ok ()),
          .build .link (linkJob options imports) (.error cause)]
        (.error (.toolchain cause)) { s with world := world' }
  | notLoaded {e : EvalError} {world world' world'' : World}
      (object : ev.backend.build .compile (linkJob options imports) s.world = (.ok (), world))
      (library : ev.backend.build .link (linkJob options imports) world = (.ok (), world'))
      (loads : ev.backend.load options.paths.library symbol world' = (.error e, world'')) :
      Links ev id symbol options imports s
        [.build .compile (linkJob options imports) (.ok ()),
          .build .link (linkJob options imports) (.ok ()),
          .load options.paths.library symbol (.error e)]
        (.error e) { s with world := world'' }
  | loaded {entry : Entry} {world world' world'' : World}
      (object : ev.backend.build .compile (linkJob options imports) s.world = (.ok (), world))
      (library : ev.backend.build .link (linkJob options imports) world = (.ok (), world'))
      (loads : ev.backend.load options.paths.library symbol world' = (.ok entry, world'')) :
      Links ev id symbol options imports s
        [.build .compile (linkJob options imports) (.ok ()),
          .build .link (linkJob options imports) (.ok ()),
          .load options.paths.library symbol (.ok entry)]
        (.ok (s.registry.insert { id, symbol, entry }).1)
        { s with registry := (s.registry.insert { id, symbol, entry }).2, world := world'' }

/-- Making the artifact of a request under a symbol of its own. -/
inductive Builds (ev : Evaluator World Source Module Entry) (request : Request Source)
    (s : Session World Entry) :
    Story World Source Module Entry (Artifact Entry × Diagnostics)
  | notEmitted {outcome : Compilation Module} {world : World}
      {calls : List (Call Source Module Entry)} {e : EvalError} {t : Session World Entry}
      (compiles : ev.backend.compile .program (ev.optionsFor s request.id) request.source s.world =
        (outcome, world))
      (emission : Emits ev outcome (ev.optionsFor s request.id).paths request.imports
        (ev.reserved s request.id world) calls (.error e) t) :
      Builds ev request s
        (.compile .program (ev.optionsFor s request.id) request.source outcome :: calls)
        (.error e) t
  | notLinked {outcome : Compilation Module} {world : World}
      {calls calls' : List (Call Source Module Entry)} {emitted : Emitted} {e : EvalError}
      {t u : Session World Entry}
      (compiles : ev.backend.compile .program (ev.optionsFor s request.id) request.source s.world =
        (outcome, world))
      (emission : Emits ev outcome (ev.optionsFor s request.id).paths request.imports
        (ev.reserved s request.id world) calls (.ok emitted) t)
      (link : Links ev request.id (ev.symbolFor s request.id) (ev.optionsFor s request.id)
        emitted.imports t calls' (.error e) u) :
      Builds ev request s
        (.compile .program (ev.optionsFor s request.id) request.source outcome ::
          (calls ++ calls'))
        (.error (e.withDiagnostics emitted.diagnostics)) u
  | built {outcome : Compilation Module} {world : World}
      {calls calls' : List (Call Source Module Entry)} {emitted : Emitted}
      {artifact : Artifact Entry} {t u : Session World Entry}
      (compiles : ev.backend.compile .program (ev.optionsFor s request.id) request.source s.world =
        (outcome, world))
      (emission : Emits ev outcome (ev.optionsFor s request.id).paths request.imports
        (ev.reserved s request.id world) calls (.ok emitted) t)
      (link : Links ev request.id (ev.symbolFor s request.id) (ev.optionsFor s request.id)
        emitted.imports t calls' (.ok artifact) u) :
      Builds ev request s
        (.compile .program (ev.optionsFor s request.id) request.source outcome ::
          (calls ++ calls'))
        (.ok (artifact, emitted.diagnostics)) u

/-- Running an artifact and reading its result back. -/
inductive Finishes (ev : Evaluator World Source Module Entry) (env : Environment) (type : Readable)
    (artifact : Artifact Entry) (diagnostics : Diagnostics) (cached : Bool)
    (s : Session World Entry) : Story World Source Module Entry Evaluation
  | failed {invocation : Invocation} {world : World} {e : EvalError}
      (invokes : ev.backend.invoke artifact.entry s.world = (invocation, world))
      (fails : invocation.outcome env type = .error e) :
      Finishes ev env type artifact diagnostics cached s [.invoke artifact.entry invocation]
        (.error (e.withDiagnostics diagnostics))
        { s with registry := s.registry.markInvoked artifact.id, channel := {}, world }
  | finished {invocation : Invocation} {world : World} {term : Term} {messages : List Message}
      (invokes : ev.backend.invoke artifact.entry s.world = (invocation, world))
      (succeeds : invocation.outcome env type = .ok (term, messages)) :
      Finishes ev env type artifact diagnostics cached s [.invoke artifact.entry invocation]
        (.ok { term, diagnostics, cached, messages
               timed := ev.options.flags.timing, symbol := artifact.symbol })
        { s with registry := s.registry.markInvoked artifact.id, channel := {}, world }

/-- Evaluating a program. -/
inductive Evaluates (ev : Evaluator World Source Module Entry) (env : Environment)
    (request : Request Source) (s : Session World Entry) :
    Story World Source Module Entry Evaluation
  | unreadable {e : TypeError}
      (unreadable : Readable.ofResultType env defaultFuel request.type = .error e) :
      Evaluates ev env request s [] (.error (.decode (.type e))) s
  | registered {type : Readable} {artifact : Artifact Entry}
      {calls : List (Call Source Module Entry)} {answer : Except EvalError Evaluation}
      {t : Session World Entry}
      (readable : Readable.ofResultType env defaultFuel request.type = .ok type)
      (registered : s.registry.lookup? request.id = some artifact)
      (finish : Finishes ev env type artifact {} true s calls answer t) :
      Evaluates ev env request s calls answer t
  | notBuilt {type : Readable} {calls : List (Call Source Module Entry)} {e : EvalError}
      {t : Session World Entry}
      (readable : Readable.ofResultType env defaultFuel request.type = .ok type)
      (unregistered : s.registry.lookup? request.id = none)
      (build : Builds ev request s calls (.error e) t) :
      Evaluates ev env request s calls (.error e) t
  | built {type : Readable} {calls calls' : List (Call Source Module Entry)}
      {artifact : Artifact Entry} {diagnostics : Diagnostics}
      {answer : Except EvalError Evaluation} {t u : Session World Entry}
      (readable : Readable.ofResultType env defaultFuel request.type = .ok type)
      (unregistered : s.registry.lookup? request.id = none)
      (build : Builds ev request s calls (.ok (artifact, diagnostics)) t)
      (finish : Finishes ev env type artifact diagnostics false t calls' answer u) :
      Evaluates ev env request s (calls ++ calls') answer u

/-- Running what is registered under an identifier. -/
inductive RunsCached (ev : Evaluator World Source Module Entry) (env : Environment) (id : String)
    (resultType : Term) (s : Session World Entry) : Story World Source Module Entry Evaluation
  | unreadable {e : TypeError}
      (unreadable : Readable.ofResultType env defaultFuel resultType = .error e) :
      RunsCached ev env id resultType s [] (.error (.decode (.type e))) s
  | registered {type : Readable} {artifact : Artifact Entry}
      {calls : List (Call Source Module Entry)} {answer : Except EvalError Evaluation}
      {t : Session World Entry}
      (readable : Readable.ofResultType env defaultFuel resultType = .ok type)
      (registered : s.registry.lookup? id = some artifact)
      (finish : Finishes ev env type artifact {} true s calls answer t) :
      RunsCached ev env id resultType s calls answer t
  | unregistered {type : Readable}
      (readable : Readable.ofResultType env defaultFuel resultType = .ok type)
      (unregistered : s.registry.lookup? id = none) :
      RunsCached ev env id resultType s [] (.error (.notFound id)) s

/-- Generating the files of a product without a build. -/
inductive Generates (ev : Evaluator World Source Module Entry) (product : Product)
    (source : Source) (imports : List Import) (s : Session World Entry) :
    Story World Source Module Entry Emitted
  | generated {outcome : Compilation Module} {world : World}
      {calls : List (Call Source Module Entry)} {answer : Except EvalError Emitted}
      {t : Session World Entry}
      (compiles : ev.backend.compile product ev.options source s.world = (outcome, world))
      (emission : Emits ev outcome
        (ev.options.pathsFor (product.stem ev.options.fileStem)) imports { s with world } calls
        answer t) :
      Generates ev product source imports s
        (.compile product ev.options source outcome :: calls) answer t

/-! ## Writing files

Generated files cost emissions only, and the registry has nothing to do with them. -/

section

variable {ev : Evaluator World Source Module Entry} {s t : Session World Entry}
  {calls : List (Call Source Module Entry)}

theorem Writes.registry_eq {path : Path} {includes : List Import} {m : Module}
    {answer : Except EvalError Unit} (told : ev.Writes path includes m s calls answer t) :
    t.registry = s.registry := by
  cases told <;> rfl

theorem Writes.exists_emit {path : Path} {includes : List Import} {m : Module}
    {answer : Except EvalError Unit} (told : ev.Writes path includes m s calls answer t)
    {call : Call Source Module Entry} (made : call ∈ calls) :
    ∃ m emission, call = .emit m emission := by
  cases told with
  | faulty => cases made
  | unplaced => cases made
  | cut => exact ⟨_, _, List.mem_singleton.mp made⟩
  | written => exact ⟨_, _, List.mem_singleton.mp made⟩

theorem WritesFiles.registry_eq {paths : ArtifactPaths} {imports : List Import}
    {modules : Modules Module} {answer : Except EvalError Unit}
    (told : ev.WritesFiles paths imports modules s calls answer t) : t.registry = s.registry := by
  cases told with
  | headerFailed header => exact header.registry_eq
  | headerWritten header source => exact source.registry_eq.trans header.registry_eq

theorem WritesFiles.exists_emit {paths : ArtifactPaths} {imports : List Import}
    {modules : Modules Module} {answer : Except EvalError Unit}
    (told : ev.WritesFiles paths imports modules s calls answer t)
    {call : Call Source Module Entry} (made : call ∈ calls) :
    ∃ m emission, call = .emit m emission := by
  cases told with
  | headerFailed header => exact header.exists_emit made
  | headerWritten header source =>
    rcases List.mem_append.mp made with before | after
    · exact header.exists_emit before
    · exact source.exists_emit after

theorem Emits.registry_eq {outcome : Compilation Module} {paths : ArtifactPaths}
    {imports : List Import} {answer : Except EvalError Emitted}
    (told : ev.Emits outcome paths imports s calls answer t) : t.registry = s.registry := by
  cases told with
  | rejected => rfl
  | failed accepted files => exact files.registry_eq
  | emitted accepted files => exact files.registry_eq

theorem Emits.exists_emit {outcome : Compilation Module} {paths : ArtifactPaths}
    {imports : List Import} {answer : Except EvalError Emitted}
    (told : ev.Emits outcome paths imports s calls answer t)
    {call : Call Source Module Entry} (made : call ∈ calls) :
    ∃ m emission, call = .emit m emission := by
  cases told with
  | rejected => cases made
  | failed accepted files => exact files.exists_emit made
  | emitted accepted files => exact files.exists_emit made

end

/-! ## Each step goes as told -/

variable (ev : Evaluator World Source Module Entry) (s : Session World Entry)

theorem recounts_writeModule (path : Path) (includes : List Import) (m : Module) :
    Recounts (ev.recording.writeModule path includes m) (ev.writeModule path includes m) s
      (ev.Writes path includes m s) := by
  unfold writeModule
  refine .get_bind fun start _ sameFiles => ?_
  rw [sameFiles]
  dsimp only
  cases faults : s.files.fault? path with
  | some fault =>
    exact .modify_bind (fun _ => ⟨rfl, rfl⟩) (.still (fun _ => rfl) rfl (.faulty faults))
  | none =>
    cases placed : s.files.creationPlace path with
    | error cause => exact .require_error_bind (.unplaced faults placed)
    | ok place =>
      refine .require_ok_bind ?_
      rcases emits : ev.backend.emit m s.world with ⟨emission, world⟩
      refine .call_bind emits (.modify_bind (fun _ => ⟨rfl, rfl⟩) ?_)
      cases failure : emission.failure with
      | some cause => exact .still (fun _ => rfl) rfl (.cut faults placed emits failure)
      | none => exact .still (fun _ => rfl) rfl (.written faults placed emits failure)

theorem recounts_writeFiles (paths : ArtifactPaths) (imports : List Import)
    (modules : Modules Module) :
    Recounts
      (do
        ev.recording.writeModule paths.header (ev.resolved imports) modules.header
        ev.recording.writeModule paths.source (ev.resolved imports ++ [.build paths.headerName])
          modules.definitions)
      (do
        ev.writeModule paths.header (ev.resolved imports) modules.header
        ev.writeModule paths.source (ev.resolved imports ++ [.build paths.headerName])
          modules.definitions)
      s (ev.WritesFiles paths imports modules s) := by
  refine .bind (ev.recounts_writeModule s paths.header _ modules.header) ?_ ?_
  · intro calls e t header
    exact .headerFailed header
  · intro calls _ t header
    refine (ev.recounts_writeModule t paths.source _ modules.definitions).weaken ?_
    intro calls' answer u source
    exact .headerWritten header source

theorem recounts_emit (outcome : Compilation Module) (paths : ArtifactPaths)
    (imports : List Import) :
    Recounts (ev.recording.emit outcome paths imports) (ev.emit outcome paths imports) s
      (ev.Emits outcome paths imports s) := by
  unfold emit
  cases produced : outcome.result with
  | error message => exact .still (fun _ => rfl) rfl (.rejected produced)
  | ok modules =>
    refine .attaching_bind (ev.recounts_writeFiles s paths imports modules) ?_ ?_
    · intro calls e t written
      exact .failed produced written
    · intro calls _ t written
      refine .still (fun _ => rfl) rfl ?_
      rw [List.append_nil]
      exact .emitted produced written

theorem recounts_linkAndLoad (id symbol : String) (options : Options) (imports : List Import) :
    Recounts (ev.recording.linkAndLoad id symbol options imports)
      (ev.linkAndLoad id symbol options imports) s (ev.Links id symbol options imports s) := by
  unfold linkAndLoad
  -- each call ends the build or leads to the next one
  rcases object : ev.backend.build .compile (linkJob options imports) s.world with
    ⟨cause | _, world⟩
  · exact .call_bind object (.require_error_bind (.objectFailed object))
  refine .call_bind object (.require_ok_bind ?_)
  rcases library : ev.backend.build .link (linkJob options imports) world with
    ⟨cause | _, world'⟩
  · exact .call_bind library (.require_error_bind (.libraryFailed object library))
  refine .call_bind library (.require_ok_bind ?_)
  rcases loads : ev.backend.load options.paths.library symbol world' with ⟨e | entry, world''⟩
  · exact .call_bind loads (.require_error_bind (.notLoaded object library loads))
  · exact .call_bind loads (.require_ok_bind (.register (.loaded object library loads)))

theorem recounts_build (request : Request Source) :
    Recounts (ev.recording.build request) (ev.build request) s (ev.Builds request s) := by
  unfold build
  refine .reserve_bind ?_
  rcases compiles : ev.backend.compile .program (ev.optionsFor s request.id) request.source
    s.world with ⟨outcome, world⟩
  refine .call_bind compiles ?_
  refine .bind (ev.recounts_emit (ev.reserved s request.id world) outcome _ request.imports) ?_ ?_
  · intro calls e t emission
    exact .notEmitted compiles emission
  · intro calls emitted t emission
    -- from here on the diagnostics of the compiler go with an error
    refine .attaching_bind (ev.recounts_linkAndLoad t request.id _ _ emitted.imports) ?_ ?_
    · intro calls' e u link
      exact .notLinked compiles emission link
    · intro calls' artifact u link
      refine .still (fun _ => rfl) rfl ?_
      rw [List.append_nil]
      exact .built compiles emission link

/-- What is left of an execution after the call is what the invocation means. -/
theorem recounts_execute (env : Environment) (type : Readable) (artifact : Artifact Entry) :
    Recounts (ev.recording.execute env type artifact) (ev.execute env type artifact) s
      fun calls answer t => ∃ invocation world,
        ev.backend.invoke artifact.entry s.world = (invocation, world) ∧
        calls = [.invoke artifact.entry invocation] ∧ answer = invocation.outcome env type ∧
        t = { s with registry := s.registry.markInvoked artifact.id, channel := {}, world } := by
  unfold execute
  rcases invokes : ev.backend.invoke artifact.entry s.world with ⟨invocation, world⟩
  refine .modify_bind (fun _ => ⟨rfl, rfl⟩) (.call_bind invokes ?_)
  refine .modify_bind (fun _ => ⟨rfl, rfl⟩) (.takePending_bind ?_)
  cases fatal : (({} : Channel).receiveAll invocation.calls).fatal with
  | some message =>
    have outcome : _ = invocation.outcome env type := (Invocation.outcome_of_fatal fatal).symm
    exact .still (fun _ => rfl) rfl ⟨invocation, world, rfl, rfl, outcome, rfl⟩
  | none =>
    cases result : invocation.result with
    | error e =>
      have outcome : _ = invocation.outcome env type :=
        (Invocation.outcome_of_error fatal result).symm
      exact .require_error_bind ⟨invocation, world, rfl, rfl, outcome, rfl⟩
    | ok v =>
      have outcome : _ = invocation.outcome env type := (Invocation.outcome_of_ok fatal result).symm
      refine .require_ok_bind ?_
      cases decoded : type.decode env defaultFuel v with
      | error e =>
        rw [decoded] at outcome
        exact .require_error_bind ⟨invocation, world, rfl, rfl, outcome, rfl⟩
      | ok term =>
        rw [decoded] at outcome
        exact .require_ok_bind
          (.still (fun _ => rfl) rfl ⟨invocation, world, rfl, rfl, outcome, rfl⟩)

theorem recounts_finish (env : Environment) (type : Readable) (artifact : Artifact Entry)
    (diagnostics : Diagnostics) (cached : Bool) :
    Recounts (ev.recording.finish env type artifact diagnostics cached)
      (ev.finish env type artifact diagnostics cached) s
      (ev.Finishes env type artifact diagnostics cached s) := by
  unfold finish
  refine .attaching_bind (ev.recounts_execute s env type artifact) ?_ ?_
  · rintro calls e t ⟨invocation, world, invokes, rfl, fails, rfl⟩
    exact .failed invokes fails.symm
  · rintro calls ⟨term, messages⟩ t ⟨invocation, world, invokes, rfl, succeeds, rfl⟩
    exact .still (fun _ => rfl) rfl (.finished invokes succeeds.symm)

theorem recounts_evaluate (env : Environment) (request : Request Source) :
    Recounts (ev.recording.evaluate env request) (ev.evaluate env request) s
      (ev.Evaluates env request s) := by
  unfold evaluate resultType
  cases readable : Readable.ofResultType env defaultFuel request.type with
  | error e => exact .require_error_bind (.unreadable readable)
  | ok type =>
    refine .require_ok_bind (.get_bind fun start sameRegistry _ => ?_)
    rw [sameRegistry]
    cases lookup : s.registry.lookup? request.id with
    | some artifact =>
      refine (ev.recounts_finish s env type artifact {} true).weaken ?_
      intro calls answer t finish
      exact .registered readable lookup finish
    | none =>
      refine .bind (ev.recounts_build s request) ?_ ?_
      · intro calls e t build
        exact .notBuilt readable lookup build
      · rintro calls ⟨artifact, diagnostics⟩ t build
        refine (ev.recounts_finish t env type artifact diagnostics false).weaken ?_
        intro calls' answer u finish
        exact .built readable lookup build finish

theorem recounts_runCached (env : Environment) (id : String) (type : Term) :
    Recounts (ev.recording.runCached env id type) (ev.runCached env id type) s
      (ev.RunsCached env id type s) := by
  unfold runCached resultType
  cases readable : Readable.ofResultType env defaultFuel type with
  | error e => exact .require_error_bind (.unreadable readable)
  | ok type =>
    refine .require_ok_bind (.get_bind fun start sameRegistry _ => ?_)
    rw [sameRegistry]
    cases lookup : s.registry.lookup? id with
    | some artifact =>
      refine (ev.recounts_finish s env type artifact {} true).weaken ?_
      intro calls answer t finish
      exact .registered readable lookup finish
    | none => exact .still (fun _ => rfl) rfl (.unregistered readable lookup)

theorem recounts_generate (product : Product) (source : Source) (imports : List Import) :
    Recounts (ev.recording.generate product source imports) (ev.generate product source imports) s
      (ev.Generates product source imports s) := by
  unfold generate
  rcases compiles : ev.backend.compile product ev.options source s.world with ⟨outcome, world⟩
  refine .call_bind compiles ?_
  refine (ev.recounts_emit { s with world } outcome _ imports).weaken ?_
  intro calls answer t emission
  exact .generated compiles emission

end Evaluator

end Readback
