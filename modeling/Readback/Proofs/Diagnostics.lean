import Readback.Prelude
import Readback.Proofs.Messages

/-!
# Diagnostics of a compilation

The compiler may have something to say about a program that it accepts. Whatever becomes of the
program afterwards, its diagnostics come with the answer, once: with the result, or around the error
of the stage that failed, which stays what it was.

## Main definitions

* `EvalError.attachAll` — an error after several attachments
* `EvalError.Carries` — an error with the diagnostics that were attached to it
* `Evaluator.OwnError` — the error of the stage at which an evaluation ends
* `Evaluator.Surfaces` — where the diagnostics of an evaluation are found

## Main statements

* `EvalError.diagnostics?_attachAll`, `EvalError.root_attachAll` — attaching several times
* `Evaluator.OwnError.unique`, `Evaluator.OwnError.diagnostics?_eq_none` — there is one error of a
  stage, and it has no diagnostics
* `Evaluator.diagnostics_surface_once` — diagnostics are found once, and hide nothing
-/

namespace Readback

variable {World Source Module Entry : Type}

/-! ## Attaching diagnostics -/

namespace EvalError

/-- An error that has diagnostics is not given others. -/
theorem withDiagnostics_of_own {e : EvalError} {own : Diagnostics}
    (has : e.diagnostics? = some own) (d : Diagnostics) : e.withDiagnostics d = e := by
  cases e with
  | compile => rfl
  | build => rfl
  | _ => cases has

/-- An error without diagnostics gets one layer around it, if there is anything to attach. -/
theorem withDiagnostics_of_bare {e : EvalError} (bare : e.diagnostics? = none) (d : Diagnostics) :
    e.withDiagnostics d = if d.isEmpty then e else build d e := by
  cases e with
  | compile => cases bare
  | build => cases bare
  | _ => rfl

theorem root_of_bare {e : EvalError} (bare : e.diagnostics? = none) : e.root = e := by
  cases e with
  | build => cases bare
  | _ => rfl

theorem diagnostics?_withDiagnostics (e : EvalError) (d : Diagnostics) :
    (e.withDiagnostics d).diagnostics? =
      e.diagnostics?.or (if d.isEmpty then none else some d) := by
  cases has : e.diagnostics? with
  | some own => rw [withDiagnostics_of_own has, has, Option.some_or]
  | none =>
    rw [withDiagnostics_of_bare has, Option.none_or]
    by_cases empty : d.isEmpty
    · rw [if_pos empty, if_pos empty, has]
    · rw [if_neg empty, if_neg empty]
      rfl

/-- The error after diagnostics were attached, one after the other. -/
def attachAll (e : EvalError) (ds : List Diagnostics) : EvalError :=
  ds.foldl (fun e d => e.withDiagnostics d) e

theorem root_attachAll (e : EvalError) (ds : List Diagnostics) :
    (e.attachAll ds).root = e.root := by
  induction ds generalizing e with
  | nil => rfl
  | cons d ds ih => exact (ih (e.withDiagnostics d)).trans (root_withDiagnostics e d)

theorem message_attachAll (e : EvalError) (ds : List Diagnostics) :
    (e.attachAll ds).message = e.message := by
  induction ds generalizing e with
  | nil => rfl
  | cons d ds ih => exact (ih (e.withDiagnostics d)).trans (message_withDiagnostics e d)

/-- The diagnostics of the error itself count, and then the first that say anything. -/
theorem diagnostics?_attachAll (e : EvalError) (ds : List Diagnostics) :
    (e.attachAll ds).diagnostics? = e.diagnostics?.or (ds.find? (! ·.isEmpty)) := by
  induction ds generalizing e with
  | nil => simp [attachAll]
  | cons d ds ih =>
    have rest := ih (e.withDiagnostics d)
    rw [diagnostics?_withDiagnostics, Option.or_assoc] at rest
    refine rest.trans (congrArg e.diagnostics?.or ?_)
    by_cases empty : d.isEmpty <;> simp [empty]

/-- The error comes with the diagnostics in one layer, or without any if there are none. What is
below is another error, which has no diagnostics. -/
structure Carries (d : Diagnostics) (own e : EvalError) : Prop where
  bare : own.diagnostics? = none
  layer : e = if d.isEmpty then own else build d own
  diagnostics : e.diagnostics? = if d.isEmpty then none else some d
  root : e.root = own
  message : e.message = own.message

theorem carries_withDiagnostics {own : EvalError} (bare : own.diagnostics? = none)
    (d : Diagnostics) : Carries d own (own.withDiagnostics d) where
  bare := bare
  layer := withDiagnostics_of_bare bare d
  diagnostics := by rw [diagnostics?_withDiagnostics, bare, Option.none_or]
  root := by rw [root_withDiagnostics, root_of_bare bare]
  message := message_withDiagnostics own d

end EvalError

/-! ## The error of a stage -/

namespace Call

/-- What the compiler has answered. -/
def compilation? : Call Source Module Entry → Option (Compilation Module)
  | compile _ _ _ answer => some answer
  | _ => none

/-- Whether the loader or the compiled code, if it was called and has failed, brings no diagnostics
along. -/
def isPlain : Call Source Module Entry → Bool
  | load _ _ (.error e) => e.diagnostics?.isNone
  | invoke _ { result := .error e, .. } => e.diagnostics?.isNone
  | _ => true

end Call

namespace Evaluator

/-- The error of the stage at which an evaluation ends after its program was accepted, told by its
last call and by the files after it. A file that cannot be begun costs no call, so that the call
before it is the last. -/
inductive OwnError (paths : ArtifactPaths) (env : Environment) (type : Readable)
    (calls : List (Call Source Module Entry)) (files : FileTree) : EvalError → Prop
  | headerRefused {product : Product} {options : Options} {source : Source}
      {outcome : Compilation Module} {modules : Modules Module} {cause : IoError}
      (last : calls.getLast? = some (.compile product options source outcome))
      (accepted : outcome.result = .ok modules)
      (refused : files.refusal? paths.header = some cause) :
      OwnError paths env type calls files (.io paths.header cause)
  | headerCut {m : Module} {emission : Emission} {cause : IoError}
      (last : calls.getLast? = some (.emit m emission))
      (first : calls.filterMap Call.emitted? = [m]) (short : emission.failure = some cause) :
      OwnError paths env type calls files (.io paths.header cause)
  | sourceRefused {m : Module} {emission : Emission} {cause : IoError}
      (last : calls.getLast? = some (.emit m emission))
      (first : calls.filterMap Call.emitted? = [m]) (whole : emission.failure = none)
      (refused : files.refusal? paths.source = some cause) :
      OwnError paths env type calls files (.io paths.source cause)
  | sourceCut {header m : Module} {emission : Emission} {cause : IoError}
      (last : calls.getLast? = some (.emit m emission))
      (second : calls.filterMap Call.emitted? = [header, m])
      (short : emission.failure = some cause) :
      OwnError paths env type calls files (.io paths.source cause)
  | toolchain {stage : BuildStage} {job : BuildJob} {cause : ToolchainError}
      (last : calls.getLast? = some (.build stage job (.error cause))) :
      OwnError paths env type calls files (.toolchain cause)
  | load {library : Path} {symbol : String} {e : EvalError}
      (last : calls.getLast? = some (.load library symbol (.error e))) :
      OwnError paths env type calls files e
  | fatal {entry : Entry} {i : Invocation} {text : String}
      (last : calls.getLast? = some (.invoke entry i))
      (raised : i.calls.findSome? HostCall.fatal? = some text) :
      OwnError paths env type calls files (.fatal text)
  | run {entry : Entry} {i : Invocation} {e : EvalError}
      (last : calls.getLast? = some (.invoke entry i))
      (quiet : i.calls.findSome? HostCall.fatal? = none) (result : i.result = .error e) :
      OwnError paths env type calls files e
  | decode {entry : Entry} {i : Invocation} {v : Value} {e : DecodeError}
      (last : calls.getLast? = some (.invoke entry i))
      (quiet : i.calls.findSome? HostCall.fatal? = none) (result : i.result = .ok v)
      (unread : type.decode env defaultFuel v = .error e) :
      OwnError paths env type calls files (.decode e)

/-- The calls and the files leave no doubt about the error of the stage. -/
theorem OwnError.unique {paths : ArtifactPaths} {env : Environment} {type : Readable}
    {calls : List (Call Source Module Entry)} {files : FileTree} {e e' : EvalError}
    (left : OwnError paths env type calls files e)
    (right : OwnError paths env type calls files e') : e = e' := by
  -- the last call decides between the stages, and its answer between errors of one stage
  cases left <;> cases right <;> grind

/-- Only the loader and compiled code could answer an error that has diagnostics already. -/
theorem OwnError.diagnostics?_eq_none {paths : ArtifactPaths} {env : Environment} {type : Readable}
    {calls : List (Call Source Module Entry)} {files : FileTree} {e : EvalError}
    (own : OwnError paths env type calls files e) (plain : ∀ call ∈ calls, call.isPlain) :
    e.diagnostics? = none := by
  cases own with
  | load last =>
    have loaded := plain _ (List.mem_of_getLast? last)
    simpa [Call.isPlain] using loaded
  | @run entry i e last quiet result =>
    have ran := plain _ (List.mem_of_getLast? last)
    obtain ⟨said, answer⟩ := i
    obtain rfl : answer = .error e := result
    simpa [Call.isPlain] using ran
  | _ => rfl

/-- An invocation fails with the first fatal error, with its own error, or because its result cannot
be read. -/
theorem OwnError.of_outcome {paths : ArtifactPaths} {env : Environment} {type : Readable}
    {calls : List (Call Source Module Entry)} {files : FileTree} {entry : Entry} {i : Invocation}
    {e : EvalError} (last : calls.getLast? = some (.invoke entry i))
    (fails : i.outcome env type = .error e) : OwnError paths env type calls files e := by
  have raised := Channel.fatal_receiveAll {} i.calls
  rw [Option.none_or] at raised
  cases fatal : (({} : Channel).receiveAll i.calls).fatal with
  | some text =>
    obtain rfl := Except.error.inj ((Invocation.outcome_of_fatal fatal).symm.trans fails)
    exact .fatal last (raised.symm.trans fatal)
  | none =>
    have quiet := raised.symm.trans fatal
    cases result : i.result with
    | error e' =>
      obtain rfl := Except.error.inj ((Invocation.outcome_of_error fatal result).symm.trans fails)
      exact .run last quiet result
    | ok v =>
      rw [Invocation.outcome_of_ok fatal result] at fails
      cases decoded : type.decode env defaultFuel v with
      | ok term =>
        rw [decoded] at fails
        cases fails
      | error e' =>
        rw [decoded] at fails
        obtain rfl := Except.error.inj fails
        exact .decode last quiet result decoded

variable {ev : Evaluator World Source Module Entry} {s t : Session World Entry}
  {calls : List (Call Source Module Entry)}

/-- The files of an accepted program fail at the header or at the source. -/
theorem WritesFiles.ownError {paths : ArtifactPaths} {imports : List Import}
    {modules : Modules Module} {e : EvalError} {outcome : Compilation Module}
    (told : ev.WritesFiles paths imports modules s calls (.error e) t)
    (accepted : outcome.result = .ok modules) (product : Product) (options : Options)
    (source : Source) (env : Environment) (type : Readable) :
    OwnError paths env type (.compile product options source outcome :: calls) t.files e := by
  cases told with
  | headerFailed header =>
    obtain ⟨cause, rfl, ⟨rfl, refused⟩ | ⟨emission, rfl, short⟩⟩ := header.of_error
    · exact .headerRefused rfl accepted refused
    · exact .headerCut rfl rfl short
  | headerWritten header source =>
    cases header with
    | written faultless placed emits whole =>
      obtain ⟨cause, rfl, ⟨rfl, refused⟩ | ⟨emission, rfl, short⟩⟩ := source.of_error
      · exact .sourceRefused rfl rfl whole refused
      · exact .sourceCut rfl rfl short

/-- Behind other calls, a build fails with what the toolchain or the loader has answered. -/
theorem Links.ownError {id symbol : String} {options : Options} {imports : List Import}
    {e : EvalError} (told : ev.Links id symbol options imports s calls (.error e) t)
    (before : List (Call Source Module Entry)) (paths : ArtifactPaths) (env : Environment)
    (type : Readable) : OwnError paths env type (before ++ calls) t.files e := by
  cases told with
  | objectFailed => exact .toolchain (by rw [List.getLast?_append]; rfl)
  | libraryFailed => exact .toolchain (by rw [List.getLast?_append]; rfl)
  | notLoaded => exact .load (by rw [List.getLast?_append]; rfl)

/-! ## Where diagnostics are found -/

/-- An answer without diagnostics. -/
def Bare (answer : Except EvalError Evaluation) : Prop :=
  (∀ evaluation, answer = .ok evaluation → evaluation.diagnostics = {}) ∧
    ∀ e, answer = .error e → e.diagnostics? = none

theorem Bare.of_error {e : EvalError} (bare : e.diagnostics? = none) : Bare (.error e) := by
  constructor
  · intro evaluation succeeds
    cases succeeds
  · intro e' failure
    obtain rfl := Except.error.inj failure
    exact bare

/-- Where the diagnostics of an evaluation are found. It compiles once at most. The diagnostics come
with the complaint about a rejected program, with a result, and around the error of the stage that
failed. Without a compilation there are none, and what is registered is not compiled. -/
structure Surfaces (ev : Evaluator World Source Module Entry) (env : Environment)
    (request : Request Source) (s : Session World Entry) (calls : List (Call Source Module Entry))
    (answer : Except EvalError Evaluation) (t : Session World Entry) : Prop where
  compilesOnce : (calls.filterMap Call.compilation?).length ≤ 1
  rejected : ∀ outcome message, calls.filterMap Call.compilation? = [outcome] →
    outcome.result = .error message → answer = .error (.compile message outcome.diagnostics)
  succeeded : ∀ outcome evaluation, calls.filterMap Call.compilation? = [outcome] →
    answer = .ok evaluation → evaluation.diagnostics = outcome.diagnostics
  failed : ∀ outcome modules e, calls.filterMap Call.compilation? = [outcome] →
    outcome.result = .ok modules → answer = .error e →
    ∃ type own, Readable.ofResultType env defaultFuel request.type = .ok type ∧
      (∀ e', OwnError (ev.optionsFor s request.id).paths env type calls t.files e' ↔ e' = own) ∧
      EvalError.Carries outcome.diagnostics own e
  silent : calls.filterMap Call.compilation? = [] → Bare answer
  registered : ∀ a, s.registry.lookup? request.id = some a →
    calls.filterMap Call.compilation? = []

/-- An evaluation without a compilation. -/
theorem Surfaces.of_silent {env : Environment} {request : Request Source}
    {answer : Except EvalError Evaluation} (silent : calls.filterMap Call.compilation? = [])
    (bare : Bare answer) : ev.Surfaces env request s calls answer t where
  compilesOnce := by rw [silent]; exact Nat.zero_le 1
  rejected := fun _ _ compiled => by cases silent.symm.trans compiled
  succeeded := fun _ _ compiled => by cases silent.symm.trans compiled
  failed := fun _ _ _ compiled => by cases silent.symm.trans compiled
  silent := fun _ => bare
  registered := fun _ _ => silent

theorem Emits.filterMap_compilation? {outcome : Compilation Module} {paths : ArtifactPaths}
    {imports : List Import} {answer : Except EvalError Emitted}
    (told : ev.Emits outcome paths imports s calls answer t) :
    calls.filterMap Call.compilation? = [] := by
  rw [List.filterMap_eq_nil_iff]
  intro call made
  obtain ⟨m, emission, rfl⟩ := told.exists_emit made
  rfl

theorem Links.filterMap_compilation? {id symbol : String} {options : Options}
    {imports : List Import} {answer : Except EvalError (Artifact Entry)}
    (told : ev.Links id symbol options imports s calls answer t) :
    calls.filterMap Call.compilation? = [] := by
  cases told <;> rfl

theorem Finishes.filterMap_compilation? {env : Environment} {type : Readable}
    {artifact : Artifact Entry} {diagnostics : Diagnostics} {cached : Bool}
    {answer : Except EvalError Evaluation}
    (told : ev.Finishes env type artifact diagnostics cached s calls answer t) :
    calls.filterMap Call.compilation? = [] := by
  cases told <;> rfl

/-- What was compiled once, for a free identifier. -/
theorem Surfaces.of_compiled {env : Environment} {request : Request Source}
    {answer : Except EvalError Evaluation} {outcome : Compilation Module}
    (compiled : calls.filterMap Call.compilation? = [outcome])
    (free : s.registry.lookup? request.id = none)
    (rejected : ∀ message, outcome.result = .error message →
      answer = .error (.compile message outcome.diagnostics))
    (succeeded : ∀ evaluation, answer = .ok evaluation →
      evaluation.diagnostics = outcome.diagnostics)
    (failed : ∀ modules e, outcome.result = .ok modules → answer = .error e →
      ∃ type own, Readable.ofResultType env defaultFuel request.type = .ok type ∧
        OwnError (ev.optionsFor s request.id).paths env type calls t.files own ∧
        EvalError.Carries outcome.diagnostics own e) :
    ev.Surfaces env request s calls answer t where
  compilesOnce := by rw [compiled]; exact Nat.le_refl 1
  rejected := by
    intro outcome' message compiled'
    cases compiled.symm.trans compiled'
    exact rejected message
  succeeded := by
    intro outcome' evaluation compiled'
    cases compiled.symm.trans compiled'
    exact succeeded evaluation
  failed := by
    intro outcome' modules e compiled' accepted failure
    cases compiled.symm.trans compiled'
    obtain ⟨type, own, readable, ends, carried⟩ := failed modules e accepted failure
    refine ⟨type, own, readable, fun e' => ⟨fun ends' => ends'.unique ends, ?_⟩, carried⟩
    rintro rfl
    exact ends
  silent := fun silent => by cases silent.symm.trans compiled
  registered := fun a taken => by cases free.symm.trans taken

/-- A run that fails fails with an error of its own, and what was said about its build is around
it. -/
theorem Finishes.carries {env : Environment} {type : Readable} {artifact : Artifact Entry}
    {diagnostics : Diagnostics} {cached : Bool} {e : EvalError}
    (told : ev.Finishes env type artifact diagnostics cached s calls (.error e) t)
    (plain : ∀ call ∈ calls, call.isPlain) (before : List (Call Source Module Entry))
    (paths : ArtifactPaths) :
    ∃ own, OwnError paths env type (before ++ calls) t.files own ∧
      EvalError.Carries diagnostics own e := by
  cases told with
  | @failed i world own invokes fails =>
    have alone : OwnError paths env type [(.invoke artifact.entry i : Call Source Module Entry)]
        s.files own := .of_outcome rfl fails
    exact ⟨own, .of_outcome List.getLast?_concat fails,
      EvalError.carries_withDiagnostics (alone.diagnostics?_eq_none plain) diagnostics⟩

theorem Finishes.diagnostics_eq {env : Environment} {type : Readable} {artifact : Artifact Entry}
    {diagnostics : Diagnostics} {cached : Bool} {evaluation : Evaluation}
    (told : ev.Finishes env type artifact diagnostics cached s calls (.ok evaluation) t) :
    evaluation.diagnostics = diagnostics := by
  cases told
  rfl

/-- What is run without a build answers without diagnostics. -/
theorem Finishes.bare {env : Environment} {type : Readable} {artifact : Artifact Entry}
    {cached : Bool} {answer : Except EvalError Evaluation}
    (told : ev.Finishes env type artifact {} cached s calls answer t)
    (plain : ∀ call ∈ calls, call.isPlain) : Bare answer := by
  constructor
  · rintro evaluation rfl
    exact told.diagnostics_eq
  · rintro e rfl
    obtain ⟨own, -, carried⟩ := told.carries plain [] ev.options.paths
    simpa [Diagnostics.isEmpty] using carried.diagnostics

/-- A build that fails has compiled a program that was rejected, or it fails with the error of its
stage. -/
theorem Builds.surfaces {env : Environment} {type : Readable} {request : Request Source}
    {e : EvalError} (told : ev.Builds request s calls (.error e) t)
    (readable : Readable.ofResultType env defaultFuel request.type = .ok type)
    (free : s.registry.lookup? request.id = none) (plain : ∀ call ∈ calls, call.isPlain) :
    ev.Surfaces env request s calls (.error e) t := by
  have failing : ∀ (outcome : Compilation Module) (own : EvalError),
      OwnError (ev.optionsFor s request.id).paths env type calls t.files own →
      ∃ type own', Readable.ofResultType env defaultFuel request.type = .ok type ∧
        OwnError (ev.optionsFor s request.id).paths env type calls t.files own' ∧
        EvalError.Carries outcome.diagnostics own' (own.withDiagnostics outcome.diagnostics) :=
    fun outcome own failed => ⟨type, own, readable, failed,
      EvalError.carries_withDiagnostics (failed.diagnostics?_eq_none plain) outcome.diagnostics⟩
  cases told with
  | @notEmitted outcome world calls e t compiles emission =>
    have compiled : (Call.compile .program (ev.optionsFor s request.id) request.source outcome ::
        calls).filterMap Call.compilation? = [outcome] := by
      rw [List.filterMap_cons, emission.filterMap_compilation?]
      rfl
    refine .of_compiled compiled free ?_ (fun _ succeeds => by cases succeeds) ?_
    · intro message rejected
      cases emission with
      | rejected rejected' => rw [Except.error.inj (rejected'.symm.trans rejected)]
      | failed accepted => cases accepted.symm.trans rejected
    · intro modules e' accepted failure
      obtain rfl := Except.error.inj failure
      cases emission with
      | rejected rejected => cases accepted.symm.trans rejected
      | failed accepted' files =>
        exact failing outcome _ (files.ownError accepted' _ _ _ env type)
  | @notLinked outcome world calls calls' emitted e t u compiles emission link =>
    have compiled : (Call.compile .program (ev.optionsFor s request.id) request.source outcome ::
        (calls ++ calls')).filterMap Call.compilation? = [outcome] := by
      rw [List.filterMap_cons, List.filterMap_append, emission.filterMap_compilation?,
        link.filterMap_compilation?]
      rfl
    cases emission with
    | emitted accepted files =>
      refine .of_compiled compiled free ?_ (fun _ succeeds => by cases succeeds) ?_
      · intro message rejected
        cases accepted.symm.trans rejected
      · intro modules e' accepted' failure
        obtain rfl := Except.error.inj failure
        exact failing outcome _ (link.ownError (.compile _ _ _ outcome :: calls) _ env type)

/-- A build that succeeds has compiled an accepted program, and hands on its diagnostics. -/
theorem Builds.compilation_of_ok {request : Request Source} {artifact : Artifact Entry}
    {diagnostics : Diagnostics} (told : ev.Builds request s calls (.ok (artifact, diagnostics)) t) :
    ∃ outcome, calls.filterMap Call.compilation? = [outcome] ∧ outcome.result.isOk ∧
      diagnostics = outcome.diagnostics := by
  cases told with
  | @built outcome world calls calls' emitted artifact t u compiles emission link =>
    refine ⟨outcome, ?_, ?_⟩
    · rw [List.filterMap_cons, List.filterMap_append, emission.filterMap_compilation?,
        link.filterMap_compilation?]
      rfl
    · cases emission with
      | emitted accepted => exact ⟨by rw [accepted]; rfl, rfl⟩

/-- What is run after a build has the diagnostics of the build with its result or its error. -/
theorem Builds.surfaces_of_ok {env : Environment} {type : Readable} {request : Request Source}
    {artifact : Artifact Entry} {diagnostics : Diagnostics}
    {answer : Except EvalError Evaluation} {calls' : List (Call Source Module Entry)}
    {u : Session World Entry} (told : ev.Builds request s calls (.ok (artifact, diagnostics)) t)
    (finish : ev.Finishes env type artifact diagnostics false t calls' answer u)
    (readable : Readable.ofResultType env defaultFuel request.type = .ok type)
    (free : s.registry.lookup? request.id = none) (plain : ∀ call ∈ calls ++ calls', call.isPlain) :
    ev.Surfaces env request s (calls ++ calls') answer u := by
  obtain ⟨outcome, compiled, accepted, rfl⟩ := told.compilation_of_ok
  have once : (calls ++ calls').filterMap Call.compilation? = [outcome] := by
    rw [List.filterMap_append, compiled, finish.filterMap_compilation?, List.append_nil]
  refine .of_compiled once free ?_ ?_ ?_
  · intro message rejected
    rw [rejected] at accepted
    cases accepted
  · rintro evaluation rfl
    exact finish.diagnostics_eq
  · rintro modules e - rfl
    have plain' : ∀ call ∈ calls', call.isPlain :=
      fun call made => plain call (List.mem_append_right _ made)
    obtain ⟨own, failed, carried⟩ :=
      finish.carries plain' calls (ev.optionsFor s request.id).paths
    exact ⟨type, own, readable, failed, carried⟩

theorem Evaluates.surfaces {env : Environment} {request : Request Source}
    {answer : Except EvalError Evaluation} (told : ev.Evaluates env request s calls answer t)
    (plain : ∀ call ∈ calls, call.isPlain) : ev.Surfaces env request s calls answer t := by
  cases told with
  | unreadable => exact .of_silent rfl (.of_error rfl)
  | registered readable registered finish =>
    exact .of_silent finish.filterMap_compilation? (finish.bare plain)
  | notBuilt readable unregistered build => exact build.surfaces readable unregistered plain
  | built readable unregistered build finish =>
    exact build.surfaces_of_ok finish readable unregistered plain

theorem RunsCached.bare {env : Environment} {id : String} {type : Term}
    {answer : Except EvalError Evaluation} (told : ev.RunsCached env id type s calls answer t)
    (plain : ∀ call ∈ calls, call.isPlain) : Bare answer := by
  cases told with
  | unreadable => exact .of_error rfl
  | registered readable registered finish => exact finish.bare plain
  | unregistered => exact .of_error rfl

/-- Diagnostics are found once and hide nothing. If the loader and the compiled code answer errors
without diagnostics, those of the compiler come with the answer to the evaluation that has compiled,
and no other evaluation and no run from the cache has any. However often diagnostics are attached to
an error, its root and its text stay, and of all diagnostics its own count, and else the first that
say anything. -/
theorem diagnostics_surface_once (ev : Evaluator World Source Module Entry) (env : Environment)
    (s : Session World Entry) :
    (∀ request : Request Source,
      (∀ call ∈ Session.noted (ev.recording.evaluate env request) s, call.isPlain) →
      ev.Surfaces env request s (Session.noted (ev.recording.evaluate env request) s)
        (ev.evaluate env request s).1 (ev.evaluate env request s).2) ∧
    (∀ (id : String) (type : Term),
      (∀ call ∈ Session.noted (ev.recording.runCached env id type) s, call.isPlain) →
      Bare (ev.runCached env id type s).1) ∧
    ∀ (e : EvalError) (ds : List Diagnostics),
      (e.attachAll ds).root = e.root ∧ (e.attachAll ds).message = e.message ∧
        (e.attachAll ds).diagnostics? = e.diagnostics?.or (ds.find? (! ·.isEmpty)) := by
  refine ⟨fun request plain => ?_, fun id type plain => ?_, fun e ds => ?_⟩
  · exact (ev.recounts_evaluate s env request).story_noted.surfaces plain
  · exact (ev.recounts_runCached s env id type).story_noted.bare plain
  · exact ⟨e.root_attachAll ds, e.message_attachAll ds, e.diagnostics?_attachAll ds⟩

/-- A backend whose compiler warns, and whose compiled code raises a fatal error. -/
def warningBackend : Backend Unit Unit Unit Unit where
  compile _ _ _ := pure { result := .ok ⟨(), ()⟩, diagnostics := ⟨["unused argument"]⟩ }
  emit _ := pure { text := "" }
  build _ _ := pure (.ok ())
  load _ _ := pure (.ok ())
  invoke _ := pure { calls := [.fatal "out of range"], result := .ok (.immediate 0) }

/-- An evaluator with the backend. -/
def warningEvaluator : Evaluator Unit Unit Unit Unit where
  backend := warningBackend
  options := { outputDir := ⟨"/"⟩ }

/-- The evaluation of a natural number. -/
def warningRequest : Request Unit where
  id := "number"
  source := ()
  type := Prelude.indTerm Prelude.natName

/-- The warning of the compiler is around the fatal error. -/
theorem diagnostics_surface_once_warning :
    (warningEvaluator.evaluate Prelude.environment warningRequest { world := () }).1 =
        .error (.build ⟨["unused argument"]⟩ (.fatal "out of range")) ∧
      warningEvaluator.Surfaces Prelude.environment warningRequest { world := () }
        (Session.noted (warningEvaluator.recording.evaluate Prelude.environment warningRequest)
          { world := () })
        (warningEvaluator.evaluate Prelude.environment warningRequest { world := () }).1
        (warningEvaluator.evaluate Prelude.environment warningRequest { world := () }).2 := by
  refine ⟨by decide +kernel, ?_⟩
  exact (diagnostics_surface_once warningEvaluator Prelude.environment { world := () }).1
    warningRequest (by decide +kernel)

end Evaluator

end Readback
