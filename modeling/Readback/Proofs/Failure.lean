import Readback.Proofs.Except
import Readback.Proofs.History
import Readback.Proofs.WrittenFiles

/-!
# What an evaluation leaves behind

An evaluation goes through its stages in a fixed order and stops at the first that fails. What it
leaves behind depends on how far it came: nothing where no result could be read, a reserved symbol
and at most two files where the build failed, and from then on what a success leaves.

## Main definitions

* `Evaluator.Leaves` — what an evaluation leaves behind

## Main statements

* `Evaluator.session_evaluate` — a run leaves the same whatever the entry point answers
* `Evaluator.evaluate_leaves` — each evaluation leaves what its stages allow
-/

namespace Readback

variable {World Source Module Entry : Type}

namespace Evaluator

variable {ev : Evaluator World Source Module Entry} {s t : Session World Entry}
  {calls : List (Call Source Module Entry)}

/-! ## Modules -/

theorem WritesFiles.modules {paths : ArtifactPaths} {imports : List Import}
    {modules : Modules Module} {answer : Except EvalError Unit}
    (told : ev.WritesFiles paths imports modules s calls answer t) :
    calls.filterMap Call.emitted? <+: [modules.header, modules.definitions] := by
  cases told with
  | headerFailed header => cases header <;> simp [Call.emitted?]
  | headerWritten header source =>
    cases header with
    | written => cases source <;> simp [Call.emitted?]

/-- A rejected program costs nothing more. -/
theorem Emits.of_rejected {outcome : Compilation Module} {paths : ArtifactPaths}
    {imports : List Import} {answer : Except EvalError Emitted} {message : String}
    (told : ev.Emits outcome paths imports s calls answer t)
    (rejected : outcome.result = .error message) :
    calls = [] ∧ t = s ∧ answer.isOk = false := by
  cases told with
  | rejected => exact ⟨rfl, rfl, rfl⟩
  | failed accepted => cases accepted.symm.trans rejected
  | emitted accepted => cases accepted.symm.trans rejected

theorem Emits.modules {outcome : Compilation Module} {paths : ArtifactPaths}
    {imports : List Import} {answer : Except EvalError Emitted} {modules : Modules Module}
    (told : ev.Emits outcome paths imports s calls answer t)
    (accepted : outcome.result = .ok modules) :
    calls.filterMap Call.emitted? <+: [modules.header, modules.definitions] := by
  cases told with
  | rejected => exact List.nil_prefix
  | failed accepted' files =>
    obtain rfl := Except.ok.inj (accepted'.symm.trans accepted)
    exact files.modules
  | emitted accepted' files =>
    obtain rfl := Except.ok.inj (accepted'.symm.trans accepted)
    exact files.modules

theorem Links.filterMap_emitted? {id symbol : String} {options : Options} {imports : List Import}
    {answer : Except EvalError (Artifact Entry)}
    (told : ev.Links id symbol options imports s calls answer t) :
    calls.filterMap Call.emitted? = [] := by
  cases told <;> rfl

theorem Finishes.filterMap_emitted? {env : Environment} {type : Readable}
    {artifact : Artifact Entry} {diagnostics : Diagnostics} {cached : Bool}
    {answer : Except EvalError Evaluation}
    (told : ev.Finishes env type artifact diagnostics cached s calls answer t) :
    calls.filterMap Call.emitted? = [] := by
  cases told <;> rfl

/-- A build starts with the compilation of the program. If the program is rejected nothing follows
and no file is written; otherwise the header is written before the source. -/
theorem Builds.compiled {request : Request Source}
    {answer : Except EvalError (Artifact Entry × Diagnostics)}
    (told : ev.Builds request s calls answer t) :
    ∃ outcome rest,
      calls = .compile .program (ev.optionsFor s request.id) request.source outcome :: rest ∧
      (∀ message, outcome.result = .error message →
        rest = [] ∧ t.files = s.files ∧ answer.isOk = false) ∧
      ∀ modules, outcome.result = .ok modules →
        rest.filterMap Call.emitted? <+: [modules.header, modules.definitions] := by
  cases told with
  | notEmitted compiles emission =>
    refine ⟨_, _, rfl, ?_, fun modules accepted => emission.modules accepted⟩
    intro message rejected
    obtain ⟨none, same, -⟩ := emission.of_rejected rejected
    rw [none, same]
    exact ⟨rfl, rfl, rfl⟩
  | notLinked compiles emission link | built compiles emission link =>
    refine ⟨_, _, rfl, ?_, ?_⟩
    · intro message rejected
      cases (emission.of_rejected rejected).2.2
    · intro modules accepted
      rw [List.filterMap_append, link.filterMap_emitted?, List.append_nil]
      exact emission.modules accepted

/-! ## Where a build ends -/

/-- The calls end with one that has failed. -/
def EndsFailed (calls : List (Call Source Module Entry)) : Prop :=
  ∃ call, calls.getLast? = some call ∧ call.succeeded = false

/-- The calls end with one that has failed, or before the module of a file that could not be begun:
the header, or the source after it. -/
def EndsEarly (paths : ArtifactPaths) (after : FileTree)
    (calls : List (Call Source Module Entry)) : Prop :=
  EndsFailed calls ∨
    (calls.filterMap Call.emitted? = [] ∧
      ∃ cause, after.refusal? paths.header = some cause) ∨
    ∃ m, calls.filterMap Call.emitted? = [m] ∧
      ∃ cause, after.refusal? paths.source = some cause

theorem EndsFailed.append {calls' : List (Call Source Module Entry)} (ends : EndsFailed calls')
    (calls : List (Call Source Module Entry)) : EndsFailed (calls ++ calls') := by
  obtain ⟨call, last, failed⟩ := ends
  exact ⟨call, by rw [List.getLast?_append, last, Option.some_or], failed⟩

theorem WritesFiles.endsEarly {paths : ArtifactPaths} {imports : List Import}
    {modules : Modules Module} {e : EvalError}
    (told : ev.WritesFiles paths imports modules s calls (.error e) t) :
    EndsEarly paths t.files calls := by
  cases told with
  | headerFailed header =>
    obtain ⟨cause, -, ⟨rfl, refused⟩ | ⟨emission, rfl, short⟩⟩ := header.of_error
    · exact .inr (.inl ⟨rfl, cause, refused⟩)
    · exact .inl ⟨.emit _ _, rfl, by rw [Call.succeeded, short]; rfl⟩
  | headerWritten header source =>
    cases header with
    | written =>
      obtain ⟨cause, -, ⟨rfl, refused⟩ | ⟨emission, rfl, short⟩⟩ := source.of_error
      · exact .inr (.inr ⟨_, rfl, cause, refused⟩)
      · exact .inl ⟨.emit _ _, rfl, by rw [Call.succeeded, short]; rfl⟩

theorem Links.endsFailed {id symbol : String} {options : Options} {imports : List Import}
    {e : EvalError} (told : ev.Links id symbol options imports s calls (.error e) t) :
    EndsFailed calls := by
  cases told <;> exact ⟨_, rfl, rfl⟩

theorem Builds.endsEarly {request : Request Source} {e : EvalError}
    (told : ev.Builds request s calls (.error e) t) :
    EndsEarly (ev.optionsFor s request.id).paths t.files calls := by
  cases told with
  | notEmitted compiles emission =>
    cases emission with
    | rejected rejected =>
      exact .inl ⟨.compile _ _ _ _, rfl, by rw [Call.succeeded, rejected]; rfl⟩
    | failed accepted files =>
      rcases files.endsEarly with failed | noHeader | noSource
      · exact .inl (failed.append [_])
      · exact .inr (.inl noHeader)
      · exact .inr (.inr noSource)
  | notLinked compiles emission link =>
    exact .inl ((link.endsFailed.append _).append [_])

/-- The symbol of a build is a new one. -/
theorem symbols_reserve (ev : Evaluator World Source Module Entry) (s : Session World Entry)
    (id : String) :
    (s.registry.reserve (cSymbol ev.options.symbolPrefix id)).2.symbols =
      ev.symbolFor s id :: s.registry.symbols := by
  have unused := Registry.reserve_not_mem s.registry (cSymbol ev.options.symbolPrefix id)
  exact List.insert_of_not_mem fun taken => unused (List.mem_append_right _ taken)

/-! ## What is left behind -/

/-- The session after an artifact has run. What it answered leaves no trace. -/
def afterRun (ev : Evaluator World Source Module Entry) (s : Session World Entry)
    (a : Artifact Entry) : Session World Entry :=
  { s with registry := s.registry.markInvoked a.id, channel := {}
           world := (ev.backend.invoke a.entry s.world).2 }

/-- The evaluator whose entry points do the same to the world and then answer as given. -/
def answering (ev : Evaluator World Source Module Entry) (invocation : Invocation) :
    Evaluator World Source Module Entry :=
  { ev with backend := { ev.backend with
      invoke := fun entry => do
        let _ ← ev.backend.invoke entry
        return invocation } }

theorem Finishes.session_eq {env : Environment} {type : Readable} {a : Artifact Entry}
    {diagnostics : Diagnostics} {cached : Bool} {answer : Except EvalError Evaluation}
    (told : ev.Finishes env type a diagnostics cached s calls answer t) : t = ev.afterRun s a := by
  cases told with
  | failed invokes => rw [afterRun, invokes]
  | finished invokes => rw [afterRun, invokes]

/-- What an evaluation leaves that has to build an artifact first. Its stages are those of the plan,
up to the first that fails. -/
structure LeavesFresh (ev : Evaluator World Source Module Entry) (request : Request Source)
    (s : Session World Entry) (calls : List (Call Source Module Entry))
    (answer : Except EvalError Evaluation) (t : Session World Entry) : Prop where
  ordered : calls.map Call.operation <+: plan
  goesOn : ∀ call ∈ calls.dropLast, call.succeeded
  compiled : ∃ outcome rest,
    calls = .compile .program (ev.optionsFor s request.id) request.source outcome :: rest ∧
    (∀ message, outcome.result = .error message → rest = [] ∧ t.files = s.files) ∧
    ∀ modules, outcome.result = .ok modules →
      rest.filterMap Call.emitted? <+: [modules.header, modules.definitions]
  wrote : ∃ writes, Wrote (ev.optionsFor s request.id).paths (ev.resolved request.imports) s.files
      (calls.filterMap Call.emission?) writes ∧
    t.files = s.files.fillAll writes ∧
    (∀ place ∉ writes.map (·.1), t.files.at? place = s.files.at? place) ∧
    ∀ place text, (place, text) ∈ writes →
      ∃ executable, t.files.at? place = some (.file text executable)
  reserved : t.registry.symbols = ev.symbolFor s request.id :: s.registry.symbols ∧
    ev.symbolFor s request.id ∉ s.registry.usedNames
  ends : (∃ e, answer = .error e) ∧ t.registry.artifacts = s.registry.artifacts ∧
      t.channel = s.channel ∧ (∀ entry invocation, .invoke entry invocation ∉ calls) ∧
      EndsEarly (ev.optionsFor s request.id).paths t.files calls ∨
    ∃ entry invocation, calls.getLast? = some (.invoke entry invocation) ∧
      t.channel = {} ∧ t.registry.artifacts = s.registry.artifacts ++ [{
        id := request.id, symbol := ev.symbolFor s request.id, entry, invoked := true }]

/-- A build that fails leaves its symbol and its files. -/
theorem Builds.leavesFresh_of_error {request : Request Source} {e : EvalError}
    (told : ev.Builds request s calls (.error e) t) :
    ev.LeavesFresh request s calls (.error e) t := by
  obtain ⟨registry, -, -⟩ := told.of_error
  obtain ⟨writes, wrote, files, channel⟩ := told.wrote
  obtain ⟨outcome, rest, calls_eq, rejected, modules⟩ := told.compiled
  have follows := told.follows.stop rfl [.invoke] e (β := Evaluation)
  -- the plan of a build has no run in it
  have notRun : ∀ entry invocation, .invoke entry invocation ∉ calls := by
    intro entry invocation made
    have planned := told.follows.ordered.subset (List.mem_map_of_mem made)
    revert planned
    simp [Call.operation]
  exact {
    ordered := follows.ordered
    goesOn := fun call made => follows.succeeded_of_mem_dropLast made
    compiled := by
      refine ⟨outcome, rest, calls_eq, ?_, modules⟩
      intro message failed
      obtain ⟨nothing, unwritten, -⟩ := rejected message failed
      exact ⟨nothing, unwritten⟩
    wrote := by
      rw [files]
      exact ⟨writes, wrote, rfl, fun _ elsewhere => FileTree.at?_fillAll_of_not_mem elsewhere,
        fun _ _ written => wrote.holds written⟩
    reserved := by
      rw [registry]
      exact ⟨symbols_reserve ev s request.id, Registry.reserve_not_mem s.registry _⟩
    ends := .inl ⟨⟨e, rfl⟩, by rw [registry]; rfl, channel, notRun, told.endsEarly⟩ }

/-- An artifact that is built is registered and run, whatever comes of it. -/
theorem Builds.leavesFresh_of_ok {env : Environment} {type : Readable} {request : Request Source}
    {a : Artifact Entry} {diagnostics : Diagnostics} {answer : Except EvalError Evaluation}
    {calls' : List (Call Source Module Entry)} {u : Session World Entry}
    (told : ev.Builds request s calls (.ok (a, diagnostics)) t)
    (finish : ev.Finishes env type a diagnostics false t calls' answer u)
    (free : s.registry.lookup? request.id = none) :
    ev.LeavesFresh request s (calls ++ calls') answer u := by
  obtain ⟨sameId, symbol, unused, registry, -, -⟩ := told.of_ok free
  obtain ⟨writes, wrote, files, channel⟩ := told.wrote
  obtain ⟨outcome, rest, calls_eq, rejected, modules⟩ := told.compiled
  have follows := told.follows.append rfl finish.follows
  have silent := finish.filterMap_emitted?
  have after := finish.session_eq
  obtain ⟨invocation, rfl⟩ := finish.exists_invoke
  have freeAfter : (s.registry.reserve (cSymbol ev.options.symbolPrefix request.id)).2.lookup?
      a.id = none := by
    rw [sameId]
    exact free
  have artifacts : u.registry.artifacts = s.registry.artifacts ++
      [{ id := request.id, symbol := ev.symbolFor s request.id
         entry := a.entry, invoked := true }] := by
    rw [after, afterRun, registry, Registry.artifacts_insert_markInvoked freeAfter, sameId, symbol]
    rfl
  have symbols : u.registry.symbols = ev.symbolFor s request.id :: s.registry.symbols := by
    rw [after, afterRun, registry, Registry.insert_of_free freeAfter, ← symbols_reserve, symbol]
    exact List.insert_of_mem (Registry.reserve_mem s.registry _)
  have files : u.files = s.files.fillAll writes := by rw [after, afterRun, files]
  have emissions : (calls ++ [Call.invoke a.entry invocation]).filterMap Call.emission? =
      calls.filterMap Call.emission? := by
    rw [List.filterMap_append]
    exact List.append_nil _
  refine {
    ordered := follows.ordered
    goesOn := fun call made => follows.succeeded_of_mem_dropLast made
    compiled := ⟨outcome, rest ++ [.invoke a.entry invocation], by rw [calls_eq]; rfl, ?_, ?_⟩
    wrote := by
      rw [files, emissions]
      exact ⟨writes, wrote, rfl, fun _ elsewhere => FileTree.at?_fillAll_of_not_mem elsewhere,
        fun _ _ written => wrote.holds written⟩
    reserved := ⟨symbols, Registry.reserve_not_mem s.registry _⟩
    ends := .inr ⟨a.entry, invocation, List.getLast?_concat, by rw [after, afterRun], artifacts⟩ }
  · intro message failed
    cases (rejected message failed).2.2
  · intro modules' accepted
    rw [List.filterMap_append, silent, List.append_nil]
    exact modules modules' accepted

/-- What was registered before a build is not changed by it. -/
theorem LeavesFresh.lookup?_eq {request : Request Source} {answer : Except EvalError Evaluation}
    {id : String} {a : Artifact Entry} (leaves : ev.LeavesFresh request s calls answer t)
    (registered : s.registry.lookup? id = some a) : t.registry.lookup? id = some a := by
  unfold Registry.lookup? at registered ⊢
  rcases leaves.ends with ⟨-, artifacts, -⟩ | ⟨entry, invocation, -, -, artifacts⟩
  · rw [artifacts, registered]
  · rw [artifacts, List.find?_append, registered, Option.some_or]

theorem Evaluates.of_unreadable {env : Environment} {request : Request Source} {e : TypeError}
    {answer : Except EvalError Evaluation} (told : ev.Evaluates env request s calls answer t)
    (unreadable : Readable.ofResultType env defaultFuel request.type = .error e) :
    calls = [] ∧ answer = .error (.decode (.type e)) ∧ t = s := by
  cases told with
  | unreadable unreadable' =>
    rw [Except.error.inj (unreadable'.symm.trans unreadable)]
    exact ⟨rfl, rfl, rfl⟩
  | registered readable => cases readable.symm.trans unreadable
  | notBuilt readable => cases readable.symm.trans unreadable
  | built readable => cases readable.symm.trans unreadable

theorem Evaluates.of_registered {env : Environment} {request : Request Source} {type : Readable}
    {a : Artifact Entry} {answer : Except EvalError Evaluation}
    (told : ev.Evaluates env request s calls answer t)
    (readable : Readable.ofResultType env defaultFuel request.type = .ok type)
    (registered : s.registry.lookup? request.id = some a) :
    (∃ invocation, calls = [.invoke a.entry invocation]) ∧ t = ev.afterRun s a := by
  cases told with
  | unreadable unreadable => cases unreadable.symm.trans readable
  | registered readable' registered' finish =>
    obtain rfl := Option.some.inj (registered'.symm.trans registered)
    exact ⟨finish.exists_invoke, finish.session_eq⟩
  | notBuilt readable' free => cases free.symm.trans registered
  | built readable' free => cases free.symm.trans registered

theorem Evaluates.leavesFresh {env : Environment} {request : Request Source} {type : Readable}
    {answer : Except EvalError Evaluation} (told : ev.Evaluates env request s calls answer t)
    (readable : Readable.ofResultType env defaultFuel request.type = .ok type)
    (free : s.registry.lookup? request.id = none) : ev.LeavesFresh request s calls answer t := by
  cases told with
  | unreadable unreadable => cases unreadable.symm.trans readable
  | registered readable' registered => cases registered.symm.trans free
  | notBuilt readable' unregistered build => exact build.leavesFresh_of_error
  | built readable' unregistered build finish => exact build.leavesFresh_of_ok finish free

/-- Only the artifact of the request changes, and only in having been run. -/
theorem Evaluates.lookup?_eq {env : Environment} {request : Request Source} {id : String}
    {a : Artifact Entry} {answer : Except EvalError Evaluation}
    (told : ev.Evaluates env request s calls answer t)
    (registered : s.registry.lookup? id = some a) :
    t.registry.lookup? id = some { a with
      invoked := a.invoked || (id = request.id &&
        (Readable.ofResultType env defaultFuel request.type).isOk) } := by
  cases readable : Readable.ofResultType env defaultFuel request.type with
  | error e =>
    obtain ⟨-, -, rfl⟩ := told.of_unreadable readable
    simpa [Except.isOk, Except.toBool] using registered
  | ok type =>
    cases lookup : s.registry.lookup? request.id with
    | none =>
      have other : id ≠ request.id := by
        rintro rfl
        cases lookup.symm.trans registered
      simpa [other] using (told.leavesFresh readable lookup).lookup?_eq registered
    | some b =>
      have sameId : b.id = request.id := by
        simpa using List.find?_some lookup
      obtain ⟨-, rfl⟩ := told.of_registered readable lookup
      rw [afterRun, Registry.lookup?_markInvoked, registered, sameId]
      simp [Except.isOk, Except.toBool]

/-! ## Runs that fail -/

theorem afterRun_answering (ev : Evaluator World Source Module Entry) (invocation : Invocation) :
    (ev.answering invocation).afterRun = ev.afterRun := rfl

theorem build_answering (ev : Evaluator World Source Module Entry) (invocation : Invocation) :
    (ev.answering invocation).build = ev.build := rfl

/-- The session after an evaluation: the build decides, and then it is left as after a run. -/
theorem session_evaluate (ev : Evaluator World Source Module Entry) (env : Environment)
    (request : Request Source) (s : Session World Entry) :
    (ev.evaluate env request s).2 =
      match Readable.ofResultType env defaultFuel request.type, s.registry.lookup? request.id with
      | .error _, _ => s
      | .ok _, some a => ev.afterRun s a
      | .ok _, none =>
        match ev.build request s with
        | (.error _, t) => t
        | (.ok (a, _), t) => ev.afterRun t a := by
  -- what is answered after a run, if it is a result at all, changes nothing any more
  have finished : ∀ (type : Readable) (a : Artifact Entry) (d : Diagnostics) (cached : Bool)
      (t : Session World Entry), (ev.finish env type a d cached t).2 = ev.afterRun t a :=
    fun type a d cached t => (ev.recounts_finish t env type a d cached).story_noted.session_eq
  unfold evaluate resultType
  cases readable : Readable.ofResultType env defaultFuel request.type with
  | error e => rfl
  | ok type =>
    rw [mapError_ok, Session.bind_require_ok, Session.bind_get]
    cases lookup : s.registry.lookup? request.id with
    | some a => exact finished type a {} true s
    | none =>
      dsimp only
      rcases built : ev.build request s with ⟨e | ⟨a, d⟩, t⟩
      · rw [Session.bind_of_error built]
      · rw [Session.bind_of_ok built]
        exact finished type a d false t

/-- An evaluation leaves the same session whatever is answered by the artifact that it runs. -/
theorem session_evaluate_answering (ev : Evaluator World Source Module Entry) (env : Environment)
    (request : Request Source) (s : Session World Entry) (invocation : Invocation) :
    ((ev.answering invocation).evaluate env request s).2 = (ev.evaluate env request s).2 := by
  rw [session_evaluate, session_evaluate, build_answering, afterRun_answering]

/-- What an evaluation leaves. A request whose result cannot be read leaves nothing, and one for a
registered artifact leaves that it has run. What was registered before stays as it is, but for that.
A run that fails, or whose result is refused, leaves what any other answer of it would leave. -/
structure Leaves (ev : Evaluator World Source Module Entry) (env : Environment)
    (request : Request Source) (s : Session World Entry) (calls : List (Call Source Module Entry))
    (answer : Except EvalError Evaluation) (t : Session World Entry) : Prop where
  unreadable : ∀ e, Readable.ofResultType env defaultFuel request.type = .error e →
    calls = [] ∧ answer = .error (.decode (.type e)) ∧ t = s
  fresh : ∀ type, Readable.ofResultType env defaultFuel request.type = .ok type →
    s.registry.lookup? request.id = none → ev.LeavesFresh request s calls answer t
  cached : ∀ type a, Readable.ofResultType env defaultFuel request.type = .ok type →
    s.registry.lookup? request.id = some a →
      (∃ invocation, calls = [.invoke a.entry invocation]) ∧ t = ev.afterRun s a
  kept : ∀ id a, s.registry.lookup? id = some a →
    t.registry.lookup? id = some { a with
      invoked := a.invoked || (id = request.id &&
        (Readable.ofResultType env defaultFuel request.type).isOk) }
  anyAnswer : ∀ invocation, ((ev.answering invocation).evaluate env request s).2 = t

/-- Whatever happens, an evaluation leaves what the stage allows at which it ended: nothing if no
result could be read; if it had to build, the calls of the plan up to the first failure, one new
symbol, and no files but the header and then the source, and the artifact once it was loaded; and
nothing else than a success would if the run has failed. -/
theorem evaluate_leaves (ev : Evaluator World Source Module Entry) (env : Environment)
    (request : Request Source) (s : Session World Entry) :
    ev.Leaves env request s (Session.noted (ev.recording.evaluate env request) s)
      (ev.evaluate env request s).1 (ev.evaluate env request s).2 where
  unreadable := fun _ unreadable =>
    (ev.recounts_evaluate s env request).story_noted.of_unreadable unreadable
  fresh := fun _ readable free =>
    (ev.recounts_evaluate s env request).story_noted.leavesFresh readable free
  cached := fun _ _ readable registered =>
    (ev.recounts_evaluate s env request).story_noted.of_registered readable registered
  kept := fun _ _ registered =>
    (ev.recounts_evaluate s env request).story_noted.lookup?_eq registered
  anyAnswer := fun invocation => ev.session_evaluate_answering env request s invocation

end Evaluator

end Readback
