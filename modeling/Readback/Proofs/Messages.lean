import Readback.Prelude
import Readback.Proofs.Failure

/-!
# Messages of a request

Whatever is pending in the channel before a request, the request does not hear of it, and whatever
the compiled code says while it runs for the request is heard by that request alone. It is told by
two runs of the same steps: sessions that differ in the channel only get the same answers.

## Main definitions

* `HostCall.message?`, `HostCall.fatal?` — what compiled code posts and what it raises
* `Session.Alike`, `Session.Indifferent` — sessions up to the channel, and steps that respect them
* `Session.answers`, `Session.Step.muted` — the answers of a run, and steps that leave no messages
* `Hears` — what a request has heard at its end

## Main statements

* `Channel.messages_receiveAll`, `Channel.fatal_receiveAll` — what is pending after calls
* `Evaluator.indifferent_evaluate`, `Evaluator.indifferent_runCached` — the channel before a request
  makes no difference
* `Session.answers_muted` — nor does it make one in a run
* `Session.messages_never_mix` — each request hears its own messages and no others
-/

namespace Readback

variable {World Source Module Entry α β : Type}

/-! ## What is pending -/

namespace HostCall

/-- The message of a call that posts one. -/
def message? : HostCall → Option Message
  | post m => some m
  | fatal _ => none

/-- The text of a fatal error. -/
def fatal? : HostCall → Option String
  | post _ => none
  | fatal text => some text

end HostCall

namespace Channel

/-- The messages stay in the order in which they were posted. -/
theorem messages_receiveAll (c : Channel) (calls : List HostCall) :
    (c.receiveAll calls).messages = c.messages ++ calls.filterMap HostCall.message? := by
  induction calls generalizing c with
  | nil => simp [receiveAll]
  | cons call calls ih =>
    have rest := ih (c.receive call)
    cases call <;> simpa [receiveAll, receive, HostCall.message?, List.filterMap_cons] using rest

/-- Of several fatal errors the first one stays. -/
theorem fatal_receiveAll (c : Channel) (calls : List HostCall) :
    (c.receiveAll calls).fatal = c.fatal.or (calls.findSome? HostCall.fatal?) := by
  induction calls generalizing c with
  | nil => simp [receiveAll]
  | cons call calls ih =>
    have rest := ih (c.receive call)
    cases call with
    | post m => simpa [receiveAll, receive, HostCall.fatal?, List.findSome?_cons] using rest
    | fatal text =>
      rw [receiveAll, List.foldl_cons, ← receiveAll, rest, receive]
      cases c.fatal <;> rfl

end Channel

/-! ## Sessions up to the channel -/

namespace Session

/-- The session with something else pending. -/
def withChannel (s : Session World Entry) (c : Channel) : Session World Entry :=
  { s with channel := c }

/-- The sessions differ in what is pending at most. -/
def Alike (s t : Session World Entry) : Prop := t.withChannel {} = s.withChannel {}

theorem Alike.refl (s : Session World Entry) : Alike s s := rfl

theorem alike_withChannel (s : Session World Entry) (c : Channel) : Alike s (s.withChannel c) := rfl

theorem Alike.exists_channel {s t : Session World Entry} (alike : Alike s t) :
    ∃ c, t = s.withChannel c := by
  refine ⟨t.channel, ?_⟩
  have same := congrArg (fun u => u.withChannel t.channel) alike
  exact same

/-- The step answers alike in sessions that are alike, and leaves them alike. -/
def Indifferent (run : Run World Entry α) : Prop :=
  ∀ s t, Alike s t → (run t).1 = (run s).1 ∧ Alike (run s).2 (run t).2

namespace Indifferent

variable {run : Run World Entry α} {next : α → Run World Entry β}

theorem bind (first : Indifferent run) (rest : ∀ a, Indifferent (next a)) :
    Indifferent (run >>= next) := by
  intro s t alike
  obtain ⟨same, after⟩ := first s t alike
  rcases runs : run s with ⟨e | a, s'⟩ <;> rcases runs' : run t with ⟨e' | a', t'⟩ <;>
    rw [runs, runs'] at same after <;> cases same
  · rw [bind_of_error runs, bind_of_error runs']
    exact ⟨rfl, after⟩
  · rw [bind_of_ok runs, bind_of_ok runs']
    exact rest a s' t' after

theorem require (answer : Except EvalError α) :
    Indifferent (Session.require answer : Run World Entry α) :=
  fun _ _ alike => ⟨rfl, alike⟩

theorem get_bind {next : Session World Entry → Run World Entry β}
    (rest : ∀ s, Indifferent (next s)) (blind : ∀ s c, next (s.withChannel c) = next s) :
    Indifferent (get >>= next) := by
  intro s t alike
  obtain ⟨c, rfl⟩ := alike.exists_channel
  have seen : (get : Run World Entry _) s = (.ok s, s) := rfl
  have seen' : (get : Run World Entry _) (s.withChannel c) =
    (.ok (s.withChannel c), s.withChannel c) := rfl
  rw [bind_of_ok seen, bind_of_ok seen', blind]
  exact rest s s (s.withChannel c) alike

/-- A change that drops what is pending leaves one session of all that are alike. -/
theorem clear_bind {change : Session World Entry → Session World Entry}
    {next : PUnit → Run World Entry β} (drops : ∀ s c, change (s.withChannel c) = change s) :
    Indifferent (modify change >>= next) := by
  intro s t alike
  obtain ⟨c, rfl⟩ := alike.exists_channel
  have changed : ∀ u, (modify change : Run World Entry PUnit) u = (.ok ⟨⟩, change u) :=
    fun _ => rfl
  rw [bind_of_ok (changed s), bind_of_ok (changed (s.withChannel c)), drops]
  exact ⟨rfl, .refl _⟩

theorem attaching (d : Diagnostics) (inner : Indifferent run) :
    Indifferent (Session.attaching d run) := by
  intro s t alike
  obtain ⟨same, after⟩ := inner s t alike
  refine ⟨?_, after⟩
  change (run t).1.mapError _ = (run s).1.mapError _
  rw [same]

end Indifferent

/-- A step that does the same whatever is pending, and keeps it. -/
theorem indifferent_of_deaf {run : Run World Entry α}
    (deaf : ∀ s c, run (s.withChannel c) = ((run s).1, (run s).2.withChannel c)) :
    Indifferent run := by
  intro s t alike
  obtain ⟨c, rfl⟩ := alike.exists_channel
  rw [deaf]
  exact ⟨rfl, alike_withChannel _ c⟩

end Session

/-! ## Requests do not listen -/

namespace Evaluator

open Session (Indifferent)

variable (ev : Evaluator World Source Module Entry)

theorem indifferent_writeModule (path : Path) (includes : List Import) (m : Module) :
    Indifferent (ev.writeModule path includes m) := by
  unfold writeModule
  refine .get_bind (fun s => ?_) fun _ _ => rfl
  dsimp only
  cases s.files.fault? path with
  | some fault => exact Session.indifferent_of_deaf fun _ _ => rfl
  | none =>
    refine (Indifferent.require _).bind fun place => ?_
    refine (Session.indifferent_of_deaf fun _ _ => rfl).bind fun emission => ?_
    refine (Session.indifferent_of_deaf fun _ _ => rfl).bind fun _ => ?_
    cases emission.failure <;> exact Session.indifferent_of_deaf fun _ _ => rfl

theorem indifferent_emit (outcome : Compilation Module) (paths : ArtifactPaths)
    (imports : List Import) : Indifferent (ev.emit outcome paths imports) := by
  unfold emit
  cases outcome.result with
  | error message => exact Session.indifferent_of_deaf fun _ _ => rfl
  | ok modules =>
    refine Indifferent.bind (.attaching _ ?_) fun _ => Session.indifferent_of_deaf fun _ _ => rfl
    exact (ev.indifferent_writeModule _ _ _).bind fun _ => ev.indifferent_writeModule _ _ _

theorem indifferent_linkAndLoad (id symbol : String) (options : Options) (imports : List Import) :
    Indifferent (ev.linkAndLoad id symbol options imports) := by
  unfold linkAndLoad
  refine (Session.indifferent_of_deaf fun _ _ => rfl).bind fun object => ?_
  refine (Indifferent.require _).bind fun _ => ?_
  refine (Session.indifferent_of_deaf fun _ _ => rfl).bind fun library => ?_
  refine (Indifferent.require _).bind fun _ => ?_
  refine (Session.indifferent_of_deaf fun _ _ => rfl).bind fun loaded => ?_
  exact (Indifferent.require _).bind fun entry => Session.indifferent_of_deaf fun _ _ => rfl

theorem indifferent_build (request : Request Source) : Indifferent (ev.build request) := by
  unfold build
  refine (Session.indifferent_of_deaf fun _ _ => rfl).bind fun symbol => ?_
  refine (Session.indifferent_of_deaf fun _ _ => rfl).bind fun outcome => ?_
  refine (ev.indifferent_emit _ _ _).bind fun emitted => ?_
  refine (Indifferent.attaching _ (ev.indifferent_linkAndLoad _ _ _ _)).bind fun artifact => ?_
  exact Session.indifferent_of_deaf fun _ _ => rfl

theorem indifferent_finish (env : Environment) (type : Readable) (artifact : Artifact Entry)
    (diagnostics : Diagnostics) (cached : Bool) :
    Indifferent (ev.finish env type artifact diagnostics cached) := by
  unfold finish execute
  refine (Indifferent.attaching _ (.clear_bind fun _ _ => rfl)).bind fun _ => ?_
  exact Session.indifferent_of_deaf fun _ _ => rfl

/-- What is pending before an evaluation makes no difference to it. -/
theorem indifferent_evaluate (env : Environment) (request : Request Source) :
    Indifferent (ev.evaluate env request) := by
  unfold evaluate
  refine (Indifferent.require _).bind fun type => ?_
  refine .get_bind (fun s => ?_) fun _ _ => rfl
  cases s.registry.lookup? request.id with
  | some artifact => exact ev.indifferent_finish env type artifact {} true
  | none => exact (ev.indifferent_build request).bind fun built => ev.indifferent_finish _ _ _ _ _

/-- Nor does it make one to a run of what is registered. -/
theorem indifferent_runCached (env : Environment) (id : String) (type : Term) :
    Indifferent (ev.runCached env id type) := by
  unfold runCached
  refine (Indifferent.require _).bind fun type => ?_
  refine .get_bind (fun s => ?_) fun _ _ => rfl
  cases s.registry.lookup? id with
  | some artifact => exact ev.indifferent_finish env type artifact {} true
  | none => exact Session.indifferent_of_deaf fun _ _ => rfl

theorem indifferent_generate (product : Product) (source : Source) (imports : List Import) :
    Indifferent (ev.generate product source imports) := by
  unfold generate
  refine (Session.indifferent_of_deaf fun _ _ => rfl).bind fun outcome => ?_
  exact ev.indifferent_emit outcome _ imports

end Evaluator

/-! ## What a request hears -/

/-- The invocation of a call that runs compiled code. -/
def Call.invocation? : Call Source Module Entry → Option Invocation
  | invoke _ invocation => some invocation
  | _ => none

/-- What a request has heard at its end. It runs compiled code once at most. If it succeeds, its
messages are those that the code posted, and if the code raised a fatal error, it fails with the
first. After a run nothing is pending, and without one what was pending is left alone. -/
structure Hears (calls : List (Call Source Module Entry)) (s : Session World Entry)
    (answer : Except EvalError Evaluation) (t : Session World Entry) : Prop where
  runsOnce : (calls.filterMap Call.invocation?).length ≤ 1
  messages : ∀ evaluation, answer = .ok evaluation →
    ∃ i, calls.filterMap Call.invocation? = [i] ∧
      evaluation.messages = i.calls.filterMap HostCall.message?
  fatal : ∀ i ∈ calls.filterMap Call.invocation?, ∀ text,
    i.calls.findSome? HostCall.fatal? = some text → ∃ e, answer = .error e ∧ e.root = .fatal text
  cleared : calls.filterMap Call.invocation? ≠ [] → t.channel = {}
  untouched : calls.filterMap Call.invocation? = [] → t.channel = s.channel

/-- A request that fails before it runs anything hears nothing. -/
theorem Hears.of_silent {calls : List (Call Source Module Entry)} {s t : Session World Entry}
    (silent : calls.filterMap Call.invocation? = []) (kept : t.channel = s.channel)
    (e : EvalError) : Hears calls s (.error e) t where
  runsOnce := by rw [silent]; exact Nat.zero_le 1
  messages := fun _ succeeds => by cases succeeds
  fatal := by
    intro i made
    rw [silent] at made
    cases made
  cleared := fun ran => absurd silent ran
  untouched := fun _ => kept

/-- What an invocation that succeeds has posted are the messages, and it has raised nothing. -/
theorem Invocation.messages_of_outcome {i : Invocation} {env : Environment} {type : Readable}
    {term : Term} {messages : List Message} (succeeds : i.outcome env type = .ok (term, messages)) :
    messages = i.calls.filterMap HostCall.message? ∧ i.calls.findSome? HostCall.fatal? = none := by
  have posted := Channel.messages_receiveAll {} i.calls
  have raised := Channel.fatal_receiveAll {} i.calls
  cases fatal : (({} : Channel).receiveAll i.calls).fatal with
  | some text =>
    rw [outcome_of_fatal fatal] at succeeds
    cases succeeds
  | none =>
    rw [fatal] at raised
    refine ⟨?_, by simpa using raised.symm⟩
    obtain ⟨v, result, decoded⟩ := exists_decode_of_outcome succeeds
    rw [outcome_of_ok fatal result, decoded] at succeeds
    cases succeeds
    simpa using posted

namespace Evaluator

variable {ev : Evaluator World Source Module Entry} {s t : Session World Entry}
  {calls : List (Call Source Module Entry)}

/-- No stage of a build runs compiled code. -/
theorem Builds.filterMap_invocation? {request : Request Source}
    {answer : Except EvalError (Artifact Entry × Diagnostics)}
    (told : ev.Builds request s calls answer t) : calls.filterMap Call.invocation? = [] := by
  rw [List.filterMap_eq_nil_iff]
  intro call made
  have planned := told.follows.ordered.subset (List.mem_map_of_mem made)
  cases call with
  | invoke entry invocation => simp [Call.operation] at planned
  | _ => rfl

theorem Finishes.hears {env : Environment} {type : Readable} {artifact : Artifact Entry}
    {diagnostics : Diagnostics} {cached : Bool} {answer : Except EvalError Evaluation}
    (told : ev.Finishes env type artifact diagnostics cached s calls answer t) :
    Hears calls s answer t := by
  have invoked : ∀ i : Invocation,
      [(.invoke artifact.entry i : Call Source Module Entry)].filterMap Call.invocation? = [i] :=
    fun _ => rfl
  cases told with
  | @failed i world e invokes fails =>
    refine ⟨by rw [invoked]; exact Nat.le_refl 1, ?_, ?_, fun _ => rfl, ?_⟩
    · intro evaluation succeeds
      cases succeeds
    · intro i' made text raised
      rw [invoked] at made
      obtain rfl := List.mem_singleton.mp made
      have fatal : (({} : Channel).receiveAll i'.calls).fatal = some text := by
        rw [Channel.fatal_receiveAll, raised]
        rfl
      obtain rfl := Except.error.inj (fails.symm.trans (Invocation.outcome_of_fatal fatal))
      exact ⟨_, rfl, EvalError.root_withDiagnostics _ _⟩
    · intro silent
      rw [invoked] at silent
      cases silent
  | @finished i world term messages invokes succeeds =>
    obtain ⟨posted, quiet⟩ := Invocation.messages_of_outcome succeeds
    refine ⟨by rw [invoked]; exact Nat.le_refl 1, ?_, ?_, fun _ => rfl, ?_⟩
    · intro evaluation answered
      obtain rfl := Except.ok.inj answered
      exact ⟨i, invoked i, posted⟩
    · intro i' made text raised
      rw [invoked] at made
      obtain rfl := List.mem_singleton.mp made
      cases raised.symm.trans quiet
    · intro silent
      rw [invoked] at silent
      cases silent

/-- The calls and the channel of a build do not matter to what is heard after it. -/
theorem Builds.hears {request : Request Source} {built : Artifact Entry × Diagnostics}
    {calls' : List (Call Source Module Entry)} {answer : Except EvalError Evaluation}
    {u : Session World Entry} (told : ev.Builds request s calls (.ok built) t)
    (heard : Hears calls' t answer u) : Hears (calls ++ calls') s answer u := by
  have silent := told.filterMap_invocation?
  obtain ⟨-, -, -, kept⟩ := told.wrote
  have same : (calls ++ calls').filterMap Call.invocation? = calls'.filterMap Call.invocation? := by
    rw [List.filterMap_append, silent, List.nil_append]
  constructor
  · rw [same]
    exact heard.runsOnce
  · rw [same]
    exact heard.messages
  · rw [same]
    exact heard.fatal
  · rw [same]
    exact heard.cleared
  · rw [same, ← kept]
    exact heard.untouched

theorem Evaluates.hears {env : Environment} {request : Request Source}
    {answer : Except EvalError Evaluation} (told : ev.Evaluates env request s calls answer t) :
    Hears calls s answer t := by
  cases told with
  | unreadable => exact .of_silent rfl rfl _
  | registered readable registered finish => exact finish.hears
  | notBuilt readable unregistered build =>
    obtain ⟨-, -, -, kept⟩ := build.wrote
    exact .of_silent build.filterMap_invocation? kept _
  | built readable unregistered build finish => exact build.hears finish.hears

theorem RunsCached.hears {env : Environment} {id : String} {type : Term}
    {answer : Except EvalError Evaluation} (told : ev.RunsCached env id type s calls answer t) :
    Hears calls s answer t := by
  cases told with
  | unreadable => exact .of_silent rfl rfl _
  | registered readable registered finish => exact finish.hears
  | unregistered => exact .of_silent rfl rfl _

end Evaluator

/-! ## Runs -/

namespace Session

/-- What a step answers to a request for a result. -/
def Step.answer? (s : Session World Entry) :
    Step World Source Module Entry → Option (Except EvalError Evaluation)
  | evaluate ev env request => some (ev.evaluate env request s).1
  | runCached ev env id type => some (ev.runCached env id type s).1
  | _ => none

/-- The answers of a run, step by step. -/
def answers (s : Session World Entry) :
    List (Step World Source Module Entry) → List (Option (Except EvalError Evaluation))
  | [] => []
  | step :: steps => step.answer? s :: answers (step.after s) steps

/-- The step without what it leaves in the channel from outside. -/
def Step.muted : Step World Source Module Entry → Step World Source Module Entry
  | outside _ files world => outside {} files world
  | step => step

/-- Sessions that differ in the channel answer alike and go on alike, whether or not something comes
into the channel from outside. -/
theorem Step.alike_after (step : Step World Source Module Entry) {s t : Session World Entry}
    (alike : Alike s t) : step.muted.answer? t = step.answer? s ∧
      Alike (step.after s) (step.muted.after t) := by
  cases step with
  | evaluate ev env request =>
    obtain ⟨same, after⟩ := ev.indifferent_evaluate env request s t alike
    exact ⟨congrArg some same, after⟩
  | runCached ev env id type =>
    obtain ⟨same, after⟩ := ev.indifferent_runCached env id type s t alike
    exact ⟨congrArg some same, after⟩
  | generate ev product source imports =>
    exact ⟨rfl, (ev.indifferent_generate product source imports s t alike).2⟩
  | outside channel files world =>
    obtain ⟨c, rfl⟩ := alike.exists_channel
    exact ⟨rfl, rfl⟩

/-- A run answers the same whatever is in the channel before its steps. -/
theorem answers_muted {s t : Session World Entry} (alike : Alike s t)
    (steps : List (Step World Source Module Entry)) :
    t.answers (steps.map Step.muted) = s.answers steps := by
  induction steps generalizing s t with
  | nil => rfl
  | cons step steps ih =>
    obtain ⟨same, after⟩ := step.alike_after alike
    rw [List.map_cons, answers, answers, same, ih after]

/-- A recorded step that does not listen makes the same calls whatever is pending. -/
theorem Indifferent.noted_eq {recorded : Run (Recorded World Source Module Entry) Entry α}
    (indifferent : Indifferent recorded) (s : Session World Entry) (c : Channel) :
    noted recorded (s.withChannel c) = noted recorded s := by
  obtain ⟨-, after⟩ := indifferent s.record (s.withChannel c).record rfl
  obtain ⟨d, same⟩ := after.exists_channel
  rw [noted, same]
  rfl

theorem Step.calls_withChannel (step : Step World Source Module Entry) (s : Session World Entry)
    (c : Channel) : step.calls (s.withChannel c) = step.calls s := by
  cases step with
  | evaluate ev env request => exact (ev.recording.indifferent_evaluate env request).noted_eq s c
  | runCached ev env id type =>
    exact (ev.recording.indifferent_runCached env id type).noted_eq s c
  | generate ev product source imports =>
    exact (ev.recording.indifferent_generate product source imports).noted_eq s c
  | outside => rfl

/-- A step that answers a request has heard what it should. -/
theorem Step.hears {step : Step World Source Module Entry} {s : Session World Entry}
    {answer : Except EvalError Evaluation} (answers : step.answer? s = some answer) :
    Hears (step.calls s) s answer (step.after s) := by
  cases step with
  | evaluate ev env request =>
    obtain rfl := Option.some.inj answers
    exact (ev.recounts_evaluate s env request).story_noted.hears
  | runCached ev env id type =>
    obtain rfl := Option.some.inj answers
    exact (ev.recounts_runCached s env id type).story_noted.hears
  | generate => cases answers
  | outside => cases answers

/-- Messages of different requests never mix. A run answers all its requests as if the channel had
been empty before each of them. Each request in it, whatever else were pending, would make the same
calls and answer the same, and it hears the compiled code that it runs itself and nothing more. -/
theorem messages_never_mix (s : Session World Entry)
    (steps : List (Step World Source Module Entry)) :
    (∀ c, (s.withChannel c).answers steps = (s.withChannel {}).answers (steps.map Step.muted)) ∧
      ∀ (step : Step World Source Module Entry) (answer : Except EvalError Evaluation),
        step.answer? (s.run steps) = some answer →
          (∀ c, step.answer? ((s.run steps).withChannel c) = some answer ∧
            step.calls ((s.run steps).withChannel c) = step.calls (s.run steps)) ∧
          Hears (step.calls (s.run steps)) (s.run steps) answer (step.after (s.run steps)) := by
  have emptied : ∀ c, Alike (s.withChannel c) (s.withChannel {}) := fun _ => rfl
  refine ⟨fun c => (answers_muted (emptied c) steps).symm, ?_⟩
  intro step answer answered
  refine ⟨fun c => ⟨?_, step.calls_withChannel _ c⟩, step.hears answered⟩
  -- a request is its own muted step
  have same := (step.alike_after (alike_withChannel (s.run steps) c)).1
  rw [answered] at same
  cases step with
  | evaluate => exact same
  | runCached => exact same
  | generate => cases answered
  | outside => cases answered

/-- A backend whose compiled code sends a greeting and returns the first constant. -/
def greetingBackend : Backend Unit Unit Unit Unit where
  compile _ _ _ := pure { result := .ok ⟨(), ()⟩ }
  emit _ := pure { text := "" }
  build _ _ := pure (.ok ())
  load _ _ := pure (.ok ())
  invoke _ := pure { calls := [.post ⟨.info, "hello"⟩], result := .ok (.immediate 0) }

/-- The evaluation of a program that sends a greeting. -/
def evaluateGreeting : Step Unit Unit Unit Unit :=
  .evaluate ⟨greetingBackend, { outputDir := ⟨"/"⟩ }⟩ Prelude.environment
    { id := "greeting", source := (), type := Prelude.indTerm Prelude.natName }

/-- A session in which a message and a fatal error were left behind. -/
def littered : Session Unit Unit where
  channel := { messages := [⟨.notice, "old"⟩], fatal := some "older" }
  world := ()

/-- The result of the program: zero, with the greeting. -/
def greeted : Evaluation where
  term := Prelude.ctorTerm Prelude.natName 0
  diagnostics := {}
  cached := false
  timed := false
  messages := [⟨.info, "hello"⟩]
  symbol := "greeting"

/-- What was left behind is not heard, and the greeting is. -/
theorem messages_never_mix_greeting :
    evaluateGreeting.answer? littered = some (.ok greeted) ∧
      Hears (evaluateGreeting.calls littered) littered (.ok greeted)
        (evaluateGreeting.after littered) := by
  have answered : evaluateGreeting.answer? littered = some (.ok greeted) := by decide +kernel
  exact ⟨answered, ((messages_never_mix littered []).2 evaluateGreeting _ answered).2⟩

end Session

end Readback
