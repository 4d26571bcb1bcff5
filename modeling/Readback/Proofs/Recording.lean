import Readback.Evaluation.Evaluator

/-!
# Recorded runs

The calls that a step makes are seen by running it over a world that notes each call with its
answer. The notes change nothing else. What a step does is therefore told once, as a story about
the calls it makes, its answer and the session after it, and the rules below follow the step from
one call to the next.

## Main definitions

* `Call` — a call of a backend with its answer
* `Recorded`, `Evaluator.recording` — a world that notes calls, and an evaluator over it
* `Session.Recounts` — a recorded step does what the step does, and a story holds of its calls

## Main statements

* `Session.Recounts.bind` — a story goes on where another one ended well
* `Session.Recounts.story_noted` — the story of a step that starts without notes
-/

namespace Readback

variable {World Source Module Entry α β : Type}

/-- A call of a backend with its answer. -/
inductive Call (Source Module Entry : Type)
  | compile (product : Product) (options : Options) (source : Source) (answer : Compilation Module)
  | emit (m : Module) (answer : Emission)
  | build (stage : BuildStage) (job : BuildJob) (answer : Except ToolchainError Unit)
  | load (library : Path) (symbol : String) (answer : Except EvalError Entry)
  | invoke (entry : Entry) (answer : Invocation)

/-- A world with the calls that were made in it, the first one first. -/
structure Recorded (World Source Module Entry : Type) where
  world : World
  calls : List (Call Source Module Entry) := []

/-- Notes the call of an operation. -/
def Recorded.note (call : α → Call Source Module Entry) (operation : StateM World α) :
    StateM (Recorded World Source Module Entry) α := fun r =>
  let (answer, world) := operation r.world
  (answer, { world, calls := r.calls ++ [call answer] })

/-- The backend that notes its calls. -/
def Backend.recording (b : Backend World Source Module Entry) :
    Backend (Recorded World Source Module Entry) Source Module Entry where
  compile product options source :=
    Recorded.note (.compile product options source) (b.compile product options source)
  emit m := Recorded.note (.emit m) (b.emit m)
  build stage job := Recorded.note (.build stage job) (b.build stage job)
  load library symbol := Recorded.note (.load library symbol) (b.load library symbol)
  invoke entry := Recorded.note (.invoke entry) (b.invoke entry)

/-- The evaluator whose backend notes its calls. -/
def Evaluator.recording (ev : Evaluator World Source Module Entry) :
    Evaluator (Recorded World Source Module Entry) Source Module Entry where
  backend := ev.backend.recording
  options := ev.options

namespace Session

/-- The session in which no call is noted yet. -/
def record (s : Session World Entry) : Session (Recorded World Source Module Entry) Entry :=
  { s with world := { world := s.world } }

/-- The session without the notes. -/
def forget (s : Session (Recorded World Source Module Entry) Entry) : Session World Entry :=
  { s with world := s.world.world }

/-- The calls that a recorded step notes when it starts without notes. -/
def noted (recorded : Run (Recorded World Source Module Entry) Entry α)
    (s : Session World Entry) : List (Call Source Module Entry) :=
  (recorded s.record).2.world.calls

/-- What is told of a step: its calls, its answer and the session after it. -/
abbrev Story (World Source Module Entry α : Type) :=
  List (Call Source Module Entry) → Except EvalError α → Session World Entry → Prop

/-- From a session on, the recorded step does what the step does, and the story holds of the calls
that it notes, of its answer and of the session after it. -/
def Recounts (recorded : Run (Recorded World Source Module Entry) Entry α)
    (run : Run World Entry α) (s : Session World Entry)
    (story : Story World Source Module Entry α) : Prop :=
  ∀ start : Session (Recorded World Source Module Entry) Entry, start.forget = s →
    ∃ calls answer t, recorded start = (answer, t) ∧ run s = (answer, t.forget) ∧
      t.world.calls = start.world.calls ++ calls ∧ story calls answer t.forget

/-! ## Steps in sequence -/

theorem bind_of_error {run : Run World Entry α} {next : α → Run World Entry β}
    {s t : Session World Entry} {e : EvalError} (failed : run s = (.error e, t)) :
    (run >>= next) s = (.error e, t) := by
  simp only [bind, ExceptT.bind, ExceptT.mk, StateT.bind, failed]
  rfl

theorem bind_of_ok {run : Run World Entry α} {next : α → Run World Entry β}
    {s t : Session World Entry} {a : α} (succeeded : run s = (.ok a, t)) :
    (run >>= next) s = next a t := by
  simp only [bind, ExceptT.bind, ExceptT.mk, StateT.bind, succeeded]
  rfl

theorem bind_require_ok (next : α → Run World Entry β) (s : Session World Entry) (a : α) :
    (require (.ok a) >>= next) s = next a s :=
  bind_of_ok rfl

theorem bind_get (next : Session World Entry → Run World Entry β) (s : Session World Entry) :
    (get >>= next) s = next s s :=
  bind_of_ok rfl

namespace Recounts

variable {recorded : Run (Recorded World Source Module Entry) Entry α} {run : Run World Entry α}
  {nextRecorded : α → Run (Recorded World Source Module Entry) Entry β}
  {next : α → Run World Entry β} {s : Session World Entry}
  {first : Story World Source Module Entry α} {story : Story World Source Module Entry β}

/-- A story that ends in an error is over, and one that ends well goes on. -/
theorem bind (begins : Recounts recorded run s first)
    (stops : ∀ calls e t, first calls (.error e) t → story calls (.error e) t)
    (goes : ∀ calls a t, first calls (.ok a) t →
      Recounts (nextRecorded a) (next a) t fun calls' => story (calls ++ calls')) :
    Recounts (recorded >>= nextRecorded) (run >>= next) s story := by
  intro start same
  obtain ⟨calls, answer, t, recordedRun, plainRun, noted, told⟩ := begins start same
  cases answer with
  | error e =>
    exact ⟨calls, .error e, t, bind_of_error recordedRun, bind_of_error plainRun, noted,
      stops calls e t.forget told⟩
  | ok a =>
    obtain ⟨calls', answer, u, recordedNext, plainNext, noted', told'⟩ :=
      goes calls a t.forget told t rfl
    refine ⟨calls ++ calls', answer, u, ?_, ?_, ?_, told'⟩
    · rw [bind_of_ok recordedRun, recordedNext]
    · rw [bind_of_ok plainRun, plainNext]
    · rw [noted', noted, List.append_assoc]

theorem call_bind {operation : StateM World α} {call : α → Call Source Module Entry} {answer : α}
    {world : World} (answers : operation s.world = (answer, world))
    (rest : Recounts (nextRecorded answer) (next answer) { s with world }
      fun calls => story (call answer :: calls)) :
    Recounts (Session.call (Recorded.note call operation) >>= nextRecorded)
      (Session.call operation >>= next) s story := by
  rintro start rfl
  have noting : Session.call (Recorded.note call operation) start = (.ok answer,
      { start with world := { world, calls := start.world.calls ++ [call answer] } }) := by
    unfold Session.call Recorded.note
    rw [show operation start.world.world = (answer, world) from answers]
  have calling : Session.call operation start.forget =
      (.ok answer, { start.forget with world }) := by
    unfold Session.call
    rw [answers]
  obtain ⟨calls, result, u, recordedNext, plainNext, noted, told⟩ := rest
    { start with world := { world, calls := start.world.calls ++ [call answer] } } rfl
  refine ⟨call answer :: calls, result, u, ?_, ?_, ?_, told⟩
  · rw [bind_of_ok noting, recordedNext]
  · rw [bind_of_ok calling, plainNext]
  · rw [noted, List.append_assoc, List.singleton_append]

theorem require_ok_bind {answer : α}
    (rest : Recounts (nextRecorded answer) (next answer) s story) :
    Recounts (require (.ok answer) >>= nextRecorded) (require (.ok answer) >>= next) s story :=
  rest

theorem require_error_bind {e : EvalError} (told : story [] (.error e) s) :
    Recounts (require (.error e) >>= nextRecorded) (require (.error e) >>= next) s story := by
  rintro start rfl
  exact ⟨[], .error e, start, rfl, rfl, (List.append_nil _).symm, told⟩

/-- The recorded session is seen as the session is, up to its notes. -/
theorem get_bind
    {nextRecorded : Session (Recorded World Source Module Entry) Entry →
      Run (Recorded World Source Module Entry) Entry β}
    {next : Session World Entry → Run World Entry β}
    (rest : ∀ start, start.registry = s.registry → start.files = s.files →
      Recounts (nextRecorded start) (next s) s story) :
    Recounts (get >>= nextRecorded) (get >>= next) s story := by
  rintro start rfl
  exact rest start rfl rfl start rfl

theorem modify_bind
    {changeRecorded : Session (Recorded World Source Module Entry) Entry →
      Session (Recorded World Source Module Entry) Entry}
    {change : Session World Entry → Session World Entry}
    {nextRecorded : PUnit → Run (Recorded World Source Module Entry) Entry β}
    {next : PUnit → Run World Entry β}
    (agree : ∀ start, (changeRecorded start).forget = change start.forget ∧
      (changeRecorded start).world = start.world)
    (rest : Recounts (nextRecorded ⟨⟩) (next ⟨⟩) (change s) story) :
    Recounts (modify changeRecorded >>= nextRecorded) (modify change >>= next) s story := by
  rintro start rfl
  obtain ⟨forgets, silent⟩ := agree start
  rw [← silent]
  exact rest (changeRecorded start) forgets

theorem reserve_bind {base : String}
    {nextRecorded : String → Run (Recorded World Source Module Entry) Entry β}
    {next : String → Run World Entry β}
    (rest : Recounts (nextRecorded (s.registry.reserve base).1) (next (s.registry.reserve base).1)
      { s with registry := (s.registry.reserve base).2 } story) :
    Recounts (reserve base >>= nextRecorded) (reserve base >>= next) s story := by
  rintro start rfl
  exact rest { start with registry := (start.registry.reserve base).2 } rfl

theorem takePending_bind
    {nextRecorded : Channel → Run (Recorded World Source Module Entry) Entry β}
    {next : Channel → Run World Entry β}
    (rest : Recounts (nextRecorded s.channel) (next s.channel) { s with channel := {} } story) :
    Recounts (takePending >>= nextRecorded) (takePending >>= next) s story := by
  rintro start rfl
  exact rest { start with channel := {} } rfl

/-- A step that makes no call and changes nothing. -/
theorem still {answer : Except EvalError β}
    {recorded : Run (Recorded World Source Module Entry) Entry β} {run : Run World Entry β}
    (recordedRun : ∀ start, recorded start = (answer, start)) (plainRun : run s = (answer, s))
    (told : story [] answer s) : Recounts recorded run s story := by
  rintro start rfl
  exact ⟨[], answer, start, recordedRun start, plainRun, (List.append_nil _).symm, told⟩

theorem register {a : Artifact Entry} {story : Story World Source Module Entry (Artifact Entry)}
    (told : story [] (.ok (s.registry.insert a).1)
      { s with registry := (s.registry.insert a).2 }) :
    Recounts (Session.register a) (Session.register a) s story := by
  rintro start rfl
  exact ⟨[], _, { start with registry := (start.registry.insert a).2 }, rfl, rfl,
    (List.append_nil _).symm, told⟩

/-- A story that ends in an error ends in the error with the diagnostics. -/
theorem attaching_bind {d : Diagnostics} (begins : Recounts recorded run s first)
    (stops : ∀ calls e t, first calls (.error e) t → story calls (.error (e.withDiagnostics d)) t)
    (goes : ∀ calls a t, first calls (.ok a) t →
      Recounts (nextRecorded a) (next a) t fun calls' => story (calls ++ calls')) :
    Recounts (attaching d recorded >>= nextRecorded) (attaching d run >>= next) s story := by
  -- attaching changes the answer only, so that the rule for sequences applies
  have attached : Recounts (attaching d recorded) (attaching d run) s fun calls answer t =>
      ∃ inner, first calls inner t ∧ answer = inner.mapError (·.withDiagnostics d) := by
    intro start same
    obtain ⟨calls, answer, t, recordedRun, plainRun, noted, told⟩ := begins start same
    refine ⟨calls, _, t, ?_, ?_, noted, answer, told, rfl⟩
    · rw [attaching, recordedRun]
    · rw [attaching, plainRun]
  refine attached.bind ?_ ?_
  · rintro calls e t ⟨inner, told, answers⟩
    cases inner with
    | error e' =>
      cases answers
      exact stops calls e' t told
    | ok a => cases answers
  · rintro calls a t ⟨inner, told, answers⟩
    cases inner with
    | error e' => cases answers
    | ok a' =>
      cases answers
      exact goes calls a t told

theorem weaken {weaker : Story World Source Module Entry α} (tells : Recounts recorded run s first)
    (implies : ∀ calls answer t, first calls answer t → weaker calls answer t) :
    Recounts recorded run s weaker := by
  intro start same
  obtain ⟨calls, answer, t, recordedRun, plainRun, noted, told⟩ := tells start same
  exact ⟨calls, answer, t, recordedRun, plainRun, noted, implies calls answer t.forget told⟩

/-- The story of a step that starts without notes. -/
theorem story_noted (tells : Recounts recorded run s first) :
    first (noted recorded s) (run s).1 (run s).2 := by
  obtain ⟨calls, answer, t, recordedRun, plainRun, notes, told⟩ := tells s.record rfl
  rw [noted, recordedRun, plainRun, notes]
  exact told

end Recounts

end Session

end Readback
