import Readback.Proofs.Stages

/-!
# The order of the stages

An evaluation that builds an artifact goes through its stages in a fixed order. It calls for one
after the other, and stops at the first that fails.

## Main definitions

* `Operation`, `Evaluator.plan` — what calls ask for, and the order of the stages
* `Follows` — calls that follow a plan up to the first failure

## Main statements

* `Follows.append`, `Follows.stop` — plans in sequence
* `Follows.ordered`, `Follows.succeeded_of_mem_dropLast` — the calls of a plan
* `Evaluator.Builds.follows`, `Evaluator.Finishes.follows` — builds and runs follow the plan
-/

namespace Readback

variable {World Source Module Entry α β : Type}

/-- What a call asks for. -/
inductive Operation
  | compile (product : Product)
  | emit
  | build (stage : BuildStage)
  | load
  | invoke
  deriving DecidableEq, Repr

namespace Call

/-- The operation that was called. -/
def operation : Call Source Module Entry → Operation
  | compile product _ _ _ => .compile product
  | emit _ _ => .emit
  | build stage _ _ => .build stage
  | load _ _ _ => .load
  | invoke _ _ => .invoke

/-- Whether the call was answered without an error. -/
def succeeded : Call Source Module Entry → Bool
  | compile _ _ _ answer => answer.result.isOk
  | emit _ answer => answer.failure.isNone
  | build _ _ answer => answer.isOk
  | load _ _ answer => answer.isOk
  | invoke _ answer => answer.result.isOk

/-- The module that was to be written. -/
def emitted? : Call Source Module Entry → Option Module
  | emit m _ => some m
  | _ => none

/-- What has come of a module that was to be written. -/
def emission? : Call Source Module Entry → Option Emission
  | emit _ answer => some answer
  | _ => none

end Call

/-! ## Plans -/

/-- A step makes the calls of a plan, one after the other. It may fail between two calls or with a
call, and then it makes no other. -/
inductive Follows : List Operation → List (Call Source Module Entry) → Except EvalError α → Prop
  | done {a : α} : Follows [] [] (.ok a)
  | stopped {plan : List Operation} {e : EvalError} : Follows plan [] (.error e)
  | failed {op : Operation} {plan : List Operation} {call : Call Source Module Entry}
      {e : EvalError} (planned : call.operation = op) : Follows (op :: plan) [call] (.error e)
  | next {op : Operation} {plan : List Operation} {call : Call Source Module Entry}
      {calls : List (Call Source Module Entry)} {answer : Except EvalError α}
      (planned : call.operation = op) (succeeded : call.succeeded)
      (rest : Follows plan calls answer) : Follows (op :: plan) (call :: calls) answer

namespace Follows

variable {plan plan' : List Operation} {calls calls' : List (Call Source Module Entry)}

/-- A plan that was followed to its end goes on with the next one. -/
theorem append {answer : Except EvalError α} {answer' : Except EvalError β}
    (first : Follows plan calls answer) (success : answer.isOk)
    (second : Follows plan' calls' answer') :
    Follows (plan ++ plan') (calls ++ calls') answer' := by
  induction first with
  | done => exact second
  | stopped => cases success
  | failed planned => cases success
  -- a call that another one follows was successful, so the first failure is still ahead
  | next planned succeeded rest ih => exact .next planned succeeded (ih success)

/-- A step that fails leaves the rest of a plan undone. -/
theorem stop {answer : Except EvalError α} (first : Follows plan calls answer)
    (failure : answer.isOk = false) (plan' : List Operation) (e : EvalError) :
    Follows (plan ++ plan') calls (.error e : Except EvalError β) := by
  induction first with
  | done => cases failure
  | stopped => exact .stopped
  | failed planned => exact .failed planned
  | next planned succeeded rest ih => exact .next planned succeeded (ih failure)

/-- It does not matter what a step answers but for whether it succeeds. -/
theorem reanswer {answer : Except EvalError α} {answer' : Except EvalError β}
    (follows : Follows plan calls answer) (same : answer'.isOk = answer.isOk) :
    Follows plan calls answer' := by
  induction follows with
  | next planned succeeded rest ih => exact .next planned succeeded (ih same)
  | done =>
    cases answer' with
    | error e => cases same
    | ok b => exact .done
  | stopped =>
    cases answer' with
    | error e => exact .stopped
    | ok b => cases same
  | failed planned =>
    cases answer' with
    | error e => exact .failed planned
    | ok b => cases same

/-- The calls are the first ones of the plan. -/
theorem ordered {answer : Except EvalError α} (follows : Follows plan calls answer) :
    calls.map Call.operation <+: plan := by
  induction follows with
  | done => exact List.prefix_rfl
  | stopped => exact List.nil_prefix
  | @failed op plan call e planned =>
    rw [← planned]
    exact List.prefix_append [call.operation] plan
  | next planned succeeded rest ih =>
    rw [← planned]
    exact (List.prefix_cons_inj _).mpr ih

/-- A call that another one comes after was successful. -/
theorem succeeded_of_mem_dropLast {answer : Except EvalError α}
    (follows : Follows plan calls answer) {call : Call Source Module Entry}
    (made : call ∈ calls.dropLast) : call.succeeded := by
  induction follows with
  | done => cases made
  | stopped => cases made
  | failed planned => cases made
  | @next op plan first calls answer planned succeeded rest ih =>
    cases calls with
    | nil => cases made
    | cons second others =>
      rcases List.mem_cons.mp made with rfl | later
      · exact succeeded
      · exact ih later

end Follows

namespace Evaluator

/-- The stages of an evaluation that builds an artifact: the program is compiled, the header and the
source are written, the files are compiled and linked, and the library is loaded and run. -/
def plan : List Operation :=
  [.compile .program, .emit, .emit, .build .compile, .build .link, .load, .invoke]

variable {ev : Evaluator World Source Module Entry} {s t : Session World Entry}
  {calls : List (Call Source Module Entry)}

theorem Writes.follows {path : Path} {includes : List Import} {m : Module}
    {answer : Except EvalError Unit} (told : ev.Writes path includes m s calls answer t) :
    Follows [.emit] calls answer := by
  cases told with
  | faulty => exact .stopped
  | unplaced => exact .stopped
  | cut => exact .failed rfl
  | written faultless placed emits whole =>
    exact .next rfl (by rw [Call.succeeded, whole]; rfl) .done

theorem WritesFiles.follows {paths : ArtifactPaths} {imports : List Import}
    {modules : Modules Module} {answer : Except EvalError Unit}
    (told : ev.WritesFiles paths imports modules s calls answer t) :
    Follows [.emit, .emit] calls answer := by
  cases told with
  | headerFailed header => exact header.follows.stop rfl [.emit] _
  | headerWritten header source => exact header.follows.append rfl source.follows

theorem Links.follows {id symbol : String} {options : Options} {imports : List Import}
    {answer : Except EvalError (Artifact Entry)}
    (told : ev.Links id symbol options imports s calls answer t) :
    Follows [.build .compile, .build .link, .load] calls answer := by
  cases told with
  | objectFailed => exact .failed rfl
  | libraryFailed => exact .next rfl rfl (.failed rfl)
  | notLoaded => exact .next rfl rfl (.next rfl rfl (.failed rfl))
  | loaded => exact .next rfl rfl (.next rfl rfl (.next rfl rfl .done))

theorem Finishes.follows {env : Environment} {type : Readable} {artifact : Artifact Entry}
    {diagnostics : Diagnostics} {cached : Bool} {answer : Except EvalError Evaluation}
    (told : ev.Finishes env type artifact diagnostics cached s calls answer t) :
    Follows [.invoke] calls answer := by
  cases told with
  | failed => exact .failed rfl
  | finished invokes succeeds =>
    obtain ⟨v, result, -⟩ := Invocation.exists_decode_of_outcome succeeds
    exact .next rfl (by rw [Call.succeeded, result]; rfl) .done

/-- A rejected program costs one call. Otherwise the files are written and the artifact is built. -/
theorem Builds.follows {request : Request Source}
    {answer : Except EvalError (Artifact Entry × Diagnostics)}
    (told : ev.Builds request s calls answer t) :
    Follows [.compile .program, .emit, .emit, .build .compile, .build .link, .load] calls
      answer := by
  cases told with
  | notEmitted compiles emission =>
    cases emission with
    | rejected => exact .failed rfl
    | failed accepted files =>
      refine .next rfl (by rw [Call.succeeded, accepted]; rfl) ?_
      exact files.follows.stop rfl [.build .compile, .build .link, .load] _
  | notLinked compiles emission link | built compiles emission link =>
    cases emission with
    | emitted accepted files =>
      refine .next rfl (by rw [Call.succeeded, accepted]; rfl) (files.follows.append rfl ?_)
      exact link.follows.reanswer rfl

end Evaluator

end Readback
