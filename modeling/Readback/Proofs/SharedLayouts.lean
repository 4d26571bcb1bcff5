import Readback.LayoutCache
import Readback.Proofs.ReduceFirst

/-!
# Layouts that are kept do not show

A session of requests shares the layouts that it has computed. All that a request does to them is to
keep more, one at a time and only those that are supported, so that a kept layout is always that of
the declaration. Hence no request can tell which requests were made before, whether they succeeded
or failed: it is answered as in a new session, and as without any kept layouts.

## Main definitions

* `LayoutCache.Agrees`, `LayoutCache.Grows` — what is kept, and how one more layout is kept
* `LayoutCache.Transparent` — a computation that answers as one without a cache
* `LayoutCache.Request`, `LayoutCache.after` — the requests of a session, and the cache after some

## Main statements

* `LayoutCache.Transparent.bind` — transparent computations compose
* `LayoutCache.Request.serve_agrees` — one request
* `LayoutCache.serve_after` — a request after any others
-/

namespace Readback.LayoutCache

open Relation (ReflTransGen)

variable {env : Environment} {fuel : Nat} {cache cache' : LayoutCache} {d : InductiveDecl}
  {l : Layout} {ε δ α β : Type}

/-! ## What is kept -/

/-- The layout kept for a name is that of the declaration, and has tags enough. -/
def Agrees (env : Environment) (cache : LayoutCache) : Prop :=
  ∀ name l, (name, l) ∈ cache.entries →
    ∃ d, env.inductive? name = some d ∧ l = Layout.of d ∧ l.blocks.length ≤ 251

/-- The second cache keeps the layout of one more declaration. -/
inductive Grows (env : Environment) (cache : LayoutCache) : LayoutCache → Prop
  | keep {d : InductiveDecl} (declared : env.inductive? d.name = some d)
      (absent : cache.find? d.name = none) (few : (Layout.of d).blocks.length ≤ 251) :
      Grows env cache { entries := (d.name, Layout.of d) :: cache.entries }

theorem agrees_empty : Agrees env {} := by
  intro name l kept
  cases kept

theorem Grows.agrees (grows : Grows env cache cache') (agrees : cache.Agrees env) :
    cache'.Agrees env := by
  cases grows with
  | keep declared absent few =>
    rintro name l (_ | ⟨_, kept⟩)
    · exact ⟨_, declared, rfl, few⟩
    · exact agrees name l kept

/-- However much a cache grows, it goes on to agree with the environment. -/
theorem agrees_of_grows (grows : ReflTransGen (Grows env) cache cache')
    (agrees : cache.Agrees env) : cache'.Agrees env := by
  induction grows with
  | refl => exact agrees
  | tail _ step ih => exact step.agrees ih

theorem Agrees.of_find? {name : Name} (agrees : cache.Agrees env)
    (kept : cache.find? name = some l) :
    ∃ d, env.inductive? name = some d ∧ l = Layout.of d ∧ l.blocks.length ≤ 251 := by
  obtain ⟨⟨name', l'⟩, found, rfl⟩ := Option.map_eq_some_iff.mp kept
  obtain rfl : name' = name := by simpa using List.find?_some found
  exact agrees name' l' (List.mem_of_find?_eq_some found)

/-! ## Computations that do not show the cache -/

/-- The answer of a computation that starts from a cache, and the cache that it leaves. -/
def Run.exec (run : Run ε α) (cache : LayoutCache) : Except ε α × LayoutCache :=
  run.run.run cache

/-- From any cache that agrees with the environment the computation gives this answer, and all that
it does to the cache is that it grows. -/
def Transparent (env : Environment) (run : Run ε α) (answer : Except ε α) : Prop :=
  ∀ cache, cache.Agrees env →
    (run.exec cache).1 = answer ∧ ReflTransGen (Grows env) cache (run.exec cache).2

theorem exec_bind (run : Run ε α) (next : α → Run ε β) (cache : LayoutCache) :
    (run >>= next).exec cache =
      match run.exec cache with
      | (.ok a, cache') => (next a).exec cache'
      | (.error e, cache') => (.error e, cache') := by
  change (ExceptT.bindCont next (run.exec cache).1).run (run.exec cache).2 = _
  rcases run.exec cache with ⟨e | a, cache'⟩ <;> rfl

theorem transparent_lift (answer : Except ε α) : Transparent env (lift answer) answer :=
  fun _ _ => ⟨rfl, .refl⟩

theorem Transparent.bind {run : Run ε α} {answer : Except ε α} {next : α → Run ε β}
    {result : α → Except ε β} (first : Transparent env run answer)
    (rest : ∀ a, answer = .ok a → Transparent env (next a) (result a)) :
    Transparent env (run >>= next) (answer >>= result) := by
  intro cache agrees
  obtain ⟨same, grows⟩ := first cache agrees
  rw [exec_bind]
  rcases ended : run.exec cache with ⟨_ | a, cache'⟩
  · rw [ended] at same grows
    subst same
    exact ⟨rfl, grows⟩
  · rw [ended] at same grows
    subst same
    obtain ⟨same', grows'⟩ := rest a rfl cache' (agrees_of_grows grows agrees)
    exact ⟨same', grows.trans grows'⟩

/-- Whatever becomes of its answer, a transparent computation does not show the cache. -/
theorem Transparent.map_exec {run : Run ε α} {answer : Except ε α} (f : Except ε α → β)
    (transparent : Transparent env run answer) (agrees : cache.Agrees env) :
    (Prod.map f id (run.exec cache)).1 = f answer ∧
      ReflTransGen (Grows env) cache (Prod.map f id (run.exec cache)).2 := by
  obtain ⟨same, grows⟩ := transparent cache agrees
  exact ⟨congrArg f same, grows⟩

theorem Transparent.mapError {run : Run ε α} {answer : Except ε α} (f : ε → δ)
    (transparent : Transparent env run answer) :
    Transparent env (mapError f run) (answer.mapError f) := by
  intro cache agrees
  exact transparent.map_exec (Except.mapError f) agrees

/-! ## Classification and decoding -/

theorem exec_layout (d : InductiveDecl) (cache : LayoutCache) :
    (layout d).exec cache =
      match cache.find? d.name with
      | some l => (.ok l, cache)
      | none =>
        match Layout.ofSupported d with
        | .error e => (.error e, cache)
        | .ok l => (.ok l, { entries := (d.name, l) :: cache.entries }) := by
  rw [layout, exec_bind]
  change Run.exec (match cache.find? d.name with | some l => _ | none => _) cache = _
  cases cache.find? d.name with
  | some l => rfl
  | none =>
    rw [exec_bind]
    cases Layout.ofSupported d <;> rfl

theorem transparent_layout (declared : env.inductive? d.name = some d) :
    Transparent env (layout d) (Layout.ofSupported d) := by
  intro cache agrees
  rw [exec_layout]
  cases kept : cache.find? d.name with
  | some l =>
    obtain ⟨d', declared', rfl, few⟩ := agrees.of_find? kept
    obtain rfl := Option.some.inj (declared.symm.trans declared')
    exact ⟨(Layout.ofSupported_eq_ok.mpr ⟨rfl, decide_eq_true few⟩).symm, .refl⟩
  | none =>
    cases laidOut : Layout.ofSupported d with
    | error e => exact ⟨rfl, .refl⟩
    | ok l =>
      obtain ⟨rfl, supported⟩ := Layout.ofSupported_eq_ok.mp laidOut
      exact ⟨rfl, .single (.keep declared kept (of_decide_eq_true supported))⟩

theorem transparent_classify (env : Environment) (fuel : Nat) (type : Term) :
    Transparent env (classify env fuel type) (Readable.ofType env fuel type) := by
  refine (transparent_lift _).bind fun head read => ?_
  cases head with
  | primitive use => exact transparent_lift (.ok _)
  | inductiveType d levels params =>
    have declared := TypeHead.inductive?_of_ofType read
    exact (transparent_layout declared).bind fun l _ => transparent_lift (.ok _)

theorem transparent_classifyResult (env : Environment) (fuel : Nat) (type : Term) :
    Transparent env (classifyResult env fuel type) (Readable.ofResultType env fuel type) :=
  (transparent_classify env fuel type).bind fun _ _ => transparent_lift _

mutual

theorem transparent_decode (env : Environment) (fuel : Nat) : ∀ (r : Readable) (v : Value),
    Transparent env (decode env fuel r v) (r.decode env fuel v)
  | r, .immediate n => by
    rw [decode]
    exact transparent_lift _
  | .primitive t, .block tag fields => by
    rw [decode, Readable.decode]
    exact transparent_lift _
  | .inductiveType t, .block tag fields => by
    rw [decode, Readable.decode]
    refine (transparent_lift _).bind fun s _ => (transparent_lift _).bind fun types _ => ?_
    exact (transparent_decodeFields env fuel t.params types fields).bind fun args _ =>
      transparent_lift (.ok _)

theorem transparent_decodeFields (env : Environment) (fuel : Nat) :
    ∀ (context types : List Term) (values : List Value),
      Transparent env (decodeFields env fuel context types values)
        (Readback.decodeFields env fuel context types values)
  | context, _, [] => by
    rw [decodeFields, Readback.decodeFields]
    exact transparent_lift (.ok _)
  | context, [], v :: values => by
    rw [decodeFields, Readback.decodeFields]
    exact transparent_lift (.ok _)
  | context, type :: types, v :: values => by
    rw [decodeFields, Readback.decodeFields]
    refine ((transparent_classify env fuel _).mapError DecodeError.type).bind fun r _ => ?_
    exact (transparent_decode env fuel r v).bind fun field _ =>
      transparent_decodeFields env fuel (context ++ [field]) types values

end

theorem transparent_decodeAt (env : Environment) (fuel : Nat) (type : Term) (v : Value) :
    Transparent env (decodeAt env fuel type v) (Readback.decodeAt env fuel type v) :=
  ((transparent_classifyResult env fuel type).mapError DecodeError.type).bind fun r _ =>
    transparent_decode env fuel r v

/-! ## Sessions -/

/-- What can be asked for. A value can be read at any readable type. -/
inductive Request
  | classify (type : Term)
  | classifyResult (type : Term)
  | decode (type : Readable) (v : Value)
  | decodeAt (type : Term) (v : Value)

/-- What a request is answered with. -/
inductive Answer
  | readable (answer : Except TypeError Readable)
  | term (answer : Except DecodeError Term)

namespace Request

/-- Serves a request with the layouts kept so far. -/
def serve (env : Environment) (fuel : Nat) (cache : LayoutCache) : Request → Answer × LayoutCache
  | classify type => Prod.map .readable id ((LayoutCache.classify env fuel type).exec cache)
  | classifyResult type =>
    Prod.map .readable id ((LayoutCache.classifyResult env fuel type).exec cache)
  | decode type v => Prod.map .term id ((LayoutCache.decode env fuel type v).exec cache)
  | decodeAt type v => Prod.map .term id ((LayoutCache.decodeAt env fuel type v).exec cache)

/-- The answer of the functions that keep no layouts. -/
def answer (env : Environment) (fuel : Nat) : Request → Answer
  | classify type => .readable (Readable.ofType env fuel type)
  | classifyResult type => .readable (Readable.ofResultType env fuel type)
  | decode type v => .term (type.decode env fuel v)
  | decodeAt type v => .term (Readback.decodeAt env fuel type v)

/-- One request: the kept layouts do not show in its answer, and it only keeps more of them. -/
theorem serve_agrees (request : Request) (agrees : cache.Agrees env) :
    (request.serve env fuel cache).1 = request.answer env fuel ∧
      ReflTransGen (Grows env) cache (request.serve env fuel cache).2 := by
  cases request with
  | classify type => exact (transparent_classify env fuel type).map_exec Answer.readable agrees
  | classifyResult type =>
    exact (transparent_classifyResult env fuel type).map_exec Answer.readable agrees
  | decode type v => exact (transparent_decode env fuel type v).map_exec Answer.term agrees
  | decodeAt type v => exact (transparent_decodeAt env fuel type v).map_exec Answer.term agrees

end Request

/-- The cache after some requests, in this order. -/
def after (env : Environment) (fuel : Nat) (cache : LayoutCache) (requests : List Request) :
    LayoutCache :=
  requests.foldl (fun cache request => (request.serve env fuel cache).2) cache

/-- All the requests of a session: the cache only keeps more layouts. -/
theorem grows_after (requests : List Request) (agrees : cache.Agrees env) :
    ReflTransGen (Grows env) cache (after env fuel cache requests) := by
  induction requests generalizing cache with
  | nil => exact .refl
  | cons request requests ih =>
    obtain ⟨-, first⟩ := request.serve_agrees agrees
    exact first.trans (ih (agrees_of_grows first agrees))

theorem find?_eq_none_of_many {name : Name} (agrees : cache.Agrees env)
    (declared : env.inductive? name = some d) (many : 251 < d.blocks.length) :
    cache.find? name = none := by
  rw [Option.eq_none_iff_forall_ne_some]
  intro l kept
  obtain ⟨d', declared', rfl, few⟩ := agrees.of_find? kept
  obtain rfl := Option.some.inj (declared.symm.trans declared')
  rw [(Layout.forall₂_blocks d).length_eq] at few
  omega

/-- After any requests a request is answered as in a new session, which is as without keeping any
layouts. All that a request does is to keep more layouts, one after the other, and every cache that
comes about in this way agrees with the environment. A type with too many constructors is refused
whenever it is asked for, and nothing is kept for it. -/
theorem serve_after (env : Environment) (fuel : Nat) (before : List Request) :
    (∀ request : Request,
      (request.serve env fuel (after env fuel {} before)).1 = (request.serve env fuel {}).1 ∧
      (request.serve env fuel {}).1 = request.answer env fuel ∧
      ReflTransGen (Grows env) (after env fuel {} before)
        (request.serve env fuel (after env fuel {} before)).2) ∧
    ReflTransGen (Grows env) {} (after env fuel {} before) ∧
    (∀ cache, ReflTransGen (Grows env) {} cache → cache.Agrees env) ∧
    ∀ type n name levels args d, type.whnf env fuel = .ok n → n.spine = (.ind name levels, args) →
      env.inductive? name = some d → d.params.length ≤ args.length → 251 < d.blocks.length →
        ((Request.classify type).serve env fuel (after env fuel {} before)).1 =
            .readable (.error (.unsupportedLayout name d.blocks.length 251)) ∧
          (after env fuel {} before).find? name = none := by
  have grows : ReflTransGen (Grows env) {} (after env fuel {} before) :=
    grows_after before agrees_empty
  have agrees := agrees_of_grows grows agrees_empty
  refine ⟨fun request => ?_, grows, fun cache grows => agrees_of_grows grows agrees_empty, ?_⟩
  · obtain ⟨same, growing⟩ := request.serve_agrees agrees
    obtain ⟨fresh, -⟩ := request.serve_agrees agrees_empty
    exact ⟨same.trans fresh.symm, fresh, growing⟩
  · intro type n name levels args d whnf spine declared enough many
    obtain ⟨same, -⟩ := (Request.classify type).serve_agrees agrees
    refine ⟨same.trans (congrArg Answer.readable ?_), find?_eq_none_of_many agrees declared many⟩
    rw [Readable.ofType_eq_ofReduced, Readable.ofReduced, whnf]
    change Readable.ofNormal env type n = _
    rw [Readable.ofNormal, spine]
    simp only [declared, if_neg (Nat.not_lt.mpr enough), if_pos many]

end Readback.LayoutCache

namespace Readback.Prelude

open LayoutCache

/-- A type of one constructor more than there are tags. -/
def crowd : InductiveDecl :=
  ⟨⟨"crowd"⟩, [], List.replicate 252 ⟨⟨"member"⟩, [indTerm natName]⟩⟩

/-- The type is refused again after it was refused once, and after another type was accepted. -/
theorem serve_after_crowd :
    let env := environment.declare (.inductiveType crowd)
    let cache := after env 0 {} [.classify (indTerm crowd.name), .classify (indTerm natName)]
    ((Request.classify (indTerm crowd.name)).serve env 0 cache).1 =
        .readable (.error (.unsupportedLayout crowd.name 252 251)) ∧
      cache.find? crowd.name = none := by
  intro env cache
  have count : crowd.blocks.length = 252 := by
    rw [InductiveDecl.blocks, crowd, List.filter_replicate_of_pos rfl, List.length_replicate]
  have declared : env.inductive? crowd.name = some crowd := by
    simp [env, Environment.declare, Environment.inductive?]
  obtain ⟨-, -, -, refused⟩ := serve_after env 0
    [.classify (indTerm crowd.name), .classify (indTerm natName)]
  have many : 251 < crowd.blocks.length := by omega
  have again := refused (indTerm crowd.name) _ crowd.name .empty [] crowd rfl rfl declared
    (Nat.le_refl 0) many
  rwa [count] at again

end Readback.Prelude
