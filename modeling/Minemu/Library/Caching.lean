import Minemu.Library.Runs

/-! A lookup with a cache in front of it. The cache drops entries as it likes and keeps the others
until it is flushed. A user who flushes after a change before relying on what the change concerns
cannot tell that the cache is there. -/

namespace Minemu.Library

variable {State : Type u} {Query : Type v} {Key : Type w} {Entry : Type x} {Answer : Type y}

/-- A lookup, which may change the state it looks at, and what of its answers a cache keeps. -/
structure Lookup (State : Type u) (Query : Type v) (Key : Type w) (Entry : Type x)
    (Answer : Type y) where
  look : State → Query → Answer × State
  key : Query → Key
  store : Answer → Option Entry
  load : Query → Entry → Answer

/-- One step of a user of the lookup. A query may depend on the state it is made in; `hit` says
whether the cache is asked for it, `evict` what it drops. -/
inductive CacheEvent (State : Type u) (Query : Type v) (Key : Type w) where
  | ask (query : State → Query) (hit : Bool)
  | change (next : State → State)
  | flush (succeeds : State → Bool)
  | evict (keep : Key → Bool)

/-- A state with the answers given so far, and the queries that a change concerned since the last
flush. -/
structure Plain (State : Type u) (Query : Type v) (Answer : Type y) where
  state : State
  answers : List Answer
  stale : Query → Prop

structure Cached (State : Type u) (Key : Type w) (Entry : Type x) (Answer : Type y) where
  state : State
  answers : List Answer
  cache : Key → Option Entry

namespace Lookup

variable (lookup : Lookup State Query Key Entry Answer) {Usable : State → Prop}
  {Keeps : State → State → Query → Prop} {query other : Query} {entry : Entry} {state after : State}

/-- The lookup of a query gives what the entry gives, and changes nothing. -/
def Steady (state : State) (query : Query) (entry : Entry) : Prop :=
  lookup.look state query = (lookup.load query entry, state)

/-- What makes a lookup fit for a cache: an entry stands for every query of its key once it has
been looked up, and neither another lookup nor a change that does not concern the query disturbs
it. -/
structure Cacheable (Usable : State → Prop) (Keeps : State → State → Query → Prop) : Prop where
  usable {state : State} (query : Query) (usable : Usable state) :
    Usable (lookup.look state query).2
  settle {state : State} {query other : Query} {entry : Entry} (usable : Usable state)
    (stored : lookup.store (lookup.look state query).1 = some entry)
    (alike : lookup.key other = lookup.key query) :
    lookup.Steady (lookup.look state query).2 other entry
  walk {state : State} {other : Query} {entry : Entry} (query : Query) (usable : Usable state)
    (steady : lookup.Steady state other entry) :
    lookup.Steady (lookup.look state query).2 other entry
  keep {state after : State} {query : Query} {entry : Entry} (usable : Usable state)
    (later : Usable after) (keeps : Keeps state after query)
    (steady : lookup.Steady state query entry) : lookup.Steady after query entry

/-- A step without a cache. -/
def plainStep (Keeps : State → State → Query → Prop) (plain : Plain State Query Answer) :
    CacheEvent State Query Key → Plain State Query Answer
  | .ask query _ =>
    let looked := lookup.look plain.state (query plain.state)
    { plain with state := looked.2, answers := plain.answers ++ [looked.1] }
  | .change next =>
    { plain with
      state := next plain.state
      stale := fun query => plain.stale query ∨ ¬ Keeps plain.state (next plain.state) query }
  | .flush succeeds =>
    { plain with stale := fun query => plain.stale query ∧ succeeds plain.state = false }
  | .evict _ => plain

variable [DecidableEq Key]

/-- The same step with one. -/
def cachedStep (cached : Cached State Key Entry Answer) :
    CacheEvent State Query Key → Cached State Key Entry Answer
  | .ask query hit =>
    let query := query cached.state
    match if hit then cached.cache (lookup.key query) else none with
    | some entry => { cached with answers := cached.answers ++ [lookup.load query entry] }
    | none =>
      let looked := lookup.look cached.state query
      { state := looked.2
        answers := cached.answers ++ [looked.1]
        cache := match lookup.store looked.1 with
          | some entry => Function.update cached.cache (lookup.key query) (some entry)
          | none => cached.cache }
  | .change next => { cached with state := next cached.state }
  | .flush succeeds =>
    { cached with cache := if succeeds cached.state then fun _ => none else cached.cache }
  | .evict keep => { cached with cache := fun key => if keep key then cached.cache key else none }

/-- The order the user keeps: no query that a change concerned is made before a flush, and changes
leave a usable state. -/
def Ordered (Usable : State → Prop) (plain : Plain State Query Answer) :
    CacheEvent State Query Key → Prop
  | .ask query _ => ¬ plain.stale (query plain.state)
  | .change next => Usable (next plain.state)
  | .flush _ | .evict _ => True

/-- Every entry the cache holds stands for the queries of its key that no change concerned. -/
structure Coherent (Usable : State → Prop) (plain : Plain State Query Answer)
    (cached : Cached State Key Entry Answer) : Prop where
  state : cached.state = plain.state
  answers : cached.answers = plain.answers
  usable : Usable plain.state
  steady : ∀ query entry, cached.cache (lookup.key query) = some entry → ¬ plain.stale query →
    lookup.Steady plain.state query entry

omit [DecidableEq Key] in
theorem Coherent.initial (start : State) (usable : Usable start) :
    lookup.Coherent Usable ⟨start, [], fun _ => False⟩ ⟨start, [], fun _ => none⟩ :=
  ⟨rfl, rfl, usable, fun _ _ held => nomatch held⟩

variable {lookup} {plain : Plain State Query Answer} {cached : Cached State Key Entry Answer}

/-- A lookup that is made fills the cache coherently. -/
theorem Coherent.filled (cacheable : lookup.Cacheable Usable Keeps)
    (coherent : lookup.Coherent Usable plain cached) (query : Query) :
    lookup.Coherent Usable
      { plain with
        state := (lookup.look plain.state query).2
        answers := plain.answers ++ [(lookup.look plain.state query).1] }
      { state := (lookup.look cached.state query).2
        answers := cached.answers ++ [(lookup.look cached.state query).1]
        cache := match lookup.store (lookup.look cached.state query).1 with
          | some entry => Function.update cached.cache (lookup.key query) (some entry)
          | none => cached.cache } := by
  obtain ⟨state, answers, usable, steady⟩ := coherent
  rw [state, answers]
  refine ⟨rfl, rfl, cacheable.usable query usable, ?_⟩
  intro other entry held fresh
  have walked (before : cached.cache (lookup.key other) = some entry) :
      lookup.Steady (lookup.look plain.state query).2 other entry :=
    cacheable.walk query usable (steady other entry before fresh)
  cases stored : lookup.store (lookup.look plain.state query).1 with
  | none =>
    simp only [stored] at held
    exact walked held
  | some filled =>
    simp only [stored] at held
    by_cases alike : lookup.key other = lookup.key query
    · rw [alike, Function.update_self, Option.some.injEq] at held
      subst held
      exact cacheable.settle usable stored alike
    · rw [Function.update_of_ne alike] at held
      exact walked held

/-- Every ordered step keeps the cache coherent. -/
theorem Coherent.step (cacheable : lookup.Cacheable Usable Keeps)
    (coherent : lookup.Coherent Usable plain cached) (event : CacheEvent State Query Key)
    (ordered : Ordered Usable plain event) :
    lookup.Coherent Usable (lookup.plainStep Keeps plain event)
      (lookup.cachedStep cached event) := by
  have ⟨state, answers, usable, steady⟩ := coherent
  cases event with
  | ask query hit =>
    simp only [plainStep, cachedStep]
    cases found : if hit then cached.cache (lookup.key (query cached.state)) else none with
    | none =>
      have filled := coherent.filled cacheable (query plain.state)
      simpa only [state] using filled
    | some entry =>
      have held : cached.cache (lookup.key (query plain.state)) = some entry := by
        cases hit with
        | false => simp at found
        | true => rwa [if_pos rfl, state] at found
      have looked := steady _ entry held ordered
      rw [Steady] at looked
      simp only [looked, state, answers]
      exact ⟨rfl, rfl, usable, steady⟩
  | change next =>
    refine ⟨congrArg next state, answers, ordered, ?_⟩
    intro query entry held fresh
    have ⟨before, keeps⟩ := not_or.mp fresh
    exact cacheable.keep usable ordered (not_not.mp keeps) (steady query entry held before)
  | flush succeeds =>
    refine ⟨state, answers, usable, ?_⟩
    intro query entry held fresh
    simp only [cachedStep, state] at held
    cases flushed : succeeds plain.state with
    | true =>
      rw [flushed, if_pos rfl] at held
      cases held
    | false =>
      rw [flushed, if_neg (by decide)] at held
      exact steady query entry held fun stale => fresh ⟨stale, flushed⟩
  | evict keep =>
    refine ⟨state, answers, usable, ?_⟩
    intro query entry held fresh
    simp only [cachedStep] at held
    split at held
    · exact steady query entry held fresh
    · cases held

/-- So does every ordered run. -/
theorem Coherent.run (cacheable : lookup.Cacheable Usable Keeps)
    (coherent : lookup.Coherent Usable plain cached) (events : List (CacheEvent State Query Key))
    (ordered : Throughout (lookup.plainStep Keeps) (Ordered Usable) plain events) :
    lookup.Coherent Usable (Library.run (lookup.plainStep Keeps) plain events)
      (Library.run lookup.cachedStep cached events) := by
  induction events generalizing plain cached with
  | nil => exact coherent
  | cons event events ih =>
    obtain ⟨first, rest⟩ := ordered
    exact ih (coherent.step cacheable event first) rest

end Lookup

end Minemu.Library
