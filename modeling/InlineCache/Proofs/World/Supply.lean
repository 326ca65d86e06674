import InlineCache.Proofs.Entry.Supply
import InlineCache.Proofs.Machine.Call
import InlineCache.Proofs.Request.Kind

namespace InlineCache

/-- What is decided about the operands of a use is matched. -/
theorem Decision.Specialized.matched {flavor : Flavor} {d : Decision} (hd : d.Specialized flavor)
    (recipe : Recipe) (h : d.recipe? = some recipe) : recipe.Matched := by
  rw [Recipe.Matched, hd.recipe h]
  rfl

namespace UnitCache

/-- The arena of a new unit holds the ends of its chains. -/
theorem suppliedBy_createEntries (c : CodeCache) (sites : List EntrySite) (a : Arena) :
    Arena.SuppliedBy c a (createEntries sites a).2 := by
  have hentry (kind : SiteKind) (a : Arena) : Arena.SuppliedBy c a (Entry.create a kind).2 := by
    have hchain : Arena.SuppliedBy c a (Chain.create a (.ending (.fallback kind))).2 :=
      Arena.suppliedBy_push (.ending rfl rfl) a none
    unfold Entry.create
    dsimp only
    split
    · exact hchain.trans (.refl c) (TypeChain.suppliedBy_create c _ .monitor)
    · exact hchain
  induction sites generalizing a with
  | nil => exact .of_eq c rfl
  | cons site rest ih => exact (hentry site.kind a).trans (.refl c) (ih _)

private theorem supplies_of_create {unit : CodeUnit} {config : CacheConfig} {cache : UnitCache}
    (h : create unit config = .ok cache) (c : CodeCache) : ∀ s ∈ cache.arena.stubs, c.Supplies s := by
  obtain ⟨sites, -, rfl⟩ := create_eq_ok_iff.1 h
  intro s hs
  rcases suppliedBy_createEntries c sites (.empty config.arenaLimit) s hs with hbefore | hnew
  · exact absurd hbefore (Array.not_mem_empty s)
  · exact hnew

end UnitCache

namespace World

variable {σ : Type}

/-- What any work leaves of the cache of code and of the arenas: code is looked up, and every new stub has its
own from there. -/
structure Supplies (w w' : World σ) : Prop where
  lookups : w.runtime.codeCache.LooksUp w'.runtime.codeCache
  stubs : ∀ c, Arena.SuppliedBy w'.runtime.codeCache (w.cache c).arena (w'.cache c).arena

variable {w w' w'' : World σ} {c : CacheId} {index : Nat}

theorem Supplies.trans (h : w.Supplies w') (h' : w'.Supplies w'') : w.Supplies w'' :=
  ⟨h.lookups.trans h'.lookups, fun c => (h.stubs c).trans h'.lookups (h'.stubs c)⟩

/-- Where the units stay and no code is looked up. -/
theorem Supplies.of_eq (hcaches : w'.caches = w.caches) (hcode : w'.runtime.codeCache = w.runtime.codeCache) :
    w.Supplies w' :=
  ⟨hcode ▸ .refl _, fun c => .of_eq _ (by rw [cache, cache, hcaches])⟩

theorem Supplies.refl (w : World σ) : w.Supplies w := .of_eq rfl rfl

/-- Where one unit changes in anything but its stubs. -/
theorem Supplies.mapCache (h : w.Supplies w') (c : CacheId) {f : UnitCache → UnitCache}
    (harena : ∀ cache, (f cache).arena = cache.arena) : w.Supplies (w'.mapCache c f) := by
  refine h.trans ⟨.refl _, fun d => .of_eq _ (congrArg Arena.stubs ?_)⟩
  rcases w'.caches.get_modify_cases c f d with heq | heq
  · exact congrArg UnitCache.arena heq
  · exact (congrArg UnitCache.arena heq).trans (harena _)

private theorem supplies_setAttachEnv {env : AttachEnv} (h : (w.attachEnv c).Supplies env) :
    w.Supplies (w.setAttachEnv c env) := by
  refine ⟨h.lookups, fun d => ?_⟩
  let f : UnitCache → UnitCache := fun cache => { cache with arena := env.arena, counters := env.counters }
  by_cases hd : d = c
  · subst hd
    rcases w.caches.get_modify_cases d f d with heq | heq
    · exact .of_eq _ (congrArg (·.arena.stubs) heq)
    · have harena : ((w.setAttachEnv d env).cache d).arena = env.arena := congrArg UnitCache.arena heq
      rw [harena]
      exact h.stubs
  · exact .of_eq _ (congrArg (·.arena.stubs) (w.caches.get_modify_of_ne f hd))

private theorem supplies_onEntry {α : Type} {f : Entry → AttachEnv → α × Entry × AttachEnv}
    (hf : ∀ (entry : Entry) (env : AttachEnv), env.Supplies (f entry env).2.2) (w : World σ) (c : CacheId)
    (index : Nat) : w.Supplies (w.onEntry c index f).2 :=
  (supplies_setAttachEnv (hf _ _)).mapCache c fun _ => rfl

private theorem supplies_attempt {decision : Decision} {flavor : Flavor}
    (hd : decision.Specialized flavor)
    (w : World σ) (c : CacheId) (index : Nat) : w.Supplies (w.attempt c index decision).2 :=
  supplies_onEntry (Entry.supplies_attempt hd.matched) w c index

private theorem supplies_settle {decision : Decision} {flavor : Flavor}
    (hd : decision.Specialized flavor)
    (w : World σ) (c : CacheId) (index : Nat) : w.Supplies (w.settle c index decision) :=
  supplies_onEntry (Entry.supplies_settle hd.matched) w c index

theorem supplies_unlinkStubs (w : World σ) (c : CacheId) (index : Nat) (signature : Signature) :
    w.Supplies (w.unlinkStubs c index signature).2 :=
  supplies_onEntry (fun entry env => entry.supplies_unlinkSignature env signature) w c index

theorem supplies_purge (w : World σ) (c : CacheId) : w.Supplies (w.purge c) := by
  have hfold (indices : List Nat) (w : World σ) : w.Supplies (indices.foldl
      (fun w index => (w.onEntry c index fun entry env => ((), entry.purge env)).2) w) := by
    induction indices generalizing w with
    | nil => exact .refl w
    | cons index indices ih => exact (supplies_onEntry Entry.supplies_purge w c index).trans (ih _)
  exact hfold _ w

private theorem supplies_recordResult (w : World σ) (c : CacheId) (index : Nat)
    (guards : List TypeGuard) (v : Value) : w.Supplies (w.recordResult c index guards v) := by
  unfold recordResult
  split
  · exact .refl w
  · refine supplies_onEntry (fun entry env => ?_) w c index
    split
    · next monitor _ => exact monitor.supplies_record w.heap env v
    · exact .refl env

theorem supplies_recordWrite (w : World σ) (c : CacheId) (group : GroupId) (key : PropertyKey) (v : Value) :
    w.Supplies (w.recordWrite c group key v).2 := by
  -- the guards of a property are made when it is first written
  have hshown (t : TypeChain) (a : Arena) (ha : (w.attachEnv c).Supplies { w.attachEnv c with arena := a }) :
      let shown := t.recordWrite w.heap { w.attachEnv c with arena := a } group key v
      w.Supplies (({ w with heap := shown.2.2.1 }.setAttachEnv c shown.2.2.2).mapCache c fun cache =>
        { cache with updates := cache.updates.set (group, key) shown.2.1 }) := by
    intro shown
    have hheap : w.Supplies { w with heap := shown.2.2.1 } := .of_eq rfl rfl
    have hrecorded := ha.trans (t.supplies_recordWrite w.heap _ group key v)
    exact (hheap.trans (supplies_setAttachEnv hrecorded)).mapCache c fun _ => rfl
  unfold recordWrite
  cases (w.cache c).updates.find? (group, key) with
  | some t => exact hshown t _ (.refl _)
  | none => exact hshown _ _ ⟨.refl _, TypeChain.suppliedBy_create _ _ .update⟩

private theorem supplies_recordStubWrite (w : World σ) (c : CacheId) (op : SiteOperation)
    (ops : Operands) : w.Supplies (w.recordStubWrite c op ops) := by
  unfold recordStubWrite
  split
  · exact supplies_recordWrite w c _ _ _
  · exact .refl w

private theorem supplies_enter (w : World σ) (c : CacheId) (index : Nat) :
    w.Supplies (w.enter c index) :=
  Supplies.mapCache (.refl w) c fun _ => rfl

private theorem supplies_enterFallback (w : World σ) (c : CacheId) (index : Nat) :
    w.Supplies (w.enterFallback c index) := by
  have hcounted : w.Supplies (w.mapCounters c fun n => { n with fallbackHits := n.fallbackHits + 1 }) :=
    .mapCache (.refl w) c fun _ => rfl
  exact hcounted.trans (supplies_enter _ c index)

private theorem supplies_watch (w : World σ) (c : CacheId) (index : Nat) (guards : List TypeGuard)
    (v : Value) : w.Supplies (w.watch c index guards v) := by
  unfold watch
  split
  · exact .refl w
  · exact (supplies_enter w c index).trans (supplies_recordResult _ c index guards v)

theorem supplies_loopEntry (w : World σ) (c : CacheId) (pc : Offset) : w.Supplies (w.loopEntry c pc).2 := by
  unfold loopEntry
  split
  · exact supplies_enterFallback w c _
  · exact .refl w

private theorem supplies_commit (w : World σ) (result : Except VmError (Value × Heap)) :
    w.Supplies (w.commit result).2 := by
  cases result <;> exact .of_eq rfl rfl

private theorem supplies_callObject (w : World σ) (id : ObjectId) (this : Value) (args : List Value) :
    w.Supplies (w.callObject .absent id this args).2 := by
  unfold callObject
  split <;> exact .of_eq rfl rfl

private theorem supplies_perform (w : World σ) (r : Request) : w.Supplies (r.perform .absent w).2 := by
  rcases r.outcome?_cases with ⟨callee, this, args, rfl⟩ | houtcome
  · simp only [Request.perform, callValue]
    split
    · exact supplies_callObject w _ this args
    · split <;> exact .refl w
  · obtain ⟨result, h⟩ := houtcome w.heap
    rw [Request.perform_of_outcome .absent h]
    exact supplies_commit w result

private theorem supplies_run (w : World σ) (signature : Signature) (stub : Stub) (ops : Operands) :
    w.Supplies (Handler.run .absent signature stub ops w).2 := by
  by_cases hsig : signature = .callFunction
  · subst hsig
    simp only [Handler.run, Handler.callFunction]
    split
    · exact supplies_callObject w _ _ _
    · exact .refl w
    · exact .refl w
  · obtain ⟨result, hresult⟩ := Handler.run_eq_commit hsig stub ops w
    rw [hresult]
    exact supplies_commit w result

private theorem supplies_result (h : w.Supplies w') (b : Prop) [Decidable b] (c : CacheId) (index : Nat)
    (guards : List TypeGuard) (v : Value) :
    w.Supplies (if b then w'.recordResult c index guards v else w') := by
  split
  · exact h.trans (supplies_recordResult w' c index guards v)
  · exact h

private theorem supplies_runStub (w : World σ) (c : CacheId) (index : Nat) (guards : List TypeGuard)
    (op : SiteOperation) (ops : Operands) (stub : Stub) (signature : Signature) :
    w.Supplies (runStub .absent c index guards op ops stub signature w).2 := by
  have hshown : w.Supplies (if stub.kind.flavor? = some .updated then w.recordStubWrite c op ops else w) := by
    split
    · exact supplies_recordStubWrite w c op ops
    · exact .refl w
  unfold runStub
  dsimp only
  generalize (if stub.kind.flavor? = some .updated then w.recordStubWrite c op ops else w) = w₁ at hshown ⊢
  have hrun := hshown.trans (supplies_run w₁ signature stub ops)
  generalize Handler.run .absent signature stub ops w₁ = ran at hrun ⊢
  obtain ⟨result, w₂⟩ := ran
  cases result with
  | error e => exact hrun
  | ok v =>
    have hcounted : w.Supplies (w₂.mapCounters c fun n => { n with stubHits := n.stubHits + 1 }) :=
      hrun.mapCache c fun _ => rfl
    exact supplies_result hcounted (stub.kind.flavor? = some .monitored) c index guards v

private theorem supplies_performThenAttach (w : World σ) (c : CacheId) (index : Nat) (r : Request) :
    w.Supplies (performThenAttach .absent c index r w).2 := by
  have hperform := supplies_perform w r
  unfold performThenAttach
  generalize r.perform .absent w = performed at hperform ⊢
  obtain ⟨result, w₁⟩ := performed
  cases result with
  | error e => exact hperform
  | ok v =>
    have hnoted : w.Supplies (if r.gaveDouble v then
        w₁.mapEntry c index fun entry => { entry with sawDouble := true } else w₁) := by
      split
      · exact hperform.mapCache c fun _ => rfl
      · exact hperform
    exact hnoted.trans (supplies_attempt (Request.specialized_decision _ r) _ c index)

private theorem supplies_performThenSettle (w : World σ) (c : CacheId) (index : Nat)
    (guards : List TypeGuard) (r : Request) (outcome : Decision) :
    w.Supplies (performThenSettle .absent c index guards r outcome w).2 := by
  have hperform := supplies_perform w r
  unfold performThenSettle
  dsimp only
  generalize r.perform .absent w = performed at hperform ⊢
  obtain ⟨result, w₁⟩ := performed
  cases result with
  | error e => exact hperform
  | ok v =>
    have hsettled : w.Supplies
        (if outcome = .deferred then w₁.settle c index (r.secondLook w.heap w₁.heap) else w₁) := by
      split
      · exact hperform.trans (supplies_settle (Request.specialized_secondLook _ _ r) w₁ c index)
      · exact hperform
    exact supplies_result hsettled _ c index guards v

private theorem supplies_attachThenPerform (w : World σ) (c : CacheId) (index : Nat)
    (guards : List TypeGuard)
    (r : Request) : w.Supplies (attachThenPerform .absent c index guards r w).2 := by
  have htried := supplies_attempt (Request.specialized_decision w.heap r) w c index
  unfold attachThenPerform
  generalize w.attempt c index (r.decision w.heap) = tried at htried ⊢
  obtain ⟨outcome, w₁⟩ := tried
  dsimp only at htried ⊢
  cases r.write? w₁.heap with
  | error e => exact htried
  | ok write =>
    cases write with
    | none => exact htried.trans (supplies_performThenSettle w₁ c index guards r outcome)
    | some written =>
      exact (htried.trans (supplies_recordWrite w₁ c _ _ _)).trans
        (supplies_performThenSettle _ c index guards r outcome)

private theorem supplies_fallback (w : World σ) (c : CacheId) (index : Nat) (guards : List TypeGuard)
    (op : SiteOperation) (ops : Operands) : w.Supplies (fallback .absent c index guards op ops w).2 := by
  have hentered := supplies_enterFallback w c index
  unfold fallback
  dsimp only
  split
  · exact hentered
  · next r _ =>
    split
    · exact hentered.trans (supplies_performThenAttach _ c index r)
    · exact hentered.trans (supplies_attachThenPerform _ c index guards r)

private theorem supplies_dispatch (w : World σ) (c : CacheId) (id : EntryId) (ops : Operands) :
    w.Supplies (dispatch .absent c id ops w).2 := by
  unfold dispatch
  split
  · unfold dispatchEntry
    dsimp only
    split
    · split
      · exact supplies_watch w c _ _ _
      · exact .refl w
    · exact supplies_enterFallback w c _
    · split
      · exact supplies_runStub w c _ _ _ ops _ _
      · exact supplies_fallback w c _ _ _ ops
  · exact .refl w

/-- A use up to its call, or to its end. -/
theorem supplies_begin (w : World σ) (c : CacheId) (id : EntryId) (ops : Operands) :
    w.Supplies (begin c id ops w).world := by
  unfold begin
  split
  · next p w₁ hcall =>
    have hcalled : w₁.Supplies (w₁.call p).world := .of_eq rfl rfl
    obtain ⟨op, -, -, ⟨_, _, -, -, rfl⟩ | ⟨-, r, -, -, rfl⟩⟩ := callOf?_cases hcall
    · exact hcalled
    · have hattempt := supplies_attempt (Request.specialized_decision w.heap r) (w.enterFallback c id.index) c
        id.index
      exact ((supplies_enterFallback w c id.index).trans hattempt).trans hcalled
  · exact supplies_dispatch w c id ops

/-- The rest of a use, after its call. -/
theorem supplies_finish (w : World σ) (p : Pending) (result : Except VmError Value) :
    w.Supplies (w.finish p result).2 := by
  have hleft : w.Supplies (w.mapHeap (leaveCall · p.callee)) := .of_eq rfl rfl
  cases result with
  | error e => exact hleft
  | ok v =>
    cases horigin : p.origin with
    | fallback =>
      simp only [finish, horigin]
      exact hleft.trans (supplies_recordResult _ p.cache p.index p.guards v)
    | stub flavor =>
      have hcounted : w.Supplies ((w.mapHeap (leaveCall · p.callee)).mapCounters p.cache
          fun n => { n with stubHits := n.stubHits + 1 }) := hleft.mapCache p.cache fun _ => rfl
      simp only [finish, horigin]
      exact supplies_result hcounted (flavor = some .monitored) p.cache p.index p.guards v

theorem supplies_buildStub (w : World σ) (recipe : Recipe) : w.Supplies (w.buildStub recipe).2 := by
  have hlooks : w.runtime.codeCache.LooksUp (w.buildStub recipe).2.runtime.codeCache := .getOrCompile _ _ _
  exact ⟨hlooks, fun _ => .of_eq _ rfl⟩

theorem supplies_addCache (w : World σ) (unit : CodeUnit) : w.Supplies (w.addCache unit).2 := by
  unfold addCache
  split
  · exact .refl w
  · next cache hcreate =>
    refine ⟨.refl _, fun c => ?_⟩
    rcases w.caches.get_add_cases cache c with heq | ⟨-, heq⟩
    · exact .of_eq _ (congrArg (·.arena.stubs) heq)
    · intro s hs
      have harena : (World.cache { w with caches := w.caches.add cache } c).arena = cache.arena :=
        congrArg UnitCache.arena heq
      rw [harena] at hs
      exact .inr (UnitCache.supplies_of_create hcreate _ s hs)

end World

end InlineCache
