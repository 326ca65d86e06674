import InlineCache.Proofs.Entry.Move

namespace InlineCache

namespace AttachState

/-- Whether an attempt gets to ask for a decision. -/
def asks (config : CacheConfig) (s : AttachState) : Bool :=
  config.enabled && (s.transition config.maxStubs).2.canAttach config.maxStubs

/-- What an attempt makes of how far an entry is specialized. The mode changes first; then a stub is
added if there is room for one and a recipe for it, or the attempt is put off, or it fails and is
counted. -/
inductive Attempted (config : CacheConfig) (s : AttachState) (d : Decision) :
    Decision → AttachState → Prop where
  /-- No decision was asked for. The count of stubs changes only as the entry gives specialization up. -/
  | refused {t : AttachState} (hasks : s.asks config = false)
      (hmode : t.mode = (s.transition config.maxStubs).2.mode) (hfailures : t.failures = s.failures)
      (hstubs : t.mode.isTerminal = true ∨ t.stubs = s.stubs) :
      Attempted config s d .noAction t.countFailure
  /-- There was nothing to attach, or it could not be attached. -/
  | failed (hasks : s.asks config = true) :
      Attempted config s d .noAction (s.transition config.maxStubs).2.countAttempt.countFailure
  | attached {recipe : Recipe} (hasks : s.asks config = true) (hdecision : d = .attach recipe) :
      Attempted config s d d (s.transition config.maxStubs).2.countAttempt.countAttached
  /-- It was put off, to another use or to the end of this one. -/
  | waits (hasks : s.asks config = true) (hdecision : d = .temporarilyUnoptimizable ∨ d = .deferred) :
      Attempted config s d d (s.transition config.maxStubs).2.countAttempt

end AttachState

/-- One stub more, built from the recipe of a decision. Its code is of the signature that was asked for if
code is kept under its signature. -/
def Decision.Adds (decision : Decision) (honest : Prop) (stubs stubs' : List Stub) : Prop :=
  ∃ recipe code, decision.recipe? = some recipe ∧ (honest → code.signature = recipe.signature) ∧
    stubs' = recipe.toStub code :: stubs

namespace Entry

variable {e e' : Entry} {env env' : AttachEnv} {decision outcome : Decision} {recipe : Recipe}

/-- Linking adds the stub of the recipe and counts it, or does nothing. -/
theorem link_spec (hw : env.arena.WellLinked) (hs : e.chain.Sound env.arena)
    (hkind : recipe.kind.isFallback = false) {linked : Bool}
    (h : e.link env recipe = (linked, e', env')) :
    linked = false ∧ e'.state = e.state ∧ e'.chain.stubs env'.arena = e.chain.stubs env.arena ∨
      linked = true ∧ e'.state = e.state.countAttached ∧
        (Decision.attach recipe).Adds env.runtime.codeCache.Honest (e.chain.stubs env.arena)
          (e'.chain.stubs env'.arena) := by
  unfold link at h
  cases hb : env.build recipe with
  | mk result env₁ =>
  obtain ⟨hsame, -, hbuilt⟩ := AttachEnv.build_spec hb
  have hfailed (err : CacheError) : (env₁.reportFailure err).arena = env.arena :=
    (hsame.trans (env₁.sameStubs_reportFailure err)).arena
  rw [hb] at h
  rcases hbuilt with ⟨code, rfl, hget, -⟩ | ⟨err, rfl, -⟩
  · dsimp only at h
    split at h
    · next err _ _ hi =>
      cases h
      obtain ⟨rfl, rfl, -⟩ := AttachEnv.of_insert_eq_error hi
      exact .inl ⟨rfl, rfl, by rw [hfailed err]⟩
    · next id chain _ hi =>
      cases h
      obtain ⟨arena, hinsert, rfl⟩ := AttachEnv.insert_spec hi
      rw [hsame.arena] at hinsert
      exact .inr ⟨rfl, rfl, recipe, code, rfl, fun hhonest => hsame.honest hhonest _ _ hget,
        Chain.stubs_insert hw hs hkind hinsert⟩
  · cases h
    exact .inl ⟨rfl, rfl, by rw [hfailed err]⟩

/-- The change of mode before an attempt leaves the stubs alone unless the entry gives specialization up,
which leaves none. -/
theorem transition_spec (hw : env.arena.WellLinked) (hs : e.chain.Sound env.arena)
    (h : e.transition env = (e', env')) :
    e'.state.mode = (e.state.transition env.runtime.config.maxStubs).2.mode ∧
      e'.state.failures = e.state.failures ∧
      ((e' = { e with state := (e.state.transition env.runtime.config.maxStubs).2 } ∧ env' = env ∧
          e'.state.stubs = e.state.stubs) ∨
        e'.state.mode.isTerminal = true ∧ e'.chain.stubs env'.arena = []) := by
  unfold transition at h
  rcases e.state.transition_cases env.runtime.config.maxStubs with
    ht | ⟨hmode, ht⟩ | ⟨mode, hterminal, ht, -⟩
  · rw [ht] at h ⊢
    cases h
    exact ⟨rfl, rfl, .inl ⟨rfl, rfl, rfl⟩⟩
  · rw [ht] at h ⊢
    cases h
    exact ⟨rfl, rfl, .inl ⟨rfl, rfl, rfl⟩⟩
  · rw [ht] at h ⊢
    cases hd : Entry.discard { e with state := { e.state with mode := mode } } env with
    | mk e₁ env₁ =>
    have hnone := stubIds_discard (e := { e with state := { e.state with mode := mode } }) hw hs hd
    simp only [hd] at h
    cases h
    cases hd
    exact ⟨rfl, rfl, .inr ⟨hterminal, congrArg (List.map _) hnone⟩⟩

/-- The outcomes of a decision where there is room for a stub. -/
theorem tryAttach_spec (hw : env.arena.WellLinked) (hs : e.chain.Sound env.arena)
    (hkind : ∀ recipe, decision.recipe? = some recipe → recipe.kind.isFallback = false)
    (hallowed : (env.runtime.config.enabled && e.canAttach env) = true)
    (h : e.tryAttach env decision = (outcome, e', env')) :
    (outcome = .noAction ∧ e'.state = e.state.countAttempt ∧
        e'.chain.stubs env'.arena = e.chain.stubs env.arena) ∨
      ((∃ recipe, decision = .attach recipe) ∧ outcome = decision ∧
        e'.state = e.state.countAttempt.countAttached ∧
        decision.Adds env.runtime.codeCache.Honest (e.chain.stubs env.arena)
          (e'.chain.stubs env'.arena)) ∨
      (decision = .temporarilyUnoptimizable ∨ decision = .deferred) ∧ outcome = decision ∧
        e'.state = e.state.countAttempt ∧
        e'.chain.stubs env'.arena = e.chain.stubs env.arena := by
  unfold tryAttach at h
  rw [if_neg (by simpa [← Bool.not_and] using hallowed)] at h
  cases decision with
  | attach recipe =>
    cases hl : Entry.link { e with state := e.state.countAttempt } env recipe with
    | mk linked r =>
    obtain ⟨e₁, env₁⟩ := r
    have hlinked := link_spec (e := { e with state := e.state.countAttempt }) hw hs (hkind recipe rfl) hl
    simp only [hl] at h
    rcases hlinked with ⟨rfl, hstate, hstubs⟩ | ⟨rfl, hstate, hadds⟩ <;> cases h
    · exact .inl ⟨rfl, hstate, hstubs⟩
    · exact .inr (.inl ⟨⟨recipe, rfl⟩, rfl, hstate, hadds⟩)
  | noAction =>
    cases h
    exact .inl ⟨rfl, rfl, rfl⟩
  | temporarilyUnoptimizable | deferred =>
    cases h
    exact .inr (.inr ⟨by simp, rfl, rfl, rfl⟩)

/-- What one attempt makes of an entry: of how far it is, and of its stubs, which an attempt that is
deferred leaves alone. -/
theorem attempt_spec (hw : env.arena.WellLinked) (hs : e.chain.Sound env.arena)
    (hkind : ∀ recipe, decision.recipe? = some recipe → recipe.kind.isFallback = false)
    (h : e.attempt env decision = (outcome, e', env')) :
    e.state.Attempted env.runtime.config decision outcome e'.state ∧
      (e'.chain.stubs env'.arena = e.chain.stubs env.arena ∨
        outcome ≠ .deferred ∧ (e'.chain.stubs env'.arena = [] ∨
          decision.Adds env.runtime.codeCache.Honest (e.chain.stubs env.arena)
            (e'.chain.stubs env'.arena))) := by
  unfold attempt at h
  cases ht : e.transition env with
  | mk e₁ env₁ =>
  cases ha : e₁.tryAttach env₁ decision with
  | mk outcome₁ r =>
  obtain ⟨e₂, env₂⟩ := r
  simp only [ht, ha] at h
  cases h
  obtain ⟨hmode, hfailures, hturned⟩ := transition_spec hw hs ht
  cases hallowed : env₁.runtime.config.enabled && e₁.canAttach env₁ with
  | false =>
    unfold tryAttach at ha
    rw [if_pos (by simpa [← Bool.not_and] using hallowed)] at ha
    cases ha
    rw [if_pos rfl]
    rcases hturned with ⟨rfl, rfl, hcount⟩ | ⟨hterminal, hnone⟩
    · exact ⟨.refused hallowed hmode hfailures (.inr hcount), .inl rfl⟩
    · refine ⟨.refused ?_ hmode hfailures (.inl hterminal), .inr ⟨nofun, .inl hnone⟩⟩
      rw [AttachState.asks, AttachState.canAttach, ← hmode, hterminal]
      simp
  | true =>
    -- an entry that gave specialization up has no room for a stub
    obtain ⟨rfl, rfl, -⟩ := hturned.resolve_right fun hgaveUp => by
      rw [canAttach, AttachState.canAttach, hgaveUp.1] at hallowed
      simp at hallowed
    rcases tryAttach_spec (e := { e with state := (e.state.transition env₁.runtime.config.maxStubs).2 })
        hw hs hkind hallowed ha
      with ⟨rfl, hstate, hstubs⟩ | ⟨⟨recipe, rfl⟩, rfl, hstate, hadds⟩ | ⟨hwaits, rfl, hstate, hstubs⟩
    · have hfailed : e₂.countFailure.state =
          (e.state.transition env₁.runtime.config.maxStubs).2.countAttempt.countFailure :=
        congrArg AttachState.countFailure hstate
      rw [if_pos rfl, hfailed]
      exact ⟨.failed hallowed, .inl hstubs⟩
    · rw [if_neg (by simp), hstate]
      exact ⟨.attached hallowed rfl, .inr ⟨by simp, .inr hadds⟩⟩
    · rw [if_neg (by rcases hwaits with rfl | rfl <;> simp), hstate]
      exact ⟨.waits hallowed hwaits, .inl hstubs⟩

/-- An attempt is settled by a stub, or by a failure. -/
theorem settle_spec (hw : env.arena.WellLinked) (hs : e.chain.Sound env.arena)
    (hkind : ∀ recipe, decision.recipe? = some recipe → recipe.kind.isFallback = false)
    (h : e.settle env decision = (e', env')) :
    e'.state = e.state.countAttached ∧
        decision.Adds env.runtime.codeCache.Honest (e.chain.stubs env.arena)
          (e'.chain.stubs env'.arena) ∨
      e'.state = e.state.countFailure ∧ e'.chain.stubs env'.arena = e.chain.stubs env.arena := by
  unfold settle at h
  cases hr : decision.recipe?.filter fun _ => e.canAttach env with
  | none =>
    rw [hr] at h
    cases h
    exact .inr ⟨rfl, rfl⟩
  | some recipe =>
    obtain ⟨hrecipe, -⟩ := Option.filter_eq_some_iff.1 hr
    cases hl : e.link env recipe with
    | mk linked r =>
    obtain ⟨e₁, env₁⟩ := r
    simp only [hr, hl] at h
    rcases link_spec hw hs (hkind recipe hrecipe) hl with
      ⟨rfl, hstate, hstubs⟩ | ⟨rfl, hstate, _, code, hsome, hcode, hstubs⟩ <;> cases h
    · exact .inr ⟨congrArg AttachState.countFailure hstate, hstubs⟩
    · cases hsome
      exact .inl ⟨hstate, recipe, code, hrecipe, hcode, hstubs⟩

end Entry

end InlineCache
