import InlineCache.Cache.Attach
import InlineCache.Proofs.Chain.Sound
import InlineCache.Proofs.Runtime.Follows

namespace InlineCache

/-- The mode before an attempt changes in one of three ways, and only a change that gives
specialization up takes the stubs out. -/
theorem AttachState.transition_cases (s : AttachState) (cap : Nat) :
    s.transition cap = (false, s) ∨
    (s.mode = .uninitialized ∧ s.transition cap = (false, { s with mode := .optimizable })) ∨
    ∃ mode, mode.isTerminal = true ∧ s.transition cap = (true, { s with mode := mode }) ∧
      (s.mode = .optimizable ∨ s.mode = .megamorphic ∧ mode = .generic) := by
  unfold transition
  cases hmode : s.mode with
  | uninitialized => exact .inr (.inl ⟨rfl, rfl⟩)
  | generic => exact .inl rfl
  | optimizable =>
    dsimp only
    split
    · exact .inr (.inr ⟨.generic, rfl, rfl, .inl rfl⟩)
    · split
      · exact .inr (.inr ⟨.megamorphic, rfl, rfl, .inl rfl⟩)
      · exact .inl rfl
  | megamorphic =>
    dsimp only
    split
    · exact .inr (.inr ⟨.generic, rfl, rfl, .inr ⟨rfl, rfl⟩⟩)
    · exact .inl rfl

namespace Entry

/-- One small change of an entry. Stubs are only added where more are allowed, from one of the given
recipes, and specialization is only given up by an entry without stubs. What holds before and after
every move holds before and after all work on the stubs of an entry. -/
inductive Move (recipes : Recipe → Prop) : Entry → AttachEnv → Entry → AttachEnv → Prop where
  /-- Attempts, failures and other events are counted. -/
  | note {e : Entry} {env env' : AttachEnv} {state : AttachState}
      (hmode : state.mode = e.state.mode) (hstubs : state.stubs = e.state.stubs)
      (henv : env.SameStubs env') : Move recipes e env { e with state := state } env'
  | start {e : Entry} {env : AttachEnv} (hmode : e.state.mode = .uninitialized) :
      Move recipes e env { e with state := { e.state with mode := .optimizable } } env
  | giveUp {e : Entry} {env : AttachEnv} {mode : Mode} (hnone : e.chain.stubIds env.arena = [])
      (hmode : e.state.mode = .optimizable ∨ e.state.mode = .megamorphic ∧ mode = .generic)
      (hterminal : mode.isTerminal = true) :
      Move recipes e env { e with state := { e.state with mode := mode } } env
  | link {e : Entry} {env env' : AttachEnv} {recipe : Recipe} {code : Code} {id : StubId}
      {chain : Chain} (hcan : e.canAttach env = true) (hrecipe : recipes recipe)
      (hcode : env.runtime.codeCache.Honest → code.signature = recipe.signature)
      (hinsert : e.chain.insert env.arena (recipe.toStub code) = (.ok id, chain, env'.arena))
      (hattached : env'.counters.stubsAttached = env.counters.stubsAttached + 1)
      (hdiscarded : env'.counters.stubsDiscarded = env.counters.stubsDiscarded)
      (henv : env.Follows env') :
      Move recipes e env { e with chain := chain, state := e.state.countAttached } env'
  | remove {e : Entry} {env env' : AttachEnv} {p : Stub → Bool} {removed : Nat} {chain : Chain}
      {zone : Zone}
      (hunlink : e.chain.unlinkMatching env.arena env.runtime.zone p =
        (removed, chain, env'.arena, zone))
      (hattached : env'.counters.stubsAttached = env.counters.stubsAttached)
      (hdiscarded : env'.counters.stubsDiscarded = env.counters.stubsDiscarded + removed)
      (henv : env.Follows env') (hzone : env'.runtime.zone = zone) :
      Move recipes e env { e with chain := chain, state := e.state.countUnlinked removed } env'

/-- Some moves, one after the other. -/
inductive Moves (recipes : Recipe → Prop) : Entry → AttachEnv → Entry → AttachEnv → Prop where
  | refl {e : Entry} {env : AttachEnv} : Moves recipes e env e env
  | tail {e e' e'' : Entry} {env env' env'' : AttachEnv} (h : Moves recipes e env e' env')
      (h' : Move recipes e' env' e'' env'') : Moves recipes e env e'' env''

section

variable {recipes : Recipe → Prop} {e e' e'' : Entry} {env env' env'' : AttachEnv}

private theorem Move.moves (h : Move recipes e env e' env') : Moves recipes e env e' env' :=
    .tail .refl h

theorem Moves.trans (h : Moves recipes e env e' env') (h' : Moves recipes e' env' e'' env'') :
    Moves recipes e env e'' env'' := by
  induction h' with
  | refl => exact h
  | tail _ hmove ih => exact .tail (ih h) hmove

theorem Move.mono {recipes' : Recipe → Prop} (hr : ∀ recipe, recipes recipe → recipes' recipe)
    (h : Move recipes e env e' env') : Move recipes' e env e' env' := by
  cases h with
  | note hmode hstubs henv => exact .note hmode hstubs henv
  | start hmode => exact .start hmode
  | giveUp hnone hmode hterminal => exact .giveUp hnone hmode hterminal
  | link hcan hrecipe hcode hinsert hattached hdiscarded henv =>
    exact .link hcan (hr _ hrecipe) hcode hinsert hattached hdiscarded henv
  | remove hunlink hattached hdiscarded henv hzone =>
    exact .remove hunlink hattached hdiscarded henv hzone

theorem Moves.mono {recipes' : Recipe → Prop} (hr : ∀ recipe, recipes recipe → recipes' recipe)
    (h : Moves recipes e env e' env') : Moves recipes' e env e' env' := by
  induction h with
  | refl => exact .refl
  | tail _ hmove ih => exact .tail ih (hmove.mono hr)

theorem Move.follows (h : Move recipes e env e' env') : env.Follows env' := by
  cases h with
  | note _ _ henv => exact henv.toFollows
  | start _ => exact .refl env
  | giveUp _ _ _ => exact .refl env
  | link _ _ _ _ _ _ henv => exact henv
  | remove _ _ _ henv _ => exact henv

/-- The moves of an entry are work on its own chain, and leave its watch over results alone. -/
theorem Move.editedTo (hkind : ∀ recipe, recipes recipe → recipe.kind.isFallback = false)
    (hw : env.arena.WellLinked) (hs : e.chain.Sound env.arena) (h : Move recipes e env e' env') :
    e.chain.EditedTo env.arena e'.chain env'.arena ∧ e'.monitor = e.monitor := by
  cases h with
  | note _ _ henv =>
    rw [henv.arena]
    exact ⟨.refl hw hs, rfl⟩
  | start _ => exact ⟨.refl hw hs, rfl⟩
  | giveUp _ _ _ => exact ⟨.refl hw hs, rfl⟩
  | @link _ recipe code _ _ _ hrecipe _ hinsert _ _ _ =>
    have hstub : (recipe.toStub code).isFallback = false := hkind recipe hrecipe
    exact ⟨(Chain.insert_spec hw hs hstub hinsert).1, rfl⟩
  | remove hunlink _ _ _ _ => exact ⟨(Chain.unlinkMatching_spec hw hs _ hunlink).1, rfl⟩

theorem Moves.editedTo (hkind : ∀ recipe, recipes recipe → recipe.kind.isFallback = false)
    (hw : env.arena.WellLinked) (hs : e.chain.Sound env.arena) (h : Moves recipes e env e' env') :
    e.chain.EditedTo env.arena e'.chain env'.arena ∧ e'.monitor = e.monitor := by
  induction h with
  | refl => exact ⟨.refl hw hs, rfl⟩
  | tail _ hmove ih =>
    obtain ⟨hfirst, hmonitor⟩ := ih hw hs
    obtain ⟨hthen, hmonitor'⟩ := hmove.editedTo hkind hfirst.arena.wellLinked hfirst.sound
    exact ⟨hfirst.trans hthen, hmonitor'.trans hmonitor⟩

private theorem moves_note {state : AttachState} (hmode : state.mode = e.state.mode)
    (hstubs : state.stubs = e.state.stubs) (henv : env.SameStubs env') :
    Moves recipes e env { e with state := state } env' :=
  (Move.note hmode hstubs henv).moves

private theorem moves_countFailure (e : Entry) (henv : env.SameStubs env') :
    Moves recipes e env e.countFailure env' := by
  have hmode : e.state.countFailure.mode = e.state.mode := rfl
  exact moves_note hmode rfl henv

/-- Taking stubs out of the chain of an entry, and counting them, is one move. -/
theorem move_of_unlinkMatching {p : Stub → Bool} {removed : Nat} {chain : Chain} {arena : Arena}
    {zone : Zone}
    (hu : e.chain.unlinkMatching env.arena env.runtime.zone p = (removed, chain, arena, zone)) :
    Move recipes e env { e with chain := chain, state := e.state.countUnlinked removed }
      { arena := arena
        counters := { env.counters with stubsDiscarded := env.counters.stubsDiscarded + removed }
        runtime := { env.runtime with zone := zone } } := by
  have hzone := (Chain.unlinkMatching_barrier hu).1
  exact .remove hu rfl rfl (.of_zone rfl hzone rfl (Chain.oomCount_unlinkFrom hu)) rfl

theorem discard_moves (h : e.discard env = (e', env')) : Moves recipes e env e' env' := by
  unfold discard AttachEnv.discardAll Chain.discardAll at h
  cases hu : e.chain.unlinkMatching env.arena env.runtime.zone fun _ => true with
  | mk removed r =>
  obtain ⟨chain, arena, zone⟩ := r
  rw [hu] at h
  cases h
  exact (move_of_unlinkMatching hu).moves

/-- An entry has no stubs left after it discarded them. -/
theorem stubIds_discard (hw : env.arena.WellLinked) (hs : e.chain.Sound env.arena)
    (h : e.discard env = (e', env')) : e'.chain.stubIds env'.arena = [] := by
  unfold discard AttachEnv.discardAll at h
  cases hu : e.chain.discardAll env.arena env.runtime.zone with
  | mk removed r =>
  obtain ⟨chain, arena, zone⟩ := r
  rw [hu] at h
  cases h
  exact (Chain.discardAll_spec hw hs hu).2.1

private theorem transition_moves (hw : env.arena.WellLinked) (hs : e.chain.Sound env.arena)
    (h : e.transition env = (e', env')) : Moves recipes e env e' env' := by
  unfold transition at h
  rcases e.state.transition_cases env.runtime.config.maxStubs with
    ht | ⟨hmode, ht⟩ | ⟨mode, hterminal, ht, hmode⟩
  · rw [ht] at h
    cases h
    exact moves_note rfl rfl (.refl _)
  · rw [ht] at h
    cases h
    exact (Move.start hmode).moves
  · rw [ht] at h
    unfold discard AttachEnv.discardAll at h
    cases hu : e.chain.discardAll env.arena env.runtime.zone with
    | mk removed r =>
    obtain ⟨chain, arena, zone⟩ := r
    have hnone := (Chain.discardAll_spec hw hs hu).2.1
    simp only [hu] at h
    cases h
    have hremove : Moves recipes e env _ _ := (move_of_unlinkMatching hu).moves
    refine (hremove.tail (.giveUp hnone hmode hterminal)).trans ?_
    refine moves_note rfl rfl (AttachEnv.sameStubs_mapCounters _ ?_ ?_ ?_) <;> cases mode <;> rfl

/-- Linking adds the stub of the recipe, or nothing at all. -/
theorem link_moves {recipe : Recipe} {linked : Bool} (hcan : e.canAttach env = true)
    (hrecipe : recipes recipe) (h : e.link env recipe = (linked, e', env')) :
    Moves recipes e env e' env' := by
  unfold link at h
  cases hb : env.build recipe with
  | mk result env₁ =>
  obtain ⟨hsame, -, hbuilt⟩ := AttachEnv.build_spec hb
  rw [hb] at h
  rcases hbuilt with ⟨code, rfl, hget, -⟩ | ⟨err, rfl, -⟩
  · dsimp only at h
    split at h
    · next err _ _ hi =>
      cases h
      obtain ⟨rfl, rfl, -⟩ := AttachEnv.of_insert_eq_error hi
      exact moves_note rfl rfl (hsame.trans (AttachEnv.sameStubs_reportFailure _ err))
    · next id chain _ hi =>
      cases h
      obtain ⟨arena, hinsert, rfl⟩ := AttachEnv.insert_spec hi
      rw [hsame.arena] at hinsert
      have hcode (hh : env.runtime.codeCache.Honest) : code.signature = recipe.signature :=
        hsame.honest hh _ _ hget
      refine Move.moves (Move.link hcan hrecipe hcode hinsert ?_ ?_ ?_)
      · exact congrArg (· + 1) hsame.attached
      · exact hsame.discarded
      · exact hsame.toFollows.trans (.of_runtime rfl rfl)
  · cases h
    exact moves_note rfl rfl (hsame.trans (env₁.sameStubs_reportFailure err))

/-- Whether more stubs may be attached does not hang on failures, attempts, or other events. -/
theorem canAttach_of_same {state : AttachState} (hmode : state.mode = e.state.mode)
    (hstubs : state.stubs = e.state.stubs) (hcan : e.canAttach env = true) :
    Entry.canAttach { e with state := state } env = true := by
  unfold canAttach AttachState.canAttach at *
  rwa [hmode, hstubs]

private theorem tryAttach_moves {decision outcome : Decision}
    (h : e.tryAttach env decision = (outcome, e', env')) :
    Moves (fun recipe => decision.recipe? = some recipe) e env e' env' := by
  unfold tryAttach at h
  split at h
  · cases h
    exact .refl
  · next hallowed =>
    have hcan : e.canAttach env = true := by
      simp only [Bool.or_eq_true, Bool.not_eq_true', not_or, Bool.not_eq_false] at hallowed
      exact hallowed.2
    have hattempt : Moves (fun recipe => decision.recipe? = some recipe) e env
        { e with state := e.state.countAttempt } env := moves_note rfl rfl (.refl env)
    have hcan' : Entry.canAttach { e with state := e.state.countAttempt } env = true :=
      canAttach_of_same rfl rfl hcan
    cases decision with
    | attach recipe =>
      cases hl : Entry.link { e with state := e.state.countAttempt } env recipe with
      | mk linked r =>
      obtain ⟨e₁, env₁⟩ := r
      simp only [hl] at h
      cases h
      exact hattempt.trans (link_moves hcan' rfl hl)
    | temporarilyUnoptimizable =>
      cases h
      exact hattempt.trans (moves_note rfl rfl (env.sameStubs_mapCounters rfl rfl rfl))
    | noAction =>
      cases h
      exact hattempt
    | deferred =>
      cases h
      exact hattempt

theorem attempt_moves {decision outcome : Decision} (hw : env.arena.WellLinked)
    (hs : e.chain.Sound env.arena) (h : e.attempt env decision = (outcome, e', env')) :
    Moves (fun recipe => decision.recipe? = some recipe) e env e' env' := by
  unfold attempt at h
  cases ht : e.transition env with
  | mk e₁ env₁ =>
  cases ha : e₁.tryAttach env₁ decision with
  | mk outcome₁ r =>
  obtain ⟨e₂, env₂⟩ := r
  simp only [ht, ha] at h
  cases h
  refine (transition_moves hw hs ht).trans ((tryAttach_moves ha).trans ?_)
  split
  · exact moves_countFailure e₂ (.refl _)
  · exact .refl

theorem settle_moves {decision : Decision} (h : e.settle env decision = (e', env')) :
    Moves (fun recipe => decision.recipe? = some recipe) e env e' env' := by
  unfold settle at h
  cases hr : decision.recipe?.filter fun _ => e.canAttach env with
  | none =>
    rw [hr] at h
    cases h
    exact moves_countFailure e (.refl _)
  | some recipe =>
    obtain ⟨hrecipe, hcan⟩ := Option.filter_eq_some_iff.1 hr
    cases hl : e.link env recipe with
    | mk linked r =>
    obtain ⟨e₁, env₁⟩ := r
    have hmoves : Moves (fun recipe => decision.recipe? = some recipe) e env e₁ env₁ :=
      link_moves hcan hrecipe hl
    simp only [hr, hl] at h
    cases linked with
    | true =>
      cases h
      exact hmoves.trans (moves_note rfl rfl (env₁.sameStubs_mapCounters rfl rfl rfl))
    | false =>
      cases h
      exact hmoves.trans (moves_countFailure e₁ (.refl _))

theorem unlinkSignature_moves {signature : Signature} {removed : Nat}
    (h : e.unlinkSignature env signature = (removed, e', env')) : Moves recipes e env e' env' := by
  unfold unlinkSignature at h
  cases hu : e.chain.unlinkMatching env.arena env.runtime.zone
    fun s => s.kind.signature? = some signature with
  | mk removed₁ r =>
  obtain ⟨chain, arena, zone⟩ := r
  rw [hu] at h
  cases h
  exact (move_of_unlinkMatching hu).moves

end

end Entry

end InlineCache
