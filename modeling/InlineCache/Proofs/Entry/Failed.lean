import InlineCache.Proofs.Entry.Move

namespace InlineCache

/-- The error of a result, if there is one. -/
def CacheError.of? {α : Type} : Except CacheError α → Option CacheError
  | .error e => some e
  | .ok _ => none

/-- How often memory ran out in an attempt that may have failed. -/
def CacheError.shortage : Option CacheError → Nat
  | some e => e.isOutOfMemory.toNat
  | none => 0

namespace Entry

/-- Why the stub of a recipe cannot be linked, if it cannot. -/
def linkError? (e : Entry) (env : AttachEnv) (recipe : Recipe) : Option CacheError :=
  match env.build recipe with
  | (.error err, _) => some err
  | (.ok stub, env) => CacheError.of? (env.insert e.chain stub).1

/-- Why an attempt fails to carry out a decision, once the mode has changed. Nothing fails that is not
attempted. -/
def attemptError? (e : Entry) (env : AttachEnv) (decision : Decision) : Option CacheError :=
  (decision.recipe?.filter fun _ => env.runtime.config.enabled && e.canAttach env).bind
    (e.linkError? env)

/-- Why an attempt that was deferred fails. -/
def settleError? (e : Entry) (env : AttachEnv) (decision : Decision) : Option CacheError :=
  (decision.recipe?.filter fun _ => e.canAttach env).bind (e.linkError? env)

/-- What becomes of an entry, and of what attaching works on, by an attempt that may have failed: memory
ran out where the failure says so, and the stubs are the same after a failure. -/
structure Tried (failure : Option CacheError) (e : Entry) (env : AttachEnv) (e' : Entry)
    (env' : AttachEnv) : Prop where
  ranOut : env.RanOut env' (CacheError.shortage failure)
  monitor : e'.monitor = e.monitor
  unharmed : failure ≠ none → e'.chain = e.chain ∧ e'.state.stubs = e.state.stubs ∧ env'.arena = env.arena

variable {failure : Option CacheError} {e e' : Entry} {env env' : AttachEnv}

/-- Attempts and failures are counted, too. -/
theorem Tried.note (h : Tried failure e env e' env') {state : AttachState}
    (hstubs : state.stubs = e'.state.stubs) : Tried failure e env { e' with state := state } env' :=
  ⟨h.ranOut, h.monitor, fun hfailed => ⟨(h.unharmed hfailed).1, hstubs.trans (h.unharmed hfailed).2.1,
    (h.unharmed hfailed).2.2⟩⟩

private theorem tried_none (h : env.RanOut env' 0) (hmonitor : e'.monitor = e.monitor) :
    Tried none e env e' env' :=
  ⟨h, hmonitor, fun hfailed => absurd rfl hfailed⟩

private theorem tried_failed {err : CacheError} (hran : env.RanOut env' 0)
    (harena : env'.arena = env.arena) : Tried (some err) e env e (env'.reportFailure err) where
  ranOut := by
    have hreport := hran.trans (env'.ranOut_reportFailure err)
    rwa [Nat.zero_add] at hreport
  monitor := rfl
  unharmed _ := ⟨rfl, rfl, (env'.sameStubs_reportFailure err).arena.trans harena⟩

private theorem link_tried {recipe : Recipe} {linked : Bool}
    (h : e.link env recipe = (linked, e', env')) : Tried (e.linkError? env recipe) e env e' env' ∧
      (linked = false ↔ e.linkError? env recipe ≠ none) := by
  unfold link at h
  unfold linkError?
  cases hb : env.build recipe with
  | mk result env₁ =>
  obtain ⟨hsame, hran, -⟩ := AttachEnv.build_spec hb
  rw [hb] at h
  cases result with
  | error err =>
    cases h
    exact ⟨tried_failed hran hsame.arena, by simp⟩
  | ok stub =>
    dsimp only at h ⊢
    split at h
    · next err _ _ hi =>
      cases h
      obtain ⟨rfl, rfl, -⟩ := AttachEnv.of_insert_eq_error hi
      rw [hi]
      exact ⟨tried_failed hran hsame.arena, by simp [CacheError.of?]⟩
    · next hi =>
      cases h
      rw [hi]
      obtain ⟨arena, -, rfl⟩ := AttachEnv.insert_spec hi
      exact ⟨tried_none ⟨hran.recoveries, hran.reports⟩ rfl, by simp [CacheError.of?]⟩

private theorem tryAttach_tried {decision outcome : Decision}
    (h : e.tryAttach env decision = (outcome, e', env')) :
    Tried (e.attemptError? env decision) e env e' env' := by
  unfold tryAttach at h
  unfold attemptError?
  split at h
  · next hforbidden =>
    cases h
    have hnone : (decision.recipe?.filter fun _ => env.runtime.config.enabled && e.canAttach env) =
        none := by
      have hno : (env.runtime.config.enabled && e.canAttach env) = false := by
        rw [← Bool.not_eq_true', Bool.not_and]
        exact hforbidden
      simp [hno]
    rw [hnone]
    exact tried_none (.refl env) rfl
  · next hallowed =>
    have hyes : (env.runtime.config.enabled && e.canAttach env) = true := by
      rw [← Bool.not_eq_false', Bool.not_and]
      exact Bool.eq_false_iff.2 hallowed
    cases decision with
    | attach recipe =>
      cases hl : Entry.link { e with state := e.state.countAttempt } env recipe with
      | mk linked r =>
      obtain ⟨e₁, env₁⟩ := r
      simp only [hl] at h
      cases h
      have htried := (link_tried hl).1
      simp only [Decision.recipe?, hyes, Option.filter_some, if_true, Option.bind_some]
      exact ⟨htried.ranOut, htried.monitor, htried.unharmed⟩
    | temporarilyUnoptimizable =>
      cases h
      exact tried_none ⟨rfl, rfl⟩ rfl
    | noAction | deferred =>
      cases h
      exact tried_none (.refl env) rfl

/-- To change the mode asks for no memory, even if stubs have to go. -/
theorem ranOut_transition (h : e.transition env = (e', env')) : env.RanOut env' 0 := by
  unfold transition at h
  split at h
  · cases h
    exact .refl env
  · next state _ =>
    unfold discard AttachEnv.discardAll Chain.discardAll at h
    cases hu : e.chain.unlinkMatching env.arena env.runtime.zone fun _ => true with
    | mk removed r =>
    simp only [hu] at h
    cases h
    refine ⟨?_, Chain.oomCount_unlinkFrom hu⟩
    cases state.mode <;> rfl

/-- An attempt, from the change of mode on. A stub is compiled first, then room is found for it, and
only then it is linked; so an attempt that fails leaves the stubs of the entry alone. -/
theorem attempt_tried {decision outcome : Decision} {e₁ : Entry} {env₁ : AttachEnv}
    (ht : e.transition env = (e₁, env₁)) (h : e.attempt env decision = (outcome, e', env')) :
    Tried (e₁.attemptError? env₁ decision) e₁ env₁ e' env' := by
  unfold attempt at h
  cases ha : e₁.tryAttach env₁ decision with
  | mk outcome₁ r =>
  obtain ⟨e₂, env₂⟩ := r
  simp only [ht, ha] at h
  cases h
  have htried := tryAttach_tried ha
  split
  · exact htried.note rfl
  · exact htried

theorem settle_tried {decision : Decision} (h : e.settle env decision = (e', env')) :
    Tried (e.settleError? env decision) e env e' env' := by
  unfold settle at h
  unfold settleError?
  cases hr : decision.recipe?.filter fun _ => e.canAttach env with
  | none =>
    rw [hr] at h
    cases h
    exact (tried_none (.refl env) rfl).note rfl
  | some recipe =>
    cases hl : e.link env recipe with
    | mk linked r =>
    obtain ⟨e₁, env₁⟩ := r
    obtain ⟨htried, hlinked⟩ := link_tried hl
    simp only [hr, hl] at h
    rw [Option.bind_some]
    cases linked with
    | false =>
      cases h
      exact htried.note rfl
    | true =>
      cases h
      have hnone : e.linkError? env recipe = none := by simpa using hlinked
      rw [hnone] at htried ⊢
      exact tried_none ⟨htried.ranOut.recoveries, htried.ranOut.reports⟩ htried.monitor

end Entry

end InlineCache
