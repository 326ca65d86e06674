import InlineCache.Cache.Runtime
import InlineCache.Proofs.Chain.Barrier

namespace InlineCache

/-- A cache of code is honest if the code it has for a signature was compiled from that signature. -/
def CodeCache.Honest (c : CodeCache) : Prop :=
  ∀ signature code, c.get? signature = some code → code.signature = signature

namespace CodeCache

theorem honest_clear (c : CodeCache) : c.clear.Honest := by
  intro signature code h
  simp [clear, get?] at h

/-- How often compiling failed. -/
def failures (c : CodeCache) : Int := c.misses - c.compiled

/-- What was asked for is in the cache afterwards, or a failure was counted. -/
theorem getOrCompile_spec {c c' : CodeCache} {failure : Signature → Option CompileError}
    {signature : Signature} {result : Except CompileError Code}
    (h : c.getOrCompile failure signature = (result, c')) :
    (c.Honest → c'.Honest) ∧
      (∀ other code, c.get? other = some code → c'.get? other = some code) ∧
      ((∃ code, result = .ok code ∧ c'.get? signature = some code ∧ c'.failures = c.failures) ∨
        ∃ e, result = .error e ∧ c.failures < c'.failures) := by
  unfold getOrCompile at h
  split at h
  · next code hget =>
    cases h
    exact ⟨id, fun _ _ hother => hother, .inl ⟨code, rfl, hget, rfl⟩⟩
  · next hnone =>
    split at h
    · next e _ =>
      cases h
      refine ⟨id, fun _ _ hother => hother, .inr ⟨e, rfl, ?_⟩⟩
      simp only [failures]
      omega
    · cases h
      have hset (other : Signature) (hother : other ≠ signature) :
          (c.entries.set signature ⟨c.compiled + 1, signature⟩).find? other = c.get? other :=
        Assoc.find?_set_of_ne _ _ hother
      refine ⟨fun hc other code hget => ?_, fun other code hget => ?_, .inl ⟨_, rfl, ?_, ?_⟩⟩
      · change (c.entries.set signature _).find? other = some code at hget
        by_cases hother : other = signature
        · subst hother
          rw [Assoc.find?_set_self] at hget
          cases hget
          rfl
        · rw [hset other hother] at hget
          exact hc _ _ hget
      · change (c.entries.set signature _).find? other = some code
        have hother : other ≠ signature := fun heq => by
          rw [heq, hnone] at hget
          cases hget
        rw [hset other hother, hget]
      · exact Assoc.find?_set_self _ _ _
      · simp only [failures]
        omega

end CodeCache

/-- How often a stub could not be made, for lack of code or of room. -/
def AttachEnv.failures (env : AttachEnv) : Int :=
  env.runtime.codeCache.failures + env.counters.oomRecoveries

/-- Memory ran out a number of times, by the count of the unit and by that of the zone. -/
structure AttachEnv.RanOut (env env' : AttachEnv) (times : Nat) : Prop where
  recoveries : env'.counters.oomRecoveries = env.counters.oomRecoveries + times
  reports : env'.runtime.zone.oomCount = env.runtime.zone.oomCount + times

/-- What all work on stubs keeps: the settings, cached code, what a mark has reached, and the count of
failures. A lack of memory that the unit counts is reported to the zone. -/
structure AttachEnv.Follows (env env' : AttachEnv) : Prop where
  config : env'.runtime.config = env.runtime.config
  honest : env.runtime.codeCache.Honest → env'.runtime.codeCache.Honest
  codes : ∀ signature code, env.runtime.codeCache.get? signature = some code →
    env'.runtime.codeCache.get? signature = some code
  zone : env.runtime.zone.Keeps env'.runtime.zone
  failures : env.failures ≤ env'.failures
  ranOut : ∃ times, env.RanOut env' times

/-- Two states to attach in with the same counts of stubs that entries gained and lost. -/
structure AttachEnv.SameTally (env env' : AttachEnv) : Prop extends env.Follows env' where
  attached : env'.counters.stubsAttached = env.counters.stubsAttached
  discarded : env'.counters.stubsDiscarded = env.counters.stubsDiscarded

/-- Two states to attach in that differ at most in what is no matter of stubs: in the collector's zone,
the cached code, and counts of other events. -/
structure AttachEnv.SameStubs (env env' : AttachEnv) : Prop extends env.SameTally env' where
  arena : env'.arena = env.arena

namespace AttachEnv

theorem RanOut.refl (env : AttachEnv) : env.RanOut env 0 := ⟨rfl, rfl⟩

theorem RanOut.trans {env₁ env₂ env₃ : AttachEnv} {n k : Nat} (h : env₁.RanOut env₂ n)
    (h' : env₂.RanOut env₃ k) : env₁.RanOut env₃ (n + k) :=
  ⟨by rw [h'.recoveries, h.recoveries, Nat.add_assoc], by rw [h'.reports, h.reports, Nat.add_assoc]⟩

theorem Follows.refl (env : AttachEnv) : env.Follows env :=
  ⟨rfl, id, fun _ _ h => h, .refl _, Int.le_refl _, 0, .refl env⟩

theorem Follows.trans {env₁ env₂ env₃ : AttachEnv} (h : env₁.Follows env₂)
    (h' : env₂.Follows env₃) : env₁.Follows env₃ := by
  obtain ⟨n, hn⟩ := h.ranOut
  obtain ⟨k, hk⟩ := h'.ranOut
  exact ⟨h'.config.trans h.config, fun hc => h'.honest (h.honest hc),
    fun signature code hget => h'.codes signature code (h.codes signature code hget),
    h.zone.trans h'.zone, Int.le_trans h.failures h'.failures, n + k, hn.trans hk⟩

/-- Where nothing but the collector's zone changes in the runtime, a mark goes on, and memory does not run
out. -/
theorem Follows.of_zone {env env' : AttachEnv} {zone : Zone}
    (hruntime : env'.runtime = { env.runtime with zone := zone }) (hzone : env.runtime.zone.Keeps zone)
    (hoom : env'.counters.oomRecoveries = env.counters.oomRecoveries)
    (hcount : zone.oomCount = env.runtime.zone.oomCount) : env.Follows env' := by
  refine ⟨by rw [hruntime], fun hc => by rw [hruntime]; exact hc,
    fun _ _ hget => by rw [hruntime]; exact hget, by rw [hruntime]; exact hzone, ?_,
    0, hoom, by rw [hruntime]; exact hcount⟩
  simp only [AttachEnv.failures, hruntime, hoom]
  exact Int.le_refl _

/-- Where the runtime stays, and the count of failures. -/
theorem Follows.of_runtime {env env' : AttachEnv} (hruntime : env'.runtime = env.runtime)
    (hoom : env'.counters.oomRecoveries = env.counters.oomRecoveries) : env.Follows env' :=
  .of_zone hruntime (.refl _) hoom rfl

theorem SameTally.refl (env : AttachEnv) : env.SameTally env := ⟨.refl env, rfl, rfl⟩

theorem SameTally.trans {env₁ env₂ env₃ : AttachEnv} (h : env₁.SameTally env₂)
    (h' : env₂.SameTally env₃) : env₁.SameTally env₃ :=
  ⟨h.toFollows.trans h'.toFollows, h'.attached.trans h.attached, h'.discarded.trans h.discarded⟩

theorem SameStubs.refl (env : AttachEnv) : env.SameStubs env := ⟨.refl env, rfl⟩

theorem SameStubs.trans {env₁ env₂ env₃ : AttachEnv} (h : env₁.SameStubs env₂)
    (h' : env₂.SameStubs env₃) : env₁.SameStubs env₃ :=
  ⟨h.toSameTally.trans h'.toSameTally, h'.arena.trans h.arena⟩

/-- Counts of other events are no matter of stubs. -/
theorem sameStubs_mapCounters (env : AttachEnv) {f : Counters → Counters}
    (hattached : (f env.counters).stubsAttached = env.counters.stubsAttached)
    (hdiscarded : (f env.counters).stubsDiscarded = env.counters.stubsDiscarded)
    (hoom : (f env.counters).oomRecoveries = env.counters.oomRecoveries) :
    env.SameStubs (env.mapCounters f) :=
  ⟨⟨.of_runtime rfl hoom, hattached, hdiscarded⟩, rfl⟩

/-- A stub is built from its recipe and from code that is in the cache then, or a failure is counted;
and nothing but the cached code changes. -/
theorem build_spec {env env' : AttachEnv} {recipe : Recipe} {result : Except CacheError Stub}
    (h : env.build recipe = (result, env')) :
    env.SameStubs env' ∧ env.RanOut env' 0 ∧
      ((∃ code, result = .ok (recipe.toStub code) ∧
          env'.runtime.codeCache.get? recipe.signature = some code ∧ env'.failures = env.failures) ∨
        ∃ e, result = .error e ∧ env.failures < env'.failures) := by
  unfold build Runtime.build at h
  cases hc : env.runtime.codeCache.getOrCompile
    (env.runtime.compiler env.runtime.codeCache.misses) recipe.signature with
  | mk compiled codeCache =>
  obtain ⟨hhonest, hcodes, hresult⟩ := CodeCache.getOrCompile_spec hc
  rw [hc] at h
  cases h
  have hle : env.runtime.codeCache.failures ≤ codeCache.failures := by
    rcases hresult with ⟨_, _, _, heq⟩ | ⟨_, _, hlt⟩ <;> omega
  refine ⟨⟨⟨⟨rfl, hhonest, hcodes, .refl _, ?_, 0, rfl, rfl⟩, rfl, rfl⟩, rfl⟩, ⟨rfl, rfl⟩, ?_⟩
  · simp only [failures]
    omega
  · rcases hresult with ⟨code, rfl, hget, heq⟩ | ⟨e, rfl, hlt⟩
    · exact .inl ⟨code, rfl, hget, congrArg (· + (env.counters.oomRecoveries : Int)) heq⟩
    · refine .inr ⟨_, rfl, ?_⟩
      simp only [failures]
      omega

/-- A lack of memory is counted once, by the unit and by the zone, and other failures are not counted. -/
theorem ranOut_reportFailure (env : AttachEnv) (e : CacheError) :
    env.RanOut (env.reportFailure e) e.isOutOfMemory.toNat := by
  unfold reportFailure
  cases e.isOutOfMemory <;> exact ⟨rfl, rfl⟩

theorem sameStubs_reportFailure (env : AttachEnv) (e : CacheError) :
    env.SameStubs (env.reportFailure e) := by
  have hran := env.ranOut_reportFailure e
  unfold reportFailure at hran ⊢
  split
  · next he =>
    rw [if_pos he] at hran
    refine ⟨⟨⟨rfl, id, fun _ _ h => h, Zone.keeps_reportOom _, ?_, _, hran⟩, rfl, rfl⟩, rfl⟩
    simp only [failures]
    omega
  · exact .refl env

/-- A lack of room is counted as a failure. -/
theorem failures_reportFailure_lt (env : AttachEnv) {e : CacheError} (he : e.isOutOfMemory = true) :
    env.failures < (env.reportFailure e).failures := by
  simp only [reportFailure, if_pos he, failures]
  omega

theorem insert_spec {env env' : AttachEnv} {c c' : Chain} {s : Stub} {id : StubId}
    (h : env.insert c s = (.ok id, c', env')) :
    ∃ arena, c.insert env.arena s = (.ok id, c', arena) ∧ env' = { env with arena := arena } := by
  simp only [insert, Prod.mk.injEq] at h
  obtain ⟨hid, rfl, rfl⟩ := h
  exact ⟨_, Prod.ext hid rfl, rfl⟩

/-- Room is all that adding a stub can lack, and where it lacks nothing is changed. -/
theorem of_insert_eq_error {env env' : AttachEnv} {c c' : Chain} {s : Stub} {e : CacheError}
    (h : env.insert c s = (.error e, c', env')) : c' = c ∧ env' = env ∧ e.isOutOfMemory = true := by
  simp only [insert, Prod.mk.injEq] at h
  obtain ⟨herror, rfl, rfl⟩ := h
  obtain ⟨hchain, harena, hroom⟩ := Chain.of_insert_eq_error (Prod.ext herror rfl)
  exact ⟨hchain, by rw [harena], hroom⟩

end AttachEnv

end InlineCache
