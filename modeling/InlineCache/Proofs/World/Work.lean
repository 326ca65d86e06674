import InlineCache.Cache.Dispatch
import InlineCache.Proofs.Bench.Move
import InlineCache.Proofs.Heap.Seen

namespace InlineCache.World

variable {σ : Type}

/-- Whether there are caches at a place. -/
def HasCache (w : World σ) (c : CacheId) : Prop := ∃ cache, w.caches.get? c = some cache

/-- What work on the caches at a place reads and changes. -/
def bench (w : World σ) (c : CacheId) : Bench := ⟨w.heap, w.runtime, w.cache c⟩

/-- Takes over the outcome of work on the caches at a place. -/
def putBench (w : World σ) (c : CacheId) (b : Bench) : World σ :=
  { w with heap := b.heap, runtime := b.runtime, caches := w.caches.modify c fun _ => b.cache }

/-- `w'` is what became of `w` by work on the caches at one place. -/
def Works (R : Rules) (resets turns : Prop) (c : CacheId) (w w' : World σ) : Prop :=
  ∃ b, Bench.Moves R resets turns (w.bench c) b ∧ w' = w.putBench c b

section

variable {R : Rules} {resets turns : Prop} {c : CacheId} {w w' w'' : World σ}

theorem cache_eq_of_get? {cache : UnitCache} (h : w.caches.get? c = some cache) :
    w.cache c = cache := by
  rw [World.cache, Table.get, h, Option.getD_some]

theorem get?_putBench_self (hc : w.HasCache c) (b : Bench) :
    (w.putBench c b).caches.get? c = some b.cache := by
  obtain ⟨cache, h⟩ := hc
  rw [putBench, Table.get?_modify_self, h, Option.map_some]

theorem get?_putBench_of_ne {other : CacheId} (hne : other ≠ c) (b : Bench) :
    (w.putBench c b).caches.get? other = w.caches.get? other :=
  Table.get?_modify_of_ne _ _ hne

@[simp] theorem bench_putBench (hc : w.HasCache c) (b : Bench) : (w.putBench c b).bench c = b := by
  rw [bench, cache_eq_of_get? (get?_putBench_self hc b)]
  rfl

@[simp] theorem putBench_bench (w : World σ) (c : CacheId) : w.putBench c (w.bench c) = w := by
  have hcaches : (w.caches.modify c fun _ => w.cache c) = w.caches :=
    Table.modify_self _ fun cache h => cache_eq_of_get? h
  rw [putBench, bench, hcaches]

@[simp] theorem putBench_putBench (w : World σ) (c : CacheId) (b b' : Bench) :
    (w.putBench c b).putBench c b' = w.putBench c b' := by
  simp only [putBench, Table.modify_modify]
  rfl

private theorem HasCache.putBench (hc : w.HasCache c) (b : Bench) : (w.putBench c b).HasCache c :=
  ⟨_, get?_putBench_self hc b⟩

theorem hasCache_of_lt {index : Nat} (h : index < (w.cache c).entries.size) : w.HasCache c := by
  cases hget : w.caches.get? c with
  | some cache => exact ⟨cache, hget⟩
  | none =>
    rw [World.cache, Table.get, hget] at h
    exact absurd h (Nat.not_lt_zero _)

theorem Works.refl (w : World σ) (c : CacheId) : Works R resets turns c w w :=
  ⟨w.bench c, .refl, (putBench_bench w c).symm⟩

theorem Works.trans (hc : w.HasCache c) (h : Works R resets turns c w w')
    (h' : Works R resets turns c w' w'') : Works R resets turns c w w'' := by
  obtain ⟨b, hmoves, rfl⟩ := h
  obtain ⟨b', hmoves', rfl⟩ := h'
  rw [bench_putBench hc] at hmoves'
  exact ⟨b', hmoves.trans hmoves', putBench_putBench w c b b'⟩

theorem Works.mono {resets' turns' : Prop} (h : Works R resets turns c w w')
    (hresets : resets → resets') (hturns : turns → turns') : Works R resets' turns' c w w' := by
  obtain ⟨b, hmoves, rfl⟩ := h
  exact ⟨b, hmoves.mono (.refl R) hresets hturns, rfl⟩

theorem Works.loosen {R' : Rules} (hR : R.Tightens R') (h : Works R resets turns c w w') :
    Works R' resets turns c w w' := by
  obtain ⟨b, hmoves, rfl⟩ := h
  exact ⟨b, hmoves.mono hR id id, rfl⟩

theorem Works.hasCache (hc : w.HasCache c) (h : Works R resets turns c w w') : w'.HasCache c := by
  obtain ⟨b, -, rfl⟩ := h
  exact hc.putBench b

theorem Works.linked (hc : w.HasCache c) (hl : (w.cache c).Linked)
    (h : Works R resets turns c w w') : (w'.cache c).Linked ∧ (w.cache c).Continues (w'.cache c) := by
  obtain ⟨b, hmoves, rfl⟩ := h
  rw [cache_eq_of_get? (get?_putBench_self hc b)]
  exact hmoves.linked hl

/-- Work on caches leaves alone what is no matter of theirs. -/
theorem Works.same (h : Works R resets turns c w w') :
    w'.bridges = w.bridges ∧ w'.unitsMade = w.unitsMade ∧ w'.host = w.host ∧
      ∀ other, other ≠ c → w'.caches.get? other = w.caches.get? other := by
  obtain ⟨b, -, rfl⟩ := h
  exact ⟨rfl, rfl, rfl, fun other hne => get?_putBench_of_ne hne b⟩

theorem Works.follows (hc : w.HasCache c) (h : Works R resets turns c w w') :
    (w.attachEnv c).Follows (w'.attachEnv c) := by
  obtain ⟨b, hmoves, rfl⟩ := h
  have hb := hmoves.follows
  rwa [← bench_putBench hc b] at hb

/-- The settings are never changed by work. -/
theorem Works.config (h : Works R resets turns c w w') : w'.runtime.config = w.runtime.config := by
  obtain ⟨b, hmoves, rfl⟩ := h
  exact hmoves.config

theorem setAttachEnv_eq (w : World σ) (c : CacheId) (env : AttachEnv) :
    w.setAttachEnv c env = w.putBench c ((w.bench c).setEnv env) := by
  have hcaches : (w.caches.modify c fun cache =>
      { cache with arena := env.arena, counters := env.counters }) =
      w.caches.modify c fun _ =>
        { w.cache c with arena := env.arena, counters := env.counters } :=
    Table.modify_congr _ fun cache h => by rw [cache_eq_of_get? h]
  rw [setAttachEnv, mapCache, hcaches]
  rfl

theorem mapCache_eq (w : World σ) (c : CacheId) (f : UnitCache → UnitCache) :
    w.mapCache c f = w.putBench c { w.bench c with cache := f (w.cache c) } := by
  have hcaches : w.caches.modify c f = w.caches.modify c fun _ => f (w.cache c) :=
    Table.modify_congr _ fun cache h => by rw [cache_eq_of_get? h]
  rw [mapCache, hcaches]
  rfl

theorem onEntry_eq (hc : w.HasCache c) {α : Type} {index : Nat}
    {f : Entry → AttachEnv → α × Entry × AttachEnv} {a : α} {e : Entry} {env : AttachEnv}
    (h : f ((w.cache c).entry index) (w.attachEnv c) = (a, e, env)) :
    w.onEntry c index f = (a, w.putBench c ((w.bench c).setEntry index e env)) := by
  rw [onEntry, h]
  dsimp only
  rw [setAttachEnv_eq, mapCache_eq, bench_putBench hc, putBench_putBench,
    cache_eq_of_get? (get?_putBench_self hc _)]
  rfl

theorem mapCounters_eq (w : World σ) (c : CacheId) (f : Counters → Counters) :
    w.mapCounters c f = w.putBench c ((w.bench c).setEnv ((w.attachEnv c).mapCounters f)) := by
  rw [mapCounters, mapCache_eq]
  rfl

theorem mapEntry_eq (w : World σ) (c : CacheId) (index : Nat) (f : Entry → Entry) :
    w.mapEntry c index f =
      w.putBench c ((w.bench c).setEntry index (f ((w.cache c).entry index)) (w.attachEnv c)) := by
  rw [mapEntry, mapCache_eq]
  rfl

end

end InlineCache.World
