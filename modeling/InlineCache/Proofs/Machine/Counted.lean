import InlineCache.Proofs.Bench.Counted
import InlineCache.Proofs.Machine.Linked

namespace InlineCache

namespace World

variable {σ : Type} {R : Rules} {purged : CacheId → Prop} {w w' : World σ}

/-- The counts of all units are right. The limit on stubs is one that the count of an entry can hold. -/
structure Counted (w : World σ) : Prop where
  cap_le : w.runtime.config.maxStubs ≤ 255
  caches : ∀ (c : CacheId) (cache : UnitCache), w.caches.get? c = some cache →
    cache.Counted w.runtime.config.maxStubs

theorem Change.counted (hl : w.Linked) (hw : w.Counted) (h : Change R purged w w') :
    w'.Counted ∧ w'.runtime.config = w.runtime.config := by
  cases h with
  | @work _ c hc hworks =>
    obtain ⟨b, hmoves, rfl⟩ := hworks
    obtain ⟨cache, hget⟩ := hc
    have hbench : (w.bench c).cache = cache := cache_eq_of_get? hget
    have hbefore : (w.bench c).cache.Counted (w.bench c).runtime.config.maxStubs := by
      rw [hbench]
      exact hw.caches c cache hget
    have hlinked : (w.bench c).cache.Linked := by
      rw [hbench]
      exact (hl c cache hget).1
    obtain ⟨hcounted, hconfig⟩ := hmoves.counted hlinked hw.cap_le hbefore
    refine ⟨⟨?_, fun d cache' hget' => ?_⟩, hconfig⟩
    · change b.runtime.config.maxStubs ≤ 255
      rw [hconfig]
      exact hw.cap_le
    · by_cases hd : d = c
      · subst hd
        rw [get?_putBench_self ⟨cache, hget⟩] at hget'
        cases hget'
        exact hcounted
      · rw [get?_putBench_of_ne hd] at hget'
        change cache'.Counted b.runtime.config.maxStubs
        rw [hconfig]
        exact hw.caches d cache' hget'
  | outside hcaches _ hconfig _ =>
    refine ⟨⟨by rw [hconfig]; exact hw.cap_le, fun c cache hget => ?_⟩, hconfig⟩
    rw [hcaches] at hget
    rw [hconfig]
    exact hw.caches c cache hget
  | @addCache unit cache hcreate =>
    refine ⟨⟨hw.cap_le, fun c cache' hget => ?_⟩, rfl⟩
    by_cases hc : c = w.caches.next
    · subst hc
      rw [Table.get?_add_next] at hget
      cases hget
      exact UnitCache.counted_create _ hcreate
    · rw [Table.get?_add_of_ne _ _ hc] at hget
      exact hw.caches c cache' hget

/-- No entry of a unit is less far in the second state. -/
def NotBack (c : CacheId) (w w' : World σ) : Prop :=
  ∀ cache, w.caches.get? c = some cache → ∃ cache', w'.caches.get? c = some cache' ∧
    cache'.entries.size = cache.entries.size ∧ ∀ index < cache.entries.size,
      (cache.entry index).state.mode.rank ≤ (cache'.entry index).state.mode.rank

theorem NotBack.refl (c : CacheId) (w : World σ) : NotBack c w w :=
  fun cache hget => ⟨cache, hget, rfl, fun _ _ => Nat.le_refl _⟩

theorem NotBack.trans {c : CacheId} {w'' : World σ} (h : NotBack c w w') (h' : NotBack c w' w'') :
    NotBack c w w'' := by
  intro cache hget
  obtain ⟨cache', hget', hsize, hle⟩ := h cache hget
  obtain ⟨cache'', hget'', hsize', hle'⟩ := h' cache' hget'
  refine ⟨cache'', hget'', hsize'.trans hsize, fun index hin => ?_⟩
  exact Nat.le_trans (hle index hin) (hle' index (by rw [hsize]; exact hin))

private theorem Change.notBack {c : CacheId} (hl : w.Linked) (hpurged : ¬ purged c)
    (h : Change R purged w w') : NotBack c w w' := by
  obtain ⟨-, hcontinues⟩ := h.linked hl
  intro cache hget
  obtain ⟨cache', hget', hsame⟩ := hcontinues c cache hget
  refine ⟨cache', hget', hsame.size_entries, fun index hin => ?_⟩
  cases h with
  | @work _ d hd hworks =>
    obtain ⟨b, hmoves, rfl⟩ := hworks
    by_cases hcd : c = d
    · subst hcd
      rw [get?_putBench_self ⟨cache, hget⟩] at hget'
      cases hget'
      have hcache : w.cache c = cache := cache_eq_of_get? hget
      have hle := hmoves.rank_le hpurged (hcache.symm ▸ hin : index < (w.cache c).entries.size)
      rw [← hcache]
      exact hle
    · rw [get?_putBench_of_ne hcd, hget] at hget'
      cases hget'
      exact Nat.le_refl _
  | outside hcaches _ _ _ =>
    rw [hcaches, hget] at hget'
    cases hget'
    exact Nat.le_refl _
  | addCache hcreate =>
    have hc : c ≠ w.caches.next := fun hc => by
      rw [hc, Table.get?_next] at hget
      cases hget
    rw [Table.get?_add_of_ne _ _ hc, hget] at hget'
    cases hget'
    exact Nat.le_refl _

end World

namespace Machine

variable {σ : Type} {m : Machine σ}

theorem run_counted (hm : m.Linked) (hcounted : m.world.Counted) (actions : List (Action σ)) :
    (m.run actions).world.Counted ∧
      (m.run actions).world.runtime.config = m.world.runtime.config := by
  refine (List.foldlRecOn (motive := fun m' => m'.Linked ∧ m'.world.Counted ∧
    m'.world.runtime.config = m.world.runtime.config) actions step ⟨hm, hcounted, rfl⟩ ?_).2
  rintro m' ⟨hm', hcounted', hconfig⟩ a -
  obtain ⟨hcounted'', hconfig'⟩ := (step_change_open hm' a).counted hm'.world hcounted'
  exact ⟨(step_linked_open hm' a).1, hcounted'', hconfig'.trans hconfig⟩

/-- While a unit is not purged, none of its entries goes back. -/
theorem run_notBack {c : CacheId} (hm : m.Linked) {actions : List (Action σ)}
    (hpurge : ∀ a ∈ actions, a ≠ .purge c) : World.NotBack c m.world (m.run actions).world := by
  refine (List.foldlRecOn (motive := fun m' => m'.Linked ∧ World.NotBack c m.world m'.world) actions step
    ⟨hm, .refl c _⟩ ?_).2
  rintro m' ⟨hm', hnot⟩ a ha
  exact ⟨(step_linked_open hm' a).1, hnot.trans ((step_change_open hm' a).notBack hm'.world (hpurge a ha))⟩

private theorem maxStubs_withMaxStubs (config : CacheConfig) (cap : Nat) :
    1 ≤ (config.withMaxStubs cap).maxStubs ∧ (config.withMaxStubs cap).maxStubs ≤ 64 := by
  simp only [CacheConfig.withMaxStubs, CacheConfig.greatestMaxStubs]
  omega

/-- In every reachable state the entries count their stubs, of which there are no more than the limit, and
an entry that gave specialization up has none. As long as the unit is not purged, no entry goes back, so
one that gave up stays without stubs. -/
theorem stubs_counted (config : CacheConfig) (cap : Nat) (compiler : Compiler) (host : σ)
    (actions : List (Action σ)) {c : CacheId} {cache : UnitCache}
    (hget : ((initial (config.withMaxStubs cap) compiler host).run actions).world.caches.get? c =
      some cache) :
    (∀ index < cache.entries.size,
      (cache.entry index).state.stubs.toNat = ((cache.entry index).chain.stubIds cache.arena).length ∧
      (cache.entry index).state.stubs.toNat ≤ (config.withMaxStubs cap).maxStubs ∧
      ((cache.entry index).state.mode.isTerminal = true →
        (cache.entry index).chain.isFallbackOnly = true)) ∧
    (cache.entries.toList.map (·.state.stubs.toNat)).sum + cache.counters.stubsDiscarded =
      cache.counters.stubsAttached ∧
    ∀ later : List (Action σ), (∀ a ∈ later, a ≠ .purge c) → ∃ cache',
      ((initial (config.withMaxStubs cap) compiler host).run (actions ++ later)).world.caches.get? c =
        some cache' ∧
      ∀ index < cache.entries.size,
        (cache.entry index).state.mode.rank ≤ (cache'.entry index).state.mode.rank ∧
        ((cache.entry index).state.mode.isTerminal = true →
          (cache'.entry index).chain.isFallbackOnly = true) := by
  have hinitial : (initial (config.withMaxStubs cap) compiler host).world.Counted :=
    ⟨Nat.le_trans (maxStubs_withMaxStubs config cap).2 (by decide), fun c cache h => by
      cases c <;> cases h⟩
  have hlinked := initial_linked (config.withMaxStubs cap) compiler host
  obtain ⟨hm, -⟩ := run_linked hlinked actions
  obtain ⟨hworld, hconfig⟩ := run_counted hlinked hinitial actions
  have hcap : ((initial (config.withMaxStubs cap) compiler host).run
      actions).world.runtime.config.maxStubs = (config.withMaxStubs cap).maxStubs :=
    congrArg CacheConfig.maxStubs hconfig
  obtain ⟨hentry, htotal⟩ := hworld.caches c cache hget
  refine ⟨fun index hin => ?_, htotal, fun later hpurge => ?_⟩
  · obtain ⟨hstubs, hle, hterminal⟩ := hentry index hin
    have hsound := (hm.world c cache hget).1.sound (UnitCache.chain?_main hin)
    rw [hcap] at hle
    exact ⟨hstubs, by rw [hstubs]; exact hle, fun hmode =>
      (Chain.isFallbackOnly_iff hsound).2 (hterminal hmode)⟩
  · obtain ⟨cache', hget', hsize, hrank⟩ := run_notBack hm hpurge cache hget
    obtain ⟨hm', -⟩ := run_linked hm later
    obtain ⟨hworld', -⟩ := run_counted hm hworld later
    refine ⟨cache', by rw [run_append]; exact hget', fun index hin => ⟨hrank index hin, fun hmode => ?_⟩⟩
    have hin' : index < cache'.entries.size := by rw [hsize]; exact hin
    have hmode' : (cache'.entry index).state.mode.isTerminal = true :=
      (Mode.isTerminal_iff_rank _).2
        (Nat.le_trans ((Mode.isTerminal_iff_rank _).1 hmode) (hrank index hin))
    exact (Chain.isFallbackOnly_iff ((hm'.world c cache' hget').1.sound (UnitCache.chain?_main hin'))).2
      (((hworld'.caches c cache' hget').entry index hin').terminal hmode')

/-- With room for one stub, operands of two types make an entry give up, and a third finds it without
stubs. -/
theorem given_up_entry_stays_without_stubs :
    let uses : List (Action Unit) :=
      [.addCache ⟨1, "f", 0, false, 0, #[.typeOf], #[]⟩, .use 1 ⟨1, 0⟩ (.unary (.int32 5)),
        .use 1 ⟨1, 0⟩ (.unary .null)]
    ∃ cache, ((initial (CacheConfig.standard.withMaxStubs 1) (fun _ _ => none) ()).run
        uses).world.caches.get? 1 = some cache ∧
      (cache.entry 0).state.mode = .megamorphic ∧
      ∃ cache', ((initial (CacheConfig.standard.withMaxStubs 1) (fun _ _ => none) ()).run
          (uses ++ [.use 1 ⟨1, 0⟩ (.unary .undefined)])).world.caches.get? 1 = some cache' ∧
        (cache'.entry 0).chain.isFallbackOnly = true := by
  intro uses
  have hentry : (((initial (CacheConfig.standard.withMaxStubs 1) (fun _ _ => none) ()).run
      uses).world.caches.get? 1).map (fun cache =>
        (cache.entries.size, (cache.entry 0).state.mode)) = some (1, .megamorphic) := by decide +kernel
  obtain ⟨cache, hget, hentry⟩ := Option.map_eq_some_iff.1 hentry
  obtain ⟨hsize, hmode⟩ := Prod.mk.inj hentry
  obtain ⟨-, -, hlater⟩ := stubs_counted .standard 1 (fun _ _ => none) () uses hget
  obtain ⟨cache', hget', hentries⟩ := hlater [.use 1 ⟨1, 0⟩ (.unary .undefined)] (by simp)
  obtain ⟨-, honly⟩ := hentries 0 (by rw [hsize]; exact Nat.one_pos)
  exact ⟨cache, hget, hmode, cache', hget', honly (by rw [hmode]; rfl)⟩

end Machine

end InlineCache
