import InlineCache.Proofs.Request.Kind

namespace InlineCache

namespace Chain.Sound

variable {c : Chain} {a : Arena}

private theorem nodup (hs : c.Sound a) (hw : a.WellLinked) : (c.stubIds a).Nodup := hs.path.nodup hw

private theorem last_eq_none_iff (hs : c.Sound a) : c.last = none ↔ c.isFallbackOnly = true := by
  rw [hs.last_eq, List.getLast?_eq_none_iff, isFallbackOnly_iff hs]

end Chain.Sound

namespace Machine

variable {σ : Type} {R : Rules} {valid : Heap → Prop} {m : Machine σ}

theorem initial_linked (config : CacheConfig) (compiler : Compiler) (host : σ) :
    (initial config compiler host).Linked where
  world := by
    intro c cache hget
    cases c <;> cases hget
  calls := by
    intro p hp
    cases hp

/-- A call that waits after an action was made by it or waited before. -/
theorem mem_calls_step {a : Action σ} {p : Pending} (hp : p ∈ (m.step a).calls) :
    p ∈ m.calls ∨ ∃ c id ops w, a = .use c id ops ∧ World.begin c id ops m.world = .called p w := by
  cases a with
  | use c id ops =>
    simp only [step] at hp
    cases hbegin : World.begin c id ops m.world with
    | answered result w =>
      rw [hbegin] at hp
      exact .inl hp
    | called q w =>
      rw [hbegin] at hp
      rcases List.mem_cons.1 hp with rfl | hp
      · exact .inr ⟨c, id, ops, w, rfl, hbegin⟩
      · exact .inl hp
  | ret result =>
    cases hcalls : m.calls with
    | nil =>
      simp only [step, hcalls] at hp
      exact .inl hp
    | cons q rest =>
      simp only [step, hcalls] at hp
      exact .inl (List.mem_cons_of_mem _ hp)
  | recordWrite c group key v =>
    simp only [step] at hp
    split at hp <;> exact .inl hp
  | unlink c id signature =>
    simp only [step] at hp
    split at hp <;> exact .inl hp
  | _ => exact .inl hp

theorem step_linked (hcover : R.Cover valid) (hm : m.Linked) (hvalid : valid m.world.heap)
    (hshows : ∀ p, R.shows p) {a : Action σ} (ha : m.Allows R a) :
    (m.step a).Linked ∧ m.world.Continues (m.step a).world := by
  obtain ⟨hlinked, hcontinues⟩ := (step_change hcover hm hvalid hshows ha).linked hm.world
  refine ⟨⟨hlinked, fun p hp => ?_⟩, hcontinues⟩
  rcases mem_calls_step hp with hp | ⟨c, id, ops, w, rfl, hbegin⟩
  · exact (hm.calls p hp).continues hlinked hcontinues
  · obtain ⟨w₁, hcall⟩ := World.callOf?_of_called hbegin
    obtain ⟨hown, hcache, hindex, -⟩ := World.place_of_callOf? hcall
    rw [hcache, hindex]
    exact (hm.world.at_of_owns hown).continues hlinked hcontinues

/-- Whatever an action does, it is one change and keeps the chains linked. -/
theorem step_change_open (hm : m.Linked) (a : Action σ) :
    World.Change .open (fun c => a = .purge c) m.world (m.step a).world :=
  step_change Rules.open_cover hm trivial (fun _ => trivial) (m.allows_open a)

theorem step_linked_open (hm : m.Linked) (a : Action σ) :
    (m.step a).Linked ∧ m.world.Continues (m.step a).world :=
  step_linked Rules.open_cover hm trivial (fun _ => trivial) (m.allows_open a)

/-- A run keeps the chains linked, and every chain and every path ends where it ended before. -/
theorem run_linked (hm : m.Linked) (actions : List (Action σ)) :
    (m.run actions).Linked ∧ m.world.Continues (m.run actions).world := by
  refine List.foldlRecOn (motive := fun m' => m'.Linked ∧ m.world.Continues m'.world) actions step
    ⟨hm, .refl _⟩ ?_
  rintro m' ⟨hlinked, hcontinues⟩ a -
  obtain ⟨hlinked', hcontinues'⟩ := step_linked_open hlinked a
  exact ⟨hlinked', hcontinues.trans hcontinues'⟩

/-- In every reachable state the chains of a unit are well formed and share no stub, and a stub that was
ever in a chain leads to the end of that chain for ever after. That stubs are never freed is what lets a
stub that was taken out be followed. -/
theorem chains_wellFormed (config : CacheConfig) (compiler : Compiler) (host : σ)
    (actions : List (Action σ)) {c : CacheId} {cache : UnitCache}
    (hget : ((initial config compiler host).run actions).world.caches.get? c = some cache) :
    -- every chain leads to its own end, and knows its last stub
    (∀ p chain, cache.chain? p = some chain →
      cache.arena.Path chain.head (chain.stubIds cache.arena) chain.fallback ∧
      (chain.stubIds cache.arena).Nodup ∧
      (∀ id ∈ chain.stubIds cache.arena, (cache.arena.stub id).isFallback = false) ∧
      (cache.arena.stub chain.fallback).isFallback = true ∧
      chain.last = (chain.stubIds cache.arena).getLast? ∧
      (chain.last = none ↔ chain.isFallbackOnly = true)) ∧
    -- the chains share neither an end nor a stub
    (∀ p q chain chain', cache.chain? p = some chain → cache.chain? q = some chain' → p ≠ q →
      chain.fallback ≠ chain'.fallback ∧
      ∀ id ∈ chain.stubIds cache.arena, id ∉ chain'.stubIds cache.arena) ∧
    -- a stub leads to the end of its chain even after it was taken out
    ∀ p chain, cache.chain? p = some chain → ∀ id ∈ chain.stubIds cache.arena, ∀ later,
      ∃ cache' chain' ids,
        ((initial config compiler host).run (actions ++ later)).world.caches.get? c = some cache' ∧
        cache'.chain? p = some chain' ∧ chain'.fallback = chain.fallback ∧
        cache'.arena.Path id ids chain'.fallback := by
  have hm := (run_linked (initial_linked config compiler host) actions).1
  obtain ⟨hlinked, -⟩ := hm.world c cache hget
  refine ⟨fun p chain hp => ?_, fun p q chain chain' hp hq hne => ⟨fun heq => ?_, fun id hid hid' => ?_⟩,
    fun p chain hp id hid later => ?_⟩
  · have hs := hlinked.sound hp
    exact ⟨hs.path, hs.nodup hlinked.arena, fun id hid => hs.path.isFallback_of_mem hlinked.arena hid,
      hs.isFallback_fallback hlinked.arena, hs.last_eq, hs.last_eq_none_iff⟩
  · exact hne (hlinked.place_eq hp hq heq)
  · exact hne (hlinked.disjoint hp hq hid hid')
  · obtain ⟨rest, hpath⟩ := (hlinked.sound hp).path.of_mem hid
    obtain ⟨cache', hget', hcontinues⟩ := (run_linked hm later).2 c cache hget
    obtain ⟨chain', hp', hfallback⟩ := hcontinues.chain hp
    obtain ⟨ids, hpath'⟩ := hcontinues.keeps hpath
    rw [← hfallback] at hpath'
    exact ⟨cache', chain', ids, by rw [run_append]; exact hget', hp', hfallback, hpath'⟩

/-- A stub for the type of an integer, attached at the first use and then taken out by a purge, still
leads to the end of the chain. -/
theorem purged_stub_leads_to_end :
    let attached : List (Action Unit) :=
      [.addCache ⟨1, "f", 0, false, 0, #[.typeOf], #[]⟩, .use 1 ⟨1, 0⟩ (.unary (.int32 5))]
    ∃ cache chain, ((initial .standard (fun _ _ => none) ()).run attached).world.caches.get? 1 =
        some cache ∧
      cache.chain? (.main 0) = some chain ∧ chain.stubIds cache.arena = [1] ∧
      ∃ cache' chain' ids, ((initial .standard (fun _ _ => none) ()).run
          (attached ++ [.purge 1])).world.caches.get? 1 = some cache' ∧
        cache'.chain? (.main 0) = some chain' ∧ chain'.fallback = chain.fallback ∧
        cache'.arena.Path 1 ids chain'.fallback := by
  intro attached
  have hids : ((((initial .standard (fun _ _ => none) ()).run attached).world.caches.get? 1).bind
      fun cache => (cache.chain? (.main 0)).map fun chain => chain.stubIds cache.arena) =
        some [1] := by decide +kernel
  obtain ⟨cache, hget, hids⟩ := Option.bind_eq_some_iff.1 hids
  obtain ⟨chain, hchain, hids⟩ := Option.map_eq_some_iff.1 hids
  have hlater := (chains_wellFormed .standard (fun _ _ => none) () attached hget).2.2
  exact ⟨cache, chain, hget, hchain, hids,
    hlater (.main 0) chain hchain 1 (by simp [hids]) [.purge 1]⟩

end Machine

end InlineCache
