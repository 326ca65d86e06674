import InlineCache.Proofs.Bench.Fitted
import InlineCache.Proofs.Machine.Linked
import InlineCache.Proofs.Stub.Run

namespace InlineCache

/-- Caches whose stubs fit, on a heap that is well formed. -/
def UnitCache.Fitted (classed : Prop) (h : Heap) (c : UnitCache) : Prop :=
  ∀ index < c.entries.size, ∀ stub ∈ (c.entry index).chain.stubs c.arena,
    (c.site index).Fits classed h stub

namespace World

variable {σ : Type} {classed : Prop} {purged : CacheId → Prop} {w w' : World σ}

/-- The stubs of all units fit, on a heap that is well formed. -/
structure Fitted (classed : Prop) (w : World σ) : Prop where
  honest : w.runtime.codeCache.Honest
  heap : w.heap.WellFormed classed
  caches : ∀ (c : CacheId) (cache : UnitCache), w.caches.get? c = some cache →
    cache.Fitted classed w.heap

theorem Fitted.bench (hw : w.Fitted classed) {c : CacheId} (hc : w.HasCache c) :
    (w.bench c).Fitted classed := by
  obtain ⟨cache, hget⟩ := hc
  have hcache : (w.bench c).cache = cache := cache_eq_of_get? hget
  refine ⟨hw.honest, hw.heap, ?_⟩
  rw [hcache]
  exact hw.caches c cache hget

private theorem Works.fitted {resets turns : Prop} {c : CacheId} (hc : w.HasCache c)
    (hl : (w.cache c).Linked) (hw : w.Fitted classed)
    (h : Works (.fitting classed) resets turns c w w') : w'.Fitted classed := by
  obtain ⟨b, hmoves, rfl⟩ := h
  obtain ⟨hb, hgrows⟩ := hmoves.fitted hl (hw.bench hc)
  refine ⟨hb.honest, hb.heap, fun d cache hget => ?_⟩
  by_cases hd : d = c
  · subst hd
    rw [get?_putBench_self hc] at hget
    cases hget
    exact hb.stub
  · rw [get?_putBench_of_ne hd] at hget
    exact fun index hin stub hmem => (hw.caches d cache hget index hin stub hmem).grows hgrows

theorem Change.fitted (hl : w.Linked) (hw : w.Fitted classed)
    (h : Change (.fitting classed) purged w w') : w'.Fitted classed := by
  cases h with
  | work hc hworks => exact hworks.fitted hc (hl.cache hc).1 hw
  | outside hcaches hheap _ hhonest =>
    obtain ⟨hgrows, hheap'⟩ := hheap hw.heap
    refine ⟨hhonest hw.honest, hheap', fun c cache hget index hin stub hmem => ?_⟩
    rw [hcaches] at hget
    exact (hw.caches c cache hget index hin stub hmem).grows hgrows
  | @addCache unit cache hcreate =>
    refine ⟨hw.honest, hw.heap, fun c cache' hget => ?_⟩
    by_cases hc : c = w.caches.next
    · subst hc
      rw [Table.get?_add_next] at hget
      cases hget
      intro index hin stub hmem
      rw [Chain.stubs, ((UnitCache.create_entries hcreate).1 index hin).2] at hmem
      cases hmem
    · rw [Table.get?_add_of_ne _ _ hc] at hget
      exact hw.caches c cache' hget

/-- A stub that answers a use was linked at the entry. -/
theorem mem_of_hit? {h : Heap} {stubs : List Stub} {ops : Operands} {stub : Stub}
    {signature : Signature} (hhit : hit? h stubs ops = some (stub, signature)) :
    stub ∈ stubs ∧ Guard.holds h signature stub ops = true ∧
      ∃ code, stub.code = some code ∧ code.signature = signature := by
  obtain ⟨found, hmem, hfound⟩ := List.exists_of_findSome?_eq_some hhit
  obtain ⟨code, hcode, hif⟩ := Option.bind_eq_some_iff.1 hfound
  split at hif
  · next hguard =>
    cases hif
    exact ⟨hmem, hguard, code, hcode, rfl⟩
  · cases hif

/-- A stub that answers a use fits the operation of the entry. -/
theorem Fitted.hit (hw : w.Fitted classed) {c : CacheId} {index : Nat}
    (hin : index < (w.cache c).entries.size) {ops : Operands} {stub : Stub} {signature : Signature}
    (hhit : hit? w.heap (((w.cache c).entry index).chain.stubs (w.cache c).arena) ops =
      some (stub, signature)) :
    ∃ op, ((w.cache c).site index).role = .operation op ∧
      StubFits classed w.heap op signature stub.payload := by
  obtain ⟨hmem, -, code, hcode, rfl⟩ := mem_of_hit? hhit
  obtain ⟨op, hrole, hfits⟩ := (hw.bench (hasCache_of_lt hin)).stub index hin stub hmem
  exact ⟨op, hrole, hfits code hcode⟩

/-- What a stub that fits does is allowed, where all is allowed that stubs do. -/
theorem Fitted.stubsAllowed {R : Rules} (hw : w.Fitted classed)
    (hR : ∀ {h h' : Heap}, Handler.Worked classed h h' → R.allows h h') {c : CacheId} {index : Nat}
    (hin : index < (w.cache c).entries.size) (ops : Operands) : StubsAllowed R w c index ops := by
  intro stub signature hhit w' hseen
  obtain ⟨op, -, hfits⟩ := hw.hit hin hhit
  obtain ⟨hgrows, hheap⟩ := Heap.evolves_of_seen (h := w.heap) hseen hw.heap
  exact hR (Handler.worked_run hheap (hfits.grows hgrows) ops)

end World

namespace Machine

variable {σ : Type} {classed : Prop} {m : Machine σ}

/-- The machine's state is linked, and its stubs fit. -/
structure Sound (classed : Prop) (m : Machine σ) : Prop where
  linked : m.Linked
  fitted : m.world.Fitted classed

theorem initial_sound (classed : Prop) (config : CacheConfig) (compiler : Compiler) (host : σ) :
    (initial config compiler host).Sound classed where
  linked := initial_linked config compiler host
  fitted :=
    { honest := CodeCache.honest_clear .empty
      heap := Heap.initial_wellFormed classed
      caches := fun c cache hget => by cases c <;> cases hget }

/-- Where the host obeys, everything is allowed that is done. -/
theorem Sound.allows {R : Rules} (hm : m.Sound classed)
    (hR : ∀ {h h' : Heap}, Handler.Worked classed h h' → R.allows h h') {a : Action σ}
    (ha : m.HostObeys R a) : m.Allows R a := by
  cases a with
  | host heap zone bridges unitsMade host => exact ha
  | recordWrite c group key v => exact ha
  | use c id ops =>
    intro hown
    exact hm.fitted.stubsAllowed hR (hm.linked.world.at_of_owns hown).lt ops
  | _ => trivial

theorem step_sound (hm : m.Sound classed) {a : Action σ} (ha : m.HostObeys (.fitting classed) a) :
    (m.step a).Sound classed := by
  have hcover := Rules.fitting_cover classed
  have hallows := hm.allows Handler.Worked.evolves ha
  have hchange := step_change hcover hm.linked hm.fitted.heap (fun _ => trivial) hallows
  exact ⟨(step_linked hcover hm.linked hm.fitted.heap (fun _ => trivial) hallows).1,
    hchange.fitted hm.linked.world hm.fitted⟩

theorem run_sound (hm : m.Sound classed) {actions : List (Action σ)}
    (hactions : m.Obeys (.fitting classed) actions) : (m.run actions).Sound classed :=
  hactions.keeps step_sound hm

/-- A run of actions leads to the machine from the start, and the host keeps to rules for the heap all
through it. -/
def Reached (R : Rules) (m : Machine σ) : Prop :=
  ∃ config compiler host actions, (initial config compiler host).Obeys R actions ∧
    (initial config compiler host).run actions = m

theorem Reached.sound (hm : m.Reached (.fitting classed)) : m.Sound classed := by
  obtain ⟨config, compiler, host, actions, hactions, rfl⟩ := hm
  exact run_sound (initial_sound classed config compiler host) hactions

end Machine

end InlineCache
