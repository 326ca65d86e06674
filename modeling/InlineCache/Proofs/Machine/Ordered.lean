import Mathlib.Data.List.Nodup
import InlineCache.Proofs.Bench.Ordered
import InlineCache.Proofs.Machine.Recorded

namespace InlineCache

namespace World

variable {σ : Type} {cap : Nat} {purged : CacheId → Prop} {w w' : World σ}

/-- The type guards of all units are in order. -/
def Ordered (cap : Nat) (w : World σ) : Prop := w.All fun h cache => cache.Ordered cap h

private theorem Change.ordered (hl : w.Linked) (hcap : w.runtime.config.maxObjectGuards = cap)
    (hw : w.Ordered cap) (h : Change .recording purged w w') : w'.Ordered cap :=
  hw.change hl
    (fun hl hconfig hb hmove => ⟨hmove.ordered hl hb (by rw [hconfig]; exact hcap),
      fun _ h => h.records (hmove.records hl)⟩)
    (fun hallows h => h.records hallows.2) (UnitCache.ordered_create cap _) h

end World

namespace Machine

variable {σ : Type} {cap : Nat} {m : Machine σ}

/-- A run keeps type guards in order. -/
theorem run_ordered (hm : m.Recorded) (hcap : m.world.runtime.config.maxObjectGuards = cap)
    (hw : m.world.Ordered cap) {actions : List (Action σ)} (hactions : m.Obeys .recording actions) :
    (m.run actions).world.Ordered cap := by
  refine (hactions.keeps (P := fun m' => m'.Recorded ∧
    m'.world.runtime.config.maxObjectGuards = cap ∧ m'.world.Ordered cap) ?_ ⟨hm, hcap, hw⟩).2.2
  rintro m' ⟨hm', hcap', hw'⟩ a ha
  have hchange := step_change_recording hm' ha
  exact ⟨(step_recorded hm' ha).1, by rw [hchange.config]; exact hcap',
    hchange.ordered hm'.sound.linked.world hcap' hw'⟩

/-- In every reachable state, in the middle of calls as well, a chain of type guards holds nothing but
guards that are in order. -/
theorem guards_orderly {config : CacheConfig} {compiler : Compiler} {host : σ}
    {actions : List (Action σ)} (hactions : (initial config compiler host).Obeys .recording actions)
    {c : CacheId} {cache : UnitCache}
    (hget : ((initial config compiler host).run actions).world.caches.get? c = some cache)
    {p : Watch} (hp : p.Valid) {chain : Chain} (hchain : cache.chain? p.place = some chain) :
    ∃ guards : List TypeGuard,
      (chain.stubs cache.arena).map (·.kind.typeGuard?) = guards.map some ∧
      -- one guard for primitives at most, and only so many for objects
      guards.countP TypeGuard.isPrimitives ≤ 1 ∧
      guards.countP TypeGuard.isObjectKind ≤ config.maxObjectGuards ∧
      -- no object and no group is guarded twice
      (∀ id, guards.count (.object id) ≤ 1) ∧ (∀ id, guards.count (.group id) ≤ 1) ∧
      -- the guard for everything is the only one
      (.anything ∈ guards → guards = [.anything]) ∧
      -- the tag of objects stands for all guards for them
      (∀ set, .primitives set ∈ guards → set.contains .object = true →
        ∀ g ∈ guards, g.isObjectKind = false) ∧
      -- sentinels are accepted by no guard for primitives
      ∀ set, .primitives set ∈ guards → set.contains .magic = false := by
  have hordered := run_ordered (initial_recorded config compiler host) rfl
    (fun c cache hget => by cases c <;> cases hget) hactions c cache hget
  have hin := hordered.ordered p hp chain hchain
  have horderly := hin.orderly
  have hcount (g : TypeGuard) (hg : g.isObjectKind = true) :
      ((chain.guards cache.arena).map (·.2)).count g ≤ 1 := by
    rw [← List.count_filter hg]
    exact List.nodup_iff_count_le_one.1 horderly.nodup g
  exact ⟨_, hin.map_typeGuard?, horderly.primitives_le, horderly.objects_le,
    fun id => hcount _ rfl, fun id => hcount _ rfl, horderly.alone, horderly.no_objects,
    horderly.no_magic⟩

/-- Where objects are not to be guarded at all, an object that is recorded leaves one guard, for
primitives. -/
theorem recorded_object_guarded_by_tag :
    ∃ cache chain, ((initial { CacheConfig.standard with maxObjectGuards := 0 } (fun _ _ => none)
        ()).run recordOfGroup).world.caches.get? 1 = some cache ∧
      cache.chain? (.update 5 "x") = some chain ∧ (chain.stubIds cache.arena).length = 1 ∧
      ∃ guards : List TypeGuard, (chain.stubs cache.arena).map (·.kind.typeGuard?) = guards.map some ∧
        guards.countP TypeGuard.isObjectKind = 0 := by
  have hlength : ((((initial { CacheConfig.standard with maxObjectGuards := 0 } (fun _ _ => none)
      ()).run recordOfGroup).world.caches.get? 1).bind fun cache =>
        (cache.chain? (.update 5 "x")).map fun chain => (chain.stubIds cache.arena).length) =
          some 1 := by decide +kernel
  obtain ⟨cache, hget, hlength⟩ := Option.bind_eq_some_iff.1 hlength
  obtain ⟨chain, hchain, hlength⟩ := Option.map_eq_some_iff.1 hlength
  have hobeys : (initial { CacheConfig.standard with maxObjectGuards := 0 } (fun _ _ => none)
      ()).Obeys .recording recordOfGroup :=
    ⟨recording_trackedGroup, trivial, (by decide : 5 ≤ trackedGroup.groups.size), trivial⟩
  obtain ⟨guards, hguards, -, hobjects, -⟩ :=
    guards_orderly hobeys hget (p := .write 5 "x") (Nat.succ_pos 4) hchain
  exact ⟨cache, chain, hget, hchain, hlength, guards, hguards, Nat.le_zero.1 hobjects⟩

end Machine

end InlineCache
