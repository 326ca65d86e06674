import InlineCache.Proofs.Machine.Fitted

namespace InlineCache

/-- The rules under which stubs fit, where heaps are built on and not changed in any other way. -/
def Rules.building : Rules := { Rules.fitting False with allows := fun h h' => h.Builds h' }

private theorem Rules.building_cover : Rules.building.Cover (Heap.WellFormed False) :=
  { fitting_cover False with
    valid_of_allows := fun hw hallows => (hallows.evolves hw).2
    allows_refl := .refl
    allows_enterCall := fun _ id => (Heap.Built.enterCall id).builds
    allows_leaveCall := fun _ id => (Heap.Built.leaveCall id).builds
    allows_outcome := fun _ houtcome => Request.builds_outcome houtcome }

private theorem Bench.Move.builds {resets turns : Prop} {b b' : Bench}
    (h : Move .building resets turns b b') : b.heap.Builds b'.heap := by
  cases h with
  | heap hallows => exact hallows
  | update _ _ _ hrecord => exact (Heap.Built.recorded (TypeChain.seen_recordWrite hrecord)).builds
  | _ => exact .refl b.heap

namespace World

variable {σ : Type} {purged : CacheId → Prop} {resets turns : Prop} {w w' : World σ} {c : CacheId}

private theorem Works.builds (hl : (w.cache c).Linked) (h : Works .building resets turns c w w') :
    w.heap.Builds w'.heap := by
  obtain ⟨b, hmoves, rfl⟩ := h
  exact hmoves.rel (K := fun b b' => b.heap.Builds b'.heap) (fun _ => .refl _) .trans (fun _ h => h.builds) hl

private theorem Change.builds (hl : w.Linked) (h : Change .building purged w w') :
    w.heap.Builds w'.heap := by
  cases h with
  | work hc hworks => exact hworks.builds (hl.cache hc).1
  | outside _ hheap _ _ => exact hheap
  | addCache _ => exact .refl _

end World

namespace Machine

variable {σ : Type} {m : Machine σ}

private theorem HostObeys.fitting_of_building {a : Action σ} (ha : m.HostObeys .building a) :
    m.HostObeys (.fitting False) a := by
  cases a with
  | host heap zone bridges unitsMade host => exact ha.evolves
  | _ => trivial

private theorem step_builds (hm : m.Sound False) {a : Action σ} (ha : m.HostObeys .building a) :
    (m.step a).Sound False ∧ m.world.heap.Builds (m.step a).world.heap := by
  have hchange : World.Change .building (fun c => a = .purge c) m.world (m.step a).world :=
    step_change Rules.building_cover hm.linked hm.fitted.heap (fun _ => trivial)
      (hm.allows Handler.Worked.builds ha)
  exact ⟨step_sound hm ha.fitting_of_building, hchange.builds hm.linked.world⟩

/-- Along a run the heap is built on. -/
theorem run_builds (hm : m.Sound False) {actions : List (Action σ)} (hactions : m.Obeys .building actions) :
    (m.run actions).Sound False ∧ m.world.heap.Builds (m.run actions).world.heap := by
  refine hactions.keeps (P := fun m' => m'.Sound False ∧ m.world.heap.Builds m'.world.heap) ?_
    ⟨hm, .refl _⟩
  rintro m' ⟨hm', hbuilds⟩ a ha
  obtain ⟨hm'', hbuilds'⟩ := step_builds hm' ha
  exact ⟨hm'', hbuilds.trans hbuilds'⟩

theorem Reached.builds (hm : m.Reached .building) :
    m.Sound False ∧ Heap.initial.Builds m.world.heap := by
  obtain ⟨config, compiler, host, actions, hactions, rfl⟩ := hm
  exact run_builds (initial_sound False config compiler host) hactions

/-- What the host leads to from a reached state is reached. -/
theorem Reached.run (hm : m.Reached .building) {later : List (Action σ)} (hlater : m.Obeys .building later) :
    (m.run later).Reached .building := by
  obtain ⟨config, compiler, host, actions, hactions, rfl⟩ := hm
  exact ⟨config, compiler, host, actions ++ later, obeys_append hactions hlater, run_append _ _ _⟩

end Machine

end InlineCache
