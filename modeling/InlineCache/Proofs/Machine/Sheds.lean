import InlineCache.Proofs.Machine.Linked
import InlineCache.Proofs.World.Stubs

namespace InlineCache

/-- Whether an action is about the stubs of an entry. -/
def Action.IsAbout {σ : Type} (c : CacheId) (index : Nat) : Action σ → Prop
  | .use d id _ | .unlink d id _ => d = c ∧ id.index = index
  | .purge d => d = c
  | _ => False

namespace World

variable {σ : Type} {w w' : World σ} {c : CacheId} {index : Nat}

/-- An entry that was not there before has not been used. -/
theorem Change.initial_of_new {R : Rules} {purged : CacheId → Prop} (hl : w.Linked)
    (h : Change R purged w w') (hin : index < (w'.cache c).entries.size) :
    index < (w.cache c).entries.size ∨ w'.stateAt c index = .initial ∧ w'.stubsAt c index = [] := by
  cases h with
  | @work _ d hd hworks =>
    refine .inl ?_
    by_cases hc : c = d
    · subst hc
      rwa [← (hworks.linked hd (hl.cache hd).1).2.size_entries]
    · obtain ⟨-, -, -, hothers⟩ := hworks.same
      rwa [cache_eq_of_caches (hothers c hc)] at hin
  | outside hcaches _ _ _ =>
    rw [cache_eq_of_caches (congrArg (Table.get? · c) hcaches)] at hin
    exact .inl hin
  | @addCache unit cache hcreate =>
    by_cases hc : c = w.caches.next
    · have hcache : ({ w with caches := w.caches.add cache } : World σ).cache c = cache :=
        cache_eq_of_get? (hc ▸ Table.get?_add_next _ _)
      rw [hcache] at hin
      obtain ⟨hstate, hnone⟩ := (UnitCache.create_entries hcreate).1 index hin
      rw [stateAt, stubsAt, hcache, Chain.stubs, hnone]
      exact .inr ⟨hstate, rfl⟩
    · rw [cache_eq_of_caches (Table.get?_add_of_ne _ _ hc)] at hin
      exact .inl hin

end World

namespace Machine

variable {σ : Type} {m : Machine σ} {c : CacheId} {index : Nat}

/-- An action that is not about the stubs of an entry leaves them alone. -/
theorem step_sameStubs (hm : m.Linked) (hat : m.world.At c index) {a : Action σ}
    (ha : ¬ a.IsAbout c index) : World.SameStubs c index m.world (m.step a).world := by
  cases a with
  | host heap zone bridges unitsMade host => exact World.sameStubs_of_cache rfl
  | buildStub recipe => exact World.sameStubs_of_cache rfl
  | teardown => exact World.sameStubs_of_cache rfl
  | addCache unit =>
    obtain ⟨cache, hget⟩ := hat.hasCache
    have hne : c ≠ m.world.caches.next := fun heq => by
      rw [heq, Table.get?_next] at hget
      cases hget
    refine World.sameStubs_of_cache (World.cache_eq_of_caches ?_)
    simp only [step, World.addCache]
    cases UnitCache.create unit m.world.runtime.config with
    | error e => rfl
    | ok cache' => exact Table.get?_add_of_ne _ _ hne
  | use d id ops =>
    rw [world_use]
    by_cases hown : (m.world.cache d).owns id = true
    · have hused := hm.world.at_of_owns hown
      refine ((World.course_begin hm.world d id ops).within hused).sameStubs hat ?_
      rintro rfl (heq | heq | ⟨_, _, _, _, heq⟩) <;> cases heq
      exact ha ⟨rfl, rfl⟩
    · rw [World.begin_of_foreign hown]
      exact .refl _ _ _
  | ret result =>
    simp only [step]
    cases hcalls : m.calls with
    | nil => exact .refl _ _ _
    | cons p rest =>
      have hcall := hm.calls p (by rw [hcalls]; exact List.mem_cons_self)
      exact (World.within_finish hcall result).sameStubs hat (by simp)
  | loopTurn d pc =>
    simp only [step, World.loopEntry]
    split
    · next id hid =>
      have hentry := hm.world.at_of_lt (UnitCache.entryAt?_lt hid)
      exact (World.within_enterFallback hentry).sameStubs hat (by simp)
    · exact .refl _ _ _
  | recordWrite d group key v =>
    simp only [step]
    split
    · next hsome =>
      have hd : m.world.HasCache d := Option.isSome_iff_exists.1 hsome
      exact (World.within_recordWrite hd (hm.world.cache hd).1 group key v).sameStubs hat (by simp)
    · exact .refl _ _ _
  | unlink d id signature =>
    simp only [step]
    split
    · next hown =>
      refine (World.within_unlinkStubs (hm.world.at_of_owns hown) signature).sameStubs hat ?_
      rintro rfl heq
      cases heq
      exact ha ⟨rfl, rfl⟩
    · exact .refl _ _ _
  | purge d =>
    have hne : c ≠ d := fun heq => ha heq.symm
    simp only [step]
    cases hget : m.world.caches.get? d with
    | none =>
      rw [World.purge_of_none hget]
      exact .refl _ _ _
    | some cache =>
      have hworks : World.Works .open True True d m.world (m.world.purge d) :=
        World.works_purge trivial ⟨cache, hget⟩ (hm.world.cache ⟨cache, hget⟩).1
      exact hworks.sameStubs_of_ne hne

/-- An entry stays where it is. -/
theorem at_step (hm : m.Linked) (hat : m.world.At c index) (a : Action σ) :
    (m.step a).world.At c index := by
  obtain ⟨hm', hcontinues⟩ := step_linked_open hm a
  obtain ⟨cache, hget⟩ := hat.hasCache
  obtain ⟨cache', hget', hsame⟩ := hcontinues c cache hget
  refine ⟨?_, (hm'.world.cache ⟨cache', hget'⟩).1⟩
  rw [World.cache_eq_of_get? hget', hsame.size_entries, ← World.cache_eq_of_get? hget]
  exact hat.lt

/-- No action but a use adds stubs to an entry. -/
theorem step_sheds (hm : m.Linked) (hat : m.world.At c index) {a : Action σ}
    (ha : ∀ id ops, a = .use c id ops → id.index ≠ index) :
    World.Sheds c index m.world (m.step a).world := by
  by_cases habout : a.IsAbout c index
  · cases a with
    | use d id ops =>
      obtain ⟨rfl, hindex⟩ := habout
      exact absurd hindex (ha id ops rfl)
    | unlink d id signature =>
      obtain ⟨rfl, rfl⟩ := habout
      simp only [step]
      split
      · exact World.sheds_unlinkStubs hat signature
      · exact (World.SameStubs.refl _ _ _).sheds
    | purge d =>
      cases habout
      exact World.sheds_purge hat
    | _ => exact habout.elim
  · exact (step_sameStubs hm hat habout).sheds

end Machine

end InlineCache
