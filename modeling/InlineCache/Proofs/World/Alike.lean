import InlineCache.Proofs.World.Use

namespace InlineCache

/-- Caches of the same unit that answer alike, as far as the stubs have no say in it. -/
structure UnitCache.Alike (c c' : UnitCache) : Prop where
  unit : c'.unit = c.unit
  sites : c'.sites = c.sites
  size : c'.entries.size = c.entries.size
  turns : ∀ index, (c.site index).role = .loopCounter →
    (c'.entry index).entered = (c.entry index).entered

namespace UnitCache

variable {c c' c'' : UnitCache}

theorem Alike.refl (c : UnitCache) : c.Alike c := ⟨rfl, rfl, rfl, fun _ _ => rfl⟩

theorem Alike.site_eq (h : c.Alike c') (index : Nat) : c'.site index = c.site index := by
  rw [site, site, h.sites]

theorem Alike.symm (h : c.Alike c') : c'.Alike c where
  unit := h.unit.symm
  sites := h.sites.symm
  size := h.size.symm
  turns index hrole := (h.turns index (by rw [← h.site_eq]; exact hrole)).symm

theorem Alike.trans (h : c.Alike c') (h' : c'.Alike c'') : c.Alike c'' where
  unit := h'.unit.trans h.unit
  sites := h'.sites.trans h.sites
  size := h'.size.trans h.size
  turns index hrole := (h'.turns index (by rw [h.site_eq]; exact hrole)).trans (h.turns index hrole)

theorem Alike.owns_eq (h : c.Alike c') (id : EntryId) : c'.owns id = c.owns id := by
  rw [owns, owns, h.unit, h.sites]

theorem Alike.entryAt?_eq (h : c.Alike c') (pc : Offset) : c'.entryAt? pc = c.entryAt? pc := by
  unfold entryAt? entryId site
  rw [h.unit, h.sites]

/-- An entry is replaced on both sides. -/
theorem Alike.setEntry (h : c.Alike c') {index : Nat} (hin : index < c.entries.size) {e e' : Entry}
    (hentered : (c.site index).role = .loopCounter → e'.entered = e.entered) :
    (c.setEntry index e).Alike (c'.setEntry index e') := by
  refine ⟨h.unit, h.sites, ?_, fun other hrole => ?_⟩
  · rw [size_setEntry, size_setEntry, h.size]
  · have hin' : index < c'.entries.size := by rw [h.size]; exact hin
    by_cases hother : other = index
    · subst hother
      rw [entry_setEntry_self hin, entry_setEntry_self hin']
      exact hentered hrole
    · rw [entry_setEntry_of_ne _ hother, entry_setEntry_of_ne _ hother]
      exact h.turns other hrole

/-- Nothing was counted yet at the entries of a new unit. -/
theorem entered_create {unit : CodeUnit} {config : CacheConfig} (h : create unit config = .ok c)
    (index : Nat) : (c.entry index).entered = 0 := by
  by_cases hin : index < c.entries.size
  · exact of_create (P := fun _ e => e.entered = 0) (fun _ _ => rfl) h hin
  · rw [entry, Array.getElem?_eq_none (Nat.le_of_not_lt hin)]
    rfl

/-- A new unit is alike whatever the settings are. -/
theorem alike_create {unit : CodeUnit} {config config' : CacheConfig}
    (h : create unit config = .ok c) (h' : create unit config' = .ok c') : c.Alike c' := by
  have hsame : c'.unit = c.unit ∧ c'.sites = c.sites := by
    obtain ⟨sites, hsites, rfl⟩ := create_eq_ok_iff.1 h
    obtain ⟨sites', hsites', rfl⟩ := create_eq_ok_iff.1 h'
    cases hsites.symm.trans hsites'
    exact ⟨rfl, rfl⟩
  refine ⟨hsame.1, hsame.2, ?_, fun index _ => ?_⟩
  · rw [(create_linked h').2, (create_linked h).2, hsame.2]
  · rw [entered_create h', entered_create h]

end UnitCache

private theorem Entry.Move.entered_eq {recipes : Recipe → Prop} {e e' : Entry} {env env' : AttachEnv}
    (h : Move recipes e env e' env') : e'.entered = e.entered := by
  cases h <;> rfl

namespace Bench

variable {R : Rules} {resets : Prop} {b b' : Bench}

private theorem alike_setEntry {index : Nat} (hin : index < b.cache.entries.size) {e' : Entry}
    (env' : AttachEnv) (hentered : (b.cache.site index).role = .loopCounter →
      e'.entered = (b.cache.entry index).entered) :
    b.cache.Alike (b.setEntry index e' env').cache := by
  have hself : (b.setEntry index (b.cache.entry index) b.env).cache = b.cache :=
    congrArg Bench.cache (setEntry_self b index)
  have henv : b.cache.Alike (b.setEnv env').cache := ⟨rfl, rfl, rfl, fun _ _ => rfl⟩
  have hset : (b.setEntry index (b.cache.entry index) b.env).cache.Alike
      (b.setEntry index e' env').cache := henv.setEntry hin hentered
  rw [hself] at hset
  exact hset

/-- Nothing but the turn of a loop is seen of work on caches. -/
theorem Move.alike (h : Move R resets False b b') : b.cache.Alike b'.cache := by
  cases h with
  | entry hin hmove => exact alike_setEntry hin _ fun _ => hmove.entered_eq
  | tally hin _ _ _ hentered _ =>
    exact alike_setEntry hin _ fun hrole => absurd hrole (hentered.resolve_left id)
  | count _ => exact ⟨rfl, rfl, rfl, fun _ _ => rfl⟩
  | monitor _ hin _ _ _ => exact alike_setEntry hin _ fun _ => rfl
  | update _ _ _ _ => exact ⟨rfl, rfl, rfl, fun _ _ => rfl⟩
  | newUpdate _ _ _ => exact ⟨rfl, rfl, rfl, fun _ _ => rfl⟩
  | heap _ => exact .refl b.cache
  | reset _ hin _ => exact alike_setEntry hin _ fun _ => rfl

private theorem Moves.alike (h : Moves R resets False b b') : b.cache.Alike b'.cache := by
  induction h with
  | refl => exact .refl b.cache
  | tail _ hmove ih => exact ih.trans hmove.alike

end Bench

namespace World

variable {σ : Type} {w w' w'' : World σ} {c : CacheId}

/-- Scripts see the same in both states. The stubs and the type guards may differ, and so may all counts
but one: the turns of a loop are the result of counting them. -/
structure Alike (w w' : World σ) : Prop where
  heap : w'.heap.seen = w.heap.seen
  size : w'.caches.size = w.caches.size
  cache : ∀ c, (w.cache c).Alike (w'.cache c)
  bridges : w'.bridges = w.bridges
  unitsMade : w'.unitsMade = w.unitsMade
  host : w'.host = w.host

theorem Alike.refl (w : World σ) : w.Alike w := ⟨rfl, rfl, fun c => .refl (w.cache c), rfl, rfl, rfl⟩

theorem Alike.symm (h : w.Alike w') : w'.Alike w :=
  ⟨h.heap.symm, h.size.symm, fun c => (h.cache c).symm, h.bridges.symm, h.unitsMade.symm, h.host.symm⟩

theorem Alike.trans (h : w.Alike w') (h' : w'.Alike w'') : w.Alike w'' :=
  ⟨h'.heap.trans h.heap, h'.size.trans h.size, fun c => (h.cache c).trans (h'.cache c),
    h'.bridges.trans h.bridges, h'.unitsMade.trans h.unitsMade, h'.host.trans h.host⟩

/-- Work on caches that leaves the heap as scripts see it. -/
theorem Works.alike {R : Rules} {resets : Prop} (hc : w.HasCache c)
    (h : Works R resets False c w w') (hheap : w'.heap.seen = w.heap.seen) : w.Alike w' := by
  obtain ⟨b, hmoves, rfl⟩ := h
  refine ⟨hheap, Table.size_modify _ _ _, fun d => ?_, rfl, rfl, rfl⟩
  by_cases hd : d = c
  · subst hd
    rw [cache_eq_of_get? (get?_putBench_self hc b)]
    exact hmoves.alike
  · have hsame : (w.putBench c b).cache d = w.cache d := Table.get_modify_of_ne _ _ hd
    rw [hsame]
    exact .refl _

/-- A unit's caches are replaced on both sides. -/
theorem Alike.mapCache (h : w.Alike w') (c : CacheId) {f g : UnitCache → UnitCache}
    (hfg : (f (w.cache c)).Alike (g (w'.cache c))) : (w.mapCache c f).Alike (w'.mapCache c g) := by
  refine ⟨h.heap, ?_, fun d => ?_, h.bridges, h.unitsMade, h.host⟩
  · exact (Table.size_modify _ _ _).trans (h.size.trans (Table.size_modify _ _ _).symm)
  · by_cases hd : d = c
    · subst hd
      by_cases hrange : 0 < d ∧ d ≤ w.caches.size
      · have hle : d ≤ w'.caches.size := by rw [h.size]; exact hrange.2
        rw [World.cache, World.cache, World.mapCache, World.mapCache,
          Table.get_modify_self _ _ hrange.1 hrange.2, Table.get_modify_self _ _ hrange.1 hle]
        exact hfg
      · have hnone {t : Table UnitCache} (hsize : t.size = w.caches.size) (f : UnitCache → UnitCache) :
            t.modify d f = t := by
          refine Table.modify_self t fun a ha => absurd ?_ hrange
          rw [← hsize]
          exact (Table.isSome_get?_iff t).1 (by rw [ha]; rfl)
        rw [World.mapCache, World.mapCache, hnone rfl, hnone h.size]
        exact h.cache d
    · have hleft : (w.mapCache c f).cache d = w.cache d := Table.get_modify_of_ne _ _ hd
      have hright : (w'.mapCache c g).cache d = w'.cache d := Table.get_modify_of_ne _ _ hd
      rw [hleft, hright]
      exact h.cache d

theorem Alike.hasCache (h : w.Alike w') (hc : w.HasCache c) : w'.HasCache c := by
  refine Option.isSome_iff_exists.1 ((Table.isSome_get?_iff _).2 ?_)
  rw [h.size]
  exact (Table.isSome_get?_iff _).1 (Option.isSome_iff_exists.2 hc)

/-- A turn is counted on both sides, whether it is one of a loop or not. -/
theorem Alike.enterFallback (h : w.Alike w') {index : Nat} (hin : index < (w.cache c).entries.size) :
    (w.enterFallback c index).Alike (w'.enterFallback c index) := by
  have hc := hasCache_of_lt hin
  have hcount : (w.mapCounters c fun n => { n with fallbackHits := n.fallbackHits + 1 }).Alike
      (w'.mapCounters c fun n => { n with fallbackHits := n.fallbackHits + 1 }) :=
    h.mapCache c ⟨(h.cache c).unit, (h.cache c).sites, (h.cache c).size, (h.cache c).turns⟩
  have hin' : index < ((w.mapCounters c fun n =>
      { n with fallbackHits := n.fallbackHits + 1 }).cache c).entries.size := by
    rw [cache_mapCounters hc]
    exact hin
  exact hcount.mapCache c (UnitCache.Alike.setEntry (hcount.cache c) hin' fun hrole =>
    congrArg (· + 1) ((hcount.cache c).turns index hrole))

/-- A unit is added on both sides, at the same place. -/
theorem Alike.addCache (h : w.Alike w') (unit : CodeUnit) :
    (w'.addCache unit).1 = (w.addCache unit).1 ∧ (w.addCache unit).2.Alike (w'.addCache unit).2 := by
  have hnext : w'.caches.next = w.caches.next := congrArg (· + 1) h.size
  unfold World.addCache
  cases hcreate : UnitCache.create unit w.runtime.config with
  | error e =>
    have hcreate' : UnitCache.create unit w'.runtime.config = .error e := by
      unfold UnitCache.create at hcreate ⊢
      cases hs : UnitCache.sitesOf unit with
      | error e' =>
        rw [hs] at hcreate
        exact hcreate
      | ok sites =>
        rw [hs] at hcreate
        cases hcreate
    rw [hcreate']
    exact ⟨rfl, h⟩
  | ok cache =>
    obtain ⟨sites, hsites, -⟩ := UnitCache.create_eq_ok_iff.1 hcreate
    obtain ⟨cache', hcreate'⟩ : ∃ cache', UnitCache.create unit w'.runtime.config = .ok cache' :=
      ⟨_, UnitCache.create_eq_ok_iff.2 ⟨sites, hsites, rfl⟩⟩
    rw [hcreate']
    refine ⟨congrArg Except.ok hnext, ⟨h.heap, ?_, fun d => ?_, h.bridges, h.unitsMade, h.host⟩⟩
    · simp only [Table.size_add, h.size]
    · by_cases hd : d = w.caches.next
      · have hd' : d = w'.caches.next := hd.trans hnext.symm
        have hold : World.cache { w with caches := w.caches.add cache } d = cache := by
          rw [hd]
          exact Table.get_add_next _ _
        have hnew : World.cache { w' with caches := w'.caches.add cache' } d = cache' := by
          rw [hd']
          exact Table.get_add_next _ _
        rw [hold, hnew]
        exact UnitCache.alike_create hcreate hcreate'
      · have hd' : d ≠ w'.caches.next := by rw [hnext]; exact hd
        have hold : World.cache { w with caches := w.caches.add cache } d = w.cache d := by
          rw [World.cache, Table.get, Table.get?_add_of_ne _ _ hd]
          rfl
        have hnew : World.cache { w' with caches := w'.caches.add cache' } d = w'.cache d := by
          rw [World.cache, Table.get, Table.get?_add_of_ne _ _ hd']
          rfl
        rw [hold, hnew]
        exact h.cache d

end World

end InlineCache
