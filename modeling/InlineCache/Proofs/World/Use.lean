import InlineCache.Proofs.Request.Outcome
import InlineCache.Proofs.World.Work

namespace InlineCache.World

variable {σ : Type} {R : Rules} {resets turns : Prop} {c : CacheId} {index : Nat} {w : World σ}

/-- The recipes that may be linked at an entry. -/
def Linkable (R : Rules) (w : World σ) (c : CacheId) (index : Nat) (recipe : Recipe) : Prop :=
  ∃ op, ((w.cache c).site index).role = .operation op ∧ R.fits w.heap op recipe

theorem works_attempt (hin : index < (w.cache c).entries.size) (hl : (w.cache c).Linked)
    {decision : Decision}
    (hfits : ∀ recipe, decision.recipe? = some recipe → w.Linkable R c index recipe) :
    Works R resets turns c w (w.attempt c index decision).2 := by
  cases ha : ((w.cache c).entry index).attempt (w.attachEnv c) decision with
  | mk outcome r =>
  obtain ⟨e, env⟩ := r
  have hmoves := Entry.attempt_moves hl.arena (hl.sound (UnitCache.chain?_main hin)) ha
  rw [attempt, onEntry_eq (hasCache_of_lt hin) ha]
  exact ⟨_, Bench.moves_of_entry (b := w.bench c) hin (hmoves.mono hfits), rfl⟩

/-- An attempt does what was decided, or nothing. -/
theorem attempt_outcome (w : World σ) (c : CacheId) (index : Nat) (decision : Decision) :
    (w.attempt c index decision).1 = decision ∨ (w.attempt c index decision).1 = .noAction := by
  have htry (e : Entry) (env : AttachEnv) :
      (e.tryAttach env decision).1 = decision ∨ (e.tryAttach env decision).1 = .noAction := by
    unfold Entry.tryAttach
    split
    · exact .inr rfl
    · cases decision with
      | attach recipe =>
        dsimp only
        split
        · exact .inl rfl
        · exact .inr rfl
      | _ => exact .inl rfl
  exact htry _ _

theorem works_settle (hin : index < (w.cache c).entries.size) {decision : Decision}
    (hfits : ∀ recipe, decision.recipe? = some recipe → w.Linkable R c index recipe) :
    Works R resets turns c w (w.settle c index decision) := by
  cases hs : ((w.cache c).entry index).settle (w.attachEnv c) decision with
  | mk e env =>
  have hmoves := Entry.settle_moves hs
  rw [settle, onEntry_eq (a := ()) (hasCache_of_lt hin) (congrArg (Prod.mk ()) hs)]
  exact ⟨_, Bench.moves_of_entry (b := w.bench c) hin (hmoves.mono hfits), rfl⟩

theorem works_unlinkStubs (hin : index < (w.cache c).entries.size) (signature : Signature) :
    Works R resets turns c w (w.unlinkStubs c index signature).2 := by
  cases hu : ((w.cache c).entry index).unlinkSignature (w.attachEnv c) signature with
  | mk removed r =>
  obtain ⟨e, env⟩ := r
  rw [unlinkStubs, onEntry_eq (hasCache_of_lt hin) hu]
  exact ⟨_, Bench.moves_of_entry (b := w.bench c) hin (Entry.unlinkSignature_moves hu), rfl⟩

/-- Purging an entry takes its stubs out before it starts anew. -/
theorem works_purgeEntry (hresets : resets) (hin : index < (w.cache c).entries.size)
    (hl : (w.cache c).Linked) :
    Works R resets turns c w (w.onEntry c index fun entry env => ((), entry.purge env)).2 := by
  cases hd : ((w.cache c).entry index).discard (w.attachEnv c) with
  | mk e env =>
  have hpurge : ((w.cache c).entry index).purge (w.attachEnv c) =
      ({ e with state := .initial }, env) := by
    rw [Entry.purge, hd]
  have hmoves : Bench.Moves R resets turns (w.bench c) ((w.bench c).setEntry index e env) :=
    Bench.moves_of_entry (b := w.bench c) hin (Entry.discard_moves hd)
  have hnone := Entry.stubIds_discard hl.arena (hl.sound (UnitCache.chain?_main hin)) hd
  have hin' : index < ((w.bench c).setEntry index e env).cache.entries.size := by
    rw [Bench.setEntry, UnitCache.size_setEntry]
    exact hin
  have hentry : ((w.bench c).setEntry index e env).cache.entry index = e :=
    UnitCache.entry_setEntry_self (c := ((w.bench c).setEnv env).cache) hin e
  have hreset : Bench.Move R resets turns _ _ :=
    .reset hresets hin' (by rw [hentry]; exact hnone)
  rw [hentry, Bench.env_setEntry, Bench.setEntry_setEntry] at hreset
  rw [onEntry_eq (a := ()) (hasCache_of_lt hin) (congrArg (Prod.mk ()) hpurge)]
  exact ⟨_, hmoves.tail hreset, rfl⟩

theorem works_purge (hresets : resets) (hc : w.HasCache c) (hl : (w.cache c).Linked) :
    Works R resets turns c w (w.purge c) := by
  have hfold (indices : List Nat) : ∀ {w' : World σ}, Works R resets turns c w w' →
      (∀ i ∈ indices, i < (w.cache c).entries.size) →
      Works R resets turns c w (indices.foldl
        (fun w index => (w.onEntry c index fun entry env => ((), entry.purge env)).2) w') := by
    induction indices with
    | nil => exact fun h _ => h
    | cons i indices ih =>
      intro w' h hbound
      obtain ⟨hl', hcontinues⟩ := h.linked hc hl
      have hi : i < (w'.cache c).entries.size := by
        rw [hcontinues.size_entries]
        exact hbound i List.mem_cons_self
      exact ih (h.trans hc (works_purgeEntry hresets hi hl'))
        fun j hj => hbound j (List.mem_cons_of_mem _ hj)
  exact hfold _ (.refl w c) fun i hi => List.mem_range.1 hi

/-- Counts other than those of stubs and of failures may change at any time. -/
theorem works_mapCounters {f : Counters → Counters}
    (hattached : ∀ n, (f n).stubsAttached = n.stubsAttached)
    (hdiscarded : ∀ n, (f n).stubsDiscarded = n.stubsDiscarded)
    (hoom : ∀ n, (f n).oomRecoveries = n.oomRecoveries) :
    Works R resets turns c w (w.mapCounters c f) := by
  rw [mapCounters_eq]
  refine ⟨_, Bench.Move.moves (.count ?_), rfl⟩
  exact (w.attachEnv c).sameStubs_mapCounters (hattached _) (hdiscarded _) (hoom _)

theorem works_mapEntry (hin : index < (w.cache c).entries.size) {f : Entry → Entry}
    (hchain : ∀ e, (f e).chain = e.chain) (hstate : ∀ e, (f e).state = e.state)
    (hmonitor : ∀ e, (f e).monitor = e.monitor)
    (hentered : turns ∨ ((w.cache c).site index).role ≠ .loopCounter) :
    Works R resets turns c w (w.mapEntry c index f) := by
  rw [mapEntry_eq]
  exact ⟨_, Bench.Move.moves
    (.tally hin (hchain _) (hstate _) (hmonitor _) hentered (.refl _)), rfl⟩

theorem works_enter (hin : index < (w.cache c).entries.size)
    (hentered : turns ∨ ((w.cache c).site index).role ≠ .loopCounter) :
    Works R resets turns c w (w.enter c index) :=
  works_mapEntry hin (fun _ => rfl) (fun _ => rfl) (fun _ => rfl) hentered

theorem cache_mapCounters (hc : w.HasCache c) (f : Counters → Counters) :
    (w.mapCounters c f).cache c =
      { w.cache c with counters := f (w.cache c).counters } := by
  rw [mapCounters_eq, cache_eq_of_get? (get?_putBench_self hc _)]
  rfl

theorem works_enterFallback (hin : index < (w.cache c).entries.size)
    (hentered : turns ∨ ((w.cache c).site index).role ≠ .loopCounter) :
    Works R resets turns c w (w.enterFallback c index) := by
  have hc := hasCache_of_lt hin
  have hcount : Works R resets turns c w
      (w.mapCounters c fun n => { n with fallbackHits := n.fallbackHits + 1 }) :=
    works_mapCounters (fun _ => rfl) (fun _ => rfl) fun _ => rfl
  refine hcount.trans hc (works_enter ?_ ?_)
  · rw [cache_mapCounters hc]
    exact hin
  · rw [cache_mapCounters hc]
    exact hentered

/-- A result that is shown is accepted by some guard, or is of an entry that watches none, or else the watch
of the entry takes note of it. -/
theorem recordResult_cases (hin : index < (w.cache c).entries.size) (hl : (w.cache c).Linked)
    (guards : List TypeGuard) (v : Value) :
    (guards.any (·.accepts w.heap v) = true ∨ ((w.cache c).entry index).monitor = none) ∧
      w.recordResult c index guards v = w ∨
    ∃ m m' env, guards.any (·.accepts w.heap v) = false ∧ ((w.cache c).entry index).monitor = some m ∧
      m.chain.chain.Sound (w.cache c).arena ∧ m.record w.heap (w.attachEnv c) v = (m', env) ∧
      w.recordResult c index guards v = w.putBench c
        ((w.bench c).setEntry index { (w.cache c).entry index with monitor := some m' } env) := by
  have hc := hasCache_of_lt hin
  unfold recordResult
  cases haccepts : guards.any (·.accepts w.heap v) with
  | true => exact .inl ⟨.inl rfl, rfl⟩
  | false =>
    cases hm : ((w.cache c).entry index).monitor with
    | none =>
      refine .inl ⟨.inr rfl, ?_⟩
      rw [if_neg Bool.false_ne_true,
        onEntry_eq hc (by simp only [hm] : _ = ((), (w.cache c).entry index, w.attachEnv c))]
      have hself : (w.bench c).setEntry index ((w.cache c).entry index) (w.attachEnv c) = w.bench c :=
        Bench.setEntry_self (w.bench c) index
      rw [hself, putBench_bench]
    | some m =>
      cases hr : m.record w.heap (w.attachEnv c) v with
      | mk m' env =>
      refine .inr ⟨m, m', env, rfl, rfl,
        hl.sound (p := .monitor index) (by rw [UnitCache.chain?_monitor hin, hm]; rfl), hr, ?_⟩
      rw [if_neg Bool.false_ne_true, onEntry_eq hc (by simp only [hm, hr] :
        _ = ((), { (w.cache c).entry index with monitor := some m' }, env))]

theorem works_recordResult (hshows : R.shows (.result index)) (hin : index < (w.cache c).entries.size)
    (hl : (w.cache c).Linked) (guards : List TypeGuard) (v : Value) :
    Works R resets turns c w (w.recordResult c index guards v) := by
  obtain ⟨-, heq⟩ | ⟨m, m', env, -, hm, hsound, hr, heq⟩ := recordResult_cases hin hl guards v
  · rw [heq]
    exact .refl w c
  · have hmove : Bench.Move R resets turns (w.bench c) _ :=
      .monitor hshows hin hm (Monitor.record_edited hr hl.arena hsound) hr
    rw [heq]
    exact ⟨_, hmove.moves, rfl⟩

theorem works_watch (hshows : R.shows (.result index)) (hin : index < (w.cache c).entries.size)
    (hl : (w.cache c).Linked) (hentered : turns ∨ ((w.cache c).site index).role ≠ .loopCounter)
    (guards : List TypeGuard) (v : Value) : Works R resets turns c w (w.watch c index guards v) := by
  unfold watch
  split
  · exact .refl w c
  · have hc := hasCache_of_lt hin
    have henter : Works R resets turns c w (w.enter c index) := works_enter hin hentered
    obtain ⟨hl', hcontinues⟩ := henter.linked hc hl
    exact henter.trans hc
      (works_recordResult hshows (by rw [hcontinues.size_entries]; exact hin) hl' guards v)

theorem works_heap {h : Heap} (hallows : R.allows w.heap h) (c : CacheId) :
    Works R resets turns c w { w with heap := h } := by
  refine ⟨_, Bench.Move.moves (Bench.Move.heap (b := w.bench c) hallows), ?_⟩
  have hself := congrArg (fun x : World σ => { x with heap := h }) (putBench_bench w c)
  exact hself.symm

private theorem putBench_setUpdate (hc : w.HasCache c) (t : TypeChain) (env : AttachEnv)
    (group : GroupId) (key : PropertyKey) :
    ((w.setAttachEnv c env).mapCache c fun cache =>
      { cache with updates := cache.updates.set (group, key) t }) =
    w.putBench c ((w.bench c).setUpdate group key t env) := by
  rw [setAttachEnv_eq, mapCache_eq, bench_putBench hc, putBench_putBench,
    cache_eq_of_get? (get?_putBench_self hc _)]
  rfl

/-- Recording a write asks the chain of its property, or one that is made for it. -/
theorem recordWrite_eq (hc : w.HasCache c) {t : TypeChain} {arena : Arena} {group : GroupId}
    {key : PropertyKey} (hchain : (w.cache c).updates.find? (group, key) = some t ∧
        arena = (w.cache c).arena ∨
      (w.cache c).updates.find? (group, key) = none ∧
        TypeChain.create (w.cache c).arena .update = (t, arena)) {v : Value} {accepted : Bool}
    {t' : TypeChain} {h : Heap} {env : AttachEnv}
    (hr : t.recordWrite w.heap { w.attachEnv c with arena := arena } group key v =
      (accepted, t', h, env)) :
    w.recordWrite c group key v =
      (accepted, w.putBench c { (w.bench c).setUpdate group key t' env with heap := h }) := by
  rcases hchain with ⟨hfind, rfl⟩ | ⟨hnone, hcreate⟩
  · have hr' : t.recordWrite w.heap { w.attachEnv c with arena := (w.attachEnv c).arena } group key v
        = (accepted, t', h, env) := hr
    simp only [recordWrite, hfind, hr']
    rw [putBench_setUpdate (w := { w with heap := h }) hc]
    rfl
  · have hcreate' : TypeChain.create (w.attachEnv c).arena .update = (t, arena) := hcreate
    simp only [recordWrite, hnone, hcreate', hr]
    rw [putBench_setUpdate (w := { w with heap := h }) hc]
    rfl

/-- A write is shown to the type guards of the property, or to new ones if it is the first. -/
theorem recordWrite_cases (hc : w.HasCache c) (hl : (w.cache c).Linked) (group : GroupId)
    (key : PropertyKey) (v : Value) :
    (∃ t accepted t' h env, (w.cache c).updates.find? (group, key) = some t ∧
      t.chain.Sound (w.cache c).arena ∧
      t.recordWrite w.heap (w.attachEnv c) group key v = (accepted, t', h, env) ∧
      w.recordWrite c group key v =
        (accepted, w.putBench c { (w.bench c).setUpdate group key t' env with heap := h })) ∨
    ∃ t arena accepted t' h env, (w.cache c).updates.find? (group, key) = none ∧
      TypeChain.create (w.cache c).arena .update = (t, arena) ∧
      t.recordWrite w.heap { w.attachEnv c with arena := arena } group key v = (accepted, t', h, env) ∧
      w.recordWrite c group key v =
        (accepted, w.putBench c { (w.bench c).setUpdate group key t' env with heap := h }) := by
  cases hfind : (w.cache c).updates.find? (group, key) with
  | some t =>
    cases hr : t.recordWrite w.heap (w.attachEnv c) group key v with
    | mk accepted r =>
    obtain ⟨t', h, env⟩ := r
    exact .inl ⟨t, accepted, t', h, env, rfl,
      hl.sound (p := .update group key) (by simp [UnitCache.chain?, hfind]), hr,
      recordWrite_eq hc (.inl ⟨hfind, rfl⟩) hr⟩
  | none =>
    cases hcreate : TypeChain.create (w.cache c).arena .update with
    | mk t arena =>
    cases hr : t.recordWrite w.heap { w.attachEnv c with arena := arena } group key v with
    | mk accepted r =>
    obtain ⟨t', h, env⟩ := r
    exact .inr ⟨t, arena, accepted, t', h, env, rfl, rfl, hr, recordWrite_eq hc (.inr ⟨hfind, hcreate⟩) hr⟩

/-- Recording a write may make a chain for the property first. -/
theorem works_recordWrite {group : GroupId} {key : PropertyKey} (hshows : R.shows (.write group key))
    (hc : w.HasCache c) (hl : (w.cache c).Linked) (hwrites : R.writes w.heap group) (v : Value) :
    Works R resets turns c w (w.recordWrite c group key v).2 := by
  obtain ⟨t, accepted, t', h, env, hfind, hsound, hr, heq⟩ |
    ⟨t, a, accepted, t', h, env, hnone, hcreate, hr, heq⟩ := recordWrite_cases hc hl group key v
  · have hmove : Bench.Move R resets turns (w.bench c) _ := .update hshows hfind
      (TypeChain.recordWrite_edited hr hl.arena hsound) hr
    rw [heq]
    exact ⟨_, hmove.moves, rfl⟩
  · obtain ⟨hedit, hsound, -⟩ := TypeChain.create_spec hl.arena hcreate
    rw [heq]
    refine ⟨_, ?_, rfl⟩
    let made : Bench := (w.bench c).setUpdate group key t { w.attachEnv c with arena := a }
    have hnew : Bench.Move R resets turns (w.bench c) made := .newUpdate hwrites hnone hcreate
    have hupdate : Bench.Move R resets turns made
        { made.setUpdate group key t' env with heap := h } :=
      .update hshows (by simp [made, Bench.setUpdate])
        (TypeChain.recordWrite_edited hr hedit.wellLinked hsound) hr
    rw [Bench.setUpdate_setUpdate] at hupdate
    exact hnew.moves.tail hupdate

/-- Scripts see nothing of the types that are recorded. -/
theorem seen_recordWrite (w : World σ) (c : CacheId) (group : GroupId) (key : PropertyKey)
    (v : Value) : (w.recordWrite c group key v).2.heap.seen = w.heap.seen := by
  have hshown (t : TypeChain) (a : Arena) :
      (t.recordWrite w.heap { w.attachEnv c with arena := a } group key v).2.2.1.seen =
        w.heap.seen := by
    cases hr : t.recordWrite w.heap { w.attachEnv c with arena := a } group key v
    exact TypeChain.seen_recordWrite hr
  exact hshown _ _

private theorem hasCache_of_updates {p : GroupId × PropertyKey} {t : TypeChain}
    (h : (w.cache c).updates.find? p = some t) : w.HasCache c := by
  cases hget : w.caches.get? c with
  | some cache => exact ⟨cache, hget⟩
  | none =>
    rw [World.cache, Table.get, hget] at h
    cases h

/-- Recording a write that is accepted at once changes nothing. -/
theorem recordWrite_of_accepts {group : GroupId} {key : PropertyKey} {v : Value}
    (haccepts : (w.cache c).updateAccepts w.heap group key v = true) :
    (w.recordWrite c group key v).2 = w := by
  unfold UnitCache.updateAccepts at haccepts
  obtain ⟨t, hfind, hv⟩ := (Option.any_eq_true _ _).1 haccepts
  have hc := hasCache_of_updates hfind
  have hr : t.recordWrite w.heap (w.attachEnv c) group key v = (true, t, w.heap, w.attachEnv c) := by
    unfold TypeChain.recordWrite
    exact if_pos hv
  have hsame : { (w.bench c).setUpdate group key t (w.attachEnv c) with heap := w.heap } =
      w.bench c := by
    have hupdates := Assoc.set_of_find? _ hfind
    simp only [Bench.setUpdate, Bench.setEnv, bench, attachEnv, hupdates]
  rw [recordWrite_eq hc (.inl ⟨hfind, rfl⟩) hr, hsame, putBench_bench]

end InlineCache.World
