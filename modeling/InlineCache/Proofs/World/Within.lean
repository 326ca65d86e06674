import InlineCache.Proofs.Bench.Confined
import InlineCache.Proofs.World.Parts

namespace InlineCache.World

variable {σ : Type} {c : CacheId} {index : Nat} {touched touched' : ChainPlace → Prop}
  {w w' w'' : World σ}

/-- `w'` is what became of `w` by work on the chains of a unit at some places. -/
structure Within (c : CacheId) (touched : ChainPlace → Prop) (w w' : World σ) : Prop where
  works : Works .open False True c w w'
  confined : (w.cache c).Confined touched (w'.cache c)

theorem Within.refl (c : CacheId) (touched : ChainPlace → Prop) (w : World σ) : Within c touched w w :=
  ⟨.refl w c, .refl touched _⟩

theorem Within.trans (hc : w.HasCache c) (h : Within c touched w w') (h' : Within c touched w' w'') :
    Within c touched w w'' :=
  ⟨h.works.trans hc h'.works, h.confined.trans h'.confined⟩

theorem Within.mono (h : Within c touched w w') (htouched : ∀ p, touched p → touched' p) :
    Within c touched' w w' :=
  ⟨h.works, h.confined.mono htouched⟩

theorem cache_putBench (hc : w.HasCache c) (b : Bench) : (w.putBench c b).cache c = b.cache :=
  cache_eq_of_get? (get?_putBench_self hc b)

/-- Work on the stubs of an entry. -/
theorem within_onEntry {α : Type} (hat : w.At c index) {f : Entry → AttachEnv → α × Entry × AttachEnv}
    {a : α} {e : Entry} {env : AttachEnv} (hf : f ((w.cache c).entry index) (w.attachEnv c) = (a, e, env))
    (hmoves : Entry.Moves (fun recipe => w.Linkable .open c index recipe) ((w.cache c).entry index)
      (w.attachEnv c) e env) : Within c (· = .main index) w (w.onEntry c index f).2 := by
  have hsound := hat.linked.sound (UnitCache.chain?_main hat.lt)
  obtain ⟨hedit, hmonitor⟩ := hmoves.editedTo
    (fun recipe ⟨_, _, hfits⟩ => Rules.open.fits_kind hfits) hat.linked.arena hsound
  rw [onEntry_eq hat.hasCache hf]
  refine ⟨⟨_, Bench.moves_of_entry (b := w.bench c) hat.lt hmoves, rfl⟩, ?_⟩
  rw [cache_putBench hat.hasCache]
  exact Bench.confined_main (b := w.bench c) hat.linked hat.lt hedit hmonitor

/-- A decision is about the operation of an entry. -/
def DecidedFor (w : World σ) (c : CacheId) (index : Nat) (decision : Decision) : Prop :=
  ∀ recipe, decision.recipe? = some recipe → w.Linkable .open c index recipe

theorem within_attempt (hat : w.At c index) {decision : Decision}
    (hdecided : w.DecidedFor c index decision) :
    Within c (· = .main index) w (w.attempt c index decision).2 := by
  cases ha : ((w.cache c).entry index).attempt (w.attachEnv c) decision with
  | mk outcome r =>
  obtain ⟨e, env⟩ := r
  have hmoves := Entry.attempt_moves hat.linked.arena
    (hat.linked.sound (UnitCache.chain?_main hat.lt)) ha
  exact within_onEntry hat ha (hmoves.mono hdecided)

theorem within_settle (hat : w.At c index) {decision : Decision}
    (hdecided : w.DecidedFor c index decision) :
    Within c (· = .main index) w (w.settle c index decision) := by
  cases hs : ((w.cache c).entry index).settle (w.attachEnv c) decision with
  | mk e env =>
  exact within_onEntry (a := ()) hat (congrArg (Prod.mk ()) hs) ((Entry.settle_moves hs).mono hdecided)

theorem within_unlinkStubs (hat : w.At c index) (signature : Signature) :
    Within c (· = .main index) w (w.unlinkStubs c index signature).2 := by
  cases hu : ((w.cache c).entry index).unlinkSignature (w.attachEnv c) signature with
  | mk removed r =>
  obtain ⟨e, env⟩ := r
  exact within_onEntry hat hu (Entry.unlinkSignature_moves hu)

/-- What is counted for the unit is no matter of any chain. -/
theorem within_mapCounters (hc : w.HasCache c) {f : Counters → Counters}
    (hattached : ∀ n, (f n).stubsAttached = n.stubsAttached)
    (hdiscarded : ∀ n, (f n).stubsDiscarded = n.stubsDiscarded)
    (hoom : ∀ n, (f n).oomRecoveries = n.oomRecoveries) :
    Within c touched w (w.mapCounters c f) := by
  refine ⟨works_mapCounters hattached hdiscarded hoom, ?_⟩
  rw [mapCounters_eq, cache_putBench hc]
  exact (Bench.confined_count (b := w.bench c) rfl).mono fun _ h => h.elim

theorem within_mapEntry (hat : w.At c index) {f : Entry → Entry}
    (hchain : ∀ e, (f e).chain = e.chain) (hstate : ∀ e, (f e).state = e.state)
    (hmonitor : ∀ e, (f e).monitor = e.monitor) :
    Within c (· = .monitor index) w (w.mapEntry c index f) := by
  refine ⟨works_mapEntry hat.lt hchain hstate hmonitor (.inl trivial), ?_⟩
  rw [mapEntry_eq, cache_putBench hat.hasCache]
  exact Bench.confined_tally (b := w.bench c) hat.lt (hchain _) (hstate _) (hmonitor _) rfl

private theorem within_enter (hat : w.At c index) : Within c (· = .monitor index) w (w.enter c index) :=
  within_mapEntry hat (fun _ => rfl) (fun _ => rfl) fun _ => rfl

theorem At.within (h : w.At c index) (hw : Within c touched w w') : w'.At c index := h.works hw.works

theorem within_enterFallback (hat : w.At c index) :
    Within c (· = .monitor index) w (w.enterFallback c index) := by
  have hcount : Within c (· = .monitor index) w
      (w.mapCounters c fun n => { n with fallbackHits := n.fallbackHits + 1 }) :=
    within_mapCounters hat.hasCache (fun _ => rfl) (fun _ => rfl) fun _ => rfl
  exact hcount.trans hat.hasCache (within_enter (hat.within hcount))

theorem within_recordResult (hat : w.At c index) (guards : List TypeGuard) (v : Value) :
    Within c (· = .monitor index) w (w.recordResult c index guards v) := by
  refine ⟨works_recordResult trivial hat.lt hat.linked guards v, ?_⟩
  obtain ⟨-, heq⟩ | ⟨m, m', env, -, hm, hsound, hr, heq⟩ := recordResult_cases hat.lt hat.linked guards v
  · rw [heq]
    exact .refl _ _
  · have hedit := Monitor.record_edited hr hat.linked.arena hsound
    rw [heq, cache_putBench hat.hasCache]
    exact Bench.confined_monitor (b := w.bench c) hat.linked hat.lt hm hedit.chain

theorem within_watch (hat : w.At c index) (guards : List TypeGuard) (v : Value) :
    Within c (· = .monitor index) w (w.watch c index guards v) := by
  unfold watch
  split
  · exact .refl _ _ _
  · have henter := within_enter hat
    exact henter.trans hat.hasCache (within_recordResult (hat.within henter) guards v)

theorem within_heap {h : Heap} (c : CacheId) : Within c touched w { w with heap := h } :=
  ⟨works_heap trivial c, .refl _ _⟩

/-- Work on the type guards over the writes to a property, which may be new. -/
theorem within_recordWrite (hc : w.HasCache c) (hl : (w.cache c).Linked) (group : GroupId)
    (key : PropertyKey) (v : Value) :
    Within c (· = .update group key) w (w.recordWrite c group key v).2 := by
  refine ⟨works_recordWrite trivial hc hl trivial v, ?_⟩
  obtain ⟨t, accepted, t', h, env, hfind, hsound, hr, heq⟩ |
    ⟨t, a, accepted, t', h, env, hnone, hcreate, hr, heq⟩ := recordWrite_cases hc hl group key v
  · have hedit := TypeChain.recordWrite_edited hr hl.arena hsound
    rw [heq, cache_putBench hc]
    exact Bench.confined_update (b := w.bench c) hl (Bench.editedAt_update hfind hedit.chain)
  · obtain ⟨hedit, hsound, -⟩ := TypeChain.create_spec hl.arena hcreate
    rw [heq, cache_putBench hc]
    let made : Bench := (w.bench c).setUpdate group key t { w.attachEnv c with arena := a }
    have hnew : (w.bench c).cache.EditedAt (.update group key) made.cache t.chain :=
      Bench.editedAt_newUpdate hl.arena hnone hcreate
    have hupdate : made.cache.EditedAt (.update group key) (made.setUpdate group key t' env).cache t'.chain :=
      Bench.editedAt_update (by simp [made, Bench.setUpdate])
        (TypeChain.recordWrite_edited hr hedit.wellLinked hsound).chain
    have hconfined := (Bench.confined_update (b := w.bench c) hl hnew).trans
      (Bench.confined_update (hl.edited hnew) hupdate)
    rw [Bench.setUpdate_setUpdate] at hconfined
    exact hconfined

theorem within_showWrite (hc : w.HasCache c) (hl : (w.cache c).Linked)
    (write : Option (GroupId × PropertyKey × Value)) :
    Within c (fun p => ∃ group key v, write = some (group, key, v) ∧ p = .update group key) w
      (w.showWrite c write) := by
  cases write with
  | none => exact .refl _ _ _
  | some written =>
    obtain ⟨group, key, v⟩ := written
    exact (within_recordWrite hc hl group key v).mono fun _ hp => ⟨group, key, v, rfl, hp⟩

end InlineCache.World
