import InlineCache.Proofs.Entry.Attempt
import InlineCache.Proofs.World.Course

namespace InlineCache

namespace World

variable {σ : Type} {w w' w'' : World σ} {c d : CacheId} {index : Nat} {touched : ChainPlace → Prop}
  {decision : Decision}

/-- How far an entry is specialized. -/
def stateAt (w : World σ) (c : CacheId) (index : Nat) : AttachState := ((w.cache c).entry index).state

/-- The stubs of an entry, in the order in which their guards are asked. -/
def stubsAt (w : World σ) (c : CacheId) (index : Nat) : List Stub :=
  ((w.cache c).entry index).chain.stubs (w.cache c).arena

/-- An entry has the same stubs in another state. -/
structure SameStubs (c : CacheId) (index : Nat) (w w' : World σ) : Prop where
  state : w'.stateAt c index = w.stateAt c index
  stubs : w'.stubsAt c index = w.stubsAt c index

/-- An entry has no new stubs in another state, and is no further, unless it starts anew. -/
structure Sheds (c : CacheId) (index : Nat) (w w' : World σ) : Prop where
  state : (w'.stateAt c index).mode = (w.stateAt c index).mode ∧
      (w'.stateAt c index).failures = (w.stateAt c index).failures ∨
    (w'.stateAt c index).mode = .uninitialized ∧ (w'.stateAt c index).failures = 0
  stubs : (w'.stubsAt c index).Sublist (w.stubsAt c index)

theorem SameStubs.refl (c : CacheId) (index : Nat) (w : World σ) : SameStubs c index w w := ⟨rfl, rfl⟩

theorem SameStubs.sheds (h : SameStubs c index w w') : Sheds c index w w' :=
  ⟨.inl ⟨by rw [h.state], by rw [h.state]⟩, by rw [h.stubs]⟩

theorem Sheds.trans (h : Sheds c index w w') (h' : Sheds c index w' w'') : Sheds c index w w'' := by
  refine ⟨?_, h'.stubs.trans h.stubs⟩
  rcases h'.state with ⟨hmode, hfailures⟩ | hstarts
  · rw [hmode, hfailures]
    exact h.state
  · exact .inr hstarts

theorem sameStubs_of_cache (h : w'.cache c = w.cache c) : SameStubs c index w w' :=
  ⟨by rw [stateAt, stateAt, h], by rw [stubsAt, stubsAt, h]⟩

theorem cache_eq_of_caches (h : w'.caches.get? c = w.caches.get? c) : w'.cache c = w.cache c := by
  rw [World.cache, World.cache, Table.get, Table.get, h]

theorem Works.sameStubs_of_ne {R : Rules} {resets turns : Prop} (h : Works R resets turns d w w')
    (hne : c ≠ d) : SameStubs c index w w' := by
  obtain ⟨-, -, -, hothers⟩ := h.same
  exact sameStubs_of_cache (cache_eq_of_caches (hothers c hne))

private theorem sameStubs_of_confined (hin : index < (w.cache c).entries.size)
    (hin' : index < (w'.cache c).entries.size) (h : (w.cache c).Confined touched (w'.cache c))
    (hmain : ¬ touched (.main index)) : SameStubs c index w w' :=
  ⟨h.state_eq hmain, (h.main_eq hmain hin hin').2.2⟩

/-- Work elsewhere leaves the stubs of an entry alone. -/
theorem Within.sameStubs (hat : w.At c index) (h : Within d touched w w')
    (hmain : d = c → ¬ touched (.main index)) : SameStubs c index w w' := by
  by_cases hd : c = d
  · subst hd
    exact sameStubs_of_confined hat.lt (hat.within h).lt h.confined (hmain rfl)
  · exact h.works.sameStubs_of_ne hd

theorem Within.sameStubs_beside {write : Option (GroupId × PropertyKey × Value)} (hat : w.At c index)
    (h : Within c (Beside index write) w w') : SameStubs c index w w' :=
  h.sameStubs hat fun _ => by rintro (heq | ⟨_, _, _, _, heq⟩) <;> cases heq

/-- What work on an entry makes of its stubs. -/
theorem stubs_onEntry {α : Type} (hat : w.At c index) {f : Entry → AttachEnv → α × Entry × AttachEnv}
    {a : α} {e : Entry} {env : AttachEnv} (hf : f ((w.cache c).entry index) (w.attachEnv c) = (a, e, env)) :
    (w.onEntry c index f).2.stateAt c index = e.state ∧
      (w.onEntry c index f).2.stubsAt c index = e.chain.stubs env.arena := by
  have hentry : ((w.bench c).setEntry index e env).cache.entry index = e :=
    UnitCache.entry_setEntry_self (c := ((w.bench c).setEnv env).cache) hat.lt e
  rw [onEntry_eq hat.hasCache hf, stateAt, stubsAt, cache_putBench hat.hasCache, hentry]
  exact ⟨rfl, rfl⟩

/-- What is decided at an operation is no end of a chain. -/
theorem DecidedFor.isFallback (h : w.DecidedFor c index decision) (recipe : Recipe)
    (hrecipe : decision.recipe? = some recipe) : recipe.kind.isFallback = false := by
  obtain ⟨_, _, hfits⟩ := h recipe hrecipe
  exact Rules.open.fits_kind hfits

/-- What one attempt makes of an entry. -/
theorem attempt_spec (hat : w.At c index) (hdecided : w.DecidedFor c index decision) :
    (w.stateAt c index).Attempted w.runtime.config decision (w.attempt c index decision).1
        ((w.attempt c index decision).2.stateAt c index) ∧
      ((w.attempt c index decision).2.stubsAt c index = w.stubsAt c index ∨
        (w.attempt c index decision).1 ≠ .deferred ∧
          ((w.attempt c index decision).2.stubsAt c index = [] ∨
            decision.Adds w.runtime.codeCache.Honest (w.stubsAt c index)
              ((w.attempt c index decision).2.stubsAt c index))) := by
  cases ha : ((w.cache c).entry index).attempt (w.attachEnv c) decision with
  | mk outcome r =>
  obtain ⟨e, env⟩ := r
  obtain ⟨hstate, hstubs⟩ := stubs_onEntry (f := fun entry env => entry.attempt env decision) hat ha
  have houtcome : (w.attempt c index decision).1 = outcome := by rw [attempt, onEntry_eq hat.hasCache ha]
  rw [houtcome, attempt, hstate, hstubs]
  exact Entry.attempt_spec hat.linked.arena (hat.linked.sound (UnitCache.chain?_main hat.lt))
    hdecided.isFallback ha

/-- What settling an attempt makes of an entry. -/
theorem settle_spec (hat : w.At c index) (hdecided : w.DecidedFor c index decision) :
    (w.settle c index decision).stateAt c index = (w.stateAt c index).countAttached ∧
        decision.Adds w.runtime.codeCache.Honest (w.stubsAt c index)
          ((w.settle c index decision).stubsAt c index) ∨
      (w.settle c index decision).stateAt c index = (w.stateAt c index).countFailure ∧
        (w.settle c index decision).stubsAt c index = w.stubsAt c index := by
  cases hs : ((w.cache c).entry index).settle (w.attachEnv c) decision with
  | mk e env =>
  obtain ⟨hstate, hstubs⟩ := stubs_onEntry (f := fun entry env => ((), entry.settle env decision)) hat
    (congrArg (Prod.mk ()) hs)
  rw [settle, hstate, hstubs]
  exact Entry.settle_spec hat.linked.arena (hat.linked.sound (UnitCache.chain?_main hat.lt))
    hdecided.isFallback hs

/-- Taking the stubs of a signature out of an entry. -/
theorem sheds_unlinkStubs (hat : w.At c index) (signature : Signature) :
    Sheds c index w (w.unlinkStubs c index signature).2 := by
  have hsound := hat.linked.sound (UnitCache.chain?_main hat.lt)
  cases hu : ((w.cache c).entry index).chain.unlinkMatching (w.cache c).arena w.runtime.zone
    fun s => s.kind.signature? = some signature with
  | mk removed r =>
  obtain ⟨chain, arena, zone⟩ := r
  have hunlink : ((w.cache c).entry index).unlinkSignature (w.attachEnv c) signature =
      (removed, ((w.cache c).entry index).noteRemoved
        { w.attachEnv c with arena := arena, runtime := { w.runtime with zone := zone } } removed chain) := by
    simp only [Entry.unlinkSignature, attachEnv, hu]
  obtain ⟨hstate, hstubs⟩ := stubs_onEntry (f := fun entry env => entry.unlinkSignature env signature)
    hat hunlink
  refine ⟨.inl ?_, ?_⟩
  · rw [unlinkStubs, hstate]
    exact ⟨rfl, rfl⟩
  · rw [unlinkStubs, hstubs]
    change (chain.stubs arena).Sublist _
    rw [Chain.stubs_unlinkMatching hat.linked.arena hsound hu]
    exact List.filter_sublist

/-- After an entry was purged it has no stubs and starts anew. -/
theorem sheds_purgeEntry (hat : w.At c index) {purged : Nat}
    (hpurged : purged < (w.cache c).entries.size) :
    Sheds c index w (w.onEntry c purged fun entry env => ((), entry.purge env)).2 := by
  have hsound := hat.linked.sound (UnitCache.chain?_main hpurged)
  have hat' : w.At c purged := ⟨hpurged, hat.linked⟩
  cases hd : ((w.cache c).entry purged).discard (w.attachEnv c) with
  | mk e env =>
  have hpurge : ((), ((w.cache c).entry purged).purge (w.attachEnv c)) =
      ((), { e with state := .initial }, env) := by
    rw [Entry.purge, hd]
  by_cases hindex : index = purged
  · subst hindex
    obtain ⟨hstate, hstubs⟩ := stubs_onEntry (f := fun entry env => ((), entry.purge env)) hat hpurge
    have hnone := Entry.stubIds_discard hat.linked.arena hsound hd
    refine ⟨.inr ?_, ?_⟩
    · rw [hstate]
      exact ⟨rfl, rfl⟩
    · rw [hstubs, Chain.stubs, hnone]
      exact List.nil_sublist _
  · have hmoves : Entry.Moves (fun _ => False) ((w.cache c).entry purged) (w.attachEnv c) e env :=
      Entry.discard_moves hd
    obtain ⟨hedit, hmonitor⟩ := hmoves.editedTo (fun _ h => h.elim) hat.linked.arena hsound
    have hconfined : (w.cache c).Confined (· = .main purged)
        ((w.bench c).setEntry purged { e with state := .initial } env).cache :=
      Bench.confined_main (b := w.bench c) hat.linked hpurged hedit hmonitor
    rw [← cache_putBench hat.hasCache ((w.bench c).setEntry purged { e with state := .initial } env)]
      at hconfined
    have hworks : Works .open True True c w
        (w.onEntry c purged fun entry env => ((), entry.purge env)).2 :=
      works_purgeEntry trivial hpurged hat.linked
    have hin := (hat.works hworks).lt
    rw [onEntry_eq (f := fun entry env => ((), entry.purge env)) hat.hasCache hpurge] at hin ⊢
    refine (sameStubs_of_confined hat.lt hin hconfined fun heq => ?_).sheds
    cases heq
    exact hindex rfl

theorem sheds_purge (hat : w.At c index) : Sheds c index w (w.purge c) := by
  have hfold (indices : List Nat) : ∀ {w' : World σ}, w'.At c index →
      (∀ i ∈ indices, i < (w'.cache c).entries.size) →
      Sheds c index w' (indices.foldl
        (fun w index => (w.onEntry c index fun entry env => ((), entry.purge env)).2) w') := by
    induction indices with
    | nil => exact fun _ _ => (SameStubs.refl c index _).sheds
    | cons i indices ih =>
      intro w' hat' hbound
      have hi := hbound i List.mem_cons_self
      have hworks : Works .open True True c w'
          (w'.onEntry c i fun entry env => ((), entry.purge env)).2 :=
        works_purgeEntry trivial hi hat'.linked
      obtain ⟨-, hcontinues⟩ := hworks.linked hat'.hasCache hat'.linked
      refine (sheds_purgeEntry hat' hi).trans (ih (hat'.works hworks) fun j hj => ?_)
      rw [hcontinues.size_entries]
      exact hbound j (List.mem_cons_of_mem _ hj)
  exact hfold _ hat fun i hi => List.mem_range.1 hi

end World

end InlineCache
