import InlineCache.Proofs.UnitCache.Linked

namespace InlineCache

/-- What work on the caches of one unit reads and changes. -/
structure Bench where
  heap : Heap
  runtime : Runtime
  cache : UnitCache

/-- What work on caches is held to. -/
structure Rules where
  /-- What may become of a heap. -/
  allows : Heap → Heap → Prop
  /-- Which stubs may be linked at an operation. -/
  fits : Heap → SiteOperation → Recipe → Prop
  /-- The groups to whose properties writes are recorded. -/
  writes : Heap → GroupId → Prop := fun _ _ => True
  /-- The type guards that values are shown to. -/
  shows : Watch → Prop := fun _ => True
  /-- The end of a chain is never linked as a stub. -/
  fits_kind : ∀ {h : Heap} {op : SiteOperation} {recipe : Recipe}, fits h op recipe →
    recipe.kind.isFallback = false

/-- Whatever the first rules let be done, the second ones let be done as well. -/
structure Rules.Tightens (R R' : Rules) : Prop where
  allows : ∀ {h h' : Heap}, R.allows h h' → R'.allows h h'
  fits : ∀ {h : Heap} {op : SiteOperation} {recipe : Recipe}, R.fits h op recipe → R'.fits h op recipe
  writes : ∀ {h : Heap} {group : GroupId}, R.writes h group → R'.writes h group
  shows : ∀ {p : Watch}, R.shows p → R'.shows p

theorem Rules.Tightens.refl (R : Rules) : R.Tightens R := ⟨id, id, id, id⟩

/-- Rules that leave everything open but what a stub may be. -/
def Rules.open : Rules where
  allows _ _ := True
  fits _ _ recipe := ∃ flavor, recipe.kind = .specialized recipe.signature flavor
  fits_kind := by
    rintro _ _ recipe ⟨flavor, hkind⟩
    rw [hkind]
    rfl

/-- The rules under which values are shown to some type guards only. -/
def Rules.showing (R : Rules) (shows : Watch → Prop) : Rules := { R with shows := shows }

namespace Bench

def env (b : Bench) : AttachEnv := ⟨b.cache.arena, b.cache.counters, b.runtime⟩

def setEnv (b : Bench) (env : AttachEnv) : Bench :=
  { b with
    runtime := env.runtime
    cache := { b.cache with arena := env.arena, counters := env.counters } }

def setEntry (b : Bench) (index : Nat) (e : Entry) (env : AttachEnv) : Bench :=
  { b.setEnv env with cache := (b.setEnv env).cache.setEntry index e }

def setUpdate (b : Bench) (group : GroupId) (key : PropertyKey) (t : TypeChain) (env : AttachEnv) :
    Bench :=
  { b.setEnv env with
    cache := { (b.setEnv env).cache with updates := b.cache.updates.set (group, key) t } }

/-- One small change. Whether entries may start anew, and whether turns of loops may be counted, is said
apart from the rules, since it hangs on what the work is for. Uses of entries, recorded writes,
unlinking and purging are all made of these, so an invariant of caches is looked at kind by kind, and
once. -/
inductive Move (R : Rules) (resets turns : Prop) : Bench → Bench → Prop where
  /-- The stubs of an entry change, or how far it is specialized. -/
  | entry {b : Bench} {index : Nat} {e' : Entry} {env' : AttachEnv}
      (hin : index < b.cache.entries.size)
      (hmove : Entry.Move (fun recipe => ∃ op, (b.cache.site index).role = .operation op ∧
        R.fits b.heap op recipe) (b.cache.entry index) b.env e' env') :
      Move R resets turns b (b.setEntry index e' env')
  /-- Something that happened at an entry is noted. -/
  | tally {b : Bench} {index : Nat} {e' : Entry} {env' : AttachEnv}
      (hin : index < b.cache.entries.size) (hchain : e'.chain = (b.cache.entry index).chain)
      (hstate : e'.state = (b.cache.entry index).state)
      (hmonitor : e'.monitor = (b.cache.entry index).monitor)
      (hentered : turns ∨ (b.cache.site index).role ≠ .loopCounter) (henv : b.env.SameStubs env') :
      Move R resets turns b (b.setEntry index e' env')
  /-- Something that happened in the unit is noted. -/
  | count {b : Bench} {env' : AttachEnv} (henv : b.env.SameStubs env') : Move R resets turns b (b.setEnv env')
  /-- The guards over the results of an entry widen. -/
  | monitor {b : Bench} {index : Nat} {m m' : Monitor} {env' : AttachEnv} {v : Value}
      (hshows : R.shows (.result index)) (hin : index < b.cache.entries.size)
      (hold : (b.cache.entry index).monitor = some m)
      (hedit : m.chain.Edited b.env m'.chain env') (hrecord : m.record b.heap b.env v = (m', env')) :
      Move R resets turns b (b.setEntry index { b.cache.entry index with monitor := some m' } env')
  /-- The guards over the writes to a property widen, and so do the types recorded for it. -/
  | update {b : Bench} {group : GroupId} {key : PropertyKey} {t t' : TypeChain} {env' : AttachEnv}
      {h' : Heap} {v : Value} {accepted : Bool} (hshows : R.shows (.write group key))
      (hold : b.cache.updates.find? (group, key) = some t) (hedit : t.Edited b.env t' env')
      (hrecord : t.recordWrite b.heap b.env group key v = (accepted, t', h', env')) :
      Move R resets turns b { b.setUpdate group key t' env' with heap := h' }
  /-- A property is written for the first time. -/
  | newUpdate {b : Bench} {group : GroupId} {key : PropertyKey} {t : TypeChain} {a : Arena}
      (hwrites : R.writes b.heap group) (hnone : b.cache.updates.find? (group, key) = none)
      (hcreate : TypeChain.create b.cache.arena .update = (t, a)) :
      Move R resets turns b (b.setUpdate group key t { b.env with arena := a })
  | heap {b : Bench} {h : Heap} (hallows : R.allows b.heap h) : Move R resets turns b { b with heap := h }
  /-- An entry without stubs starts anew. -/
  | reset {b : Bench} {index : Nat} (hresets : resets) (hin : index < b.cache.entries.size)
      (hnone : (b.cache.entry index).chain.stubIds b.cache.arena = []) :
      Move R resets turns b (b.setEntry index { b.cache.entry index with state := .initial } b.env)

/-- Some moves, one after the other. -/
inductive Moves (R : Rules) (resets turns : Prop) : Bench → Bench → Prop where
  | refl {b : Bench} : Moves R resets turns b b
  | tail {b b' b'' : Bench} (h : Moves R resets turns b b') (h' : Move R resets turns b' b'') :
      Moves R resets turns b b''

section

variable {R : Rules} {resets turns : Prop} {b b' b'' : Bench}

theorem Move.moves (h : Move R resets turns b b') : Moves R resets turns b b' := .tail .refl h

theorem Moves.trans (h : Moves R resets turns b b') (h' : Moves R resets turns b' b'') :
    Moves R resets turns b b'' := by
  induction h' with
  | refl => exact h
  | tail _ hmove ih => exact .tail ih hmove

theorem Move.mono {R' : Rules} {resets' turns' : Prop} (hR : R.Tightens R')
    (hresets : resets → resets') (hturns : turns → turns')
    (h : Move R resets turns b b') : Move R' resets' turns' b b' := by
  cases h with
  | entry hin hmove =>
    refine .entry hin (hmove.mono fun recipe => ?_)
    exact fun ⟨op, hrole, hfits⟩ => ⟨op, hrole, hR.fits hfits⟩
  | tally hin hchain hstate hmonitor hentered henv =>
    exact .tally hin hchain hstate hmonitor (hentered.imp_left hturns) henv
  | count henv => exact .count henv
  | monitor hshows hin hold hedit hrecord => exact .monitor (hR.shows hshows) hin hold hedit hrecord
  | update hshows hold hedit hrecord => exact .update (hR.shows hshows) hold hedit hrecord
  | newUpdate hwrites hnone hcreate => exact .newUpdate (hR.writes hwrites) hnone hcreate
  | heap hallows => exact .heap (hR.allows hallows)
  | reset hr hin hnone => exact .reset (hresets hr) hin hnone

theorem Moves.mono {R' : Rules} {resets' turns' : Prop} (hR : R.Tightens R')
    (hresets : resets → resets') (hturns : turns → turns')
    (h : Moves R resets turns b b') : Moves R' resets' turns' b b' := by
  induction h with
  | refl => exact .refl
  | tail _ hmove ih => exact .tail ih (hmove.mono hR hresets hturns)

@[simp] theorem env_setEntry (b : Bench) (index : Nat) (e : Entry) (env : AttachEnv) :
    (b.setEntry index e env).env = env := rfl

theorem setEntry_setEntry (b : Bench) (index : Nat) (e e' : Entry) (env env' : AttachEnv) :
    (b.setEntry index e env).setEntry index e' env' = b.setEntry index e' env' := by
  simp [setEntry, setEnv, UnitCache.setEntry]

theorem setEntry_self (b : Bench) (index : Nat) :
    b.setEntry index (b.cache.entry index) b.env = b := by
  have hentries : b.cache.entries.setIfInBounds index (b.cache.entry index) = b.cache.entries := by
    apply Array.ext_getElem?
    intro i
    rw [Array.getElem?_setIfInBounds]
    split
    · next hi =>
      subst hi
      split
      · next hin => simp [UnitCache.entry, hin]
      · next hin => rw [Array.getElem?_eq_none (Nat.le_of_not_lt hin)]
    · rfl
  have hcache : b.cache.setEntry index (b.cache.entry index) = b.cache := by
    rw [UnitCache.setEntry, hentries]
  exact congrArg (fun cache => { b with cache := cache }) hcache

/-- What an entry keeps when it is replaced, all entries keep. -/
theorem entry_setEntry_congr {α : Type} (f : Entry → α) {index : Nat} {e' : Entry} {env' : AttachEnv}
    (hin : index < b.cache.entries.size) (hf : f e' = f (b.cache.entry index)) (other : Nat) :
    f ((b.setEntry index e' env').cache.entry other) = f (b.cache.entry other) := by
  by_cases hne : other = index
  · subst hne
    exact (congrArg f (UnitCache.entry_setEntry_self (c := (b.setEnv env').cache) hin e')).trans hf
  · exact congrArg f (UnitCache.entry_setEntry_of_ne (c := (b.setEnv env').cache) e' hne)

theorem setUpdate_setUpdate (b : Bench) (group : GroupId) (key : PropertyKey) (t t' : TypeChain)
    (env env' : AttachEnv) :
    (b.setUpdate group key t env).setUpdate group key t' env' = b.setUpdate group key t' env' := by
  simp [setUpdate, setEnv, Assoc.set_set]

/-- The moves of an entry are moves of its unit. -/
theorem moves_of_entry {index : Nat} (hin : index < b.cache.entries.size) {e' : Entry}
    {env' : AttachEnv} (h : Entry.Moves (fun recipe => ∃ op,
      (b.cache.site index).role = .operation op ∧ R.fits b.heap op recipe)
      (b.cache.entry index) b.env e' env') : Moves R resets turns b (b.setEntry index e' env') := by
  generalize henv : b.env = env at h
  induction h with
  | refl =>
    rw [← henv, setEntry_self]
    exact .refl
  | @tail e₁ e₂ env env₁ env₂ _ hmove ih =>
    have hin' : index < (b.setEntry index e₁ env₁).cache.entries.size := by
      simpa [setEntry, setEnv] using hin
    have hentry : (b.setEntry index e₁ env₁).cache.entry index = e₁ :=
      UnitCache.entry_setEntry_self (c := (b.setEnv env₁).cache) hin e₁
    rw [← setEntry_setEntry b index e₁ e₂ env₁ env₂]
    exact (ih henv).tail (.entry hin' (by rw [hentry]; exact hmove))

theorem editedAt_main {index : Nat} (hin : index < b.cache.entries.size) {e' : Entry}
    {env' : AttachEnv}
    (hedit : (b.cache.entry index).chain.EditedTo b.cache.arena e'.chain env'.arena)
    (hmonitor : e'.monitor = (b.cache.entry index).monitor) :
    b.cache.EditedAt (.main index) (b.setEntry index e' env').cache e'.chain where
  here := UnitCache.chain?_setEntry_main (c := (b.setEnv env').cache) hin e'
  sound := hedit.sound
  arena := by rw [hedit.fallback_eq]; exact hedit.arena
  before := .inr ⟨_, UnitCache.chain?_main hin, hedit.fallback_eq⟩
  others := by
    intro q hq
    by_cases hqm : q = .monitor index
    · rw [hqm, UnitCache.chain?_monitor hin, ← hmonitor]
      exact UnitCache.chain?_setEntry_monitor (c := (b.setEnv env').cache) hin e'
    · exact UnitCache.chain?_setEntry_of_ne (c := (b.setEnv env').cache) e' hq hqm

theorem editedAt_monitor {index : Nat} (hin : index < b.cache.entries.size) {m m' : Monitor}
    {env' : AttachEnv} (hold : (b.cache.entry index).monitor = some m)
    (hedit : m.chain.chain.EditedTo b.cache.arena m'.chain.chain env'.arena) :
    b.cache.EditedAt (.monitor index)
      (b.setEntry index { b.cache.entry index with monitor := some m' } env').cache
      m'.chain.chain where
  here := UnitCache.chain?_setEntry_monitor (c := (b.setEnv env').cache) hin _
  sound := hedit.sound
  arena := by rw [hedit.fallback_eq]; exact hedit.arena
  before := .inr ⟨m.chain.chain, by rw [UnitCache.chain?_monitor hin, hold]; rfl, hedit.fallback_eq⟩
  others := by
    intro q hq
    by_cases hqm : q = .main index
    · rw [hqm, UnitCache.chain?_main hin]
      exact UnitCache.chain?_setEntry_main (c := (b.setEnv env').cache) hin _
    · exact UnitCache.chain?_setEntry_of_ne (c := (b.setEnv env').cache) _ hqm hq

theorem chain?_setUpdate_of_ne {group : GroupId} {key : PropertyKey} {t : TypeChain}
    {env' : AttachEnv} {q : ChainPlace} (hq : q ≠ .update group key) :
    (b.setUpdate group key t env').cache.chain? q = b.cache.chain? q := by
  cases q with
  | main index => rfl
  | monitor index => rfl
  | update group' key' =>
    have hne : (group', key') ≠ (group, key) := fun h => hq (by cases h; rfl)
    simp [UnitCache.chain?, setUpdate, setEnv, Assoc.find?_set_of_ne _ _ hne]

theorem chain?_setUpdate_self (b : Bench) (group : GroupId) (key : PropertyKey) (t : TypeChain)
    (env' : AttachEnv) :
    (b.setUpdate group key t env').cache.chain? (.update group key) = some t.chain := by
  simp [UnitCache.chain?, setUpdate]

theorem editedAt_update {group : GroupId} {key : PropertyKey} {t t' : TypeChain} {env' : AttachEnv}
    (hold : b.cache.updates.find? (group, key) = some t)
    (hedit : t.chain.EditedTo b.cache.arena t'.chain env'.arena) :
    b.cache.EditedAt (.update group key) (b.setUpdate group key t' env').cache t'.chain where
  here := chain?_setUpdate_self b group key t' env'
  sound := hedit.sound
  arena := by rw [hedit.fallback_eq]; exact hedit.arena
  before := .inr ⟨t.chain, by simp [UnitCache.chain?, hold], hedit.fallback_eq⟩
  others := fun _ hq => chain?_setUpdate_of_ne hq

theorem editedAt_newUpdate (hw : b.cache.arena.WellLinked) {group : GroupId} {key : PropertyKey}
    {t : TypeChain} {env' : AttachEnv} (hnone : b.cache.updates.find? (group, key) = none)
    (hcreate : TypeChain.create b.cache.arena .update = (t, env'.arena)) :
    b.cache.EditedAt (.update group key) (b.setUpdate group key t env').cache t.chain := by
  obtain ⟨hedit, hsound, -, hfallback, -⟩ := TypeChain.create_spec hw hcreate
  exact
    { here := chain?_setUpdate_self b group key t _
      sound := hsound
      arena := by rw [hfallback]; exact hedit
      before := .inl ⟨by simp [UnitCache.chain?, hnone], hfallback⟩
      others := fun _ hq => chain?_setUpdate_of_ne hq }

/-- An entry that keeps its chains leaves all chains alone. -/
theorem chain?_setEntry_of_chains {index : Nat} {e' : Entry} {env' : AttachEnv}
    (hin : index < b.cache.entries.size) (hchain : e'.chain = (b.cache.entry index).chain)
    (hmonitor : e'.monitor.map (·.chain.chain) = (b.cache.entry index).monitor.map (·.chain.chain))
    (q : ChainPlace) : (b.setEntry index e' env').cache.chain? q = b.cache.chain? q := by
  by_cases hq : q = .main index
  · rw [hq, UnitCache.chain?_main hin, ← hchain]
    exact UnitCache.chain?_setEntry_main (c := (b.setEnv env').cache) hin e'
  · by_cases hqm : q = .monitor index
    · rw [hqm, UnitCache.chain?_monitor hin, ← hmonitor]
      exact UnitCache.chain?_setEntry_monitor (c := (b.setEnv env').cache) hin e'
    · exact UnitCache.chain?_setEntry_of_ne (c := (b.setEnv env').cache) e' hq hqm

theorem chain?_setEntry_of_same {index : Nat} {e' : Entry} {env' : AttachEnv}
    (hin : index < b.cache.entries.size) (hchain : e'.chain = (b.cache.entry index).chain)
    (hmonitor : e'.monitor = (b.cache.entry index).monitor) (q : ChainPlace) :
    (b.setEntry index e' env').cache.chain? q = b.cache.chain? q :=
  chain?_setEntry_of_chains hin hchain (by rw [hmonitor]) q

/-- Every kind of move is work on at most one chain. -/
theorem Move.editedAt (hb : b.cache.Linked) (h : Move R resets turns b b') :
    (b'.cache.arena = b.cache.arena ∧ ∀ q, b'.cache.chain? q = b.cache.chain? q) ∨
      ∃ p chain, b.cache.EditedAt p b'.cache chain := by
  cases h with
  | entry hin hmove =>
    obtain ⟨hedit, hmonitor⟩ := hmove.editedTo (fun recipe ⟨_, _, hfits⟩ => R.fits_kind hfits)
      hb.arena (hb.sound (UnitCache.chain?_main hin))
    exact .inr ⟨_, _, editedAt_main hin hedit hmonitor⟩
  | tally hin hchain _ hmonitor _ henv =>
    exact .inl ⟨henv.arena, chain?_setEntry_of_same hin hchain hmonitor⟩
  | count henv => exact .inl ⟨henv.arena, fun _ => rfl⟩
  | monitor _ hin hold hedit _ => exact .inr ⟨_, _, editedAt_monitor hin hold hedit.chain⟩
  | update _ hold hedit _ => exact .inr ⟨_, _, editedAt_update hold hedit.chain⟩
  | newUpdate _ hnone hcreate => exact .inr ⟨_, _, editedAt_newUpdate hb.arena hnone hcreate⟩
  | heap _ => exact .inl ⟨rfl, fun _ => rfl⟩
  | reset _ hin _ => exact .inl ⟨rfl, chain?_setEntry_of_same hin rfl rfl⟩

/-- A move makes no more stubs than the limit of the arena allows. -/
theorem Move.withinLimit (hb : b.cache.Linked) (h : Move R resets turns b b') {limit : Option Nat}
    (hlimit : b.cache.arena.WithinLimit limit) : b'.cache.arena.WithinLimit limit := by
  rcases h.editedAt hb with ⟨harena, -⟩ | ⟨p, chain, hedit⟩
  · rw [harena]
    exact hlimit
  · exact hedit.arena.withinLimit hlimit

theorem Move.follows (h : Move R resets turns b b') : b.env.Follows b'.env := by
  cases h with
  | entry _ hmove => exact hmove.follows
  | tally _ _ _ _ _ henv => exact henv.toFollows
  | count henv => exact henv.toFollows
  | monitor _ _ _ hedit _ => exact hedit.tally.toFollows
  | update _ _ hedit _ => exact hedit.tally.toFollows
  | newUpdate _ _ _ => exact .of_runtime rfl rfl
  | heap _ => exact .refl b.env
  | reset _ _ _ => exact .refl b.env

theorem Moves.follows (h : Moves R resets turns b b') : b.env.Follows b'.env := by
  induction h with
  | refl => exact .refl _
  | tail _ hmove ih => exact ih.trans hmove.follows

theorem Moves.config (h : Moves R resets turns b b') : b'.runtime.config = b.runtime.config :=
  h.follows.config

/-- A move changes neither the unit nor its sites, and the number of entries stays. -/
theorem Move.same (h : Move R resets turns b b') : b'.cache.unit = b.cache.unit ∧
    b'.cache.sites = b.cache.sites ∧ b'.cache.entries.size = b.cache.entries.size := by
  cases h <;> exact ⟨rfl, rfl, by simp [setEntry, setEnv, setUpdate]⟩

private theorem Move.linked (hb : b.cache.Linked) (h : Move R resets turns b b') :
    b'.cache.Linked ∧ b.cache.Continues b'.cache := by
  obtain ⟨hunit, hsites, hsize⟩ := h.same
  rcases h.editedAt hb with ⟨harena, hchain⟩ | ⟨p, chain, hedit⟩
  · exact ⟨hb.of_eq harena hchain, UnitCache.continues_of_eq hunit hsites hsize harena hchain⟩
  · exact ⟨hb.edited hedit, hedit.continues hunit hsites hsize⟩

theorem Moves.linked (hb : b.cache.Linked) (h : Moves R resets turns b b') :
    b'.cache.Linked ∧ b.cache.Continues b'.cache := by
  induction h with
  | refl => exact ⟨hb, .refl _⟩
  | tail _ hmove ih =>
    obtain ⟨hlinked, hcontinues⟩ := ih
    obtain ⟨hlinked', hcontinues'⟩ := hmove.linked hlinked
    exact ⟨hlinked', hcontinues.trans hcontinues'⟩

/-- A preorder that every move keeps to, all moves together keep to. -/
theorem Moves.rel {K : Bench → Bench → Prop} (hrefl : ∀ b, K b b)
    (htrans : ∀ {b b' b''}, K b b' → K b' b'' → K b b'')
    (hmove : ∀ {b b'}, b.cache.Linked → Move R resets turns b b' → K b b')
    (hb : b.cache.Linked) (h : Moves R resets turns b b') : K b b' := by
  induction h with
  | refl => exact hrefl b
  | tail hmoves hmove' ih => exact htrans ih (hmove (hmoves.linked hb).1 hmove')

theorem Moves.withinLimit (hb : b.cache.Linked) (h : Moves R resets turns b b') {limit : Option Nat}
    (hlimit : b.cache.arena.WithinLimit limit) : b'.cache.arena.WithinLimit limit :=
  h.rel (K := fun b b' => b.cache.arena.WithinLimit limit → b'.cache.arena.WithinLimit limit)
    (fun _ => id) (fun h h' => h' ∘ h) (fun hl hmove => hmove.withinLimit hl) hb hlimit

end

end Bench

end InlineCache
