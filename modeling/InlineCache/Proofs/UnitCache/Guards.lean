import InlineCache.Proofs.Request.Kind
import InlineCache.Proofs.TypeChain.Widen

namespace InlineCache

namespace Chain

/-- The type guards of a chain, with their places. -/
def guards (c : Chain) (a : Arena) : GuardList :=
  (c.stubIds a).filterMap fun id => (a.stub id).kind.typeGuard?.map fun guard => (id, guard)

variable {c : Chain} {a a' : Arena}

theorem guards_of_stubIds_eq_nil (h : c.stubIds a = []) : c.guards a = [] := by
  rw [guards, h, List.filterMap_nil]

/-- The guards hang on the stubs of the chain alone. -/
theorem guards_congr (hids : c.stubIds a' = c.stubIds a) (hstubs : c.stubs a' = c.stubs a) :
    c.guards a' = c.guards a := by
  rw [stubs, stubs, hids] at hstubs
  rw [guards, guards, hids]
  refine List.filterMap_congr fun x hx => ?_
  rw [List.map_inj_left.1 hstubs x hx]

end Chain

namespace UnitCache

/-- The type guards that watch something; none if nothing watches it. -/
def guards (c : UnitCache) (p : Watch) : GuardList :=
  ((c.chain? p.place).map fun chain => chain.guards c.arena).getD []

/-- Whether the type guards accept a value at once. -/
def accepts (c : UnitCache) (h : Heap) (p : Watch) (v : Value) : Bool := (c.guards p).accepts h v

/-- The types that are known of what is watched. -/
def types (c : UnitCache) (h : Heap) : Watch → TypeSet
  | .result index => ((c.entry index).monitor.map (·.types)).getD .empty
  | .write group key => (h.group group).propertyTypes key

variable {c c' : UnitCache} {h : Heap}

private theorem guards_of_chain? {p : Watch} {chain : Chain} (hchain : c.chain? p.place = some chain) :
    c.guards p = chain.guards c.arena := by
  rw [guards, hchain]
  rfl

theorem guards_of_none {p : Watch} (hnone : c.chain? p.place = none) : c.guards p = [] := by
  rw [guards, hnone]
  rfl

theorem guards_result {index : Nat} {m : Monitor} (hm : (c.entry index).monitor = some m)
    (hin : index < c.entries.size) : c.guards (.result index) = m.chain.guards c.arena :=
  guards_of_chain? (by rw [Watch.place, chain?_monitor hin, hm]; rfl)

theorem guards_write {group : GroupId} {key : PropertyKey} {t : TypeChain}
    (ht : c.updates.find? (group, key) = some t) : c.guards (.write group key) = t.guards c.arena :=
  guards_of_chain? (by simp [Watch.place, chain?, ht])

theorem types_result {index : Nat} {m : Monitor} (hm : (c.entry index).monitor = some m) :
    c.types h (.result index) = m.types := by
  rw [types, hm]
  rfl

/-- The guards that are there are those of an entry's watch over results, or of a property's writes. -/
theorem monitorAccepts_eq (c : UnitCache) (h : Heap) (index : Nat) (v : Value) :
    c.monitorAccepts h index v = c.accepts h (.result index) v := by
  unfold monitorAccepts accepts guards
  by_cases hin : index < c.entries.size
  · rw [Watch.place, chain?_monitor hin]
    cases (c.entry index).monitor <;> rfl
  · have hget := Array.getElem?_eq_none (Nat.le_of_not_lt hin)
    simp only [entry, Watch.place, chain?, hget]
    rfl

theorem updateAccepts_eq (c : UnitCache) (h : Heap) (group : GroupId) (key : PropertyKey) (v : Value) :
    c.updateAccepts h group key v = c.accepts h (.write group key) v := by
  unfold updateAccepts accepts guards
  simp only [Watch.place, chain?]
  cases c.updates.find? (group, key) <;> rfl

theorem monitorGuards_eq (c : UnitCache) {index : Nat} (hin : index < c.entries.size) :
    c.monitorGuards index = (c.guards (.result index)).map (·.2) := by
  unfold monitorGuards guards
  rw [Watch.place, chain?_monitor hin]
  cases (c.entry index).monitor <;> rfl

/-- The guards hang on the arena and the chains alone. -/
theorem guards_of_eq (hchain : ∀ q, c'.chain? q = c.chain? q) (harena : c'.arena = c.arena)
    (p : Watch) : c'.guards p = c.guards p := by
  rw [guards, guards, harena, hchain]

/-- Work on one chain leaves the guards of the others alone. -/
theorem EditedAt.guards_eq {q : ChainPlace} {chain : Chain} (hc : c.Linked)
    (hedit : c.EditedAt q c' chain) {p : Watch} (hp : p.place ≠ q) : c'.guards p = c.guards p := by
  cases hchain : c.chain? p.place with
  | none =>
    rw [guards_of_none hchain, guards_of_none (by rw [hedit.others _ hp, hchain])]
  | some old =>
    rw [guards_of_chain? hchain, guards_of_chain? (by rw [hedit.others _ hp, hchain])]
    exact Chain.guards_congr (hedit.stubIds_eq hc hp hchain) (hedit.stubs_eq hc hp hchain)

/-- Caches that watch what they have to: the entries of the kinds that are monitored have guards over
their results, and stubs are of the flavor of the operation that they stand for. -/
structure Watched (c : UnitCache) : Prop where
  one : ∀ p : Watch, (c.guards p).OnePrimitives
  monitored : ∀ index < c.entries.size,
    (c.entry index).monitor.isSome = (c.site index).kind.isMonitored
  flavored : ∀ index < c.entries.size, ∀ stub ∈ (c.entry index).chain.stubs c.arena,
    ∃ op, (c.site index).role = .operation op ∧ stub.kind.flavor? = some op.flavor

/-- Caches whose guards accept no more than the types that are known, where the properties that are
watched are those of groups that are there. -/
structure Guarded (h : Heap) (c : UnitCache) : Prop extends c.Watched where
  group_le : ∀ {group : GroupId} {key : PropertyKey} {t : TypeChain},
    c.updates.find? (group, key) = some t → group ≤ h.groups.size
  within : ∀ p : Watch, p.Valid → (c.guards p).Within h (c.types h p)

/-- What is recorded later is more. Of the types that were seen at an entry the heap knows nothing. -/
theorem Guarded.within_records {h' : Heap} (hc : c.Guarded h) (hrecords : h.Records h') {p : Watch}
    (hguards : c'.guards p = c.guards p)
    (htypes : ∀ index, p = .result index → c'.types h' p = c.types h p) (hp : p.Valid) :
    (c'.guards p).Within h' (c'.types h' p) := by
  intro q hq
  rw [hguards] at hq
  have hold := (hc.within p hp q hq).of_singleton fun _ => hrecords.singleton_of
  cases p with
  | result index =>
    rw [htypes index rfl]
    exact hold
  | write group key =>
    cases hfind : c.updates.find? (group, key) with
    | none =>
      rw [guards_of_none (by simp [Watch.place, chain?, hfind])] at hq
      cases hq
    | some t => exact hold.widens ((hrecords.group group (hc.group_le hfind)).types key)

theorem Guarded.records {h' : Heap} (hc : c.Guarded h) (hrecords : h.Records h') : c.Guarded h' where
  toWatched := hc.toWatched
  group_le hfind := Nat.le_trans (hc.group_le hfind) hrecords.groups_le
  within _ hp := hc.within_records hrecords rfl (fun _ hindex => by rw [hindex]; rfl) hp

private theorem create_monitor (a : Arena) (kind : SiteKind) :
    ((Entry.create a kind).1.monitor.isSome = kind.isMonitored) ∧
      ∀ m, (Entry.create a kind).1.monitor = some m → m.chain.chain.isFallbackOnly = true := by
  unfold Entry.create
  by_cases hkind : kind.isMonitored = true
  · simp only [hkind, if_true]
    refine ⟨rfl, fun m hm => ?_⟩
    cases hm
    exact isFallbackOnly_create _ (.ending .monitorFallback)
  · simp only [hkind]
    exact ⟨rfl, fun m hm => by cases hm⟩

theorem updates_create {unit : CodeUnit} {config : CacheConfig} (hcreate : create unit config = .ok c) :
    c.updates = .empty := by
  obtain ⟨sites, -, rfl⟩ := create_eq_ok_iff.1 hcreate
  rfl

/-- The chains of a new unit have no stubs but their ends. -/
theorem stubIds_create {unit : CodeUnit} {config : CacheConfig} (hcreate : create unit config = .ok c)
    {p : ChainPlace} {chain : Chain} (hchain : c.chain? p = some chain) : chain.stubIds c.arena = [] := by
  cases p with
  | main index =>
    obtain ⟨entry, hentry, rfl⟩ := Option.map_eq_some_iff.1 hchain
    have hnone := ((create_entries hcreate).1 index (Array.getElem?_eq_some_iff.1 hentry).1).2
    rwa [UnitCache.entry, hentry] at hnone
  | monitor index =>
    obtain ⟨entry, hentry, hmonitor⟩ := Option.bind_eq_some_iff.1 hchain
    obtain ⟨m, hm, rfl⟩ := Option.map_eq_some_iff.1 hmonitor
    have honly := of_create (P := fun _ e => ∀ m, e.monitor = some m →
      m.chain.chain.isFallbackOnly = true) (fun a site => (create_monitor a site.kind).2) hcreate
      (Array.getElem?_eq_some_iff.1 hentry).1
    rw [UnitCache.entry, hentry] at honly
    exact (Chain.isFallbackOnly_iff ((create_linked hcreate).1.sound hchain)).1 (honly m hm)
  | update group key =>
    rw [chain?, updates_create hcreate] at hchain
    cases hchain

/-- A new unit has no guards, but watches at every entry of a kind that is watched. -/
theorem create_guards {unit : CodeUnit} {config : CacheConfig} (hcreate : create unit config = .ok c) :
    (∀ p : Watch, c.guards p = []) ∧
      ∀ index < c.entries.size, (c.entry index).monitor.isSome = (c.site index).kind.isMonitored := by
  refine ⟨fun p => ?_, fun index hin => ?_⟩
  · cases hchain : c.chain? p.place with
    | none => exact guards_of_none hchain
    | some chain =>
      rw [guards_of_chain? hchain]
      exact Chain.guards_of_stubIds_eq_nil (stubIds_create hcreate hchain)
  · exact of_create (P := fun site e => e.monitor.isSome = site.kind.isMonitored)
      (fun a site => (create_monitor a site.kind).1) hcreate hin

theorem watched_create {unit : CodeUnit} {config : CacheConfig} (hcreate : create unit config = .ok c) :
    c.Watched where
  one p := by
    rw [(create_guards hcreate).1 p]
    exact Nat.zero_le 1
  monitored := (create_guards hcreate).2
  flavored index hin stub hmem := by
    rw [Chain.stubs, ((create_entries hcreate).1 index hin).2] at hmem
    cases hmem

theorem guarded_create {unit : CodeUnit} {config : CacheConfig} (h : Heap)
    (hcreate : create unit config = .ok c) : c.Guarded h where
  toWatched := watched_create hcreate
  group_le hfind := by
    rw [updates_create hcreate] at hfind
    cases hfind
  within p _ q hq := by
    rw [(create_guards hcreate).1 p] at hq
    cases hq

end UnitCache

end InlineCache
