import InlineCache.Cache.UnitCache
import InlineCache.Proofs.TypeChain.Edited

namespace InlineCache

/-- Where a chain of a unit is kept. -/
inductive ChainPlace where
  /-- The specialized stubs of an entry. -/
  | main (index : Nat)
  /-- The type guards over the results of an entry. -/
  | monitor (index : Nat)
  /-- The type guards over the writes to a property of a group. -/
  | update (group : GroupId) (key : PropertyKey)
deriving DecidableEq

/-- What type guards watch. -/
inductive Watch where
  /-- The results of an entry. -/
  | result (index : Nat)
  /-- The writes to a property of a group. -/
  | write (group : GroupId) (key : PropertyKey)
deriving DecidableEq

namespace Watch

/-- The place of the chain of guards. -/
def place : Watch → ChainPlace
  | result index => .monitor index
  | write group key => .update group key

/-- The groups of a heap are counted from one. -/
def Valid : Watch → Prop
  | result _ => True
  | write group _ => 0 < group

theorem place_ne_main (p : Watch) (index : Nat) : p.place ≠ .main index := by
  cases p <;> simp [place]

theorem place_eq_monitor {p : Watch} {index : Nat} (h : p.place = .monitor index) :
    p = .result index := by
  cases p <;> simp_all [place]

theorem place_eq_update {p : Watch} {group : GroupId} {key : PropertyKey}
    (h : p.place = .update group key) : p = .write group key := by
  cases p <;> simp_all [place]

end Watch

namespace UnitCache

/-- The chain at a place, if there is one. -/
def chain? (c : UnitCache) : ChainPlace → Option Chain
  | .main index => c.entries[index]?.map (·.chain)
  | .monitor index => c.entries[index]?.bind fun e => e.monitor.map (·.chain.chain)
  | .update group key => (c.updates.find? (group, key)).map (·.chain)

/-- The chains of a unit share an arena, and each is sound and ends at a fallback of its own. That the
ends differ is what keeps the chains apart: a path has one end, so no stub is on the path to two of
them. -/
structure Linked (c : UnitCache) : Prop where
  arena : c.arena.WellLinked
  sound : ∀ {p : ChainPlace} {chain : Chain}, c.chain? p = some chain → chain.Sound c.arena
  place_eq : ∀ {p q : ChainPlace} {chain chain' : Chain}, c.chain? p = some chain →
    c.chain? q = some chain' → chain.fallback = chain'.fallback → p = q

/-- `c'` is what became of `c`: every chain is still there and ends where it ended, and so does every
path, whether or not its stubs are in a chain. -/
structure Continues (c c' : UnitCache) : Prop where
  unit_eq : c'.unit = c.unit
  sites_eq : c'.sites = c.sites
  size_entries : c'.entries.size = c.entries.size
  keeps : ∀ {id l : StubId} {ids : List StubId}, c.arena.Path id ids l →
    ∃ ids', c'.arena.Path id ids' l
  chain : ∀ {p : ChainPlace} {chain : Chain}, c.chain? p = some chain →
    ∃ chain', c'.chain? p = some chain' ∧ chain'.fallback = chain.fallback

theorem Continues.refl (c : UnitCache) : c.Continues c :=
  ⟨rfl, rfl, rfl, fun h => ⟨_, h⟩, fun h => ⟨_, h, rfl⟩⟩

theorem Continues.trans {c c' c'' : UnitCache} (h : c.Continues c') (h' : c'.Continues c'') :
    c.Continues c'' where
  unit_eq := h'.unit_eq.trans h.unit_eq
  sites_eq := h'.sites_eq.trans h.sites_eq
  size_entries := h'.size_entries.trans h.size_entries
  keeps hpath := by
    obtain ⟨ids, hmid⟩ := h.keeps hpath
    exact h'.keeps hmid
  chain hchain := by
    obtain ⟨chain', hmid, hfallback⟩ := h.chain hchain
    obtain ⟨chain'', hend, hfallback'⟩ := h'.chain hmid
    exact ⟨chain'', hend, hfallback'.trans hfallback⟩

/-- Work on the chain at one place, which may be a new chain with a new end. -/
structure EditedAt (p : ChainPlace) (c c' : UnitCache) (chain' : Chain) : Prop where
  here : c'.chain? p = some chain'
  sound : chain'.Sound c'.arena
  arena : c.arena.EditedAt chain'.fallback c'.arena
  before : c.chain? p = none ∧ chain'.fallback = c.arena.size ∨
    ∃ chain, c.chain? p = some chain ∧ chain'.fallback = chain.fallback
  others : ∀ q, q ≠ p → c'.chain? q = c.chain? q

section

variable {c c' : UnitCache} {p q : ChainPlace} {chain chain' : Chain}

/-- The chains at other places end elsewhere. -/
theorem EditedAt.fallback_ne (hc : c.Linked) (h : c.EditedAt p c' chain') (hq : q ≠ p)
    (hchain : c.chain? q = some chain) : chain.fallback ≠ chain'.fallback := by
  intro heq
  rcases h.before with ⟨-, hnew⟩ | ⟨old, hold, hsame⟩
  · rw [hnew] at heq
    exact Nat.ne_of_lt (hc.sound hchain).path.last_lt_size heq
  · rw [hsame] at heq
    exact hq (hc.place_eq hchain hold heq)

/-- The chains at other places do not notice. -/
theorem EditedAt.stubIds_eq (hc : c.Linked) (h : c.EditedAt p c' chain') (hq : q ≠ p)
    (hchain : c.chain? q = some chain) : chain.stubIds c'.arena = chain.stubIds c.arena :=
  Chain.stubIds_frame (hc.sound hchain) h.arena (h.fallback_ne hc hq hchain)

theorem EditedAt.stubs_eq (hc : c.Linked) (h : c.EditedAt p c' chain') (hq : q ≠ p)
    (hchain : c.chain? q = some chain) : chain.stubs c'.arena = chain.stubs c.arena :=
  Chain.stubs_frame (hc.sound hchain) h.arena (h.fallback_ne hc hq hchain)

theorem Linked.edited (hc : c.Linked) (h : c.EditedAt p c' chain') : c'.Linked where
  arena := h.arena.wellLinked
  sound := by
    intro q chain hchain
    by_cases hq : q = p
    · subst hq
      rw [h.here] at hchain
      cases hchain
      exact h.sound
    · rw [h.others q hq] at hchain
      exact (hc.sound hchain).frame h.arena (h.fallback_ne hc hq hchain)
  place_eq := by
    intro q r chain₁ chain₂ hq hr heq
    by_cases hqp : q = p <;> by_cases hrp : r = p
    · rw [hqp, hrp]
    · rw [hqp, h.here] at hq
      cases hq
      rw [h.others r hrp] at hr
      exact absurd heq.symm (h.fallback_ne hc hrp hr)
    · rw [hrp, h.here] at hr
      cases hr
      rw [h.others q hqp] at hq
      exact absurd heq (h.fallback_ne hc hqp hq)
    · rw [h.others q hqp] at hq
      rw [h.others r hrp] at hr
      exact hc.place_eq hq hr heq

theorem EditedAt.continues (h : c.EditedAt p c' chain') (hunit : c'.unit = c.unit)
    (hsites : c'.sites = c.sites) (hsize : c'.entries.size = c.entries.size) :
    c.Continues c' where
  unit_eq := hunit
  sites_eq := hsites
  size_entries := hsize
  keeps := h.arena.keeps
  chain := by
    intro q chain hchain
    by_cases hq : q = p
    · subst hq
      rcases h.before with ⟨hnone, -⟩ | ⟨old, hold, hsame⟩
      · rw [hnone] at hchain
        cases hchain
      · rw [hold] at hchain
        cases hchain
        exact ⟨chain', h.here, hsame⟩
    · exact ⟨chain, by rw [h.others q hq, hchain], rfl⟩

/-- What is in the chains hangs on the arena and the chains alone. -/
theorem Linked.of_eq (hc : c.Linked) (harena : c'.arena = c.arena)
    (hchain : ∀ q, c'.chain? q = c.chain? q) : c'.Linked where
  arena := by rw [harena]; exact hc.arena
  sound h := by
    rw [hchain] at h
    rw [harena]
    exact hc.sound h
  place_eq h h' := by
    rw [hchain] at h h'
    exact hc.place_eq h h'

theorem continues_of_eq (hunit : c'.unit = c.unit) (hsites : c'.sites = c.sites)
    (hsize : c'.entries.size = c.entries.size) (harena : c'.arena = c.arena)
    (hchain : ∀ q, c'.chain? q = c.chain? q) : c.Continues c' where
  unit_eq := hunit
  sites_eq := hsites
  size_entries := hsize
  keeps h := ⟨_, by rw [harena]; exact h⟩
  chain h := ⟨_, by rw [hchain, h], rfl⟩

/-- No stub is in two chains. -/
theorem Linked.disjoint (hc : c.Linked) (hp : c.chain? p = some chain)
    (hq : c.chain? q = some chain') {id : StubId} (hid : id ∈ chain.stubIds c.arena)
    (hid' : id ∈ chain'.stubIds c.arena) : p = q := by
  obtain ⟨_, hpath⟩ := (hc.sound hp).path.of_mem hid
  obtain ⟨_, hpath'⟩ := (hc.sound hq).path.of_mem hid'
  exact hc.place_eq hp hq (hpath.unique hpath').2

theorem chain?_main {index : Nat} (hin : index < c.entries.size) :
    c.chain? (.main index) = some (c.entry index).chain := by
  simp [chain?, entry, hin]

theorem chain?_monitor {index : Nat} (hin : index < c.entries.size) :
    c.chain? (.monitor index) = (c.entry index).monitor.map (·.chain.chain) := by
  simp [chain?, entry, hin]

@[simp] theorem size_setEntry (index : Nat) (e : Entry) :
    (c.setEntry index e).entries.size = c.entries.size := by
  simp [setEntry]

theorem entry_setEntry_self {index : Nat} (hin : index < c.entries.size) (e : Entry) :
    (c.setEntry index e).entry index = e := by
  simp [setEntry, entry, hin]

theorem entry_setEntry_of_ne {index other : Nat} (e : Entry) (hne : other ≠ index) :
    (c.setEntry index e).entry other = c.entry other := by
  simp [setEntry, entry, Array.getElem?_setIfInBounds_ne hne.symm]

/-- A changed entry changes what is at its own two places. -/
theorem chain?_setEntry_of_ne {index : Nat} (e : Entry) (hmain : q ≠ .main index)
    (hmonitor : q ≠ .monitor index) : (c.setEntry index e).chain? q = c.chain? q := by
  cases q with
  | main other =>
    have hne : index ≠ other := fun h => hmain (by rw [h])
    simp [chain?, setEntry, Array.getElem?_setIfInBounds_ne hne]
  | monitor other =>
    have hne : index ≠ other := fun h => hmonitor (by rw [h])
    simp [chain?, setEntry, Array.getElem?_setIfInBounds_ne hne]
  | update group key => rfl

theorem chain?_setEntry_main {index : Nat} (hin : index < c.entries.size) (e : Entry) :
    (c.setEntry index e).chain? (.main index) = some e.chain := by
  rw [chain?_main (by rwa [size_setEntry]), entry_setEntry_self hin]

theorem chain?_setEntry_monitor {index : Nat} (hin : index < c.entries.size) (e : Entry) :
    (c.setEntry index e).chain? (.monitor index) = e.monitor.map (·.chain.chain) := by
  rw [chain?_monitor (by rwa [size_setEntry]), entry_setEntry_self hin]

end

private theorem chain?_push_of_ne (c : UnitCache) (a : Arena) (e : Entry) {q : ChainPlace}
    (hmain : q ≠ .main c.entries.size) (hmonitor : q ≠ .monitor c.entries.size) :
    chain? { c with arena := a, entries := c.entries.push e } q = c.chain? q := by
  cases q with
  | main other =>
    have hne : other ≠ c.entries.size := fun h => hmain (by rw [h])
    simp [chain?, Array.getElem?_push, hne]
  | monitor other =>
    have hne : other ≠ c.entries.size := fun h => hmonitor (by rw [h])
    simp [chain?, Array.getElem?_push, hne]
  | update group key => rfl

/-- A new entry brings chains with new ends. -/
theorem Linked.push {c : UnitCache} (hc : c.Linked) {kind : SiteKind} {e : Entry} {a : Arena}
    (h : Entry.create c.arena kind = (e, a)) :
    Linked { c with arena := a, entries := c.entries.push e } := by
  unfold Entry.create at h
  cases hmain : Chain.create c.arena (.ending (.fallback kind)) with
  | mk chain a₁ =>
  obtain ⟨hedit, hsound, -, hfallback, -⟩ := Chain.create_spec hc.arena rfl hmain
  have hfirst : EditedAt (.main c.entries.size) c
      { c with arena := a₁, entries := c.entries.push ⟨chain, .initial, 0, none, false⟩ } chain :=
    { here := by simp [chain?]
      sound := hsound
      arena := by rw [hfallback]; exact hedit
      before := .inl ⟨by simp [chain?], hfallback⟩
      others := fun q hq => by
        by_cases hmonitor : q = .monitor c.entries.size
        · subst hmonitor
          simp [chain?]
        · exact chain?_push_of_ne c _ _ hq hmonitor }
  have hc₁ := hc.edited hfirst
  rw [hmain] at h
  dsimp only at h
  split at h
  · cases hmonitor : Monitor.create a₁ with
    | mk monitor a₂ =>
    rw [hmonitor] at h
    cases h
    unfold Monitor.create at hmonitor
    cases htypes : TypeChain.create a₁ .monitor with
    | mk t a₂ =>
    rw [htypes] at hmonitor
    cases hmonitor
    obtain ⟨hedit', hsound', -, hfallback', -⟩ := TypeChain.create_spec hc₁.arena htypes
    refine Linked.edited (p := .monitor c.entries.size) hc₁
      { here := by simp [chain?]
        sound := hsound'
        arena := by rw [hfallback']; exact hedit'
        before := .inl ⟨by simp [chain?], hfallback'⟩
        others := fun q hq => ?_ }
    by_cases hmain' : q = .main c.entries.size
    · subst hmain'
      simp [chain?]
    · exact (chain?_push_of_ne c _ _ hmain' hq).trans (chain?_push_of_ne c _ _ hmain' hq).symm
  · cases h
    exact hc₁

private theorem linked_createEntries {sites : List EntrySite} :
    ∀ {c : UnitCache} {entries : List Entry} {a : Arena}, c.Linked →
      createEntries sites c.arena = (entries, a) →
      Linked { c with arena := a, entries := c.entries ++ entries.toArray } ∧
        entries.length = sites.length := by
  induction sites with
  | nil =>
    intro c entries a hc h
    cases h
    exact ⟨hc.of_eq rfl fun q => by simp [chain?], rfl⟩
  | cons site rest ih =>
    intro c entries a hc h
    rw [createEntries] at h
    cases he : Entry.create c.arena site.kind with
    | mk e a₁ =>
    cases hr : createEntries rest a₁ with
    | mk entries' a₂ =>
    simp only [he, hr] at h
    cases h
    obtain ⟨hlinked, hlength⟩ :=
      ih (c := { c with arena := a₁, entries := c.entries.push e }) (hc.push he) hr
    refine ⟨?_, by simp [hlength]⟩
    have hentries : c.entries.push e ++ entries'.toArray = c.entries ++ (e :: entries').toArray := by
      simp
    rwa [hentries] at hlinked

/-- The caches of a unit can be made just if its sites can be found. -/
theorem create_eq_ok_iff {unit : CodeUnit} {config : CacheConfig} {c : UnitCache} :
    create unit config = .ok c ↔ ∃ sites, sitesOf unit = .ok sites ∧
      c = ⟨unit, sites.toArray, (createEntries sites (.empty config.arenaLimit)).2,
        (createEntries sites (.empty config.arenaLimit)).1.toArray, .empty, .zero⟩ := by
  unfold create
  cases hs : sitesOf unit with
  | error e => simp
  | ok sites => simp [eq_comm]

/-- The chains of a new unit are linked, and there is an entry for each site. -/
theorem create_linked {unit : CodeUnit} {config : CacheConfig} {c : UnitCache}
    (h : create unit config = .ok c) : c.Linked ∧ c.entries.size = c.sites.size := by
  obtain ⟨sites, -, rfl⟩ := create_eq_ok_iff.1 h
  have hempty : Linked ⟨unit, sites.toArray, .empty config.arenaLimit, #[], .empty, .zero⟩ :=
    { arena := Arena.wellLinked_empty _
      sound := by intro p chain hp; cases p <;> simp [chain?] at hp
      place_eq := by intro p q chain chain' hp; cases p <;> simp [chain?] at hp }
  obtain ⟨hlinked, hlength⟩ := linked_createEntries hempty rfl
  exact ⟨hlinked.of_eq rfl fun q => by simp [chain?], by simp [hlength]⟩

/-- What holds of every new entry of a site holds of the entries of a new unit. -/
theorem of_create {unit : CodeUnit} {config : CacheConfig} {c : UnitCache} {P : EntrySite → Entry → Prop}
    (hP : ∀ (a : Arena) (site : EntrySite), P site (Entry.create a site.kind).1)
    (h : create unit config = .ok c) {index : Nat} (hin : index < c.entries.size) :
    P (c.site index) (c.entry index) := by
  have hentries (sites : List EntrySite) : ∀ (a : Arena) (i : Nat) (e : Entry),
      (createEntries sites a).1[i]? = some e → ∃ site, sites[i]? = some site ∧ P site e := by
    induction sites with
    | nil =>
      intro a i e he
      cases he
    | cons site rest ih =>
      intro a i e he
      rw [createEntries] at he
      cases i with
      | zero =>
        cases he
        exact ⟨site, rfl, hP a site⟩
      | succ i => exact ih _ i e he
  obtain ⟨sites, -, rfl⟩ := create_eq_ok_iff.1 h
  have hin' : index < (createEntries sites (.empty config.arenaLimit)).1.length := by simpa using hin
  obtain ⟨site, hsite, he⟩ := hentries sites _ index _ (List.getElem?_eq_getElem hin')
  simpa [UnitCache.site, UnitCache.entry, hsite, hin'] using he

theorem isFallbackOnly_create (a : Arena) (stub : Stub) :
    (Chain.create a stub).1.isFallbackOnly = true := by
  simp [Chain.create, Arena.addFallback, Arena.push, Chain.isFallbackOnly]

/-- The entries of a new unit are at their start, without stubs, and nothing has been counted. -/
theorem create_entries {unit : CodeUnit} {config : CacheConfig} {c : UnitCache}
    (h : create unit config = .ok c) :
    (∀ index < c.entries.size, (c.entry index).state = .initial ∧
      (c.entry index).chain.stubIds c.arena = []) ∧ c.counters = .zero := by
  refine ⟨fun index hin => ?_, ?_⟩
  · obtain ⟨hstate, honly⟩ := of_create
      (P := fun _ e => e.state = .initial ∧ e.chain.isFallbackOnly = true)
      (fun a site => ⟨rfl, isFallbackOnly_create a (.ending (.fallback site.kind))⟩) h hin
    exact ⟨hstate, (Chain.isFallbackOnly_iff ((create_linked h).1.sound (chain?_main hin))).1 honly⟩
  · obtain ⟨sites, -, rfl⟩ := create_eq_ok_iff.1 h
    rfl

/-- A new unit has ends of chains only, so it is within its limit. -/
theorem withinLimit_create {unit : CodeUnit} {config : CacheConfig} {c : UnitCache}
    (h : create unit config = .ok c) : c.arena.WithinLimit config.arenaLimit := by
  have hentry {a : Arena} (ha : a.WithinLimit config.arenaLimit) (kind : SiteKind) :
      (Entry.create a kind).2.WithinLimit config.arenaLimit := by
    have hmain := ha.addFallback (s := .ending (.fallback kind)) rfl
    simp only [Entry.create]
    split
    · exact hmain.addFallback (s := .ending .monitorFallback) rfl
    · exact hmain
  have hentries (sites : List EntrySite) : ∀ {a : Arena}, a.WithinLimit config.arenaLimit →
      (createEntries sites a).2.WithinLimit config.arenaLimit := by
    induction sites with
    | nil => exact id
    | cons site rest ih => exact fun ha => ih (hentry ha site.kind)
  obtain ⟨sites, -, rfl⟩ := create_eq_ok_iff.1 h
  exact hentries sites (Arena.withinLimit_empty _)

end UnitCache

end InlineCache
