import InlineCache.Proofs.Machine.Work

namespace InlineCache

/-- A state together with the calls that have not returned. Whatever the host does with the caches, it
does by actions, one after the other, and a native function is no more than the actions between its call
and its return. So the states in which a run of actions can stop are all the states there are, those in
the middle of nested uses included. -/
structure Machine (σ : Type) where
  world : World σ
  /-- The calls that have not returned, the last one first. -/
  calls : List Pending

inductive Action (σ : Type) where
  /-- The host changes what is its own to change. -/
  | host (heap : Heap) (zone : Zone) (bridges : Table Bridge) (unitsMade : Nat) (host : σ)
  | addCache (unit : CodeUnit)
  | buildStub (recipe : Recipe)
  /-- An entry is used; a call that this makes is not run yet. -/
  | use (c : CacheId) (id : EntryId) (ops : Operands)
  /-- The last call returns, with any result or error. -/
  | ret (result : Except VmError Value)
  | loopTurn (c : CacheId) (pc : Offset)
  | recordWrite (c : CacheId) (group : GroupId) (key : PropertyKey) (v : Value)
  | unlink (c : CacheId) (id : EntryId) (signature : Signature)
  | purge (c : CacheId)
  | teardown

namespace Machine

variable {σ : Type}

def step (m : Machine σ) : Action σ → Machine σ
  | .host heap zone bridges unitsMade host =>
    { m with world :=
        { m.world with
          heap := heap
          runtime := { m.world.runtime with zone := zone }
          bridges := bridges
          unitsMade := unitsMade
          host := host } }
  | .addCache unit => { m with world := (m.world.addCache unit).2 }
  | .buildStub recipe => { m with world := (m.world.buildStub recipe).2 }
  | .use c id ops =>
    match m.world.begin c id ops with
    | .answered _ w => { m with world := w }
    | .called p w => ⟨w, p :: m.calls⟩
  | .ret result =>
    match m.calls with
    | [] => m
    | p :: rest => ⟨(m.world.finish p result).2, rest⟩
  | .loopTurn c pc => { m with world := (m.world.loopEntry c pc).2 }
  | .recordWrite c group key v =>
    if (m.world.caches.get? c).isSome then { m with world := (m.world.recordWrite c group key v).2 }
    else m
  | .unlink c id signature =>
    if (m.world.cache c).owns id then { m with world := (m.world.unlinkStubs c id.index signature).2 }
    else m
  | .purge c => { m with world := m.world.purge c }
  | .teardown => { m with world := m.world.teardown }

def run (m : Machine σ) (actions : List (Action σ)) : Machine σ := actions.foldl step m

/-- The machine before its first action. -/
def initial (config : CacheConfig) (compiler : Compiler) (host : σ) : Machine σ :=
  ⟨.create config compiler host, []⟩

/-- At first there are no units. -/
theorem initial_get? (config : CacheConfig) (compiler : Compiler) (host : σ) (c : CacheId) :
    (initial config compiler host).world.caches.get? c = none := by
  cases c <;> rfl

theorem run_append (m : Machine σ) (first rest : List (Action σ)) :
    m.run (first ++ rest) = (m.run first).run rest :=
  List.foldl_append

/-- Whether the host keeps to rules for the heap, and for the writes that it records. -/
def HostObeys (R : Rules) (m : Machine σ) : Action σ → Prop
  | .host heap _ _ _ _ => R.allows m.world.heap heap
  | .recordWrite _ group _ _ => R.writes m.world.heap group
  | _ => True

/-- Whether the host keeps to rules all through a run. -/
def Obeys (R : Rules) : Machine σ → List (Action σ) → Prop
  | _, [] => True
  | m, a :: rest => m.HostObeys R a ∧ Obeys R (m.step a) rest

theorem obeys_append {R : Rules} {m : Machine σ} {first rest : List (Action σ)}
    (hfirst : m.Obeys R first) (hrest : (m.run first).Obeys R rest) :
    m.Obeys R (first ++ rest) := by
  induction first generalizing m with
  | nil => exact hrest
  | cons a first ih => exact ⟨hfirst.1, ih hfirst.2 hrest⟩

theorem HostObeys.mono {R R' : Rules} {m : Machine σ} (hR : R.Tightens R') {a : Action σ} (ha : m.HostObeys R a) :
    m.HostObeys R' a := by
  cases a with
  | host heap zone bridges unitsMade host => exact hR.allows ha
  | recordWrite c group key v => exact hR.writes ha
  | _ => trivial

theorem Obeys.mono {R R' : Rules} {m : Machine σ} (hR : R.Tightens R') {actions : List (Action σ)}
    (h : m.Obeys R actions) : m.Obeys R' actions := by
  induction actions generalizing m with
  | nil => exact h
  | cons a actions ih => exact ⟨h.1.mono hR, ih h.2⟩

/-- What a run begins with, and what every action keeps that the host does by the rules, it ends with. -/
theorem Obeys.keeps {R : Rules} {P : Machine σ → Prop}
    (hstep : ∀ {m : Machine σ}, P m → ∀ {a : Action σ}, m.HostObeys R a → P (m.step a)) {m : Machine σ}
    {actions : List (Action σ)} (hactions : m.Obeys R actions) (hm : P m) : P (m.run actions) := by
  induction actions generalizing m with
  | nil => exact hm
  | cons a actions ih => exact ih hactions.2 (hstep hm hactions.1)

theorem obeys_of_append {R : Rules} {m : Machine σ} {first rest : List (Action σ)} (h : m.Obeys R (first ++ rest)) :
    m.Obeys R first ∧ (m.run first).Obeys R rest := by
  induction first generalizing m with
  | nil => exact ⟨trivial, h⟩
  | cons a first ih =>
    obtain ⟨hfirst, hrest⟩ := ih h.2
    exact ⟨⟨h.1, hfirst⟩, hrest⟩

/-- A state that a run of actions comes to, with no call made or returned that the run does not see
through. -/
def Leads (R : Rules) (m : Machine σ) (w : World σ) : Prop :=
  ∃ actions, m.Obeys R actions ∧ m.run actions = { m with world := w }

theorem Leads.refl (R : Rules) (m : Machine σ) : m.Leads R m.world := ⟨[], trivial, rfl⟩

theorem Leads.trans {R : Rules} {m : Machine σ} {w w' : World σ} (h : m.Leads R w)
    (h' : { m with world := w }.Leads R w') : m.Leads R w' := by
  obtain ⟨actions, hobeys, hrun⟩ := h
  obtain ⟨actions', hobeys', hrun'⟩ := h'
  refine ⟨actions ++ actions', obeys_append hobeys (by rw [hrun]; exact hobeys'), ?_⟩
  rw [run_append, hrun, hrun']

theorem Leads.of_step {R : Rules} {m : Machine σ} {a : Action σ} {w : World σ}
    (hobeys : m.HostObeys R a) (hstep : m.step a = { m with world := w }) : m.Leads R w :=
  ⟨[a], ⟨hobeys, trivial⟩, hstep⟩

end Machine

/-- Native functions that do nothing but act, and leave the heap to its own workings. -/
def Natives.Acts {σ : Type} (natives : Natives σ) (R : Rules) : Prop :=
  ∀ (body : BodyId) (this : Value) (args : List Value) (m : Machine σ),
    m.Leads R (natives body this args m.world).2

/-- A use of an entry with native functions is a run of actions, however deep their uses are nested. -/
theorem Machine.leads_dispatch {σ : Type} {natives : Natives σ} {R : Rules} (hacts : natives.Acts R)
    (c : CacheId) (id : EntryId) (ops : Operands) (m : Machine σ) :
    m.Leads R (World.dispatch natives c id ops m.world).2 := by
  rw [World.dispatch_eq_complete]
  cases hbegin : World.begin c id ops m.world with
  | answered result w =>
    refine .of_step (a := .use c id ops) trivial ?_
    simp [step, hbegin, World.complete]
  | called p w =>
    obtain ⟨actions, hobeys, hrun⟩ := hacts p.body p.this p.args ⟨w, p :: m.calls⟩
    have huse : m.step (.use c id ops) = ⟨w, p :: m.calls⟩ := by simp [step, hbegin]
    refine ⟨.use c id ops :: (actions ++ [.ret (natives p.body p.this p.args w).1]), ?_, ?_⟩
    · refine ⟨trivial, ?_⟩
      rw [huse]
      exact obeys_append hobeys ⟨trivial, trivial⟩
    · change (m.step (.use c id ops)).run (actions ++ [.ret _]) = _
      rw [huse, run_append, hrun]
      rfl

namespace World

variable {σ : Type}

/-- The chains of all units are linked, and every site has its entry. -/
def Linked (w : World σ) : Prop :=
  ∀ (c : CacheId) (cache : UnitCache), w.caches.get? c = some cache →
    cache.Linked ∧ cache.entries.size = cache.sites.size

/-- The units of a state are still there in another, with the same chains. -/
def Continues (w w' : World σ) : Prop :=
  ∀ (c : CacheId) (cache : UnitCache), w.caches.get? c = some cache →
    ∃ cache', w'.caches.get? c = some cache' ∧ cache.Continues cache'

theorem Continues.refl (w : World σ) : w.Continues w :=
  fun _ cache h => ⟨cache, h, .refl cache⟩

theorem Continues.trans {w w' w'' : World σ} (h : w.Continues w') (h' : w'.Continues w'') :
    w.Continues w'' := by
  intro c cache hget
  obtain ⟨cache', hget', hcontinues⟩ := h c cache hget
  obtain ⟨cache'', hget'', hcontinues'⟩ := h' c cache' hget'
  exact ⟨cache'', hget'', hcontinues.trans hcontinues'⟩

theorem Linked.cache {w : World σ} (h : w.Linked) {c : CacheId} (hc : w.HasCache c) :
    (w.cache c).Linked ∧ (w.cache c).entries.size = (w.cache c).sites.size := by
  obtain ⟨cache, hget⟩ := hc
  rw [cache_eq_of_get? hget]
  exact h c cache hget

theorem Linked.at_of_lt {w : World σ} (h : w.Linked) {c : CacheId} {index : Nat}
    (hlt : index < (w.cache c).sites.size) : w.At c index := by
  cases hget : w.caches.get? c with
  | none =>
    rw [World.cache, Table.get, hget] at hlt
    exact absurd hlt (Nat.not_lt_zero _)
  | some cache =>
    obtain ⟨hlinked, hsize⟩ := h.cache ⟨cache, hget⟩
    exact ⟨by rw [hsize]; exact hlt, hlinked⟩

theorem Linked.at_of_owns {w : World σ} (h : w.Linked) {c : CacheId} {id : EntryId}
    (hown : (w.cache c).owns id) : w.At c id.index := by
  refine h.at_of_lt ?_
  simp only [UnitCache.owns, Bool.and_eq_true, decide_eq_true_eq] at hown
  exact hown.2

theorem At.continues {w w' : World σ} {c : CacheId} {index : Nat} (h : w.At c index)
    (hl : w'.Linked) (hw : w.Continues w') : w'.At c index := by
  obtain ⟨cache, hget⟩ := h.hasCache
  obtain ⟨cache', hget', hcontinues⟩ := hw c cache hget
  have hlt := h.lt
  rw [cache_eq_of_get? hget, ← hcontinues.size_entries, ← cache_eq_of_get? hget'] at hlt
  exact ⟨hlt, (hl.cache ⟨cache', hget'⟩).1⟩

theorem Continues.site_eq {w w' : World σ} {c : CacheId} (h : w.Continues w') (hc : w.HasCache c)
    (index : Nat) : (w'.cache c).site index = (w.cache c).site index := by
  obtain ⟨cache, hget⟩ := hc
  obtain ⟨cache', hget', hcontinues⟩ := h c cache hget
  rw [UnitCache.site, UnitCache.site, cache_eq_of_get? hget, cache_eq_of_get? hget',
    hcontinues.sites_eq]

/-- What one action makes of a state: work on one unit's caches, the host's own changes, or a new
unit. -/
inductive Change (R : Rules) (purged : CacheId → Prop) : World σ → World σ → Prop where
  | work {w w' : World σ} {c : CacheId} (hc : w.HasCache c)
      (hworks : Works R (purged c) True c w w') : Change R purged w w'
  | outside {w w' : World σ} (hcaches : w'.caches = w.caches) (hheap : R.allows w.heap w'.heap)
      (hconfig : w'.runtime.config = w.runtime.config)
      (hhonest : w.runtime.codeCache.Honest → w'.runtime.codeCache.Honest) : Change R purged w w'
  | addCache {w : World σ} {unit : CodeUnit} {cache : UnitCache}
      (hcreate : UnitCache.create unit w.runtime.config = .ok cache) :
      Change R purged w { w with caches := w.caches.add cache }

theorem Change.config {R : Rules} {purged : CacheId → Prop} {w w' : World σ} (h : Change R purged w w') :
    w'.runtime.config = w.runtime.config := by
  cases h with
  | work _ hworks => exact hworks.config
  | outside _ _ hconfig _ => exact hconfig
  | addCache _ => rfl

theorem Change.linked {R : Rules} {purged : CacheId → Prop} {w w' : World σ} (hw : w.Linked)
    (h : Change R purged w w') : w'.Linked ∧ w.Continues w' := by
  cases h with
  | @work _ c hc hworks =>
    obtain ⟨hlinked, hsize⟩ := hw.cache hc
    obtain ⟨hlinked', hcontinues⟩ := hworks.linked hc hlinked
    obtain ⟨-, -, -, hothers⟩ := hworks.same
    obtain ⟨cache', hget'⟩ := hworks.hasCache hc
    have hcache' := cache_eq_of_get? hget'
    rw [hcache'] at hlinked' hcontinues
    constructor
    · intro d cache hget
      by_cases hd : d = c
      · subst hd
        rw [hget'] at hget
        cases hget
        exact ⟨hlinked', by rw [hcontinues.size_entries, hcontinues.sites_eq, hsize]⟩
      · rw [hothers d hd] at hget
        exact hw d _ hget
    · intro d cache hget
      by_cases hd : d = c
      · subst hd
        rw [cache_eq_of_get? hget] at hcontinues
        exact ⟨cache', hget', hcontinues⟩
      · exact ⟨cache, by rw [hothers d hd, hget], .refl _⟩
  | outside hcaches _ _ _ =>
    exact ⟨fun d cache hget => hw d cache (by rwa [hcaches] at hget),
      fun d cache hget => ⟨cache, by rw [hcaches, hget], .refl cache⟩⟩
  | @addCache unit cache hcreate =>
    obtain ⟨hlinked, hsize⟩ := UnitCache.create_linked hcreate
    constructor
    · intro d cache' hget
      by_cases hd : d = w.caches.next
      · subst hd
        rw [Table.get?_add_next] at hget
        cases hget
        exact ⟨hlinked, hsize⟩
      · rw [Table.get?_add_of_ne _ _ hd] at hget
        exact hw d _ hget
    · intro d cache' hget
      have hd : d ≠ w.caches.next := fun hd => by
        rw [hd, Table.get?_next] at hget
        cases hget
      exact ⟨cache', by rw [Table.get?_add_of_ne _ _ hd, hget], .refl _⟩

/-- What holds of the caches of every unit, on the heap as it is. -/
def All (P : Heap → UnitCache → Prop) (w : World σ) : Prop :=
  ∀ (c : CacheId) (cache : UnitCache), w.caches.get? c = some cache → P w.heap cache

theorem All.cache {P : Heap → UnitCache → Prop} {w : World σ} (h : w.All P) {c : CacheId}
    (hc : w.HasCache c) : P w.heap (w.cache c) := by
  obtain ⟨cache, hget⟩ := hc
  rw [cache_eq_of_get? hget]
  exact h c cache hget

/-- What every move keeps, of the unit that it is about and of the others, and what new units have, all
units have after a change. -/
theorem All.change {R : Rules} {P : Heap → UnitCache → Prop} {purged : CacheId → Prop} {w w' : World σ}
    (hl : w.Linked) (hw : w.All P)
    (hmove : ∀ {resets turns : Prop} {b b' : Bench}, b.cache.Linked →
      b.runtime.config = w.runtime.config → P b.heap b.cache → Bench.Move R resets turns b b' →
        P b'.heap b'.cache ∧ ∀ cache, P b.heap cache → P b'.heap cache)
    (hheap : ∀ {h h' : Heap} {cache : UnitCache}, R.allows h h' → P h cache → P h' cache)
    (hnew : ∀ {unit : CodeUnit} {cache : UnitCache},
      UnitCache.create unit w.runtime.config = .ok cache → P w.heap cache)
    (h : Change R purged w w') : w'.All P := by
  cases h with
  | @work _ c hc hworks =>
    obtain ⟨b, hmoves, rfl⟩ := hworks
    have hb : P b.heap b.cache ∧ ∀ cache, P (w.bench c).heap cache → P b.heap cache := by
      have hbefore : P (w.bench c).heap (w.bench c).cache := hw.cache hc
      have hlinked : (w.bench c).cache.Linked := (hl.cache hc).1
      have hconfig : (w.bench c).runtime.config = w.runtime.config := rfl
      generalize w.bench c = b₀ at hmoves hbefore hlinked hconfig
      induction hmoves with
      | refl => exact ⟨hbefore, fun _ h => h⟩
      | tail hmoves hmove' ih =>
        obtain ⟨hb, hothers⟩ := ih
        obtain ⟨hb', hothers'⟩ :=
          hmove (hmoves.linked hlinked).1 (hmoves.config.trans hconfig) hb hmove'
        exact ⟨hb', fun cache h => hothers' cache (hothers cache h)⟩
    intro d cache hget
    by_cases hd : d = c
    · subst hd
      rw [get?_putBench_self hc] at hget
      cases hget
      exact hb.1
    · rw [get?_putBench_of_ne hd] at hget
      exact hb.2 cache (hw d cache hget)
  | outside hcaches hallows _ _ =>
    intro c cache hget
    rw [hcaches] at hget
    exact hheap hallows (hw c cache hget)
  | @addCache unit cache hcreate =>
    intro c cache' hget
    by_cases hc : c = w.caches.next
    · subst hc
      rw [Table.get?_add_next] at hget
      cases hget
      exact hnew hcreate
    · rw [Table.get?_add_of_ne _ _ hc] at hget
      exact hw c cache' hget

end World

/-- The machine's state is linked, and every call waits at an entry. -/
structure Machine.Linked {σ : Type} (m : Machine σ) : Prop where
  world : m.world.Linked
  calls : ∀ p ∈ m.calls, m.world.At p.cache p.index

/-- Whether rules allow what the host does to the heap, and which writes it records, of its own accord. -/
def Machine.Allows {σ : Type} (R : Rules) (m : Machine σ) : Action σ → Prop
  | .host heap _ _ _ _ => R.allows m.world.heap heap
  | .use c id ops => (m.world.cache c).owns id → World.StubsAllowed R m.world c id.index ops
  | .recordWrite _ group _ _ => R.writes m.world.heap group
  | _ => True

/-- What an action shows to type guards. -/
def Machine.showing {σ : Type} (m : Machine σ) : Action σ → Showing
  | .use c id ops => World.showing c id ops m.world
  | .ret result =>
    match m.calls with
    | [] => .nothing default
    | p :: _ => p.showing result
  | .recordWrite c group key v =>
    if (m.world.caches.get? c).isSome then ⟨c, 0, [], some (group, key, v), none⟩ else .nothing c
  | .loopTurn c _ | .unlink c _ _ | .purge c => .nothing c
  | .host _ _ _ _ _ | .addCache _ | .buildStub _ | .teardown => .nothing default

theorem UnitCache.entryAt?_lt {c : UnitCache} {pc : Offset} {id : EntryId}
    (h : c.entryAt? pc = some id) : id.index < c.sites.size := by
  simp only [entryAt?, Option.map_eq_some_iff] at h
  obtain ⟨index, hfind, rfl⟩ := h
  have hlt := (search?_spec hfind).1
  change c.unit.prologueSize + index < c.sites.size
  omega

/-- Building a stub is work on stubs, though on none of a chain. -/
theorem Runtime.follows_build {r r' : Runtime} {recipe : Recipe} {result : Except CacheError Stub}
    (h : r.build recipe = (result, r')) :
    AttachEnv.Follows ⟨default, .zero, r⟩ ⟨default, .zero, r'⟩ := by
  have henv : AttachEnv.build ⟨default, .zero, r⟩ recipe = (result, ⟨default, .zero, r'⟩) := by
    rw [AttachEnv.build, h]
  exact (AttachEnv.build_spec henv).1.toFollows

/-- Whether an action works on the caches of a unit that is there. -/
def Action.WorksOnUnit {σ : Type} : Action σ → Prop
  | .host _ _ _ _ _ | .addCache _ | .buildStub _ | .teardown => False
  | _ => True

namespace Machine

variable {σ : Type} {R : Rules} {valid : Heap → Prop} {m : Machine σ}

theorem world_use (m : Machine σ) (c : CacheId) (id : EntryId) (ops : Operands) :
    (m.step (.use c id ops)).world = (World.begin c id ops m.world).world := by
  simp only [step]
  cases World.begin c id ops m.world <;> rfl

/-- An action on a unit is work on its caches and the showing of values, or does nothing. Only purging
takes entries back to their start. -/
theorem step_parts (hcover : R.Cover valid) (hm : m.Linked) (hvalid : valid m.world.heap)
    {a : Action σ} (ha : m.Allows R a) (hunit : a.WorksOnUnit) :
    (m.showing a).write = none ∧ (m.showing a).result = none ∧ (m.step a).world = m.world ∨
      m.world.HasCache (m.showing a).cache ∧
      World.Parts R (a = .purge (m.showing a).cache) True (m.showing a) m.world (m.step a).world := by
  cases a with
  | use c id ops =>
    rw [world_use]
    by_cases hown : (m.world.cache c).owns id = true
    · exact .inr ⟨(hm.world.at_of_owns hown).hasCache,
        World.parts_begin hcover (fun _ => hm.world.at_of_owns hown) hvalid ha (.inl trivial)⟩
    · refine .inl ⟨?_, ?_, ?_⟩ <;>
        simp [showing, World.showing, World.shownWrite?, World.begin, World.callOf?, World.dispatch, hown,
          Use.answer?, Use.world, Except.toOption]
  | ret result =>
    simp only [step, showing]
    cases hcalls : m.calls with
    | nil => exact .inl ⟨rfl, rfl, rfl⟩
    | cons p rest =>
      have hat := hm.calls p (by rw [hcalls]; exact List.mem_cons_self)
      exact .inr ⟨hat.hasCache, World.parts_finish hcover hat result⟩
  | loopTurn c pc =>
    simp only [step, World.loopEntry]
    split
    · next id hid =>
      have hat := hm.world.at_of_lt (UnitCache.entryAt?_lt hid)
      exact .inr ⟨hat.hasCache, .of_works (World.works_enterFallback hat.lt (.inl trivial)) _ _⟩
    · exact .inl ⟨rfl, rfl, rfl⟩
  | recordWrite c group key v =>
    simp only [step, showing]
    split
    · next hsome =>
      obtain ⟨cache, hget⟩ := Option.isSome_iff_exists.1 hsome
      refine .inr ⟨⟨cache, hget⟩, .mk (s := ⟨c, 0, [], some (group, key, v), none⟩) ?_
        (fun _ h => by cases h) (.refl _ c) rfl (.refl _ c)⟩
      rintro _ _ _ ⟨⟩
      exact ha
    · exact .inl ⟨rfl, rfl, rfl⟩
  | unlink c id signature =>
    simp only [step]
    split
    · next hown =>
      have hat := hm.world.at_of_owns hown
      exact .inr ⟨hat.hasCache, .of_works (World.works_unlinkStubs hat.lt signature) _ _⟩
    · exact .inl ⟨rfl, rfl, rfl⟩
  | purge c =>
    cases hget : m.world.caches.get? c with
    | none => exact .inl ⟨rfl, rfl, World.purge_of_none hget⟩
    | some cache =>
      have hc : m.world.HasCache c := ⟨cache, hget⟩
      exact .inr ⟨hc, .of_works (World.works_purge rfl hc (hm.world.cache hc).1) _ _⟩
  | _ => exact hunit.elim

/-- An action on a unit is work on its caches, or does nothing. Only purging takes entries back to their
start. -/
theorem step_works (hcover : R.Cover valid) (hm : m.Linked) (hvalid : valid m.world.heap)
    (hshows : ∀ p, R.shows p) {a : Action σ} (ha : m.Allows R a) (hunit : a.WorksOnUnit) :
    (m.step a).world = m.world ∨ ∃ c, m.world.HasCache c ∧
      World.Works R (a = .purge c) True c m.world (m.step a).world := by
  rcases step_parts hcover hm hvalid ha hunit with ⟨-, -, heq⟩ | ⟨hc, hparts⟩
  · exact .inl heq
  · exact .inr ⟨_, hc, hparts.works hshows hc (hm.world.cache hc).1⟩

/-- One action is one change. Only purging takes entries back to their start. -/
theorem step_change (hcover : R.Cover valid) (hm : m.Linked) (hvalid : valid m.world.heap)
    (hshows : ∀ p, R.shows p) {a : Action σ} (ha : m.Allows R a) :
    World.Change R (fun c => a = .purge c) m.world (m.step a).world := by
  have hsame : World.Change R (fun c => a = .purge c) m.world m.world :=
    .outside rfl (hcover.allows_refl _) rfl id
  have hunit (h : a.WorksOnUnit) : World.Change R (fun c => a = .purge c) m.world (m.step a).world := by
    rcases step_works hcover hm hvalid hshows ha h with heq | ⟨c, hc, hworks⟩
    · rw [heq]
      exact hsame
    · exact .work hc hworks
  cases a with
  | host heap zone bridges unitsMade host => exact .outside rfl ha rfl id
  | addCache unit =>
    simp only [step, World.addCache]
    cases hcreate : UnitCache.create unit m.world.runtime.config with
    | error e => exact hsame
    | ok cache => exact .addCache hcreate
  | buildStub recipe =>
    simp only [step, World.buildStub]
    cases hbuild : m.world.runtime.build recipe with
    | mk result runtime =>
    have hfollows := Runtime.follows_build hbuild
    exact .outside rfl (hcover.allows_refl _) hfollows.config hfollows.honest
  | teardown =>
    exact .outside rfl (hcover.allows_refl _) rfl fun _ => CodeCache.honest_clear _
  | _ => exact hunit trivial

end Machine

end InlineCache
