import InlineCache.Proofs.Machine.Fitted
import InlineCache.Proofs.World.Widen

namespace InlineCache

/-- A value that is there: an object has to be one of the heap. -/
def Value.ExistsIn (v : Value) (h : Heap) : Prop := ∀ id, v = .object id → id ≤ h.objects.size

/-- What a value is taken for does not change once it is there. -/
theorem GuardList.accepts_grows {gs : GuardList} {h h' : Heap} {v : Value} (hg : h.Grows h')
    (hv : v.ExistsIn h) : gs.accepts h' v = gs.accepts h v := by
  have hguard (g : TypeGuard) : g.accepts h' v = g.accepts h v := by
    cases v with
    | object id =>
      cases g with
      | group group => simp only [TypeGuard.accepts, (hg.object id (hv id rfl)).group]
      | _ => rfl
    | _ => cases g <;> rfl
  simp only [GuardList.accepts, hguard]

/-- A kind of entry is monitored if it takes over values from elsewhere, or by the flavor of its
operation. -/
theorem SiteOperation.isMonitored_kind (op : SiteOperation) :
    (SiteRole.operation op).kind.isMonitored = true ↔ op.flavor = .monitored := by
  cases op <;> simp [SiteRole.kind, SiteKind.isMonitored, flavor]

private theorem Request.isMonitored_iff (r : Request) :
    r.isMonitored = true ↔ r.operation.flavor = .monitored := by
  cases r <;> exact ⟨fun h => by cases h <;> rfl, fun h => by cases h <;> rfl⟩

namespace World

variable {σ : Type} {classed : Prop} {purged : CacheId → Prop} {w w' : World σ} {c : CacheId}

/-- Every unit watches what it has to. -/
def Watched (w : World σ) : Prop := w.All fun _ cache => cache.Watched

private theorem Change.watched (hl : w.Linked) (hw : w.Watched)
    (h : Change (.fitting classed) purged w w') : w'.Watched :=
  hw.change hl (fun hl _ hb hmove => ⟨hmove.watched hl hb, fun _ h => h⟩) (fun _ h => h)
    UnitCache.watched_create h

theorem Change.grows (hl : w.Linked) (hw : w.Fitted classed)
    (h : Change (.fitting classed) purged w w') : w.heap.Grows w'.heap := by
  cases h with
  | work hc hworks =>
    obtain ⟨b, hmoves, rfl⟩ := hworks
    exact (hmoves.fitted (hl.cache hc).1 (hw.bench hc)).2
  | outside _ hheap _ _ => exact (hheap hw.heap).1
  | addCache _ => exact .refl _

/-- The guards of all units only widen. -/
theorem Change.widens {R : Rules} (hl : w.Linked) (h : Change R purged w w') (hc : w.HasCache c)
    (p : Watch) : GuardList.Widens ((w.cache c).guards p) ((w'.cache c).guards p) := by
  have hsame (hget : w'.caches.get? c = w.caches.get? c) :
      GuardList.Widens ((w.cache c).guards p) ((w'.cache c).guards p) := by
    rw [World.cache, World.cache, Table.get, Table.get, hget]
    exact .refl _
  cases h with
  | @work _ d hd hworks =>
    by_cases hcd : c = d
    · subst hcd
      exact (hworks.widens hc (hl.cache hc).1).guards p
    · obtain ⟨-, -, -, hothers⟩ := hworks.same
      exact hsame (hothers c hcd)
  | outside hcaches _ _ _ => exact hsame (by rw [hcaches])
  | addCache _ =>
    obtain ⟨cache, hget⟩ := hc
    have hne : c ≠ w.caches.next := fun heq => by
      rw [heq, Table.get?_next] at hget
      cases hget
    exact hsame (Table.get?_add_of_ne _ _ hne)

end World

/-- A call whose result will be shown to the guards of its entry, and whose use began when these did not
accept more than they do now. -/
structure Pending.Watched {σ : Type} (w : World σ) (p : Pending) : Prop where
  shows : p.origin.showsResult = true
  covered : ∀ h v, p.guards.any (·.accepts h v) = true →
    (w.cache p.cache).accepts h (.result p.index) v = true

namespace World

variable {σ : Type} {w : World σ} {c : CacheId}

/-- The guards that an entry has are accepted by. -/
theorem At.accepts_monitorGuards {index : Nat} (hat : w.At c index) (h : Heap) (v : Value) :
    ((w.cache c).monitorGuards index).any (·.accepts h v) =
      (w.cache c).accepts h (.result index) v := by
  rw [UnitCache.monitorGuards_eq _ hat.lt, List.any_map]
  rfl

/-- What guards accept, guards of a unit that is there accept. -/
theorem hasCache_of_accepts {h : Heap} {p : Watch} {v : Value}
    (haccepts : (w.cache c).accepts h p v = true) : w.HasCache c := by
  cases hget : w.caches.get? c with
  | some cache => exact ⟨cache, hget⟩
  | none =>
    have hnone : (default : UnitCache).chain? p.place = none := by cases p <;> rfl
    rw [World.cache, Table.get, hget, Option.getD_none, UnitCache.accepts,
      UnitCache.guards_of_none hnone] at haccepts
    cases haccepts

/-- The flavor of the stub that answers a use is the one of the operation. -/
theorem Watched.flavor_of_hit {index : Nat} {op : SiteOperation} (hw : w.Watched) (hat : w.At c index)
    (hrole : ((w.cache c).site index).role = .operation op) {ops : Operands} {stub : Stub}
    {signature : Signature}
    (hhit : hit? w.heap (((w.cache c).entry index).chain.stubs (w.cache c).arena) ops =
      some (stub, signature)) : stub.kind.flavor? = some op.flavor := by
  obtain ⟨op', hrole', hflavor⟩ := (hw.cache hat.hasCache).flavored index hat.lt stub (mem_of_hit? hhit).1
  rw [hrole] at hrole'
  cases hrole'
  exact hflavor

/-- A call is watched when it is made. -/
theorem Watched.pending {classed : Prop} (hw : w.Watched) (hfitted : w.Fitted classed) {id : EntryId}
    (hat : w.At c id.index) {ops : Operands} {p : Pending} {w₁ : World σ}
    (hcall : callOf? c id ops w = some (p, w₁)) : p.Watched w := by
  obtain ⟨-, hcache, hindex, hguards⟩ := place_of_callOf? hcall
  refine ⟨?_, fun h v hv => by rwa [hcache, hindex, ← hat.accepts_monitorGuards, ← hguards]⟩
  obtain ⟨op, hown, hrole, ⟨stub, signature, hhit, hstub, -⟩ | ⟨-, r, -, hfallback, -⟩⟩ :=
    callOf?_cases hcall
  · have hflavor := hw.flavor_of_hit hat hrole hhit
    obtain ⟨op', hrole', hfits⟩ := hfitted.hit hat.lt hhit
    obtain ⟨callee, f, value, this, args, rfl, hpayload, -, -, rfl⟩ := stubCall?_cases hstub
    rw [hrole] at hrole'
    cases hrole'
    rw [hpayload] at hfits
    cases hfits
    rw [CallOrigin.showsResult, hflavor]
    rfl
  · obtain ⟨callee, f, this, args, -, -, rfl⟩ := fallbackCall?_cases hfallback
    rfl

end World

namespace Machine

variable {σ : Type} {m : Machine σ}

/-- The machine's state is sound, every unit watches what it has to, and so does every call. -/
structure Watched (classed : Prop) (m : Machine σ) : Prop where
  sound : m.Sound classed
  caches : m.world.Watched
  calls : ∀ p ∈ m.calls, p.Watched m.world

variable {classed : Prop}

theorem initial_watched (classed : Prop) (config : CacheConfig) (compiler : Compiler) (host : σ) :
    (initial config compiler host).Watched classed where
  sound := initial_sound classed config compiler host
  caches c cache hget := by cases c <;> cases hget
  calls p hp := by cases hp

theorem step_change_fitting (hm : m.Sound classed) {a : Action σ}
    (ha : m.HostObeys (.fitting classed) a) :
    World.Change (.fitting classed) (fun c => a = .purge c) m.world (m.step a).world :=
  step_change (Rules.fitting_cover classed) hm.linked hm.fitted.heap (fun _ => trivial)
    (hm.allows Handler.Worked.evolves ha)

theorem step_watched (hm : m.Watched classed) {a : Action σ}
    (ha : m.HostObeys (.fitting classed) a) : (m.step a).Watched classed := by
  have hchange := step_change_fitting hm.sound ha
  have hlinked := hm.sound.linked.world
  have hlater {p : Pending} (hc : m.world.HasCache p.cache) (hp : p.Watched m.world) :
      p.Watched (m.step a).world := by
    refine ⟨hp.shows, fun h v hv => ?_⟩
    obtain ⟨-, hcovers⟩ := hchange.widens hlinked hc (.result p.index) ((hm.caches.cache hc).one _)
    exact hcovers h v (hp.covered h v hv)
  refine ⟨step_sound hm.sound ha, hchange.watched hlinked hm.caches, fun p hp => ?_⟩
  rcases mem_calls_step hp with hp | ⟨c, id, ops, w, rfl, hbegin⟩
  · exact hlater (hm.sound.linked.calls p hp).hasCache (hm.calls p hp)
  · obtain ⟨w₁, hcall⟩ := World.callOf?_of_called hbegin
    obtain ⟨hown, hcache, -, -⟩ := World.place_of_callOf? hcall
    have hat := hlinked.at_of_owns hown
    exact hlater (by rw [hcache]; exact hat.hasCache) (hm.caches.pending hm.sound.fitted hat hcall)

/-- Along a run guards only widen, and the heap only grows. -/
theorem run_watched (hm : m.Watched classed) {actions : List (Action σ)}
    (hactions : m.Obeys (.fitting classed) actions) :
    (m.run actions).Watched classed ∧ m.world.heap.Grows (m.run actions).world.heap ∧
      ∀ (c : CacheId) (p : Watch), m.world.HasCache c →
        GuardList.Widens ((m.world.cache c).guards p) (((m.run actions).world.cache c).guards p) := by
  induction actions generalizing m with
  | nil => exact ⟨hm, .refl _, fun _ _ _ => .refl _⟩
  | cons a actions ih =>
    have hchange := step_change_fitting hm.sound hactions.1
    have hlinked := hm.sound.linked.world
    obtain ⟨hwatched, hgrows, hwidens⟩ := ih (step_watched hm hactions.1) hactions.2
    refine ⟨hwatched, (hchange.grows hlinked hm.sound.fitted).trans hgrows, fun c p hc => ?_⟩
    have hc' : (m.step a).world.HasCache c := by
      obtain ⟨cache, hget⟩ := hc
      obtain ⟨cache', hget', -⟩ := (hchange.linked hlinked).2 c cache hget
      exact ⟨cache', hget'⟩
    exact (hchange.widens hlinked hc p).trans (hwidens c p hc')

theorem Reached.watched (hm : m.Reached (.fitting classed)) : m.Watched classed := by
  obtain ⟨config, compiler, host, actions, hactions, rfl⟩ := hm
  exact (run_watched (initial_watched classed config compiler host) hactions).1

/-- The value that an action answers a use of an entry with, and the type guards that the entry had when
the use began. -/
inductive Answers (m : Machine σ) : Action σ → CacheId → Nat → List TypeGuard → Value → Prop where
  | use {c : CacheId} {id : EntryId} {ops : Operands} {v : Value} {w : World σ}
      (hown : (m.world.cache c).owns id = true)
      (hbegin : World.begin c id ops m.world = .answered (.ok v) w) :
      Answers m (.use c id ops) c id.index ((m.world.cache c).monitorGuards id.index) v
  | ret {p : Pending} {rest : List Pending} {v : Value} (hcalls : m.calls = p :: rest) :
      Answers m (.ret (.ok v)) p.cache p.index p.guards v

/-- A use of an entry that stores a value under a name in an object. -/
inductive Stores (m : Machine σ) : Action σ → CacheId → ObjectId → PropertyKey → Value → Prop where
  | setProp {c : CacheId} {id : EntryId} {o : ObjectId} {key : PropertyKey} {v : Value}
      (hown : (m.world.cache c).owns id = true)
      (hrole : ((m.world.cache c).site id.index).role = .operation (.setProp key)) :
      Stores m (.use c id (.binary (.object o) v)) c o key v
  | setElem {c : CacheId} {id : EntryId} {o : ObjectId} {index v : Value} {key : PropertyKey}
      (hown : (m.world.cache c).owns id = true)
      (hrole : ((m.world.cache c).site id.index).role = .operation .setElem)
      (hkey : Operation.toPropertyKey m.world.heap index = .ok key) :
      Stores m (.use c id (.ternary (.object o) index v)) c o key v

/-- The write to a property of a group that an action asks for. -/
inductive Writes (m : Machine σ) : Action σ → CacheId → GroupId → PropertyKey → Value → Prop where
  | store {a : Action σ} {c : CacheId} {o : ObjectId} {key : PropertyKey} {v : Value}
      (hstores : m.Stores a c o key v) : Writes m a c (m.world.heap.object o).group key v
  | record {c : CacheId} {group : GroupId} {key : PropertyKey} {v : Value} :
      Writes m (.recordWrite c group key v) c group key v

theorem Answers.at {a : Action σ} {c : CacheId} {index : Nat} {guards : List TypeGuard} {v : Value}
    (hm : m.Linked) (h : m.Answers a c index guards v) : m.world.At c index := by
  cases h with
  | use hown _ => exact hm.world.at_of_owns hown
  | ret hcalls => exact hm.calls _ (by rw [hcalls]; exact List.mem_cons_self)

/-- Only what is answered is shown as a result. -/
theorem answers_of_showing {a : Action σ} {v : Value} (h : (m.showing a).result = some v) :
    m.Answers a (m.showing a).cache (m.showing a).index (m.showing a).guards v := by
  cases a with
  | use c id ops =>
    change (if m.world.showsResult c id ops = true then (World.begin c id ops m.world).answer?
      else none) = some v at h
    obtain ⟨-, hanswer⟩ := Option.ite_none_right_eq_some.1 h
    have hbegin := Use.eq_answered_of_answer? hanswer
    refine .use ?_ hbegin
    by_contra hown
    rw [Bool.not_eq_true] at hown
    simp [World.begin, World.callOf?, World.dispatch, hown, Use.answer?, Except.toOption] at hanswer
  | ret result =>
    cases hcalls : m.calls with
    | nil =>
      simp only [showing, hcalls] at h
      cases h
    | cons p rest =>
      simp only [showing, hcalls, Pending.showing] at h ⊢
      obtain ⟨-, hresult⟩ := Option.ite_none_right_eq_some.1 h
      cases result with
      | error e => cases hresult
      | ok v' =>
        cases hresult
        exact .ret hcalls
  | recordWrite c group key v =>
    simp only [showing] at h
    split at h <;> cases h
  | _ => cases h

/-- What a monitored entry answers is shown. -/
theorem showing_of_answers (hm : m.Watched classed) {a : Action σ} {c : CacheId} {index : Nat}
    {guards : List TypeGuard} {v : Value} (h : m.Answers a c index guards v)
    (hmonitored : ((m.world.cache c).site index).kind.isMonitored = true) :
    ∃ write, m.showing a = ⟨c, index, guards, write, some v⟩ := by
  cases h with
  | @use c id ops v w hown hbegin =>
    have hat := hm.sound.linked.world.at_of_owns hown
    have hshows : m.world.showsResult c id ops = true := by
      unfold World.showsResult
      rw [EntrySite.kind] at hmonitored
      cases hrole : ((m.world.cache c).site id.index).role with
      | monitor => rfl
      | loopCounter =>
        rw [hrole] at hmonitored
        cases hmonitored
      | operation op =>
        rw [hrole, SiteOperation.isMonitored_kind] at hmonitored
        dsimp only
        split
        · next stub signature hhit =>
          rw [hm.caches.flavor_of_hit hat hrole hhit, hmonitored]
          rfl
        · next hhit =>
          cases hr : op.request? ops with
          | some r =>
            rw [(Request.eq_of_request? hr).1] at hmonitored
            exact (Request.isMonitored_iff r).2 hmonitored
          | none =>
            simp [World.begin, World.callOf?, World.dispatch, World.dispatchEntry, World.fallback, hown,
              hrole, hhit, hr] at hbegin
    refine ⟨m.world.shownWrite? c id ops, ?_⟩
    simp only [showing, World.showing, hshows, if_true, hbegin]
    rfl
  | @ret p rest v hcalls =>
    have hshows := (hm.calls p (by rw [hcalls]; exact List.mem_cons_self)).shows
    refine ⟨none, ?_⟩
    simp only [showing, hcalls, Pending.showing, hshows, if_true]
    rfl

private theorem writes_of_request {c : CacheId} {id : EntryId} {r : Request} {group : GroupId}
    {key : PropertyKey} {v : Value} (hown : (m.world.cache c).owns id = true)
    (hrole : ((m.world.cache c).site id.index).role = .operation r.operation)
    (hwrite : r.write? m.world.heap = .ok (some (group, key, v))) :
    m.Writes (.use c id r.operands) c group key v := by
  obtain ⟨o, rfl, rfl | ⟨index, rfl, hkey⟩⟩ := Request.write?_cases hwrite
  · exact .store (.setProp hown hrole)
  · exact .store (.setElem hown hrole hkey)

/-- Only what is written is shown as a write. -/
theorem writes_of_showing (hm : m.Watched classed) {a : Action σ} {group : GroupId}
    {key : PropertyKey} {v : Value} (h : (m.showing a).write = some (group, key, v)) :
    m.Writes a (m.showing a).cache group key v := by
  cases a with
  | use c id ops =>
    change m.world.shownWrite? c id ops = some (group, key, v) at h
    change m.Writes _ c group key v
    unfold World.shownWrite? at h
    split at h
    · next op hown hrole =>
      split at h
      · next stub signature hhit =>
        obtain ⟨hflavor, hwrite⟩ := Option.ite_none_right_eq_some.1 h
        rw [hm.caches.flavor_of_hit (hm.sound.linked.world.at_of_owns hown) hrole hhit] at hflavor
        cases op with
        | setProp key' =>
          unfold World.stubWrite? at hwrite
          split at hwrite
          · next hkey =>
            cases hkey
            cases hwrite
            exact .store (.setProp hown hrole)
          · cases hwrite
        | _ => cases hflavor
      · obtain ⟨r, hr, hwrite⟩ := Option.bind_eq_some_iff.1 h
        obtain ⟨rfl, rfl⟩ := Request.eq_of_request? hr
        exact writes_of_request hown hrole (Request.write?_of_shownWrite? hwrite)
    · cases h
  | recordWrite c group' key' v' =>
    simp only [showing] at h ⊢
    split at h
    · next hsome =>
      cases h
      rw [if_pos hsome]
      exact .record
    · cases h
  | ret result =>
    cases hcalls : m.calls with
    | nil =>
      simp only [showing, hcalls] at h
      cases h
    | cons p rest =>
      simp only [showing, hcalls] at h
      cases h
  | _ => cases h

end Machine

end InlineCache
