import InlineCache.Proofs.Machine.Counted
import InlineCache.Proofs.Machine.Dispatch
import InlineCache.Proofs.Machine.Write
import InlineCache.Proofs.World.Attach

namespace InlineCache

namespace World

variable {σ : Type} {w w' : World σ} {limit : Option Nat}

/-- No unit has made more stubs than the limit allows. -/
def WithinLimit (limit : Option Nat) (w : World σ) : Prop :=
  w.All fun _ cache => cache.arena.WithinLimit limit

private theorem Change.withinLimit {R : Rules} {purged : CacheId → Prop} (hl : w.Linked)
    (hlimit : w.runtime.config.arenaLimit = limit) (hw : w.WithinLimit limit)
    (h : Change R purged w w') : w'.WithinLimit limit :=
  hw.change hl (fun hl _ hb hmove => ⟨hmove.withinLimit hl hb, fun _ h => h⟩) (fun _ h => h)
    (fun hcreate => hlimit ▸ UnitCache.withinLimit_create hcreate) h

end World

namespace Machine

variable {σ : Type} {m : Machine σ} {limit : Option Nat}

/-- A run makes no more stubs than the limit allows. -/
theorem run_withinLimit (hm : m.Linked) (hlimit : m.world.runtime.config.arenaLimit = limit)
    (hw : m.world.WithinLimit limit) (actions : List (Action σ)) :
    (m.run actions).world.WithinLimit limit := by
  refine (List.foldlRecOn (motive := fun m' => m'.Linked ∧
    m'.world.runtime.config.arenaLimit = limit ∧ m'.world.WithinLimit limit) actions step
    ⟨hm, hlimit, hw⟩ ?_).2.2
  rintro m' ⟨hm', hlimit', hw'⟩ a -
  have hchange := step_change_open hm' a
  exact ⟨(step_linked_open hm' a).1, by rw [hchange.config]; exact hlimit',
    hchange.withinLimit hm'.world hlimit' hw'⟩

/-- Whatever attempt to attach fails in the middle of an action, and whyever it does, all chains of the unit
hold the same stubs as before, and a lack of memory is counted once, by the unit and by the zone. There are
never more stubs than the limit allows. And where the objects of a group have one class, a use of an entry
gives the answer of its operation in full, whatever fails. -/
theorem failed_attach_harmless {config : CacheConfig} {compiler : Compiler} {host : σ}
    {actions : List (Action σ)} {m : Machine σ} (hm : (initial config compiler host).run actions = m)
    {c : CacheId} (hc : m.world.HasCache c) {w : World σ}
    (hworks : World.Works .open True True c m.world w) :
    -- up to the attempt, the unit and the zone have counted alike
    (∃ times,
      (w.cache c).counters.oomRecoveries = (m.world.cache c).counters.oomRecoveries + times ∧
      w.runtime.zone.oomCount = m.world.runtime.zone.oomCount + times) ∧
    (∀ a : Attach, a.Within (w.cache c) → ∀ e, w.attachError? c a = some e →
      -- chains hold the same stubs, and entries count as many
      ((w.beforeAttach c a).cache c).Unharmed ((w.attach c a).cache c) ∧
      (∀ other, other ≠ c → (w.attach c a).caches.get? other = w.caches.get? other) ∧
      -- only a lack of memory is counted
      ((w.attach c a).cache c).counters.oomRecoveries =
        (w.cache c).counters.oomRecoveries + e.isOutOfMemory.toNat ∧
      (w.attach c a).runtime.zone.oomCount = w.runtime.zone.oomCount + e.isOutOfMemory.toNat) ∧
    -- nothing is counted where nothing fails
    (∀ a : Attach, a.Within (w.cache c) → w.attachError? c a = none →
      ((w.attach c a).cache c).counters.oomRecoveries = (w.cache c).counters.oomRecoveries ∧
      (w.attach c a).runtime.zone.oomCount = w.runtime.zone.oomCount) ∧
    (w.cache c).arena.optimized = (w.cache c).arena.stubs.countP (!·.isFallback) ∧
    (∀ n, config.arenaLimit = some n → (w.cache c).arena.optimized ≤ n) ∧
    (m.Reached (.fitting True) → ∀ (bodies : Bodies σ) (depth : Nat) (d : CacheId) (id : EntryId)
      (op : SiteOperation) (ops : Operands) (r : Request),
      (m.world.cache d).owns id = true → ((m.world.cache d).site id.index).role = .operation op →
      op.request? ops = some r →
      (World.dispatch (bodies.natives depth) d id ops m.world).1 =
        (r.perform (bodies.natives depth) m.world).1) := by
  subst hm
  have hlinked := (run_linked (initial_linked config compiler host) actions).1
  have hrun := run_withinLimit (initial_linked config compiler host) rfl
    (fun c cache hget => by cases c <;> cases hget) actions
  have hl := (hworks.linked hc (hlinked.world.cache hc).1).1
  have hcw := hworks.hasCache hc
  have hlimit : (w.cache c).arena.WithinLimit config.arenaLimit := by
    obtain ⟨b, hmoves, rfl⟩ := hworks
    rw [World.cache_eq_of_get? (World.get?_putBench_self hc b)]
    exact hmoves.withinLimit (hlinked.world.cache hc).1 (hrun.cache hc)
  obtain ⟨times, hbefore⟩ := (hworks.follows hc).ranOut
  refine ⟨⟨times, hbefore.recoveries, hbefore.reports⟩, fun a ha e he => ?_, fun a ha hnone => ?_,
    hlimit.optimized_eq, hlimit.optimized_le, fun hreached bodies depth d id op ops r hown hrole hr => ?_⟩
  · have htried := World.attach_tried hcw hl ha
    have hran := World.ranOut_attach hcw hl ha
    rw [he] at htried hran
    refine ⟨htried.unharmed (Option.some_ne_none e), fun other hne => ?_, hran.recoveries, hran.reports⟩
    rw [htried.others other hne, (World.tried_beforeAttach ha).others other hne]
  · have hran := World.ranOut_attach hcw hl ha
    rw [hnone] at hran
    exact ⟨hran.recoveries, hran.reports⟩
  · have hsound := hreached.sound
    exact (World.dispatch_alike_perform ⟨hsound.linked.world, hsound.fitted⟩ (bodies.acts depth)
      (bodies.blind depth) hown hrole hr).answer

/-- A unit without room for stubs. -/
def roomless : Machine Unit :=
  (initial (CacheConfig.standard.withArenaLimit 0) (fun _ _ => none) ()).run
    [.addCache ⟨1, "f", 0, false, 0, #[.typeOf], #[]⟩]

private theorem roomless_reached : roomless.Reached (.fitting True) :=
  ⟨CacheConfig.standard.withArenaLimit 0, fun _ _ => none, (),
    [.addCache ⟨1, "f", 0, false, 0, #[.typeOf], #[]⟩], ⟨trivial, trivial⟩, rfl⟩

/-- The stub for the first operand finds no room, which is counted, and the operand has its type named all
the same. -/
theorem roomless_answers :
    let a := Attach.attempt 0 ((Request.typeOf (.int32 5)).decision roomless.world.heap)
    roomless.world.attachError? 1 a = some (.outOfMemory "stub") ∧
      ((roomless.world.beforeAttach 1 a).cache 1).Unharmed ((roomless.world.attach 1 a).cache 1) ∧
      ((roomless.world.attach 1 a).cache 1).counters.oomRecoveries = 1 ∧
      (roomless.world.attach 1 a).runtime.zone.oomCount = 1 ∧
      (World.dispatch (Bodies.natives (fun _ _ _ => .done (.ok .undefined)) 0) 1 ⟨1, 0⟩
        (.unary (.int32 5)) roomless.world).1 = .ok (.string "number") := by
  intro a
  have herror : roomless.world.attachError? 1 a = some (.outOfMemory "stub") := by decide +kernel
  have hc : roomless.world.HasCache 1 := Option.isSome_iff_exists.1 (by decide +kernel)
  have hin : a.Within (roomless.world.cache 1) := by
    have hsize : (roomless.world.cache 1).entries.size = 1 := by decide +kernel
    change 0 < _
    rw [hsize]
    exact Nat.one_pos
  obtain ⟨-, hfailed, -, -, -, hdispatch⟩ :=
    failed_attach_harmless (rfl : _ = roomless) hc (.refl roomless.world 1)
  obtain ⟨hunharmed, -, hrecoveries, hreports⟩ := hfailed a hin _ herror
  have hnone : (roomless.world.cache 1).counters.oomRecoveries = 0 := by decide +kernel
  have hzone : roomless.world.runtime.zone.oomCount = 0 := by decide +kernel
  refine ⟨herror, hunharmed, ?_, ?_, ?_⟩
  · rw [hrecoveries]
    change (roomless.world.cache 1).counters.oomRecoveries + 1 = 1
    rw [hnone]
  · rw [hreports]
    change roomless.world.runtime.zone.oomCount + 1 = 1
    rw [hzone]
  · refine (hdispatch roomless_reached _ 0 1 ⟨1, 0⟩ .typeOf (.unary (.int32 5)) _
      (by decide +kernel) (by decide +kernel) rfl).trans ?_
    decide +kernel

/-- A plain object was written, with room for the stub of the write and for the type guard over it, and for
no other. -/
def plainWrittenTight : Machine Unit :=
  (initial (CacheConfig.standard.withArenaLimit 2) (fun _ _ => none) ()).run writePlain

private theorem plainWrittenTight_reached : plainWrittenTight.Reached (.fitting False) :=
  ⟨_, fun _ _ => none, (), writePlain, ⟨evolves_sharedGroup, trivial, trivial, trivial⟩, rfl⟩

/-- Where a group holds objects of several classes, a use in which a type guard cannot be attached need not
give the answer of its operation in full. -/
theorem answer_not_always_kept :
    ¬ ∀ (m : Machine Unit), m.Reached (.fitting False) → ∀ (bodies : Bodies Unit) (depth : Nat)
      (c : CacheId) (id : EntryId) (op : SiteOperation) (ops : Operands) (r : Request),
      (m.world.cache c).owns id = true → ((m.world.cache c).site id.index).role = .operation op →
      op.request? ops = some r →
      -- memory ran out in the use
      ((World.dispatch (bodies.natives depth) c id ops m.world).2.cache c).counters.oomRecoveries =
        (m.world.cache c).counters.oomRecoveries + 1 →
      (World.dispatch (bodies.natives depth) c id ops m.world).1 =
        (r.perform (bodies.natives depth) m.world).1 := by
  intro hall
  have hsame := hall plainWrittenTight plainWrittenTight_reached
    (fun _ _ _ => .done (.ok .undefined)) 0 1 ⟨1, 0⟩ (.setProp "length")
    (.binary (.object 2) (.object 1)) (.setProp (.object 2) "length" (.object 1))
    (by decide +kernel) (by decide +kernel) rfl (by decide +kernel)
  have hused : (World.dispatch (Bodies.natives (fun _ _ _ => .done (.ok .undefined)) 0) 1 ⟨1, 0⟩
      (.binary (.object 2) (.object 1)) plainWrittenTight.world).1 = .ok (.object 1) := by
    decide +kernel
  have hfull : ((Request.setProp (.object 2) "length" (.object 1)).perform
      (Bodies.natives (fun _ _ _ => .done (.ok .undefined)) 0) plainWrittenTight.world).1.toOption =
        none := by decide +kernel
  rw [← hsame, hused] at hfull
  cases hfull

end Machine

end InlineCache
