import InlineCache.Proofs.Machine.Watched
import InlineCache.Proofs.Stub.Recording

namespace InlineCache

/-- A value whose type is known as an object of its group, though it is tracked by its identity. -/
def Heap.KnownByGroup (h : Heap) (types : TypeSet) (v : Value) : Prop :=
  ∃ id, v = .object id ∧ (h.object id).singleton = true ∧
    types.hasObject (.group (h.object id).group) = true

/-- What guards within some types accept has one of these types. -/
theorem GuardList.Within.hasValue {gs : GuardList} {h : Heap} {types : TypeSet} {v : Value}
    (hgs : gs.Within h types) (hv : gs.accepts h v = true) :
    types.hasValue h.objectKey v = true ∨ h.KnownByGroup types v := by
  obtain ⟨p, hp, haccepts⟩ := List.any_eq_true.1 hv
  exact (hgs p hp).hasValue haccepts

namespace World

variable {σ : Type} {purged : CacheId → Prop} {resets turns : Prop} {w w' : World σ} {c : CacheId}

/-- The guards of all units accept no more than the types that are known. -/
def Guarded (w : World σ) : Prop := w.All fun h cache => cache.Guarded h

theorem Change.guarded (hl : w.Linked) (hw : w.Guarded) (h : Change .recording purged w w') :
    w'.Guarded :=
  hw.change hl
    (fun hl _ hb hmove => ⟨hmove.guarded hl hb, fun _ h => h.records (hmove.records hl)⟩)
    (fun hallows h => h.records hallows.2) (UnitCache.guarded_create _) h

theorem Works.records (hl : (w.cache c).Linked)
    (h : Works .recording resets turns c w w') : w.heap.Records w'.heap := by
  obtain ⟨b, hmoves, rfl⟩ := h
  exact hmoves.rel (K := fun b b' => b.heap.Records b'.heap) (fun _ => .refl _) .trans
    (fun hl h => h.records hl) hl

private theorem Change.records (hl : w.Linked) (h : Change .recording purged w w') :
    w.heap.Records w'.heap := by
  cases h with
  | work hc hworks => exact hworks.records (hl.cache hc).1
  | outside _ hheap _ _ => exact hheap.2
  | addCache _ => exact .refl _

/-- After a write was shown to the guards of its property, they had accepted it, the layout implies it, or
it is recorded. -/
theorem recorded_recordWrite (hc : w.HasCache c) (hl : (w.cache c).Linked) {group : GroupId}
    (key : PropertyKey) {v : Value} (hpos : 0 < group) (hle : group ≤ w.heap.groups.size)
    (hv : v ≠ .magic .optimizedOut) :
    (w.cache c).accepts w.heap (.write group key) v = true ∨
      ((w.heap.group group).fieldRepr? key).any (·.implicitlyCovers v) = true ∨
      (w.recordWrite c group key v).2.heap.propertyHasValue group key v = true := by
  obtain ⟨t, accepted, t', h, env, hfind, hsound, hr, heq⟩ |
    ⟨t, a, accepted, t', h, env, hnone, hcreate, hr, heq⟩ := recordWrite_cases hc hl group key v
  · obtain ⟨-, -, hspec⟩ := TypeChain.recordWrite_widened hr hl.arena hsound
    rw [heq, UnitCache.accepts, UnitCache.guards_write hfind]
    exact (hspec hpos hle).2 hv
  · obtain ⟨hedit, hsound, hids, -⟩ := TypeChain.create_spec hl.arena hcreate
    obtain ⟨-, -, hspec⟩ := TypeChain.recordWrite_widened hr hedit.wellLinked hsound
    rw [heq]
    rcases (hspec hpos hle).2 hv with haccepts | hrest
    · have hempty : t.guards a = [] := Chain.guards_of_stubIds_eq_nil hids
      rw [TypeChain.accepts, hempty] at haccepts
      cases haccepts
    · exact .inr hrest

end World

namespace Machine

variable {σ : Type} {m : Machine σ}

/-- The machine's state is sound, and the guards of its units accept no more than is recorded. -/
structure Recorded (m : Machine σ) : Prop where
  sound : m.Sound False
  guarded : m.world.Guarded

theorem initial_recorded (config : CacheConfig) (compiler : Compiler) (host : σ) :
    (initial config compiler host).Recorded where
  sound := initial_sound False config compiler host
  guarded c cache hget := by cases c <;> cases hget

theorem HostObeys.fitting {a : Action σ} (ha : m.HostObeys .recording a) :
    m.HostObeys (.fitting False) a :=
  ha.mono Rules.recording_tightens

theorem step_change_recording (hm : m.Recorded) {a : Action σ} (ha : m.HostObeys .recording a) :
    World.Change .recording (fun c => a = .purge c) m.world (m.step a).world :=
  step_change Rules.recording_cover hm.sound.linked hm.sound.fitted.heap (fun _ => trivial)
    (hm.sound.allows (R := .recording) (fun h => ⟨h.evolves, h.records⟩) ha)

theorem step_recorded (hm : m.Recorded) {a : Action σ} (ha : m.HostObeys .recording a) :
    (m.step a).Recorded ∧ m.world.heap.Records (m.step a).world.heap ∧
      m.world.heap.Grows (m.step a).world.heap := by
  have hchange := step_change_recording hm ha
  have hlinked := hm.sound.linked.world
  exact ⟨⟨step_sound hm.sound ha.fitting, hchange.guarded hlinked hm.guarded⟩, hchange.records hlinked,
    (step_change_fitting hm.sound ha.fitting).grows hlinked hm.sound.fitted⟩

/-- Along a run nothing that was recorded is forgotten. -/
theorem run_recorded (hm : m.Recorded) {actions : List (Action σ)}
    (hactions : m.Obeys .recording actions) :
    (m.run actions).Recorded ∧ m.world.heap.Records (m.run actions).world.heap ∧
      m.world.heap.Grows (m.run actions).world.heap := by
  refine hactions.keeps (P := fun m' => m'.Recorded ∧ m.world.heap.Records m'.world.heap ∧
    m.world.heap.Grows m'.world.heap) ?_ ⟨hm, .refl _, .refl _⟩
  rintro m' ⟨hm', hrecords, hgrows⟩ a ha
  obtain ⟨hm'', hrecords', hgrows'⟩ := step_recorded hm' ha
  exact ⟨hm'', hrecords.trans hrecords', hgrows.trans hgrows'⟩

theorem Reached.recorded (hm : m.Reached .recording) : m.Recorded := by
  obtain ⟨config, compiler, host, actions, hactions, rfl⟩ := hm
  exact (run_recorded (initial_recorded config compiler host) hactions).1

/-- What guards accept has one of the types that are known, but for objects that are tracked by identity
and known by their group. -/
theorem Recorded.hasValue (hm : m.Recorded) {c : CacheId} {p : Watch} (hp : p.Valid) {v : Value}
    (haccepts : (m.world.cache c).accepts m.world.heap p v = true) :
    ((m.world.cache c).types m.world.heap p).hasValue m.world.heap.objectKey v = true ∨
      m.world.heap.KnownByGroup ((m.world.cache c).types m.world.heap p) v :=
  ((hm.guarded.cache (World.hasCache_of_accepts haccepts)).within p hp).hasValue haccepts

/-- Whatever the guards of an entry or of a property accept has one of the types that were seen or
recorded, and so has every value that is recorded as a write, unless the layout implies it. An object
that is tracked by its identity may be known by its group alone. -/
theorem accepts_within_recorded (hm : m.Reached .recording) (c : CacheId) :
    (∀ (p : Watch) (v : Value), p.Valid → (m.world.cache c).accepts m.world.heap p v = true →
      ((m.world.cache c).types m.world.heap p).hasValue m.world.heap.objectKey v = true ∨
        m.world.heap.KnownByGroup ((m.world.cache c).types m.world.heap p) v) ∧
    ∀ (group : GroupId) (key : PropertyKey) (v : Value), m.world.HasCache c → 0 < group →
      group ≤ m.world.heap.groups.size → v ≠ .magic .optimizedOut →
      (m.step (.recordWrite c group key v)).world.heap.propertyHasValue group key v = true ∨
        ((m.world.heap.group group).fieldRepr? key).any (·.implicitlyCovers v) = true ∨
        m.world.heap.KnownByGroup ((m.world.heap.group group).propertyTypes key) v := by
  have hrecorded := hm.recorded
  refine ⟨fun p v hp haccepts => hrecorded.hasValue hp haccepts,
    fun group key v hc hpos hle hv => ?_⟩
  have hstep : (m.step (.recordWrite c group key v)).world = (m.world.recordWrite c group key v).2 := by
    obtain ⟨cache, hget⟩ := hc
    simp [step, hget]
  rw [hstep]
  have hlinked := (hrecorded.sound.linked.world.cache hc).1
  rcases World.recorded_recordWrite hc hlinked key hpos hle hv with haccepts | himplied | hrecord
  · rcases hrecorded.hasValue (p := .write group key) hpos haccepts with hvalue | hknown
    · rw [World.recordWrite_of_accepts (by rw [UnitCache.updateAccepts_eq, haccepts])]
      exact .inl hvalue
    · exact .inr (.inr hknown)
  · exact .inr (.inl himplied)
  · exact .inl hrecord

/-- A group with an object, and with another one that is tracked by its identity. -/
def trackedGroup : Heap :=
  (((Heap.initial.addGroup (.ofClass .plain)).2.newObject 5).2.newSingleton 5).2

theorem recording_trackedGroup : Rules.recording.allows .initial trackedGroup := by
  have hgroup : Heap.Working False .initial (Heap.initial.addGroup (.ofClass .plain)).2 := .addGroup _
  have hobject : Heap.Working False (Heap.initial.addGroup (.ofClass .plain)).2
      ((Heap.initial.addGroup (.ofClass .plain)).2.newObject 5).2 := .newObject (by decide) False.elim
  have htracked : Heap.Working False ((Heap.initial.addGroup (.ofClass .plain)).2.newObject 5).2
      trackedGroup := .newSingleton (by decide) False.elim
  exact ⟨(hgroup.evolves.trans hobject.evolves).trans htracked.evolves,
    (hgroup.records.trans hobject.records).trans htracked.records⟩

/-- The object of the group is recorded as a write to a property. -/
def recordOfGroup : List (Action Unit) :=
  [.host trackedGroup .initial .empty 0 (), .addCache ⟨1, "f", 0, false, 0, #[.setProp 0], #["x"]⟩,
    .recordWrite 1 5 "x" (.object 1)]

/-- The machine when the object is recorded. -/
def groupRecorded : Machine Unit := (initial .standard (fun _ _ => none) ()).run recordOfGroup

private theorem groupRecorded_reached : groupRecorded.Reached .recording :=
  ⟨.standard, fun _ _ => none, (), recordOfGroup,
    ⟨recording_trackedGroup, trivial, (by decide : 5 ≤ trackedGroup.groups.size), trivial⟩, rfl⟩

/-- The object that is tracked by its identity is accepted, and is known by its group alone. -/
theorem tracked_object_known_by_group :
    (groupRecorded.world.cache 1).accepts groupRecorded.world.heap (.write 5 "x") (.object 2) = true ∧
      groupRecorded.world.heap.KnownByGroup
        ((groupRecorded.world.cache 1).types groupRecorded.world.heap (.write 5 "x")) (.object 2) := by
  have haccepts : (groupRecorded.world.cache 1).accepts groupRecorded.world.heap (.write 5 "x")
      (.object 2) = true := by decide +kernel
  have hnone : ((groupRecorded.world.cache 1).types groupRecorded.world.heap
      (.write 5 "x")).hasValue groupRecorded.world.heap.objectKey (.object 2) = false := by
    decide +kernel
  rcases (accepts_within_recorded groupRecorded_reached 1).1 (.write 5 "x") (.object 2)
    (Nat.succ_pos 4) haccepts with hvalue | hknown
  · rw [hnone] at hvalue
    cases hvalue
  · exact ⟨haccepts, hknown⟩

/-- Not everything that guards accept has one of the types that are known, nor is every write recorded that
the layout does not imply. -/
theorem accepts_beyond_recorded :
    ¬ (∀ m : Machine Unit, m.Reached .recording → ∀ (c : CacheId) (p : Watch) (v : Value), p.Valid →
        v.isMagic = false → v.ExistsIn m.world.heap →
        (m.world.cache c).accepts m.world.heap p v = true →
        ((m.world.cache c).types m.world.heap p).hasValue m.world.heap.objectKey v = true) ∧
      ¬ ∀ m : Machine Unit, m.Reached .recording →
        ∀ (c : CacheId) (group : GroupId) (key : PropertyKey) (v : Value), m.world.HasCache c →
        0 < group → group ≤ m.world.heap.groups.size → v.isMagic = false → v.ExistsIn m.world.heap →
        (m.step (.recordWrite c group key v)).world.heap.propertyHasValue group key v = true ∨
          ((m.world.heap.group group).fieldRepr? key).any (·.implicitlyCovers v) = true := by
  have hexists : (Value.object 2).ExistsIn groupRecorded.world.heap := by
    rintro id ⟨⟩
    have hsize : groupRecorded.world.heap.objects.size = 2 := by decide +kernel
    exact Nat.le_of_eq hsize.symm
  constructor
  · intro hall
    have hvalue := hall groupRecorded groupRecorded_reached 1 (.write 5 "x") (.object 2)
      (Nat.succ_pos 4) rfl hexists (by decide +kernel)
    have hnone : ((groupRecorded.world.cache 1).types groupRecorded.world.heap
        (.write 5 "x")).hasValue groupRecorded.world.heap.objectKey (.object 2) = false := by
      decide +kernel
    rw [hnone] at hvalue
    cases hvalue
  · intro hall
    have hc : groupRecorded.world.HasCache 1 :=
      Option.isSome_iff_exists.1 (by decide +kernel : (groupRecorded.world.caches.get? 1).isSome = true)
    have hsize : groupRecorded.world.heap.groups.size = 5 := by decide +kernel
    have hvalue := hall groupRecorded groupRecorded_reached 1 5 "x" (.object 2) hc (by decide)
      (Nat.le_of_eq hsize.symm) rfl hexists
    have hnone : ((groupRecorded.step (.recordWrite 1 5 "x" (.object 2))).world.heap.propertyHasValue 5
        "x" (.object 2), ((groupRecorded.world.heap.group 5).fieldRepr? "x").any
          (·.implicitlyCovers (.object 2))) = (false, false) := by decide +kernel
    obtain ⟨hunrecorded, hplain⟩ := Prod.mk.inj hnone
    rw [hunrecorded, hplain] at hvalue
    simp at hvalue

end Machine

end InlineCache
