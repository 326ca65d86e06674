import InlineCache.Proofs.Heap.Implied
import InlineCache.Proofs.Machine.Stored
import InlineCache.Proofs.Machine.Widen
import InlineCache.Proofs.Stub.Touched

namespace InlineCache

/-- A primitive is covered by its type. -/
theorem TypeSet.hasValue_of_isPrimitive {s : TypeSet} {keyOf : ObjectId → ObjectKey} {v : Value}
    (hv : v.isPrimitive = true) : s.hasValue keyOf v = s.hasType v.type := by
  cases v with
  | object id => cases hv
  | magic kind => cases hv
  | _ => rfl

/-- Only a group that is there has a layout. -/
theorem Heap.pos_of_fieldRepr? {h : Heap} {group : GroupId} {key : PropertyKey} {repr : FieldRepr}
    (hrepr : (h.group group).fieldRepr? key = some repr) : 0 < group := by
  refine Nat.pos_of_ne_zero ?_
  rintro rfl
  cases hrepr

/-- The rules under which nothing is recorded but what is shown to type guards. -/
def Rules.silent : Rules :=
  { Rules.recording with
    allows := fun h h' => Rules.recording.allows h h' ∧ h.RecordsNothing h' }

private theorem Rules.silent_tightens : Rules.silent.Tightens .recording := ⟨fun h => h.1, id, id, id⟩

private theorem Rules.silent_cover : Rules.silent.Cover (Heap.WellFormed False) :=
  { recording_cover with
    valid_of_allows := fun hw hallows => recording_cover.valid_of_allows hw hallows.1
    allows_refl := fun h => ⟨recording_cover.allows_refl h, .refl h⟩
    allows_enterCall := fun h id =>
      ⟨recording_cover.allows_enterCall h id, Heap.recordsNothing_of_groups rfl⟩
    allows_leaveCall := fun h id =>
      ⟨recording_cover.allows_leaveCall h id, Heap.recordsNothing_of_groups rfl⟩
    allows_outcome := fun hw houtcome => by
      refine ⟨recording_cover.allows_outcome hw houtcome, ?_⟩
      exact Heap.recordsNothing_of_groups (Request.touched_outcome houtcome).groups_eq }

/-- Only showing values records them. -/
theorem Bench.Move.recordsNothing {resets turns : Prop} {b b' : Bench}
    (h : Move (Rules.silent.showing fun _ => False) resets turns b b') : b.heap.RecordsNothing b'.heap := by
  cases h with
  | update hshows _ _ _ => exact hshows.elim
  | heap hallows => exact hallows.2
  | _ => exact .refl _

namespace World

variable {σ : Type} {resets turns : Prop} {w w' : World σ} {c : CacheId} {group : GroupId}
  {key : PropertyKey}

private theorem Works.recordsNothing (hl : (w.cache c).Linked)
    (h : Works (Rules.silent.showing fun _ => False) resets turns c w w') :
    w.heap.RecordsNothing w'.heap := by
  obtain ⟨b, hmoves, rfl⟩ := h
  exact hmoves.rel (K := fun b b' => b.heap.RecordsNothing b'.heap) (fun _ => .refl _) .trans
    (fun _ hmove => hmove.recordsNothing) hl

private theorem omitsImplied_recordWrite (homits : w.heap.OmitsImplied group key) {id : GroupId}
    {other : PropertyKey} {v : Value} (hmagic : id = group → other = key → v.isMagic = false) :
    (w.recordWrite c id other v).2.heap.OmitsImplied group key := by
  have hrecorded (t : TypeChain) (a : Arena) :
      (t.recordWrite w.heap { w.attachEnv c with arena := a } id other v).2.2.1.OmitsImplied group key := by
    cases hr : t.recordWrite w.heap { w.attachEnv c with arena := a } id other v
    exact TypeChain.omitsImplied_recordWrite hr homits hmagic
  exact hrecorded _ _

/-- A use omits what is implied, unless it shows the guards a sentinel. -/
theorem Parts.omitsImplied {s : Showing} (hc : w.HasCache s.cache) (hl : (w.cache s.cache).Linked)
    (h : Parts (Rules.silent.showing fun _ => False) resets turns s w w')
    (homits : w.heap.OmitsImplied group key)
    (hmagic : ∀ v, s.write = some (group, key, v) → v.isMagic = false) : w'.heap.OmitsImplied group key := by
  cases h with
  | @mk w₁ w₂ _ _ hbefore hheap hafter =>
    rw [heap_showResult]
    have hc₁ := hbefore.hasCache hc
    obtain ⟨hl₁, -⟩ := hbefore.linked hc hl
    have hlw := ((works_showWrite_open hc₁ hl₁ s.write).linked hc₁ hl₁).1
    have hshown : (w₁.showWrite s.cache s.write).heap.OmitsImplied group key := by
      rw [← hheap] at homits
      cases hwrite : s.write with
      | none => exact homits
      | some written =>
        obtain ⟨id, other, v⟩ := written
        refine omitsImplied_recordWrite homits fun hid hother => hmagic v ?_
        rw [hwrite, hid, hother]
    have hloose : Rules.Tightens (Rules.silent.showing fun _ => False) .recording :=
      ⟨fun h => h.1, id, fun h => h, fun _ => trivial⟩
    exact hshown.of_recordsNothing ((hafter.loosen hloose).records hlw) (hafter.recordsNothing hlw)

end World

/-- The value that an action asks to write, if it asks for that. -/
def Action.written? {σ : Type} : Action σ → Option Value
  | .use _ _ (.binary _ v) | .use _ _ (.ternary _ _ v) | .recordWrite _ _ _ v => some v
  | _ => none

namespace Machine

variable {σ : Type} {m : Machine σ} {group : GroupId} {key : PropertyKey}

/-- What a stub does records nothing by itself. -/
theorem Sound.allows_silent (hm : m.Sound False) {a : Action σ} (ha : m.HostObeys .silent a) :
    m.Allows .silent a := by
  cases a with
  | host heap zone bridges unitsMade host => exact ha
  | recordWrite c group key v => exact ha
  | use c id ops =>
    intro hown stub signature hhit w' hseen
    have hat := hm.linked.world.at_of_owns hown
    have hrecording := hm.fitted.stubsAllowed (R := .recording) (fun h => ⟨h.evolves, h.records⟩) hat.lt
      ops stub signature hhit w' hseen
    exact ⟨hrecording, Heap.recordsNothing_of_groups (Handler.touched_run signature stub ops w').groups_eq⟩
  | _ => trivial

/-- The machine's state is sound and watched, and no value is recorded for a property that its layout
implies. A write of an implied value is passed over before it is recorded, so the guards do not come to
cover it either: they are made from the recorded types, however they are widened. -/
structure OmitsImplied (m : Machine σ) (group : GroupId) (key : PropertyKey) : Prop where
  recorded : m.Recorded
  watched : m.Watched False
  heap : m.world.heap.OmitsImplied group key

private theorem step_omitsImplied (hm : m.OmitsImplied group key) {a : Action σ}
    (ha : m.HostObeys .silent a)
    (hmagic : ∀ c v, m.Writes a c group key v → v.isMagic = false) : (m.step a).OmitsImplied group key := by
  have hrecording := ha.mono Rules.silent_tightens
  refine ⟨(step_recorded hm.recorded hrecording).1, step_watched hm.watched hrecording.fitting, ?_⟩
  have hsound := hm.recorded.sound
  by_cases hunit : a.WorksOnUnit
  · rcases step_parts (Rules.silent_cover.showing fun _ => False) hsound.linked hsound.fitted.heap
      (allows_showing (hsound.allows_silent ha) _) hunit with ⟨-, -, heq⟩ | ⟨hc, hparts⟩
    · rw [heq]
      exact hm.heap
    · exact hparts.omitsImplied hc (hsound.linked.world.cache hc).1 hm.heap fun v hv =>
        hmagic _ v (writes_of_showing hm.watched hv)
  · cases a with
    | host heap zone bridges unitsMade host =>
      have hallows : Rules.recording.allows m.world.heap heap ∧ m.world.heap.RecordsNothing heap := ha
      exact hm.heap.of_recordsNothing hallows.1.2 hallows.2
    | addCache unit =>
      have hheap : (m.step (.addCache unit)).world.heap = m.world.heap := by
        simp only [step, World.addCache]
        split
        · rfl
        · rfl
      rw [hheap]
      exact hm.heap
    | buildStub recipe => exact hm.heap
    | teardown => exact hm.heap
    | _ => exact absurd trivial hunit

/-- No sentinel is written to a property all along a run. -/
def NoMagic (m : Machine σ) (actions : List (Action σ)) (group : GroupId) (key : PropertyKey) : Prop :=
  ∀ before a after, actions = before ++ a :: after →
    ∀ c v, (m.run before).Writes a c group key v → v.isMagic = false

private theorem NoMagic.tail {a : Action σ} {actions : List (Action σ)}
    (h : m.NoMagic (a :: actions) group key) : (m.step a).NoMagic actions group key := by
  rintro before b after rfl
  exact h (a :: before) b after rfl

private theorem Writes.written? {a : Action σ} {c : CacheId} {v : Value}
    (h : m.Writes a c group key v) : a.written? = some v := by
  cases h with
  | store hstores => cases hstores <;> rfl
  | record => rfl

/-- Where no action asks to write a sentinel, none is written to any property. -/
theorem noMagic_of_written? {actions : List (Action σ)}
    (h : actions.all (fun a => a.written?.all (!·.isMagic)) = true) : m.NoMagic actions group key := by
  rintro before a after rfl c v hwrites
  have ha := List.all_eq_true.1 h a (List.mem_append_right _ List.mem_cons_self)
  rw [hwrites.written?, Option.all_some, Bool.not_eq_true'] at ha
  exact ha

private theorem run_omitsImplied (hm : m.OmitsImplied group key) {actions : List (Action σ)}
    (hobeys : m.Obeys .silent actions) (hmagic : m.NoMagic actions group key) :
    (m.run actions).OmitsImplied group key := by
  induction actions generalizing m with
  | nil => exact hm
  | cons a actions ih =>
    exact ih (step_omitsImplied hm hobeys.1 (hmagic [] a actions rfl)) hobeys.2 hmagic.tail

private theorem initial_omitsImplied (config : CacheConfig) (compiler : Compiler) (host : σ)
    (group : GroupId) (key : PropertyKey) : (initial config compiler host).OmitsImplied group key := by
  refine ⟨initial_recorded config compiler host, initial_watched False config compiler host, ?_⟩
  refine Group.omitsImplied_of_empty ?_
  match group with
  | 0 | 1 | 2 | 3 | 4 => rfl
  | _ + 5 => rfl

/-- A write that the guards of its property get to see: one that a use makes, unless the object is an array,
or one that is recorded by itself. -/
inductive ChecksWrite (m : Machine σ) : Action σ → GroupId → PropertyKey → Value → Prop where
  | store {a : Action σ} {c : CacheId} {o : ObjectId} {key : PropertyKey} {v : Value}
      (hstores : m.Stores a c o key v) (hcls : (m.world.heap.object o).cls ≠ .array) :
      ChecksWrite m a (m.world.heap.object o).group key v
  | record {c : CacheId} {group : GroupId} {key : PropertyKey} {v : Value} (hc : m.world.HasCache c) :
      ChecksWrite m (.recordWrite c group key v) group key v

namespace ChecksWrite

variable {a : Action σ} {v : Value}

private theorem worksOnUnit (h : m.ChecksWrite a group key v) : a.WorksOnUnit := by
  cases h with
  | store hstores _ => cases hstores <;> trivial
  | record _ => trivial

private theorem showing (h : m.ChecksWrite a group key v) (hm : m.Recorded) :
    (m.showing a).write = some (group, key, v) := by
  cases h with
  | store hstores hcls => exact (showing_of_stores hm hstores hcls).2
  | @record c group key v hc =>
    obtain ⟨cache, hget⟩ := hc
    simp [Machine.showing, hget]

private theorem group_le (h : m.ChecksWrite a group key v) (hm : m.Recorded)
    (ha : m.HostObeys .recording a) : group ≤ m.world.heap.groups.size := by
  cases h with
  | store hstores hcls => exact (hm.sound.fitted.heap.object _).group_le
  | record hc => exact ha

/-- A primitive that the guards of a property get to see is recorded then, unless the layout implies it. -/
theorem hasType (h : m.ChecksWrite a group key v) (hm : m.Recorded) (ha : m.HostObeys .recording a)
    (hpos : 0 < group) (hv : v.isPrimitive = true)
    (hplain : ((m.world.heap.group group).fieldRepr? key).any (·.implicitlyCovers v) = false) :
    (((m.step a).world.heap.group group).propertyTypes key).hasType v.type = true := by
  have hsound := hm.sound
  have hparts := step_parts Rules.recording_cover hsound.linked hsound.fitted.heap
    (hsound.allows (R := .recording) (fun h => ⟨h.evolves, h.records⟩) ha) h.worksOnUnit
  rcases hparts with ⟨hnone, -⟩ | ⟨hc, hparts⟩
  · rw [h.showing hm] at hnone
    cases hnone
  · have hne : v ≠ .magic .optimizedOut := by
      rintro rfl
      cases hv
    rcases hparts.recorded hm.guarded hsound.linked.world hc (h.showing hm) hpos (h.group_le hm ha) hne with
      hvalue | himplied | ⟨id, rfl, -, -⟩
    · rwa [TypeSet.hasValue_of_isPrimitive hv] at hvalue
    · rw [hplain] at himplied
      cases himplied
    · cases hv

/-- From then on it is recorded for ever. -/
theorem hasType_later (h : m.ChecksWrite a group key v) (hm : m.Recorded) {later : List (Action σ)}
    (hobeys : m.Obeys .recording (a :: later)) (hpos : 0 < group) (hv : v.isPrimitive = true)
    (hplain : (((m.run (a :: later)).world.heap.group group).fieldRepr? key).any
      (·.implicitlyCovers v) = false) :
    (((m.run (a :: later)).world.heap.group group).propertyTypes key).hasType v.type = true := by
  obtain ⟨ha, hlater⟩ := hobeys
  have hle := h.group_le hm ha
  obtain ⟨hm', hrecords, -⟩ := step_recorded hm ha
  obtain ⟨-, hrecords', -⟩ := run_recorded hm' hlater
  have hfields : ((m.run (a :: later)).world.heap.group group).fields = (m.world.heap.group group).fields :=
    ((hrecords.trans hrecords').group group hle).fields
  rw [Group.fieldRepr?, hfields] at hplain
  exact ((hrecords'.group group (Nat.le_trans hle hrecords.groups_le)).types key).type _
    (h.hasType hm ha hpos hv hplain)

end ChecksWrite

/-- No guard accepts what is implied. -/
theorem OmitsImplied.refuses (hm : m.OmitsImplied group key)
    (hknown : (m.world.heap.group group).unknownProperties = false) {repr : FieldRepr}
    (hrepr : (m.world.heap.group group).fieldRepr? key = some repr) {v : Value}
    (hv : repr.implicitlyCovers v = true) :
    ((m.world.heap.group group).propertyTypes key).hasValue m.world.heap.objectKey v = false ∧
      ∀ c, (m.world.cache c).updateAccepts m.world.heap group key v = false := by
  have hvalue : ((m.world.heap.group group).propertyTypes key).hasValue m.world.heap.objectKey v = false := by
    rw [TypeSet.hasValue_of_isPrimitive (repr.isPrimitive_of_implicitlyCovers hv)]
    exact (hm.heap hknown).2 v (by rw [hrepr, Option.any_some, hv])
  refine ⟨hvalue, fun c => ?_⟩
  rw [UnitCache.updateAccepts_eq, Bool.eq_false_iff]
  intro haccepts
  rcases hm.recorded.hasValue (p := .write group key) (Heap.pos_of_fieldRepr? hrepr) haccepts with
    hrecorded | ⟨id, rfl, -, -⟩
  · exact Bool.false_ne_true (hvalue.symm.trans hrecorded)
  · cases repr <;> cases hv

/-- Along a run from the start no value that the layout implies of a property is recorded for it, or accepted
by the guards of it in any unit, and every other primitive that is written to it is recorded. -/
theorem implied_unrecorded (config : CacheConfig) (compiler : Compiler) (host : σ)
    {actions : List (Action σ)} (hobeys : (initial config compiler host).Obeys .silent actions)
    (hmagic : (initial config compiler host).NoMagic actions group key) :
    let m := (initial config compiler host).run actions
    let types := (m.world.heap.group group).propertyTypes key
    ∀ repr, (m.world.heap.group group).fieldRepr? key = some repr →
      (m.world.heap.group group).unknownProperties = false →
      -- what the layout implies is neither recorded nor accepted
      (∀ v, repr.implicitlyCovers v = true → types.primitives.contains v.type = false ∧
        types.hasValue m.world.heap.objectKey v = false ∧
        ∀ c, (m.world.cache c).updateAccepts m.world.heap group key v = false) ∧
      -- every other primitive is recorded from its first write on
      ∀ before a after v, actions = before ++ a :: after →
        ((initial config compiler host).run before).ChecksWrite a group key v → v.isPrimitive = true →
        repr.implicitlyCovers v = false → types.primitives.contains v.type = true := by
  intro m types repr hrepr hknown
  have hm : m.OmitsImplied group key :=
    run_omitsImplied (initial_omitsImplied config compiler host group key) hobeys hmagic
  obtain ⟨hset, htypes⟩ := hm.heap hknown
  refine ⟨fun v hv => ?_, fun before a after v heq hwrites hprimitive hplain => ?_⟩
  · have htype : types.hasType v.type = false := htypes v (by rw [hrepr, Option.any_some, hv])
    exact ⟨(Bool.or_eq_false_iff.1 htype).2, hm.refuses hknown hrepr hv⟩
  · obtain ⟨hbefore, hrest⟩ := obeys_of_append (heq ▸ hobeys.mono Rules.silent_tightens)
    have hrecorded := (run_recorded (initial_recorded config compiler host) hbefore).1
    have hend : m = ((initial config compiler host).run before).run (a :: after) := by
      rw [← run_append, ← heq]
    have hlater := hwrites.hasType_later hrecorded hrest (Heap.pos_of_fieldRepr? hrepr) hprimitive (by
      rw [← hend, hrepr, Option.any_some, hplain])
    rw [← hend, TypeSet.hasType, hset, Bool.false_or] at hlater
    exact hlater

/-- A group with an untyped reference among its fields, and with an object. -/
def typedGroup : Heap := ((Heap.initial.addGroup (.withFields [("x", .any)])).2.newObject 5).2

private theorem silent_typedGroup : Rules.silent.allows .initial typedGroup := by
  have hgroup : Heap.Working False .initial (Heap.initial.addGroup (.withFields [("x", .any)])).2 :=
    .addGroup _
  have hobject : Heap.Working False (Heap.initial.addGroup (.withFields [("x", .any)])).2 typedGroup :=
    .newObject (by decide) False.elim
  have hnothing : Heap.initial.RecordsNothing (Heap.initial.addGroup (.withFields [("x", .any)])).2 :=
    Heap.recordsNothing_addGroup _ rfl
  exact ⟨⟨hgroup.evolves.trans hobject.evolves, hgroup.records.trans hobject.records⟩,
    hnothing.trans (Heap.recordsNothing_of_groups rfl)⟩

/-- The reference is written, first what it is by itself and then an integer. -/
def writeUndefined : List (Action Unit) :=
  [.host typedGroup .initial .empty 0 (), .addCache ⟨1, "f", 0, false, 0, #[.setProp 0], #["x"]⟩,
    .use 1 ⟨1, 0⟩ (.binary (.object 1) .undefined)]

/-- The machine once only the implied value was written. -/
def undefinedWritten : Machine Unit := (initial .standard (fun _ _ => none) ()).run writeUndefined

/-- The machine once the integer was written as well. -/
def integerWritten : Machine Unit :=
  (initial .standard (fun _ _ => none) ()).run
    (writeUndefined ++ [.use 1 ⟨1, 0⟩ (.binary (.object 1) (.int32 7))])

/-- The integer is recorded, and what the reference is by itself is not. -/
theorem undefined_unrecorded :
    ((integerWritten.world.heap.group 5).propertyTypes "x").primitives.contains .undefined = false ∧
      (∀ c, (integerWritten.world.cache c).updateAccepts integerWritten.world.heap 5 "x" .undefined =
        false) ∧
      ((integerWritten.world.heap.group 5).propertyTypes "x").primitives.contains .int32 = true := by
  have hobeys : (initial .standard (fun _ _ => none) ()).Obeys .silent
      (writeUndefined ++ [.use 1 ⟨1, 0⟩ (.binary (.object 1) (.int32 7))]) :=
    ⟨silent_typedGroup, trivial, trivial, trivial, trivial⟩
  have hmagic : (initial .standard (fun _ _ => none) ()).NoMagic
      (writeUndefined ++ [.use 1 ⟨1, 0⟩ (.binary (.object 1) (.int32 7))]) 5 "x" :=
    noMagic_of_written? rfl
  have hrepr : (integerWritten.world.heap.group 5).fieldRepr? "x" = some .any := by decide +kernel
  have hknown : (integerWritten.world.heap.group 5).unknownProperties = false := by decide +kernel
  have hgroup : (undefinedWritten.world.heap.object 1).group = 5 := by decide +kernel
  have hcls : (undefinedWritten.world.heap.object 1).cls = .plain := by decide +kernel
  have hwrites : undefinedWritten.ChecksWrite (.use 1 ⟨1, 0⟩ (.binary (.object 1) (.int32 7)))
      (undefinedWritten.world.heap.object 1).group "x" (.int32 7) :=
    .store (.setProp (by decide +kernel) (by decide +kernel)) (by rw [hcls]; decide)
  rw [hgroup] at hwrites
  obtain ⟨himplied, hplain⟩ :=
    implied_unrecorded .standard (fun _ _ => none) () hobeys hmagic .any hrepr hknown
  obtain ⟨hunrecorded, -, hrefused⟩ := himplied .undefined rfl
  exact ⟨hunrecorded, hrefused, hplain writeUndefined _ [] (.int32 7) rfl hwrites rfl rfl⟩

end Machine

end InlineCache
