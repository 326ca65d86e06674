import InlineCache.Proofs.Machine.Recorded

namespace InlineCache

/-- Who an object is to the recorded types does not change. -/
theorem Heap.objectKey_eq {h h' : Heap} (hrecords : h.Records h') (hgrows : h.Grows h') {id : ObjectId}
    (hid : id ≤ h.objects.size) : h'.objectKey id = h.objectKey id := by
  simp only [objectKey, hrecords.singleton id hid, (hgrows.object id hid).group]

/-- Values that are there are told apart as before. -/
theorem TypeSet.hasValue_congr {s : TypeSet} {h h' : Heap} (hrecords : h.Records h')
    (hgrows : h.Grows h') {v : Value} (hv : v.ExistsIn h) :
    s.hasValue h'.objectKey v = s.hasValue h.objectKey v := by
  cases v with
  | object id => simp only [hasValue, Heap.objectKey_eq hrecords hgrows (hv id rfl)]
  | _ => rfl

namespace World

variable {σ : Type} {resets : Prop} {w w' : World σ}

/-- A write that a use shows to the guards of its property is recorded afterwards. -/
theorem Parts.recorded {s : Showing} (hw : w.Guarded) (hl : w.Linked) (hc : w.HasCache s.cache)
    (h : Parts .recording resets True s w w') {group : GroupId} {key : PropertyKey} {v : Value}
    (hwrite : s.write = some (group, key, v)) (hpos : 0 < group) (hle : group ≤ w.heap.groups.size)
    (hv : v ≠ .magic .optimizedOut) :
    ((w'.heap.group group).propertyTypes key).hasValue w.heap.objectKey v = true ∨
      ((w.heap.group group).fieldRepr? key).any (·.implicitlyCovers v) = true ∨
      w.heap.KnownByGroup ((w.heap.group group).propertyTypes key) v := by
  cases h with
  | @mk w₁ w₂ _ _ hbefore hheap hafter =>
    obtain ⟨hl₁, -⟩ := hbefore.linked hc (hl.cache hc).1
    have hc₁ := hbefore.hasCache hc
    have hchange : Change .recording (fun _ => resets) w w₁ := .work hc hbefore
    have hguarded₁ : w₁.Guarded := hchange.guarded hl hw
    rw [hwrite] at hafter
    rw [heap_showResult]
    rw [← hheap] at hle ⊢
    have hwritten : Works .recording False True s.cache w₁ (w₁.recordWrite s.cache group key v).2 :=
      works_recordWrite trivial hc₁ hl₁ hle v
    obtain ⟨hlw, -⟩ := hwritten.linked hc₁ hl₁
    have hrecords := hwritten.records hl₁
    have hrecords' : (w₁.recordWrite s.cache group key v).2.heap.Records w₂.heap := hafter.records hlw
    rcases recorded_recordWrite hc₁ hl₁ key hpos hle hv with haccepts | himplied | hrecord
    · rcases ((hguarded₁.cache hc₁).within (.write group key) hpos).hasValue haccepts with
        hvalue | hknown
      · exact .inl ((((hrecords.trans hrecords').group group hle).types key).hasValue hvalue)
      · exact .inr (.inr hknown)
    · exact .inr (.inl himplied)
    · left
      have hkeys : (w₁.recordWrite s.cache group key v).2.heap.objectKey = w₁.heap.objectKey := by
        funext id
        rw [Heap.objectKey, Heap.objectKey, Heap.object_eq_of_seen (seen_recordWrite _ _ _ _ _)]
      rw [Heap.propertyHasValue, hkeys] at hrecord
      have hle' := Nat.le_trans hle hrecords.groups_le
      exact ((hrecords'.group group hle').types key).hasValue hrecord

/-- Only writes to arrays are answered by the stubs for elements. -/
theorem Fitted.array_of_hit {classed : Prop} {c : CacheId} {index : Nat} (hw : w.Fitted classed)
    (hin : index < (w.cache c).entries.size)
    (hrole : ((w.cache c).site index).role = .operation .setElem) {o : ObjectId} {key v : Value}
    {stub : Stub} {signature : Signature}
    (hhit : hit? w.heap (((w.cache c).entry index).chain.stubs (w.cache c).arena)
      (.ternary (.object o) key v) = some (stub, signature)) : (w.heap.object o).cls = .array := by
  obtain ⟨-, hguard, -⟩ := mem_of_hit? hhit
  obtain ⟨op, hrole', hfits⟩ := hw.hit hin hhit
  rw [hrole] at hrole'
  cases hrole'
  have hdense (p : ObjectId × Nat → Bool)
      (h : (Guard.elementWrite? w.heap (.ternary (.object o) key v)).any p = true) :
      (w.heap.object o).cls = .array := by
    obtain ⟨found, hfound, -⟩ := (Option.any_eq_true _ _).1 h
    change Specialize.denseTarget? w.heap (.object o) key = some found at hfound
    cases key with
    | int32 i => exact (Option.ite_none_right_eq_some.1 hfound).1.1
    | _ => cases hfound
  generalize stub.payload = payload at hfits
  cases hfits with
  | setElemDense => exact hdense _ hguard
  | setElemAppend => exact hdense _ hguard

end World

namespace Machine

variable {σ : Type} {m : Machine σ}

/-- What is stored under a name in an object is shown as a write, unless the object is an array. Whether
a stub answers or none does, the guards of the property see the value before it is stored. -/
theorem showing_of_stores (hm : m.Recorded) {a : Action σ} {c : CacheId} {o : ObjectId}
    {key : PropertyKey} {v : Value} (h : m.Stores a c o key v)
    (hcls : (m.world.heap.object o).cls ≠ .array) :
    (m.showing a).cache = c ∧
      (m.showing a).write = some ((m.world.heap.object o).group, key, v) := by
  have hwatched : m.world.Watched := fun c cache hget => (hm.guarded c cache hget).toWatched
  refine ⟨by cases h <;> rfl, ?_⟩
  cases h with
  | @setProp c id o key v hown hrole =>
    have hat := hm.sound.linked.world.at_of_owns hown
    change m.world.shownWrite? c id _ = _
    simp only [World.shownWrite?, hown, hrole]
    split
    · next stub signature hhit =>
      rw [hwatched.flavor_of_hit hat hrole hhit]
      exact if_pos rfl
    · simp [SiteOperation.request?, Request.shownWrite?, Request.write?, hcls, Except.toOption]
  | @setElem c id o index v key hown hrole hkey =>
    have hat := hm.sound.linked.world.at_of_owns hown
    change m.world.shownWrite? c id _ = _
    simp only [World.shownWrite?, hown, hrole]
    split
    · next hhit => exact absurd (hm.sound.fitted.array_of_hit hat.lt hrole hhit) hcls
    · simp [SiteOperation.request?, Request.shownWrite?, Request.write?, hcls, hkey, Except.toOption,
        Except.map]

/-- What a use of an entry stores under a name in an object is recorded for the group of the object at
every later point, or implied by the layout, unless the object is an array. -/
theorem stored_recorded (hm : m.Reached .recording) {a : Action σ} {c : CacheId} {o : ObjectId}
    {key : PropertyKey} {v : Value} (hstores : m.Stores a c o key v)
    (hcls : (m.world.heap.object o).cls ≠ .array) (hpos : 0 < (m.world.heap.object o).group)
    (hv : v ≠ .magic .optimizedOut) (hexists : v.ExistsIn m.world.heap)
    (htracked : ∀ id, v = .object id → (m.world.heap.object id).singleton = false)
    {later : List (Action σ)} (hlater : (m.step a).Obeys .recording later) :
    let h := ((m.step a).run later).world.heap
    h.propertyHasValue (h.object o).group key v = true ∨
      ((h.group (h.object o).group).fieldRepr? key).any (·.implicitlyCovers v) = true := by
  have hrecorded := hm.recorded
  have ha : m.HostObeys .recording a := by cases hstores <;> trivial
  have hunit : a.WorksOnUnit := by cases hstores <;> trivial
  obtain ⟨hrecorded', hrecords, hgrows⟩ := step_recorded hrecorded ha
  obtain ⟨-, hrecords', hgrows'⟩ := run_recorded hrecorded' hlater
  have hle := (hrecorded.sound.fitted.heap.object o).group_le
  have hplace : o ≤ m.world.heap.objects.size := by
    refine Nat.le_of_not_lt fun hlt => ?_
    rw [Heap.object, Table.get_of_size_lt _ hlt] at hpos
    exact absurd hpos (Nat.lt_irrefl 0)
  have hgroup : (((m.step a).run later).world.heap.object o).group = (m.world.heap.object o).group :=
    ((hgrows.trans hgrows').object o hplace).group
  obtain ⟨hcache, hwrite⟩ := showing_of_stores hrecorded hstores hcls
  dsimp only
  rw [hgroup]
  have hparts := step_parts Rules.recording_cover hrecorded.sound.linked hrecorded.sound.fitted.heap
    (hrecorded.sound.allows (R := .recording) (fun h => ⟨h.evolves, h.records⟩) ha) hunit
  rcases hparts with ⟨hnone, -⟩ | ⟨hc, hparts⟩
  · rw [hwrite] at hnone
    cases hnone
  · rcases hparts.recorded hrecorded.guarded hrecorded.sound.linked.world hc hwrite hpos hle hv with
      hvalue | himplied | ⟨id, hid, hsingleton, -⟩
    · left
      rw [Heap.propertyHasValue, TypeSet.hasValue_congr (hrecords.trans hrecords')
        (hgrows.trans hgrows') hexists]
      exact ((hrecords'.group _ (Nat.le_trans hle hrecords.groups_le)).types key).hasValue hvalue
    · right
      rw [Group.fieldRepr?, ((hrecords.trans hrecords').group _ hle).fields]
      exact himplied
    · rw [htracked id hid] at hsingleton
      cases hsingleton

/-- The first of two objects of a group, in a unit that writes a property. -/
def objectThere : Machine Unit := (initial .standard (fun _ _ => none) ()).run
  [.host trackedGroup .initial .empty 0 (), .addCache ⟨1, "f", 0, false, 0, #[.setProp 0], #["x"]⟩]

/-- An empty array, in a unit that writes a property. -/
def arrayThere : Machine Unit := (initial .standard (fun _ _ => none) ()).run
  [.host (Heap.initial.newArray Heap.arrayGroup #[]).2 .initial .empty 0 (),
    .addCache ⟨1, "f", 0, false, 0, #[.setProp 0], #["x"]⟩]

/-- An integer is written to a property of the first object of the heap. -/
def writeInteger : Action Unit := .use 1 ⟨1, 0⟩ (.binary (.object 1) (.int32 7))

private theorem objectThere_reached : objectThere.Reached .recording :=
  ⟨.standard, fun _ _ => none, (), _, by exact ⟨recording_trackedGroup, trivial, trivial⟩, rfl⟩

private theorem arrayThere_reached : arrayThere.Reached .recording := by
  have harray : Heap.Working False .initial (Heap.initial.newArray Heap.arrayGroup #[]).2 :=
    .newArray #[] (by decide) False.elim
  exact ⟨.standard, fun _ _ => none, (), _, by exact ⟨⟨harray.evolves, harray.records⟩, trivial, trivial⟩,
    rfl⟩

/-- An integer that is written to a property is recorded for the group of the object. -/
theorem integer_recorded :
    (objectThere.step writeInteger).world.heap.propertyHasValue
      ((objectThere.step writeInteger).world.heap.object 1).group "x" (.int32 7) = true := by
  have hcls : (objectThere.world.heap.object 1).cls = .plain := by decide +kernel
  have hgroup : (objectThere.world.heap.object 1).group = 5 := by decide +kernel
  have hplain : (((objectThere.step writeInteger).world.heap.group
      ((objectThere.step writeInteger).world.heap.object 1).group).fieldRepr? "x").any
        (·.implicitlyCovers (.int32 7)) = false := by decide +kernel
  have hstores : objectThere.Stores writeInteger 1 1 "x" (.int32 7) :=
    .setProp (by decide +kernel) (by decide +kernel)
  have hlater : (objectThere.step writeInteger).Obeys .recording [] := trivial
  have hstored := stored_recorded objectThere_reached hstores (by rw [hcls]; decide)
    (by rw [hgroup]; decide) (by simp) (by rintro id ⟨⟩) (by rintro id ⟨⟩) hlater
  exact hstored.resolve_right (by rw [Bool.not_eq_true]; exact hplain)

/-- Not every value that a use stored under a name and that is there still is recorded: what is stored in
an array is not. -/
theorem stored_not_always_recorded :
    ¬ ∀ m : Machine Unit, m.Reached .recording → ∀ (a : Action Unit) (c : CacheId) (o : ObjectId)
        (key : PropertyKey) (v : Value), m.Stores a c o key v →
        0 < (m.world.heap.object o).group → v.isMagic = false → v.ExistsIn m.world.heap →
        (∀ id, v = .object id → (m.world.heap.object id).singleton = false) →
        (m.step a).world.heap.getOwn? o key = some v →
        (m.step a).world.heap.propertyHasValue ((m.step a).world.heap.object o).group key v = true ∨
          (((m.step a).world.heap.group ((m.step a).world.heap.object o).group).fieldRepr? key).any
            (·.implicitlyCovers v) = true := by
  intro hall
  have hgroup : (arrayThere.world.heap.object 1).group = 2 := by decide +kernel
  have hstored := hall arrayThere arrayThere_reached writeInteger 1 1 "x" (.int32 7)
    (.setProp (by decide +kernel) (by decide +kernel)) (by rw [hgroup]; decide) rfl
    (by rintro id ⟨⟩) (by rintro id ⟨⟩) (by decide +kernel)
  have hunrecorded : (arrayThere.step writeInteger).world.heap.propertyHasValue
      ((arrayThere.step writeInteger).world.heap.object 1).group "x" (.int32 7) = false := by
    decide +kernel
  have hplain : (((arrayThere.step writeInteger).world.heap.group
      ((arrayThere.step writeInteger).world.heap.object 1).group).fieldRepr? "x").any
        (·.implicitlyCovers (.int32 7)) = false := by decide +kernel
  rw [hunrecorded, hplain] at hstored
  simp at hstored

end Machine

end InlineCache
