import InlineCache.Proofs.Heap.Records
import InlineCache.Proofs.TypeChain.Edited
import InlineCache.Proofs.Types.Observed

namespace InlineCache

/-- A value that is not implied is of another type than those that are. -/
theorem FieldRepr.type_ne_of_implicitlyCovers {repr : FieldRepr} {v v' : Value}
    (hv : repr.implicitlyCovers v = true) (hv' : repr.implicitlyCovers v' = false) : v'.type ≠ v.type := by
  intro htype
  cases repr with
  | any =>
    cases v <;> cases hv
    cases v' <;> cases htype
    cases hv'
  | object =>
    cases v <;> cases hv
    cases v' <;> cases htype
    cases hv'
  | scalar => cases hv

theorem FieldRepr.isPrimitive_of_implicitlyCovers {repr : FieldRepr} {v : Value}
    (hv : repr.implicitlyCovers v = true) : v.type.isPrimitive = true := by
  cases repr <;> cases v <;> first | rfl | cases hv

namespace TypeSet

variable {s : TypeSet}

/-- Tracking all objects as one says nothing about other values. -/
theorem isUnknown_markUnknownObject (s : TypeSet) : s.markUnknownObject.isUnknown = s.isUnknown := by
  unfold markUnknownObject
  split
  · rfl
  · rfl

private theorem hasType_markUnknownObject (s : TypeSet) (t : ValueType) :
    s.markUnknownObject.hasType t = s.hasType t := by
  unfold markUnknownObject
  split
  · rfl
  · rfl

end TypeSet

namespace Group

/-- While types are recorded at all, those of a property are not everything, and do not cover what the layout
implies of it. -/
def OmitsImplied (g : Group) (key : PropertyKey) : Prop :=
  g.unknownProperties = false → (g.propertyTypes key).isUnknown = false ∧
    ∀ v, (g.fieldRepr? key).any (·.implicitlyCovers v) = true → (g.propertyTypes key).hasType v.type = false

variable {g : Group} {key : PropertyKey}

theorem omitsImplied_of_empty (hempty : g.propertyTypes key = .empty) : g.OmitsImplied key := by
  intro _
  rw [hempty]
  exact ⟨rfl, fun v _ => TypeSet.hasType_empty v.type⟩

/-- Widening the types of a property keeps to that, if what is done to them does. -/
theorem OmitsImplied.widenProperty (homits : g.OmitsImplied key) {other : PropertyKey}
    {f : TypeSet → TypeSet} (hf : f .unknown = .unknown)
    (hunknown : other = key → ∀ s : TypeSet, s.isUnknown = false → (f s).isUnknown = false)
    (htype : other = key → ∀ (s : TypeSet) (v : Value),
      (g.fieldRepr? key).any (·.implicitlyCovers v) = true → s.hasType v.type = false →
      (f s).hasType v.type = false) : (g.widenProperty other f).OmitsImplied key := by
  have hflag : (g.widenProperty other f).unknownProperties = g.unknownProperties := by
    unfold Group.widenProperty
    split <;> rfl
  have hrepr : (g.widenProperty other f).fieldRepr? key = g.fieldRepr? key := by
    unfold Group.widenProperty
    split <;> rfl
  intro hknown
  rw [hflag] at hknown
  rw [hrepr]
  obtain ⟨hset, htypes⟩ := homits hknown
  by_cases hother : other = key
  · have hwidened := g.propertyTypes_widenProperty_self other hf
    rw [hother] at hwidened
    rw [hother, hwidened]
    exact ⟨hunknown hother _ hset, fun v hv => htype hother _ v hv (htypes v hv)⟩
  · rw [propertyTypes_widenProperty_of_ne g f (Ne.symm hother)]
    exact ⟨hset, htypes⟩

end Group

namespace Heap

/-- The types recorded for a property omit what the layout of the group implies. -/
def OmitsImplied (h : Heap) (group : GroupId) (key : PropertyKey) : Prop := (h.group group).OmitsImplied key

/-- No types are recorded, and none are forgotten, unless those of a whole group are given up. -/
def RecordsNothing (h h' : Heap) : Prop :=
  ∀ group, (h'.group group).unknownProperties = false → (h.group group).unknownProperties = false ∧
    ∀ key, (h'.group group).propertyTypes key = (h.group group).propertyTypes key

variable {h h' h'' : Heap} {group : GroupId} {key : PropertyKey}

theorem recordsNothing_of_groups (hgroups : h'.groups = h.groups) : h.RecordsNothing h' := by
  have hgroup (id : GroupId) : h'.group id = h.group id := by rw [Heap.group, Heap.group, hgroups]
  intro id hknown
  rw [hgroup] at hknown ⊢
  exact ⟨hknown, fun _ => rfl⟩

theorem RecordsNothing.refl (h : Heap) : h.RecordsNothing h := recordsNothing_of_groups rfl

theorem RecordsNothing.trans (hn : h.RecordsNothing h') (hn' : h'.RecordsNothing h'') :
    h.RecordsNothing h'' := by
  intro id hknown
  obtain ⟨hknown', htypes'⟩ := hn' id hknown
  obtain ⟨hknown, htypes⟩ := hn id hknown'
  exact ⟨hknown, fun key => (htypes' key).trans (htypes key)⟩

/-- Of a new group nothing is recorded yet. -/
theorem recordsNothing_addGroup (h : Heap) {g : Group} (hempty : g.properties = .empty) :
    h.RecordsNothing (h.addGroup g).2 := by
  intro id hknown
  rcases h.groups.get_add_cases g id with heq | ⟨rfl, heq⟩
  · have hsame : (h.addGroup g).2.group id = h.group id := heq
    rw [hsame] at hknown ⊢
    exact ⟨hknown, fun _ => rfl⟩
  · have hnew : (h.addGroup g).2.group h.groups.next = g := heq
    have hnone : h.group h.groups.next = default := h.groups.get_of_size_lt (Nat.lt_succ_self _)
    rw [hnew] at hknown ⊢
    rw [hnone]
    refine ⟨rfl, fun key => ?_⟩
    rw [Group.propertyTypes, hknown, hempty]
    rfl

/-- Where nothing is recorded, what is implied is not either. -/
theorem OmitsImplied.of_recordsNothing (homits : h.OmitsImplied group key) (hrecords : h.Records h')
    (hn : h.RecordsNothing h') : h'.OmitsImplied group key := by
  intro hknown
  obtain ⟨hknown, htypes⟩ := hn group hknown
  by_cases hle : group ≤ h.groups.size
  · rw [htypes, Group.fieldRepr?, (hrecords.group group hle).fields]
    exact homits hknown
  · -- the group is new, so it has no types at all
    have hnone : h.group group = default := h.groups.get_of_size_lt (Nat.lt_of_not_le hle)
    have hempty : (h'.group group).propertyTypes key = .empty := by
      rw [htypes, hnone]
      rfl
    rw [hempty]
    exact ⟨rfl, fun v _ => TypeSet.hasType_empty v.type⟩

/-- What changes one group does not matter for the others. -/
theorem OmitsImplied.modifyGroup (homits : h.OmitsImplied group key) {id : GroupId} {f : Group → Group}
    (hf : id = group → (f (h.group group)).OmitsImplied key) :
    (h.modifyGroup id f).OmitsImplied group key := by
  by_cases hid : id = group
  · rcases h.groups.get_modify_cases id f group with heq | heq
    · exact (congrArg (·.OmitsImplied key) heq).mpr homits
    · exact (congrArg (·.OmitsImplied key) heq).mpr (hf hid)
  · have heq := h.groups.get_modify_of_ne f (Ne.symm hid)
    exact (congrArg (·.OmitsImplied key) heq).mpr homits

/-- A value that is neither implied nor a sentinel adds nothing that is implied. Sentinels are another
matter: one that is not initialized makes a set cover everything. -/
theorem OmitsImplied.addPropertyType (homits : h.OmitsImplied group key) {id : GroupId}
    {other : PropertyKey} {v : Value} (hmagic : id = group → other = key → v.isMagic = false)
    (hplain : ((h.group id).fieldRepr? other).any (·.implicitlyCovers v) = false) :
    (h.addPropertyType id other v).OmitsImplied group key := by
  refine homits.modifyGroup fun hid => ?_
  subst hid
  refine Group.OmitsImplied.widenProperty homits (Group.addValue_unknown _ v) ?_ ?_
  · rintro hother s hs
    have hv := hmagic rfl hother
    rw [Bool.eq_false_iff]
    intro hunknown
    rcases TypeSet.isUnknown_addValue_iff.1 hunknown with hunknown | rfl
    · rw [hs] at hunknown
      cases hunknown
    · cases hv
  · rintro hother s v' hv' hs
    have hv := hmagic rfl hother
    subst hother
    obtain ⟨repr, hrepr, hcovers⟩ := (Option.any_eq_true _ _).1 hv'
    rw [hrepr, Option.any_some] at hplain
    rw [Bool.eq_false_iff]
    intro htype
    rcases (TypeSet.hasType_addValue_iff (repr.isPrimitive_of_implicitlyCovers hcovers)).1 htype with
      htype | rfl | htype
    · rw [hs] at htype
      cases htype
    · cases hv
    · exact FieldRepr.type_ne_of_implicitlyCovers hcovers hplain htype

private theorem OmitsImplied.markUnknownObject (homits : h.OmitsImplied group key) (id : GroupId)
    (other : PropertyKey) :
    (h.modifyGroup id (·.widenProperty other (·.markUnknownObject))).OmitsImplied group key := by
  refine homits.modifyGroup fun _ => Group.OmitsImplied.widenProperty homits rfl ?_ ?_
  · intro _ s hs
    rw [TypeSet.isUnknown_markUnknownObject, hs]
  · intro _ s v _ hs
    rw [TypeSet.hasType_markUnknownObject, hs]

end Heap

/-- Recording a write adds nothing that is implied, whatever becomes of the guards. -/
theorem TypeChain.omitsImplied_recordWrite {t t' : TypeChain} {heap heap' : Heap} {env env' : AttachEnv}
    {id group : GroupId} {other key : PropertyKey} {v : Value} {accepted : Bool}
    (h : t.recordWrite heap env id other v = (accepted, t', heap', env'))
    (homits : heap.OmitsImplied group key) (hmagic : id = group → other = key → v.isMagic = false) :
    heap'.OmitsImplied group key := by
  cases hplain : ((heap.group id).fieldRepr? other).any (·.implicitlyCovers v) with
  | true =>
    unfold recordWrite at h
    rw [hplain] at h
    split at h
    · cases h
      exact homits
    · cases h
      exact homits
  | false =>
    rcases recordWrite_cases h with ⟨-, rfl, -, -⟩ | ⟨-, types, types', -, -, -, hheap⟩
    · exact homits
    · have hadded := homits.addPropertyType hmagic hplain
      rw [← hheap]
      split
      · exact hadded.markUnknownObject id other
      · exact hadded

end InlineCache
