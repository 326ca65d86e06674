import InlineCache.Cache.TypeChain
import InlineCache.Proofs.Types.Widens

namespace InlineCache

namespace TypeGuard

/-- A guard accepts all that another one accepts, on every heap. -/
def Covers (g g' : TypeGuard) : Prop :=
  ∀ (h : Heap) (v : Value), g'.accepts h v = true → g.accepts h v = true

theorem covers_primitives {set set' : PrimitiveSet}
    (h : ∀ t, set.contains t = true → set'.contains t = true) :
    (primitives set').Covers (primitives set) := by
  intro heap v hv
  cases v with
  | magic kind => cases hv
  | _ => exact h _ hv

/-- The tag of objects stands for the guards for single objects and for groups. -/
theorem covers_objectKind {set : PrimitiveSet} {g : TypeGuard} (hset : set.contains .object = true)
    (hg : g.isObjectKind = true) : (primitives set).Covers g := by
  intro heap v hv
  cases v with
  | object id => exact hset
  | _ => cases g <;> cases hg <;> cases hv

/-- The guard accepts only values of a set of types, as far as it tells objects apart: by itself if they
are tracked by identity, and by their group. -/
def Within (h : Heap) (types : TypeSet) : TypeGuard → Prop
  | primitives set => ∀ t, set.contains t = true → types.coversType t = true
  | object id => (h.object id).singleton = true ∧ types.hasObject (.singleton id) = true
  | group id => types.hasObject (.group id) = true
  | anything => types.isUnknown = true

variable {h : Heap} {types types' : TypeSet} {g : TypeGuard} {v : Value}

theorem Within.widens (hg : g.Within h types) (hw : types.Widens types') : g.Within h types' := by
  cases g with
  | primitives set => exact fun t ht => hw.coversType (hg t ht)
  | object id => exact ⟨hg.1, hw.object _ hg.2⟩
  | group id => exact hw.object _ hg
  | anything => exact hw.unknown hg

/-- A set of types covers what a guard within it accepts, but for an object tracked by identity that is
accepted with its group. -/
theorem Within.hasValue (hg : g.Within h types) (hv : g.accepts h v = true) :
    types.hasValue h.objectKey v = true ∨ ∃ id, v = .object id ∧ (h.object id).singleton = true ∧
      types.hasObject (.group (h.object id).group) = true := by
  cases g with
  | anything => exact .inl (TypeSet.hasValue_of_isUnknown hg)
  | primitives set =>
    refine .inl ?_
    cases v with
    | magic kind => cases hv
    | object id => exact TypeSet.hasObject_of_isUnknownObject (hg .object hv) _
    | _ => exact hg _ hv
  | object id =>
    cases v with
    | object o =>
      have hid : id = o := by simpa [accepts] using hv
      subst hid
      refine .inl ?_
      simp only [TypeSet.hasValue, Heap.objectKey, hg.1, if_true]
      exact hg.2
    | _ => cases hv
  | group id =>
    cases v with
    | object o =>
      have hid : id = (h.object o).group := by simpa [accepts] using hv
      subst hid
      cases hs : (h.object o).singleton with
      | true => exact .inr ⟨o, rfl, hs, hg⟩
      | false =>
        refine .inl ?_
        simp only [TypeSet.hasValue, Heap.objectKey, hs, Bool.false_eq_true, if_false]
        exact hg
    | _ => cases hv

/-- Guards for groups and primitives go by the types alone, and an object stays tracked by identity. -/
theorem Within.of_singleton {h' : Heap} (hg : g.Within h types)
    (hs : ∀ id, (h.object id).singleton = true → (h'.object id).singleton = true) :
    g.Within h' types := by
  cases g with
  | object id => exact ⟨hs id hg.1, hg.2⟩
  | _ => exact hg

/-- Whether a guard is one for primitives. -/
def isPrimitives (g : TypeGuard) : Bool := g.primitives?.isSome

/-- Guards in order, with a limit on those for objects: none is there that another one makes superfluous,
and sentinels are accepted by nothing but the guard for everything. -/
structure Orderly (cap : Nat) (guards : List TypeGuard) : Prop where
  primitives_le : guards.countP isPrimitives ≤ 1
  objects_le : guards.countP isObjectKind ≤ cap
  /-- No object and no group is guarded twice. -/
  nodup : (guards.filter isObjectKind).Nodup
  alone : anything ∈ guards → guards = [anything]
  /-- The tag of objects stands for all guards of objects. -/
  no_objects : ∀ set, primitives set ∈ guards → set.contains .object = true →
    ∀ g ∈ guards, g.isObjectKind = false
  no_magic : ∀ set, primitives set ∈ guards → set.contains .magic = false

section

variable {cap : Nat} {guards : List TypeGuard} {set : PrimitiveSet}

theorem orderly_nil (cap : Nat) : Orderly cap [] where
  primitives_le := Nat.zero_le 1
  objects_le := Nat.zero_le cap
  nodup := .nil
  alone hmem := by cases hmem
  no_objects _ hmem := by cases hmem
  no_magic _ hmem := by cases hmem

private theorem orderly_anything (cap : Nat) : Orderly cap [anything] where
  primitives_le := Nat.zero_le 1
  objects_le := Nat.zero_le cap
  nodup := .nil
  alone _ := rfl
  no_objects _ hmem := by simp at hmem
  no_magic _ hmem := by simp at hmem

theorem orderly_primitives (cap : Nat) (hmagic : set.contains .magic = false) :
    Orderly cap [primitives set] where
  primitives_le := Nat.le_refl 1
  objects_le := Nat.zero_le cap
  nodup := .nil
  alone hmem := by simp at hmem
  no_objects _ _ _ g hg := by
    rw [List.mem_singleton.1 hg]
    rfl
  no_magic set' hmem := by
    cases List.mem_singleton.1 hmem
    exact hmagic

/-- A guard for objects is added within the limit, where no guard accepts them yet. -/
theorem Orderly.cons_object (h : Orderly cap guards) {g : TypeGuard} (hg : g.isObjectKind = true)
    (hlt : guards.countP isObjectKind < cap) (hnew : g ∉ guards) (hall : anything ∉ guards)
    (htag : ∀ set, primitives set ∈ guards → set.contains .object = false) :
    Orderly cap (g :: guards) := by
  have hne {g' : TypeGuard} (hg' : g'.isObjectKind = false) (hmem : g' ∈ g :: guards) : g' ∈ guards :=
    (List.mem_cons.1 hmem).resolve_left fun heq => by
      rw [heq, hg] at hg'
      cases hg'
  constructor
  · rw [List.countP_cons_of_neg (by cases g <;> simp_all [isPrimitives, primitives?, isObjectKind])]
    exact h.primitives_le
  · rw [List.countP_cons_of_pos hg]
    exact hlt
  · rw [List.filter_cons_of_pos hg]
    exact List.nodup_cons.2 ⟨fun hmem => hnew (List.mem_filter.1 hmem).1, h.nodup⟩
  · exact fun hmem => absurd (hne rfl hmem) hall
  · intro set hmem htagged
    rw [htag set (hne rfl hmem)] at htagged
    cases htagged
  · exact fun set hmem => h.no_magic set (hne rfl hmem)

/-- The first guard for primitives is added. -/
theorem Orderly.cons_primitives (h : Orderly cap guards) (hnone : guards.countP isPrimitives = 0)
    (hall : anything ∉ guards) (hmagic : set.contains .magic = false)
    (htag : set.contains .object = true → ∀ g ∈ guards, g.isObjectKind = false) :
    Orderly cap (primitives set :: guards) := by
  have hsingle {set' : PrimitiveSet} (hmem : primitives set' ∈ primitives set :: guards) : set' = set := by
    rcases List.mem_cons.1 hmem with heq | hmem
    · exact TypeGuard.primitives.inj heq
    · exact absurd rfl (List.countP_eq_zero.1 hnone _ hmem)
  constructor
  · exact Nat.le_of_eq (by rw [List.countP_cons_of_pos rfl, hnone])
  · rw [List.countP_cons_of_neg (by simp [isObjectKind])]
    exact h.objects_le
  · rw [List.filter_cons_of_neg (by simp [isObjectKind])]
    exact h.nodup
  · intro hmem
    exact absurd ((List.mem_cons.1 hmem).resolve_left (by simp)) hall
  · intro set' hmem htagged g hg
    rw [hsingle hmem] at htagged
    rcases List.mem_cons.1 hg with rfl | hg
    · rfl
    · exact htag htagged g hg
  · intro set' hmem
    rw [hsingle hmem]
    exact hmagic

/-- The guard for primitives makes way for another one. -/
theorem Orderly.replace {before after : List TypeGuard} {old : PrimitiveSet}
    (h : Orderly cap (before ++ primitives old :: after)) (hmagic : set.contains .magic = false)
    (htag : set.contains .object = true → ∀ g ∈ before ++ primitives old :: after,
      g.isObjectKind = false) : Orderly cap (before ++ primitives set :: after) := by
  have hprimitives := h.primitives_le
  have hobjects := h.objects_le
  have hnodup := h.nodup
  simp only [List.countP_append, List.filter_append] at hprimitives hobjects hnodup
  rw [List.countP_cons_of_pos rfl] at hprimitives
  rw [List.countP_cons_of_neg (by simp [isObjectKind])] at hobjects
  rw [List.filter_cons_of_neg (by simp [isObjectKind])] at hnodup
  have hmem_of {g : TypeGuard} (hg : g ∈ before ++ primitives set :: after) :
      g = primitives set ∨ g ∈ before ++ primitives old :: after := by
    rcases List.mem_append.1 hg with hg | hg
    · exact .inr (List.mem_append_left _ hg)
    · exact (List.mem_cons.1 hg).imp_right fun hg => List.mem_append_right _ (List.mem_cons_of_mem _ hg)
  have hsingle {set' : PrimitiveSet} (hmem : primitives set' ∈ before ++ primitives set :: after) :
      set' = set := by
    have hnone : before.countP isPrimitives = 0 ∧ after.countP isPrimitives = 0 := by omega
    rcases List.mem_append.1 hmem with hmem | hmem
    · exact absurd rfl (List.countP_eq_zero.1 hnone.1 _ hmem)
    · rcases List.mem_cons.1 hmem with heq | hmem
      · exact TypeGuard.primitives.inj heq
      · exact absurd rfl (List.countP_eq_zero.1 hnone.2 _ hmem)
  constructor
  · rw [List.countP_append, List.countP_cons_of_pos rfl]
    exact hprimitives
  · rw [List.countP_append, List.countP_cons_of_neg (by simp [isObjectKind])]
    exact hobjects
  · rw [List.filter_append, List.filter_cons_of_neg (by simp [isObjectKind])]
    exact hnodup
  · intro hmem
    have hold := h.alone ((hmem_of hmem).resolve_left (by simp))
    have hmemOld : primitives old ∈ before ++ primitives old :: after := by simp
    rw [hold] at hmemOld
    simp at hmemOld
  · intro set' hmem htagged g hg
    rw [hsingle hmem] at htagged
    rcases hmem_of hg with rfl | hg
    · rfl
    · exact htag htagged g hg
  · intro set' hmem
    rw [hsingle hmem]
    exact hmagic

end

end TypeGuard

/-- What becomes of a chain of type guards at once. -/
inductive GuardEdit where
  | attach (guard : TypeGuard)
  | replace (id : StubId) (guard : TypeGuard)
  | replaceAll (guard : TypeGuard)

/-- The guard that an edit brings. -/
def GuardEdit.guard : GuardEdit → TypeGuard
  | attach guard | replace _ guard | replaceAll guard => guard

/-- The guards and their places. -/
abbrev GuardList := List (StubId × TypeGuard)

namespace GuardList

/-- There is one guard for primitives at most. -/
def OnePrimitives (gs : GuardList) : Prop := gs.countP (·.2.isPrimitives) ≤ 1

def accepts (gs : GuardList) (h : Heap) (v : Value) : Bool := gs.any fun (_, guard) => guard.accepts h v

/-- All that was accepted before is accepted afterwards, on every heap. -/
def Covers (gs gs' : GuardList) : Prop :=
  ∀ (h : Heap) (v : Value), gs'.accepts h v = true → gs.accepts h v = true

def Within (gs : GuardList) (h : Heap) (types : TypeSet) : Prop := ∀ p ∈ gs, p.2.Within h types

theorem Covers.refl (gs : GuardList) : gs.Covers gs := fun _ _ h => h

theorem Covers.trans {gs gs' gs'' : GuardList} (h : gs'.Covers gs) (h' : gs''.Covers gs') :
    gs''.Covers gs :=
  fun heap v hv => h' heap v (h heap v hv)

end GuardList

namespace GuardEdit

/-- The guards after an edit; `id` is the place of a new stub. -/
def apply (id : StubId) (gs : GuardList) : GuardEdit → GuardList
  | attach guard => (id, guard) :: gs
  | replace old guard => gs.map fun p => if p.1 = old then (old, guard) else p
  | replaceAll guard => [(id, guard)]

/-- The edit loses nothing: a second guard for primitives is never added, and a guard makes way only for
a broader one. -/
def Widens (gs : GuardList) : GuardEdit → Prop
  | attach guard => guard.isPrimitives = true → gs.countP (·.2.isPrimitives) = 0
  | replace id guard => guard.isPrimitives = true ∧
      ∃ old, (id, old) ∈ gs ∧ old.isPrimitives = true ∧ guard.Covers old
  | replaceAll guard => gs.OnePrimitives → ∀ p ∈ gs, guard.Covers p.2

/-- The edit leaves guards in order, if no two of them are at one place. -/
def Orders (cap : Nat) (gs : GuardList) (edit : GuardEdit) : Prop :=
  TypeGuard.Orderly cap (gs.map (·.2)) → (∀ p ∈ gs, ∀ q ∈ gs, p.1 = q.1 → p = q) →
    ∀ id, TypeGuard.Orderly cap ((edit.apply id gs).map (·.2))

/-- An edit that widens the guards to a value of given types, with a limit on guards for objects. -/
structure Suits (cap : Nat) (gs : GuardList) (h : Heap) (types : TypeSet) (v : Value)
    (edit : GuardEdit) : Prop where
  widens : edit.Widens gs
  accepts : (v.isMagic = true → types.isUnknown = true) → edit.guard.accepts h v = true
  within : gs.Within h types → types.hasValue h.objectKey v = true → edit.guard.Within h types
  orders : (v.isMagic = true → types.isUnknown = true) → edit.Orders cap gs

theorem orders_anything (cap : Nat) (gs : GuardList) : (replaceAll .anything).Orders cap gs :=
  fun _ _ _ => TypeGuard.orderly_anything cap

/-- The guard that makes way is the only one at its place. -/
theorem split_replace {gs : GuardList} {id : StubId} {old : TypeGuard} (hmem : (id, old) ∈ gs)
    (hold : old.isPrimitives = true) (hplaces : ∀ p ∈ gs, ∀ q ∈ gs, p.1 = q.1 → p = q)
    (hone : (gs.map (·.2)).countP TypeGuard.isPrimitives ≤ 1) (guard : TypeGuard) (new : StubId) :
    ∃ before after, gs.map (·.2) = before ++ old :: after ∧
      ((replace id guard).apply new gs).map (·.2) = before ++ guard :: after := by
  obtain ⟨before, after, rfl⟩ := List.append_of_mem hmem
  rw [List.map_append, List.map_cons, List.countP_append, List.countP_cons_of_pos hold] at hone
  have hkeeps {l : GuardList} (hsub : ∀ p ∈ l, p ∈ before ++ (id, old) :: after)
      (hnone : (l.map (·.2)).countP TypeGuard.isPrimitives = 0) :
      (l.map fun p => if p.1 = id then (id, guard) else p) = l := by
    refine (List.map_congr_left fun p hp => if_neg fun heq => ?_).trans (List.map_id l)
    have hguard := List.countP_eq_zero.1 hnone p.2 (List.mem_map_of_mem hp)
    rw [hplaces p (hsub p hp) (id, old) hmem heq] at hguard
    exact hguard hold
  refine ⟨before.map (·.2), after.map (·.2), by rw [List.map_append, List.map_cons], ?_⟩
  rw [apply, List.map_append, List.map_cons, if_pos rfl,
    hkeeps (fun p hp => List.mem_append_left _ hp) (by omega),
    hkeeps (fun p hp => List.mem_append_right _ (List.mem_cons_of_mem _ hp)) (by omega),
    List.map_append, List.map_cons]

theorem orders_replace {cap : Nat} {gs : GuardList} {id : StubId} {old set : PrimitiveSet}
    (hmem : (id, .primitives old) ∈ gs)
    (hmagic : TypeGuard.Orderly cap (gs.map (·.2)) → set.contains .magic = false)
    (htag : TypeGuard.Orderly cap (gs.map (·.2)) → set.contains .object = true →
      ∀ g ∈ gs.map (·.2), g.isObjectKind = false) :
    (replace id (.primitives set)).Orders cap gs := by
  intro h hplaces new
  obtain ⟨before, after, hgs, hnew⟩ :=
    split_replace hmem rfl hplaces h.primitives_le (.primitives set) new
  rw [hnew]
  have hmagic' := hmagic h
  have htag' := htag h
  rw [hgs] at h htag'
  exact h.replace hmagic' htag'

end GuardEdit

end InlineCache
