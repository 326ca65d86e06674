import InlineCache.Proofs.TypeChain.GuardList

namespace InlineCache

namespace TypeChain

variable {t t' : TypeChain} {env env' : AttachEnv} {heap : Heap} {types types' : TypeSet} {v : Value}

/-- Carries out an edit. -/
def perform (t : TypeChain) (env : AttachEnv) :
    GuardEdit → Except CacheError Unit × TypeChain × AttachEnv
  | .attach guard => t.attach env guard
  | .replace id guard => t.replace env id guard
  | .replaceAll guard => t.replaceAll env guard

private theorem primitiveGuard?_eq_none {gs : GuardList} (h : primitiveGuard? gs = none) :
    gs.countP (·.2.isPrimitives) = 0 := by
  rw [List.countP_eq_zero]
  intro p hp
  have hnone := List.findSome?_eq_none_iff.1 h p hp
  simpa [TypeGuard.isPrimitives] using hnone

private theorem mem_of_primitiveGuard? {gs : GuardList} {id : StubId} {set : PrimitiveSet}
    (h : primitiveGuard? gs = some (id, set)) : (id, .primitives set) ∈ gs := by
  obtain ⟨⟨x, guard⟩, hmem, hfound⟩ := List.exists_of_findSome?_eq_some h
  cases guard with
  | primitives set' =>
    cases hfound
    exact hmem
  | _ => cases hfound

/-- The guard for primitives is the first one. -/
theorem eq_of_onePrimitives {gs : GuardList} (hone : gs.OnePrimitives) {p q : StubId × TypeGuard}
    (hp : p ∈ gs) (hq : q ∈ gs) (hpp : p.2.isPrimitives = true) (hqp : q.2.isPrimitives = true) :
    p = q := by
  have hfilter : (gs.filter (·.2.isPrimitives)).length ≤ 1 := by
    rw [← List.countP_eq_length_filter]
    exact hone
  have hp' : p ∈ gs.filter (·.2.isPrimitives) := List.mem_filter.2 ⟨hp, hpp⟩
  have hq' : q ∈ gs.filter (·.2.isPrimitives) := List.mem_filter.2 ⟨hq, hqp⟩
  obtain ⟨r, hr⟩ := List.length_eq_one_iff.1
    (Nat.le_antisymm hfilter (List.length_pos_of_mem hp'))
  rw [hr, List.mem_singleton] at hp' hq'
  rw [hp', hq']

/-- The set of the guard for primitives, widened by a type. -/
def widenedSet (gs : GuardList) (types : TypeSet) (type : ValueType) : PrimitiveSet :=
  let set := (((primitiveGuard? gs).map Prod.snd).getD .empty).insert type
  if types.isUnknownObject then set.insert .object else set

private theorem contains_widenedSet {gs : GuardList} {type u : ValueType} :
    (widenedSet gs types type).contains u = true ↔
      (∃ id set, primitiveGuard? gs = some (id, set) ∧ set.contains u = true) ∨ type = u ∨
        types.isUnknownObject = true ∧ u = .object := by
  have hold : (((primitiveGuard? gs).map Prod.snd).getD PrimitiveSet.empty).contains u = true ↔
      ∃ id set, primitiveGuard? gs = some (id, set) ∧ set.contains u = true := by
    cases primitiveGuard? gs with
    | none => simp
    | some found =>
      obtain ⟨id, set⟩ := found
      constructor
      · exact fun h => ⟨id, set, rfl, h⟩
      · rintro ⟨_, _, heq, h⟩
        cases heq
        exact h
  unfold widenedSet
  rw [← hold]
  cases hunknown : types.isUnknownObject with
  | true => simp [or_assoc, eq_comm (a := u)]
  | false => simp

private theorem covers_widenedSet {gs : GuardList} {id : StubId} {set : PrimitiveSet} (type : ValueType)
    (hfound : primitiveGuard? gs = some (id, set)) :
    (TypeGuard.primitives (widenedSet gs types type)).Covers (.primitives set) :=
  TypeGuard.covers_primitives fun _ hu => contains_widenedSet.2 (.inl ⟨id, set, hfound, hu⟩)

/-- Where all objects are known, the guard for primitives can stand for every other one. -/
theorem covers_all_widenedSet {gs : GuardList} (type : ValueType) (hone : gs.OnePrimitives)
    (hunknown : types.isUnknownObject = true) (hall : ∀ p ∈ gs, p.2 ≠ .anything) :
    ∀ p ∈ gs, (TypeGuard.primitives (widenedSet gs types type)).Covers p.2 := by
  rintro ⟨id, guard⟩ hp
  cases guard with
  | anything => exact absurd rfl (hall _ hp)
  | primitives set =>
    cases hfound : primitiveGuard? gs with
    | none => exact absurd rfl (List.countP_eq_zero.1 (primitiveGuard?_eq_none hfound) _ hp)
    | some found =>
      obtain ⟨id', set'⟩ := found
      cases eq_of_onePrimitives hone hp (mem_of_primitiveGuard? hfound) rfl rfl
      exact covers_widenedSet type hfound
  | _ => exact TypeGuard.covers_objectKind (contains_widenedSet.2 (.inr (.inr ⟨hunknown, rfl⟩))) rfl

/-- Sentinels stay out of the guard for primitives, unless it is widened by them. -/
theorem magic_widenedSet {cap : Nat} {gs : GuardList} {type : ValueType} (htype : type ≠ .magic)
    (h : TypeGuard.Orderly cap (gs.map (·.2))) :
    (widenedSet gs types type).contains .magic = false := by
  refine Bool.eq_false_iff.2 fun hmagic => ?_
  rcases contains_widenedSet.1 hmagic with ⟨id, set, hfound, hset⟩ | rfl | ⟨-, htag⟩
  · have hold := h.no_magic set (List.mem_map_of_mem (mem_of_primitiveGuard? hfound))
    rw [hset] at hold
    cases hold
  · exact htype rfl
  · cases htag

/-- Where the guard for primitives has the tag of objects, there are no guards for them, if the ones there
make way once all objects are known. -/
theorem no_objects_widenedSet {cap : Nat} {gs : GuardList} {type : ValueType}
    (hkeep : (types.isUnknownObject && gs.any (·.2.isObjectKind)) ≠ true)
    (htype : type = .object → types.isUnknownObject = true) (h : TypeGuard.Orderly cap (gs.map (·.2)))
    (htag : (widenedSet gs types type).contains .object = true) :
    ∀ g ∈ gs.map (·.2), g.isObjectKind = false := by
  have hunknown (hunknown : types.isUnknownObject = true) : ∀ g ∈ gs.map (·.2), g.isObjectKind = false := by
    intro g hg
    obtain ⟨p, hp, rfl⟩ := List.mem_map.1 hg
    refine Bool.eq_false_iff.2 fun hobject => hkeep ?_
    rw [hunknown, Bool.true_and]
    exact List.any_eq_true.2 ⟨p, hp, hobject⟩
  rcases contains_widenedSet.1 htag with ⟨id, set, hfound, hset⟩ | rfl | ⟨hknown, -⟩
  · exact h.no_objects set (List.mem_map_of_mem (mem_of_primitiveGuard? hfound)) hset
  · exact hunknown (htype rfl)
  · exact hunknown hknown

/-- Widening by a type is one edit, which brings a guard for primitives. -/
theorem widenPrimitives_eq (t : TypeChain) (env : AttachEnv) (types : TypeSet) (type : ValueType)
    (hall : ∀ p ∈ t.guards env.arena, p.2 ≠ .anything) :
    ∃ edit, t.widenPrimitives env types type = t.perform env edit ∧
      edit.guard = .primitives (widenedSet (t.guards env.arena) types type) ∧
      edit.Widens (t.guards env.arena) ∧
      ∀ cap, type ≠ .magic → (type = .object → types.isUnknownObject = true) →
        edit.Orders cap (t.guards env.arena) := by
  generalize hgs : t.guards env.arena = gs at hall
  by_cases hreplace : (types.isUnknownObject && gs.any (·.2.isObjectKind)) = true
  · have hunknown : types.isUnknownObject = true := (Bool.and_eq_true_iff.1 hreplace).1
    refine ⟨.replaceAll (.primitives (widenedSet gs types type)), ?_, rfl,
      fun hone => covers_all_widenedSet type hone hunknown hall, fun cap htype _ h _ _ =>
        TypeGuard.orderly_primitives cap (magic_widenedSet htype h)⟩
    simp only [widenPrimitives, hgs, hreplace, if_true]
    rfl
  · cases hfound : primitiveGuard? gs with
    | none =>
      refine ⟨.attach (.primitives (widenedSet gs types type)), ?_, rfl, fun _ =>
        primitiveGuard?_eq_none hfound, fun cap htype hobject h _ _ => ?_⟩
      · simp only [widenPrimitives, hgs, hreplace, Bool.false_eq_true, if_false, hfound]
        simp only [perform, widenedSet, hfound]
      · refine h.cons_primitives ?_ ?_ (magic_widenedSet htype h)
          (no_objects_widenedSet hreplace hobject h)
        · rw [List.countP_map]
          exact primitiveGuard?_eq_none hfound
        · intro hmem
          obtain ⟨p, hp, hguard⟩ := List.mem_map.1 hmem
          exact hall p hp hguard
    | some found =>
      obtain ⟨id, set⟩ := found
      have hmem := mem_of_primitiveGuard? hfound
      refine ⟨.replace id (.primitives (widenedSet gs types type)), ?_, rfl, ⟨rfl, .primitives set,
        hmem, rfl, covers_widenedSet type hfound⟩, fun cap htype hobject =>
          GuardEdit.orders_replace hmem (magic_widenedSet htype)
            (no_objects_widenedSet hreplace hobject)⟩
      simp only [widenPrimitives, hgs, hreplace, Bool.false_eq_true, if_false, hfound]
      simp only [perform, widenedSet, hfound]

/-- The guard for primitives stays within the types if the type it is widened by is one of them. -/
theorem within_widenedSet {gs : GuardList} {type : ValueType} (hgs : gs.Within heap types)
    (htype : types.coversType type = true) :
    (TypeGuard.primitives (widenedSet gs types type)).Within heap types := by
  intro u hu
  rcases contains_widenedSet.1 hu with ⟨id, set, hp, hset⟩ | rfl | ⟨hunknown, rfl⟩
  · exact hgs _ (mem_of_primitiveGuard? hp) u hset
  · exact htype
  · exact hunknown

private theorem suits_anything (cap : Nat) (gs : GuardList) (heap : Heap) (v : Value)
    (hunknown : types.isUnknown = true) :
    GuardEdit.Suits cap gs heap types v (.replaceAll .anything) :=
  ⟨fun _ _ _ _ _ _ => rfl, fun _ => rfl, fun _ _ => hunknown, fun _ => GuardEdit.orders_anything cap gs⟩

private theorem accepts_objectGuard (heap : Heap) (id : ObjectId) :
    (objectGuard heap id).accepts heap (.object id) = true := by
  unfold objectGuard
  split <;> simp [TypeGuard.accepts]

private theorem isObjectKind_objectGuard (heap : Heap) (id : ObjectId) :
    (objectGuard heap id).isObjectKind = true := by
  unfold objectGuard
  split <;> rfl

/-- An object that no guard accepts is guarded within the limit. -/
theorem orders_objectGuard {cap : Nat} {gs : GuardList} {id : ObjectId}
    (hrejects : gs.accepts heap (.object id) ≠ true)
    (hlt : (gs.filter (·.2.isObjectKind)).length < cap) :
    (GuardEdit.attach (objectGuard heap id)).Orders cap gs := by
  have hrejected (g : TypeGuard) (hg : g ∈ gs.map (·.2)) : g.accepts heap (.object id) ≠ true := by
    intro haccepts
    obtain ⟨p, hp, rfl⟩ := List.mem_map.1 hg
    exact hrejects (List.any_eq_true.2 ⟨p, hp, haccepts⟩)
  refine fun h _ _ => h.cons_object (isObjectKind_objectGuard heap id) ?_
    (fun hmem => hrejected _ hmem (accepts_objectGuard heap id)) (fun hmem => hrejected _ hmem rfl)
    fun set hmem => Bool.eq_false_iff.2 (hrejected _ hmem)
  rw [List.countP_map, List.countP_eq_length_filter]
  exact hlt

/-- An object is guarded by what the types know it by. -/
theorem suits_objectGuard {cap : Nat} {gs : GuardList} {id : ObjectId}
    (hrejects : gs.accepts heap (.object id) ≠ true)
    (hlt : (gs.filter (·.2.isObjectKind)).length < cap) (types : TypeSet) :
    GuardEdit.Suits cap gs heap types (.object id) (.attach (objectGuard heap id)) := by
  refine ⟨fun hprims => ?_, fun _ => accepts_objectGuard heap id, fun _ hv => ?_,
    fun _ => orders_objectGuard hrejects hlt⟩
  · have hobject := isObjectKind_objectGuard heap id
    generalize objectGuard heap id = guard at hobject hprims
    cases guard <;> cases hobject <;> cases hprims
  · by_cases hs : (heap.object id).singleton = true
    · have hguard : objectGuard heap id = .object id := if_pos hs
      rw [GuardEdit.guard, hguard]
      exact ⟨hs, by simpa [TypeSet.hasValue, Heap.objectKey, hs] using hv⟩
    · have hguard : objectGuard heap id = .group (heap.object id).group := if_neg hs
      rw [GuardEdit.guard, hguard]
      change types.hasObject (.group (heap.object id).group) = true
      simpa [TypeSet.hasValue, Heap.objectKey, hs] using hv

/-- The guard for primitives suits the type that it is widened by, and objects if all of them are known. -/
theorem suits_widenedSet {cap : Nat} {gs : GuardList} {edit : GuardEdit} (hwidens : edit.Widens gs)
    (hguard : edit.guard = .primitives (widenedSet gs types v.type))
    (hmagic : v.isMagic = true → types.isUnknown = false)
    (hobject : v.type = .object → types.isUnknownObject = true)
    (horders : v.type ≠ .magic → edit.Orders cap gs) :
    edit.Suits cap gs heap types v := by
  refine ⟨hwidens, fun hunknown => ?_, fun hgs hv => ?_, fun hunknown => horders fun htype => ?_⟩
  · have hset : (widenedSet gs types v.type).contains v.type = true :=
      contains_widenedSet.2 (.inr (.inl rfl))
    rw [hguard]
    cases v with
    | magic kind => exact absurd (hmagic rfl) (by simp [hunknown rfl])
    | _ => exact hset
  · rw [hguard]
    refine within_widenedSet hgs ?_
    cases v with
    | object id => exact hobject rfl
    | magic kind => rfl
    | _ => exact hv
  · cases v with
    | magic kind => exact absurd (hmagic rfl) (by simp [hunknown rfl])
    | _ => cases htype

private theorem perform_cases (edit : GuardEdit) {types₁ : TypeSet} {result : Except CacheError Bool}
    (h : (match t.perform env edit with
      | (r, t₁, env₁) => (r.map fun _ => true, t₁, types₁, env₁)) = (result, t', types', env')) :
    types₁ = types' ∧ ∃ r, t.perform env edit = (r, t', env') ∧ result = r.map fun _ => true := by
  cases hr : t.perform env edit with
  | mk r rest =>
    rw [hr] at h
    cases h
    exact ⟨rfl, r, rfl, rfl⟩

/-- A guard for everything is among the guards that accept a value. -/
theorem accepts_of_anything {p : StubId × TypeGuard} (hp : p ∈ t.guards env.arena)
    (hguard : p.2 = .anything) : t.accepts heap env.arena v = true := by
  refine List.any_eq_true.2 ⟨p, hp, ?_⟩
  simp [hguard, TypeGuard.accepts]

/-- A widened chain accepted the value before, or it is edited to accept it; and the types are left as
they are, or widen to all objects. The edits are three: a guard is added, the guard for primitives makes
way for a broader one, or all guards make way for one. -/
theorem widen_cases {result : Except CacheError Bool}
    (h : t.widen heap env types v = (result, t', types', env')) :
    (types' = types ∨ types' = types.markUnknownObject) ∧
      ((result = .ok false ∧ t' = t ∧ env' = env ∧ t.accepts heap env.arena v = true) ∨
        ∃ edit r, t.perform env edit = (r, t', env') ∧ (result = r.map fun _ => true) ∧
          edit.Suits env.runtime.config.maxObjectGuards (t.guards env.arena) heap types' v) := by
  unfold widen at h
  dsimp only at h
  split at h
  · next hunknown =>
    split at h
    · next hgs =>
      cases h
      have hmem : TypeGuard.anything ∈ (t.guards env.arena).map (·.2) := by
        rw [hgs]
        exact List.mem_singleton_self _
      obtain ⟨p, hp, hguard⟩ := List.mem_map.1 hmem
      exact ⟨.inl rfl, .inl ⟨rfl, rfl, rfl, accepts_of_anything hp hguard⟩⟩
    · obtain ⟨rfl, r, hr, hresult⟩ := perform_cases (.replaceAll .anything) h
      exact ⟨.inl rfl, .inr ⟨_, r, hr, hresult, suits_anything _ _ heap v hunknown⟩⟩
  · next hknown =>
    split at h
    · next haccepts =>
      cases h
      exact ⟨.inl rfl, .inl ⟨rfl, rfl, rfl, haccepts⟩⟩
    · next hrejects =>
      have hall : ∀ p ∈ t.guards env.arena, p.2 ≠ .anything :=
        fun p hp hguard => hrejects (accepts_of_anything hp hguard)
      split at h
      · next id hknownObject =>
        split at h
        · next hlt =>
          obtain ⟨rfl, r, hr, hresult⟩ := perform_cases (.attach (objectGuard heap id)) h
          exact ⟨.inl rfl, .inr ⟨_, r, hr, hresult, suits_objectGuard hrejects hlt types⟩⟩
        · obtain ⟨edit, heq, hguard, hwidens, horders⟩ :=
            widenPrimitives_eq t env types.markUnknownObject .object hall
          rw [heq] at h
          obtain ⟨rfl, r, hr, hresult⟩ := perform_cases edit h
          have hunknown := TypeSet.isUnknownObject_markUnknownObject types
          exact ⟨.inr rfl, .inr ⟨edit, r, hr, hresult, suits_widenedSet hwidens hguard
            (fun hmagic => by cases hmagic) (fun _ => hunknown)
            fun htype => horders _ htype fun _ => hunknown⟩⟩
      · next v _ _ hcase =>
        obtain ⟨edit, heq, hguard, hwidens, horders⟩ := widenPrimitives_eq t env types v.type hall
        rw [heq] at h
        obtain ⟨rfl, r, hr, hresult⟩ := perform_cases edit h
        have hobject (htype : v.type = .object) : types.isUnknownObject = true := by
          cases v with
          | object id =>
            cases hunknown : types.isUnknownObject with
            | true => rfl
            | false => exact absurd hunknown (hcase id rfl)
          | _ => cases htype
        exact ⟨.inl rfl, .inr ⟨edit, r, hr, hresult, suits_widenedSet hwidens hguard
          (fun _ => Bool.eq_false_iff.2 hknown) hobject fun htype => horders _ htype hobject⟩⟩

end TypeChain

end InlineCache
