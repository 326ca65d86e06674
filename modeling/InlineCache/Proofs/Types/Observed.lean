import InlineCache.Proofs.Types.Widens

namespace InlineCache

namespace PrimitiveSet

private theorem insert_of_contains {s : PrimitiveSet} {t : ValueType} (h : s.contains t = true) :
    s.insert t = s := by
  obtain ⟨bits⟩ := s
  simp only [contains] at h
  simp only [insert, union, of, mk.injEq]
  ext i hi
  simp only [BitVec.getElem_or, BitVec.getElem_twoPow, Bool.or_eq_left_iff_imp, decide_eq_true_eq]
  intro hit
  rw [← hit] at h
  simpa only [BitVec.getLsbD_eq_getElem hi] using h

end PrimitiveSet

namespace TypeSet

variable {s : TypeSet} {keyOf : ObjectId → ObjectKey} {key : ObjectKey} {v : Value}
  {vs : List Value}

private theorem addType_of_hasType {t : ValueType} (h : s.hasType t = true) : s.addType t = s := by
  unfold addType
  split
  · rfl
  · next hany =>
    have hcontains : s.primitives.contains t = true := by simpa [hasType, isUnknown, hany] using h
    rw [PrimitiveSet.insert_of_contains hcontains]

/-- A value that is covered is not added again. -/
theorem addValue_of_hasValue (h : s.hasValue keyOf v = true) : s.addValue keyOf v = s := by
  cases v with
  | object id => exact if_pos h
  | magic kind =>
    cases kind with
    | uninitializedLexical => exact if_pos h
    | optimizedOut => rfl
  | _ => exact addType_of_hasType h

/-- An addition changes the set just if the value was not covered. -/
theorem grew_addValue_iff (hv : v ≠ .magic .optimizedOut) :
    grew s (s.addValue keyOf v) = true ↔ s.hasValue keyOf v = false := by
  rw [grew, bne_iff_ne, ← Bool.not_eq_true, Decidable.not_iff_not]
  refine ⟨fun heq => ?_, fun hcovered => (addValue_of_hasValue hcovered).symm⟩
  rw [heq]
  exact hasValue_addValue hv

/-- Adds a type, and answers whether it is new. -/
def noteType (s : TypeSet) (t : ValueType) : Bool × TypeSet :=
  if s.anything then (false, s)
  else (s.primitives.insert t != s.primitives, { s with primitives := s.primitives.insert t })

/-- Accepts every object, and answers whether not every one was accepted. -/
def noteUnknownObject (s : TypeSet) : Bool × TypeSet :=
  if s.isUnknownObject then (false, s) else (true, { s with anyObject := true, objects := [] })

/-- Accepts every value, and answers whether not every one was accepted. -/
def noteUnknown (s : TypeSet) : Bool × TypeSet :=
  if s.anything then (false, s)
  else (true, { s with anything := true, anyObject := true, objects := [] })

/-- Adds an object key, and answers whether it is new. -/
def noteObject (s : TypeSet) (key : ObjectKey) : Bool × TypeSet :=
  if s.hasObject key then (false, s)
  else if maxObjects ≤ s.objects.length then s.noteUnknownObject
  else (true, { s with objects := s.objects ++ [key] })

/-- Adds a value. The answer is found on the way, without a look at the set as it was before. -/
def noteValue (s : TypeSet) (keyOf : ObjectId → ObjectKey) : Value → Bool × TypeSet
  | .magic .uninitializedLexical => s.noteUnknown
  | .magic .optimizedOut => (false, s)
  | .object id => s.noteObject (keyOf id)
  | v => s.noteType v.type

private theorem grew_self (s : TypeSet) : grew s s = false := bne_self_eq_false s

private theorem grew_of_ne {s' : TypeSet} (h : s ≠ s') : grew s s' = true := bne_iff_ne.2 h

private theorem noteType_eq (s : TypeSet) (t : ValueType) :
    s.noteType t = (grew s (s.addType t), s.addType t) := by
  unfold noteType addType
  split
  · rw [grew_self]
  · obtain ⟨primitives, objects, anyObject, anything⟩ := s
    refine Prod.ext ?_ rfl
    rw [grew, Bool.eq_iff_iff, bne_iff_ne, bne_iff_ne, ne_eq, ne_eq, mk.injEq, eq_comm]
    simp only [and_true]

private theorem noteUnknownObject_eq (s : TypeSet) :
    s.noteUnknownObject = (grew s s.markUnknownObject, s.markUnknownObject) := by
  unfold noteUnknownObject markUnknownObject
  split
  · rw [grew_self]
  · next hany =>
    refine Prod.ext (grew_of_ne fun heq => hany ?_).symm rfl
    rw [heq, isUnknownObject, Bool.or_true]

private theorem noteUnknown_eq (s : TypeSet) :
    s.noteUnknown = (grew s s.markUnknown, s.markUnknown) := by
  unfold noteUnknown markUnknown
  split
  · rw [grew_self]
  · next hany =>
    refine Prod.ext (grew_of_ne fun heq => hany ?_).symm rfl
    rw [heq]

private theorem noteObject_eq (s : TypeSet) (key : ObjectKey) :
    s.noteObject key = (grew s (s.addObject key), s.addObject key) := by
  unfold noteObject addObject
  split
  · rw [grew_self]
  · next hkey =>
    split
    · exact noteUnknownObject_eq s
    · refine Prod.ext (grew_of_ne fun heq => hkey ?_).symm rfl
      rw [heq]
      simp [hasObject]

/-- The answer on the way is whether the addition changed the set. -/
theorem noteValue_eq (s : TypeSet) (keyOf : ObjectId → ObjectKey) (v : Value) :
    s.noteValue keyOf v = (grew s (s.addValue keyOf v), s.addValue keyOf v) := by
  cases v with
  | object id => exact noteObject_eq s (keyOf id)
  | magic kind =>
    cases kind with
    | uninitializedLexical => exact noteUnknown_eq s
    | optimizedOut => exact Prod.ext (grew_self s).symm rfl
  | _ => exact noteType_eq s _

private theorem isUnknownObject_of_isUnknown (h : s.isUnknown = true) : s.isUnknownObject = true := by
  rw [isUnknownObject, show s.anything = true from h, Bool.true_or]

/-- No key is stored twice, no more than the limit are stored, and none where any object is accepted. -/
structure Bounded (s : TypeSet) : Prop where
  nodup : s.objects.Nodup
  length_le : s.objects.length ≤ maxObjects
  forgets : s.isUnknownObject = true → s.objects = []

private theorem empty_bounded : empty.Bounded := ⟨.nil, Nat.zero_le _, nofun⟩

private theorem unknown_bounded : unknown.Bounded := ⟨.nil, Nat.zero_le _, fun _ => rfl⟩

private theorem bounded_of_objects_eq_nil (h : s.objects = []) : s.Bounded := by
  refine ⟨?_, ?_, fun _ => h⟩ <;> rw [h]
  · exact .nil
  · exact Nat.zero_le _

private theorem Bounded.markUnknownObject (h : s.Bounded) : s.markUnknownObject.Bounded := by
  unfold TypeSet.markUnknownObject
  split
  · exact h
  · exact bounded_of_objects_eq_nil rfl

private theorem Bounded.markUnknown (h : s.Bounded) : s.markUnknown.Bounded := by
  unfold TypeSet.markUnknown
  split
  · exact h
  · exact bounded_of_objects_eq_nil rfl

private theorem Bounded.addType (h : s.Bounded) (t : ValueType) : (s.addType t).Bounded := by
  unfold TypeSet.addType
  split
  · exact h
  · exact ⟨h.nodup, h.length_le, h.forgets⟩

/-- A set that tells objects apart has a key just if it is stored. -/
theorem hasObject_iff_mem (h : s.isUnknownObject = false) (key : ObjectKey) :
    s.hasObject key = true ↔ key ∈ s.objects := by
  simp only [isUnknownObject, Bool.or_eq_false_iff] at h
  simp [hasObject, h.1, h.2]

/-- All that adding a key can do: the key was covered, one key too many made the set forget all of them, or
the key was stored. -/
theorem addObject_cases (s : TypeSet) (key : ObjectKey) :
    (s.hasObject key = true ∧ s.addObject key = s) ∨
      (s.isUnknownObject = false ∧ key ∉ s.objects ∧
        ((maxObjects ≤ s.objects.length ∧
            s.addObject key = { s with anyObject := true, objects := [] }) ∨
          (s.objects.length < maxObjects ∧
            s.addObject key = { s with objects := s.objects ++ [key] }))) := by
  by_cases hkey : s.hasObject key = true
  · exact .inl ⟨hkey, if_pos hkey⟩
  · have hknown : s.isUnknownObject = false := by
      rw [← Bool.not_eq_true]
      exact fun hany => hkey (hasObject_of_isUnknownObject hany key)
    refine .inr ⟨hknown, fun hmem => hkey ((hasObject_iff_mem hknown key).2 hmem), ?_⟩
    unfold addObject
    rw [if_neg hkey]
    by_cases hlimit : maxObjects ≤ s.objects.length
    · rw [if_pos hlimit, TypeSet.markUnknownObject, hknown]
      exact .inl ⟨hlimit, rfl⟩
    · rw [if_neg hlimit]
      exact .inr ⟨Nat.lt_of_not_le hlimit, rfl⟩

private theorem Bounded.addObject (h : s.Bounded) (key : ObjectKey) : (s.addObject key).Bounded := by
  rcases addObject_cases s key with ⟨-, heq⟩ | ⟨hknown, hnot, ⟨-, heq⟩ | ⟨hlt, heq⟩⟩ <;> rw [heq]
  · exact h
  · exact bounded_of_objects_eq_nil rfl
  · refine ⟨List.nodup_append.2 ⟨h.nodup, List.pairwise_singleton _ key, fun a ha b hb hab => ?_⟩, ?_,
      fun hany => ?_⟩
    · rw [hab, List.mem_singleton.1 hb] at ha
      exact hnot ha
    · rw [List.length_append]
      exact hlt
    · exact absurd (hknown.symm.trans hany) Bool.false_ne_true

/-- What is added to a set: a value, or what can be added of one. -/
inductive Addition where
  | value (v : Value)
  | type (t : ValueType)
  | object (key : ObjectKey)
  | anyObject
  | anything

def add (s : TypeSet) (keyOf : ObjectId → ObjectKey) : Addition → TypeSet
  | .value v => s.addValue keyOf v
  | .type t => s.addType t
  | .object key => s.addObject key
  | .anyObject => s.markUnknownObject
  | .anything => s.markUnknown

private theorem widens_add (s : TypeSet) (keyOf : ObjectId → ObjectKey) (a : Addition) :
    s.Widens (s.add keyOf a) := by
  cases a with
  | value v => exact widens_addValue s keyOf v
  | type t => exact widens_addType s t
  | object key => exact widens_addObject s key
  | anyObject => exact widens_markUnknownObject s
  | anything => exact widens_markUnknown s

private theorem Bounded.add (h : s.Bounded) (keyOf : ObjectId → ObjectKey) (a : Addition) :
    (s.add keyOf a).Bounded := by
  cases a with
  | value v =>
    cases v with
    | object id => exact h.addObject (keyOf id)
    | magic kind =>
      cases kind with
      | uninitializedLexical => exact h.markUnknown
      | optimizedOut => exact h
    | _ => exact h.addType _
  | type t => exact h.addType t
  | object key => exact h.addObject key
  | anyObject => exact h.markUnknownObject
  | anything => exact h.markUnknown

def addAll (s : TypeSet) (keyOf : ObjectId → ObjectKey) (additions : List Addition) : TypeSet :=
  additions.foldl (fun s a => s.add keyOf a) s

private theorem widens_addAll (s : TypeSet) (keyOf : ObjectId → ObjectKey) (additions : List Addition) :
    s.Widens (s.addAll keyOf additions) := by
  induction additions generalizing s with
  | nil => exact .refl s
  | cons a rest ih => exact (widens_add s keyOf a).trans (ih (s.add keyOf a))

private theorem Bounded.addAll (h : s.Bounded) (keyOf : ObjectId → ObjectKey)
    (additions : List Addition) : (s.addAll keyOf additions).Bounded := by
  induction additions generalizing s with
  | nil => exact h
  | cons a rest ih => exact ih (h.add keyOf a)

/-- The set after the values of a sequence were added in turn. -/
def addValues (s : TypeSet) (keyOf : ObjectId → ObjectKey) (vs : List Value) : TypeSet :=
  s.addAll keyOf (vs.map .value)

private theorem isUnknown_addObject (s : TypeSet) (key : ObjectKey) :
    (s.addObject key).isUnknown = s.isUnknown := by
  rcases addObject_cases s key with ⟨-, heq⟩ | ⟨-, -, ⟨-, heq⟩ | ⟨-, heq⟩⟩ <;> rw [heq] <;> rfl

private theorem hasType_addObject (s : TypeSet) (key : ObjectKey) (t : ValueType) :
    (s.addObject key).hasType t = s.hasType t := by
  rcases addObject_cases s key with ⟨-, heq⟩ | ⟨-, -, ⟨-, heq⟩ | ⟨-, heq⟩⟩ <;> rw [heq] <;> rfl

private theorem isUnknown_addType (s : TypeSet) (t : ValueType) :
    (s.addType t).isUnknown = s.isUnknown := by
  unfold addType
  split <;> rfl

private theorem hasType_addType_iff (s : TypeSet) (t u : ValueType) :
    (s.addType t).hasType u = true ↔ s.hasType u = true ∨ t = u := by
  unfold addType
  split
  · next hany => simp [hasType, isUnknown, hany]
  · simp [hasType, isUnknown, or_assoc]

/-- Only a binding that is not initialized makes a set cover everything. -/
theorem isUnknown_addValue_iff :
    (s.addValue keyOf v).isUnknown = true ↔
      s.isUnknown = true ∨ v = .magic .uninitializedLexical := by
  cases v with
  | object id => simp [addValue, isUnknown_addObject]
  | magic kind =>
    cases kind with
    | uninitializedLexical => simp [addValue, isUnknown_markUnknown]
    | optimizedOut => simp [addValue]
  | _ => simp [addValue, isUnknown_addType]

theorem hasType_addValue_iff {t : ValueType} (ht : t.isPrimitive = true) :
    (s.addValue keyOf v).hasType t = true ↔
      s.hasType t = true ∨ v = .magic .uninitializedLexical ∨ v.type = t := by
  have hobject : ValueType.object ≠ t := fun heq => by rw [← heq] at ht; cases ht
  have hmagic : ValueType.magic ≠ t := fun heq => by rw [← heq] at ht; cases ht
  cases v with
  | object id => simp [addValue, hasType_addObject, Value.type, hobject]
  | magic kind =>
    cases kind with
    | uninitializedLexical => simp [addValue, hasType, isUnknown_markUnknown]
    | optimizedOut => simp [addValue, Value.type, hmagic]
  | _ => simp [addValue, hasType_addType_iff]

private theorem isUnknown_addValues_iff :
    (s.addValues keyOf vs).isUnknown = true ↔
      s.isUnknown = true ∨ .magic .uninitializedLexical ∈ vs := by
  induction vs generalizing s with
  | nil => simp [addValues, addAll]
  | cons v vs ih =>
    rw [List.mem_cons, ← or_assoc, eq_comm (b := v), ← isUnknown_addValue_iff]
    exact ih

private theorem hasType_addValues_iff {t : ValueType} (ht : t.isPrimitive = true) :
    (s.addValues keyOf vs).hasType t = true ↔
      s.hasType t = true ∨ .magic .uninitializedLexical ∈ vs ∨ ∃ v ∈ vs, v.type = t := by
  induction vs generalizing s with
  | nil => simp [addValues, addAll]
  | cons v vs ih =>
    refine (ih (s := s.addValue keyOf v)).trans ?_
    rw [hasType_addValue_iff ht]
    simp only [List.mem_cons, or_and_right, exists_or, exists_eq_left]
    rw [eq_comm (a := v)]
    grind

/-- Whether an object of a sequence has a key. -/
def Keyed (keyOf : ObjectId → ObjectKey) (vs : List Value) (key : ObjectKey) : Prop :=
  ∃ id, .object id ∈ vs ∧ keyOf id = key

/-- Whether the objects of a sequence have more different keys than are told apart. Different keys are
counted, so the limit is passed in every order or in none. -/
def Crowded (keyOf : ObjectId → ObjectKey) (vs : List Value) : Prop :=
  ∃ keys : List ObjectKey, keys.Nodup ∧ maxObjects < keys.length ∧ ∀ key ∈ keys, Keyed keyOf vs key

/-- What a set holds of the objects of a sequence whose values were added to it. -/
structure Observed (keyOf : ObjectId → ObjectKey) (vs : List Value) (s : TypeSet) : Prop where
  bounded : s.Bounded
  crowded : s.isUnknownObject = true → .magic .uninitializedLexical ∈ vs ∨ Crowded keyOf vs
  mem_objects_iff : s.isUnknownObject = false → ∀ key, key ∈ s.objects ↔ Keyed keyOf vs key

private theorem empty_observed (keyOf : ObjectId → ObjectKey) : Observed keyOf [] empty where
  bounded := empty_bounded
  crowded := nofun
  mem_objects_iff _ key := by simp [empty, Keyed]

private theorem keyed_append : Keyed keyOf (vs ++ [v]) key ↔
    Keyed keyOf vs key ∨ ∃ id, v = .object id ∧ keyOf id = key := by
  simp only [Keyed, List.mem_append, List.mem_singleton, or_and_right, exists_or, eq_comm]

private theorem Crowded.append (h : Crowded keyOf vs) (v : Value) : Crowded keyOf (vs ++ [v]) := by
  obtain ⟨keys, hnodup, hlength, hkeys⟩ := h
  exact ⟨keys, hnodup, hlength, fun key hkey => keyed_append.2 (.inl (hkeys key hkey))⟩

/-- One more value of which no new key is to be stored. -/
theorem Observed.append (h : Observed keyOf vs s) {s' : TypeSet} (hbounded : s'.Bounded)
    (hany : s'.isUnknownObject = s.isUnknownObject) (hobjects : s'.objects = s.objects)
    (hv : ∀ id, v = .object id → s.isUnknownObject = false → keyOf id ∈ s.objects) :
    Observed keyOf (vs ++ [v]) s' where
  bounded := hbounded
  crowded hunknown :=
    (h.crowded (hany ▸ hunknown)).imp (List.mem_append_left _) fun hcrowded => hcrowded.append v
  mem_objects_iff hknown key := by
    rw [hany] at hknown
    rw [hobjects, keyed_append, ← h.mem_objects_iff hknown key]
    refine ⟨.inl, fun hkey => hkey.elim id ?_⟩
    rintro ⟨id, rfl, rfl⟩
    exact hv id rfl hknown

private theorem Observed.addObject (h : Observed keyOf vs s) (id : ObjectId) :
    Observed keyOf (vs ++ [.object id]) (s.addObject (keyOf id)) := by
  have hbounded := h.bounded.addObject (keyOf id)
  rcases addObject_cases s (keyOf id) with
    ⟨hkey, heq⟩ | ⟨hknown, hnot, ⟨hlimit, heq⟩ | ⟨hlt, heq⟩⟩ <;> rw [heq] at hbounded ⊢
  · refine h.append hbounded rfl rfl fun id' hid hknown => ?_
    cases hid
    exact (hasObject_iff_mem hknown _).1 hkey
  · -- the keys that are stored and the new one are too many
    have hkeys : ∀ key ∈ keyOf id :: s.objects, Keyed keyOf (vs ++ [.object id]) key := fun key hkey =>
      keyed_append.2 ((List.mem_cons.1 hkey).symm.imp (h.mem_objects_iff hknown key).1
        fun heq => ⟨id, rfl, heq.symm⟩)
    refine ⟨hbounded, fun _ => .inr ⟨_, List.nodup_cons.2 ⟨hnot, h.bounded.nodup⟩, ?_, hkeys⟩, ?_⟩
    · exact Nat.lt_succ_of_le hlimit
    · intro hany
      simp [isUnknownObject] at hany
  · refine ⟨hbounded, fun hany => absurd (hknown.symm.trans hany) Bool.false_ne_true, fun _ key => ?_⟩
    rw [List.mem_append, List.mem_singleton, keyed_append, ← h.mem_objects_iff hknown key]
    refine or_congr_right ⟨fun heq => ⟨id, rfl, heq.symm⟩, ?_⟩
    rintro ⟨id', hid, rfl⟩
    cases hid
    rfl

private theorem Observed.addValue (h : Observed keyOf vs s) (v : Value) :
    Observed keyOf (vs ++ [v]) (s.addValue keyOf v) := by
  have hbounded := h.bounded.add keyOf (.value v)
  have htype (t : ValueType) (hbounded : (s.addType t).Bounded) (hv : ∀ id, v ≠ .object id) :
      Observed keyOf (vs ++ [v]) (s.addType t) := by
    refine h.append hbounded ?_ ?_ fun id heq => absurd heq (hv id)
    · unfold addType
      split <;> rfl
    · unfold addType
      split <;> rfl
  cases v with
  | object id => exact h.addObject id
  | magic kind =>
    cases kind with
    | uninitializedLexical =>
      have hany : s.markUnknown.isUnknownObject = true :=
        isUnknownObject_of_isUnknown (isUnknown_markUnknown s)
      have hmem : .magic .uninitializedLexical ∈ vs ++ [.magic .uninitializedLexical] :=
        List.mem_append_right vs (List.mem_singleton_self _)
      exact ⟨hbounded, fun _ => .inl hmem, fun hknown => absurd (hany.symm.trans hknown) nofun⟩
    | optimizedOut => exact h.append hbounded rfl rfl nofun
  | _ => exact htype _ hbounded nofun

private theorem Observed.addValues {seen : List Value} (h : Observed keyOf seen s) (vs : List Value) :
    Observed keyOf (seen ++ vs) (s.addValues keyOf vs) := by
  induction vs generalizing seen s with
  | nil =>
    rw [List.append_nil]
    exact h
  | cons v vs ih =>
    rw [List.append_cons]
    exact ih (h.addValue v)

/-- Where more keys were seen than are told apart, they cannot all be stored. -/
theorem Observed.isUnknownObject_of_crowded (h : Observed keyOf vs s) (hcrowded : Crowded keyOf vs) :
    s.isUnknownObject = true := by
  obtain ⟨keys, hnodup, hlength, hkeys⟩ := hcrowded
  cases hany : s.isUnknownObject with
  | true => rfl
  | false =>
    have hsubset : keys ⊆ s.objects := fun key hkey => (h.mem_objects_iff hany key).2 (hkeys key hkey)
    have hle := Nat.le_trans (hnodup.length_le_of_subset hsubset) h.bounded.length_le
    exact absurd hlength (Nat.not_lt.2 hle)

theorem hasType_empty (t : ValueType) : empty.hasType t = false := by
  simp [hasType, isUnknown, empty]

private theorem isUnknown_addValues_empty_iff :
    (empty.addValues keyOf vs).isUnknown = true ↔ .magic .uninitializedLexical ∈ vs :=
  isUnknown_addValues_iff.trans (or_iff_right Bool.false_ne_true)

private theorem hasObject_addValues_empty_iff :
    (empty.addValues keyOf vs).hasObject key = true ↔
      .magic .uninitializedLexical ∈ vs ∨ Crowded keyOf vs ∨ Keyed keyOf vs key := by
  have h : Observed keyOf vs (empty.addValues keyOf vs) := (empty_observed keyOf).addValues vs
  cases hany : (empty.addValues keyOf vs).isUnknownObject with
  | true => exact iff_of_true (hasObject_of_isUnknownObject hany key) ((h.crowded hany).imp_right .inl)
  | false =>
    rw [hasObject_iff_mem hany, h.mem_objects_iff hany]
    refine ⟨fun hkeyed => .inr (.inr hkeyed), ?_⟩
    rintro (hunknown | hcrowded | hkeyed)
    · have hall : (empty.addValues keyOf vs).isUnknownObject = true :=
        isUnknownObject_of_isUnknown (isUnknown_addValues_empty_iff.2 hunknown)
      exact absurd (hany.symm.trans hall) Bool.false_ne_true
    · exact absurd (hany.symm.trans (h.isUnknownObject_of_crowded hcrowded)) Bool.false_ne_true
    · exact hkeyed

/-- The values that are covered once those of a sequence were added: all of them if a binding was among them
that is not initialized; else those of the types that there were, and the objects whose keys there were, or
all objects if there were too many keys. -/
def Covers (keyOf : ObjectId → ObjectKey) (vs : List Value) (v : Value) : Prop :=
  .magic .uninitializedLexical ∈ vs ∨
    match v with
    | .object id => Crowded keyOf vs ∨ Keyed keyOf vs (keyOf id)
    | .magic _ => False
    | v => ∃ u ∈ vs, u.type = v.type

private theorem hasValue_addValues_empty_iff :
    (empty.addValues keyOf vs).hasValue keyOf v = true ↔ Covers keyOf vs v := by
  cases v with
  | object id => exact hasObject_addValues_empty_iff
  | magic kind => exact isUnknown_addValues_empty_iff.trans (or_iff_left id).symm
  | _ => exact (hasType_addValues_iff rfl).trans (or_iff_right (by simp [hasType_empty]))

/-- What a sequence covers is a matter of its members. -/
theorem covers_congr {ws : List Value} (hmem : ∀ v, v ∈ vs ↔ v ∈ ws) (v : Value) :
    Covers keyOf vs v ↔ Covers keyOf ws v := by
  simp only [Covers, Crowded, Keyed, hmem]

/-- How the coverage of sets goes with what is added to them. -/
structure CoverageLaws (keyOf : ObjectId → ObjectKey) : Prop where
  /-- Two sequences with the same members have the same values covered. -/
  sameMembers : ∀ vs ws : List Value, (∀ v, v ∈ vs ↔ v ∈ ws) → ∀ v,
    (empty.addValues keyOf vs).hasValue keyOf v = (empty.addValues keyOf ws).hasValue keyOf v
  covers_iff : ∀ (vs : List Value) (v : Value),
    (empty.addValues keyOf vs).hasValue keyOf v = true ↔ Covers keyOf vs v
  /-- The answer of an addition is whether it changed the set, which is so if the value is new. -/
  answer : ∀ (s : TypeSet) (v : Value),
    s.noteValue keyOf v = (grew s (s.addValue keyOf v), s.addValue keyOf v)
  grew_iff : ∀ (s : TypeSet) (v : Value), v ≠ .magic .optimizedOut →
    (grew s (s.addValue keyOf v) = true ↔ s.hasValue keyOf v = false)
  covered : ∀ (s : TypeSet) (v : Value), v ≠ .magic .optimizedOut →
    (s.addValue keyOf v).hasValue keyOf v = true
  /-- What is covered stays so, whatever is added. -/
  keeps : ∀ (s : TypeSet) (additions : List Addition) (v : Value),
    s.hasValue keyOf v = true → (s.addAll keyOf additions).hasValue keyOf v = true
  /-- No more keys are stored than are told apart, each once, and none where any object is accepted. -/
  bounded : ∀ additions : List Addition, (empty.addAll keyOf additions).Bounded
  boundedUnknown : ∀ additions : List Addition, (unknown.addAll keyOf additions).Bounded

/-- In whatever order and how often values are added, the same ones are covered in the end. An addition
reports a change just if the value was not covered, after it the value is, and nothing that was covered is
lost. -/
theorem coverage_independent_of_order (keyOf : ObjectId → ObjectKey) : CoverageLaws keyOf where
  sameMembers vs ws hmem v := by
    rw [Bool.eq_iff_iff, hasValue_addValues_empty_iff, hasValue_addValues_empty_iff]
    exact covers_congr hmem v
  covers_iff _ _ := hasValue_addValues_empty_iff
  answer s v := noteValue_eq s keyOf v
  grew_iff _ _ hv := grew_addValue_iff hv
  covered _ _ hv := hasValue_addValue hv
  keeps s additions _ hv := (widens_addAll s keyOf additions).hasValue hv
  bounded := empty_bounded.addAll keyOf
  boundedUnknown := unknown_bounded.addAll keyOf

/-- Objects of nine groups, one more than are told apart. -/
def nineObjects : List Value := (List.range 9).map .object

/-- From either end, and with the first of them seen again, they widen the set to every object. -/
theorem nine_groups_cover_every_object :
    (∀ v, v ∈ nineObjects ↔ v ∈ nineObjects.reverse ++ [.object 8]) ∧
      (empty.addValues .group (nineObjects.reverse ++ [.object 8])).hasValue .group (.object 20) = true ∧
      grew (empty.addValues .group nineObjects.tail)
        ((empty.addValues .group nineObjects.tail).addValue .group (.object 0)) = true ∧
      ((empty.addValues .group nineObjects).addAll .group [.type .null]).hasValue .group
        (.object 20) = true := by
  have laws := coverage_independent_of_order .group
  have hmem : ∀ v, v ∈ nineObjects ↔ v ∈ nineObjects.reverse ++ [.object 8] := by
    intro v
    simp only [List.mem_append, List.mem_reverse, List.mem_singleton]
    exact ⟨.inl, fun h => h.elim id fun heq => heq ▸ by simp [nineObjects]⟩
  have hall : (empty.addValues .group nineObjects).hasValue .group (.object 20) = true := by decide
  refine ⟨hmem, (laws.sameMembers _ _ hmem _).symm.trans hall, ?_, laws.keeps _ [.type .null] _ hall⟩
  exact (laws.grew_iff _ (.object 0) nofun).2 (by decide)

end TypeSet

end InlineCache
