import InlineCache.Proofs.Heap.NamedWrite
import InlineCache.Proofs.Stub.Sound

namespace InlineCache

/-- The stub of a recipe accepts operands, whatever its code is. -/
def Recipe.Accepts (recipe : Recipe) (h : Heap) (ops : Operands) : Prop :=
  ∀ code, Guard.holds h recipe.signature (recipe.toStub code) ops = true

namespace Specialize

variable {h : Heap} {recipe : Recipe}

private theorem accepts_toBool {v : Value} (hrecipe : (toBool v).recipe? = some recipe) :
    recipe.Accepts h (.unary v) := by
  unfold toBool at hrecipe
  split at hrecipe
  · cases hrecipe
  · next hmagic =>
    cases hrecipe
    simp [Recipe.Accepts, Recipe.specialized, Guard.holds, Guard.hasType, Operands.unary?, hmagic]

private theorem accepts_typeOf {v : Value} (hrecipe : (typeOf v).recipe? = some recipe) :
    recipe.Accepts h (.unary v) := by
  unfold typeOf at hrecipe
  split at hrecipe
  · next hprimitive =>
    cases hrecipe
    have htype : v.type.isPrimitive = true := hprimitive
    simp [Recipe.Accepts, Recipe.specialized, Guard.holds, Guard.hasType, Operands.unary?, htype]
  · cases hrecipe

private theorem accepts_unaryArith {op : UnaryOp} {v : Value}
    (hrecipe : (unaryArith op v).recipe? = some recipe) : recipe.Accepts h (.unary v) := by
  cases v with
  | int32 i | double d =>
    cases hrecipe
    exact fun _ => rfl
  | _ => cases hrecipe

private theorem type_eq_int32 {v : Value} (htype : v.type = .int32) : ∃ i, v = .int32 i := by
  cases v with
  | int32 i => exact ⟨i, rfl⟩
  | _ => cases htype

private theorem type_eq_string {v : Value} (htype : v.type = .string) : ∃ s, v = .string s := by
  cases v with
  | string s => exact ⟨s, rfl⟩
  | _ => cases htype

private theorem int32Pair?_of_int32s {a b : Value} (hints : a.type = .int32 ∧ b.type = .int32) :
    (Guard.int32Pair? (.binary a b)).isSome = true := by
  obtain ⟨i, rfl⟩ := type_eq_int32 hints.1
  obtain ⟨j, rfl⟩ := type_eq_int32 hints.2
  rfl

/-- Two numbers are accepted as two numbers, of whatever kinds. -/
theorem numberPair?_of_numbers {a b : Value} (hnumbers : (a.isNumber && b.isNumber) = true) :
    (Guard.numberPair? (.binary a b)).isSome = true := by
  obtain ⟨ha, hb⟩ := Bool.and_eq_true_iff.1 hnumbers
  obtain ⟨x, hx⟩ := Option.isSome_iff_exists.1 ha
  obtain ⟨y, hy⟩ := Option.isSome_iff_exists.1 hb
  simp only [Guard.numberPair?, hx, hy, Option.bind_some, Option.map_some, Option.isSome_some]

private theorem accepts_binaryArith {op : BinaryOp} {lhs rhs : Value}
    (hrecipe : (binaryArith op lhs rhs).recipe? = some recipe) :
    recipe.Accepts h (.binary lhs rhs) := by
  unfold binaryArith at hrecipe
  split at hrecipe
  · next hints =>
    cases hrecipe
    exact fun _ => int32Pair?_of_int32s hints
  · split at hrecipe
    · next hnumbers =>
      cases hrecipe
      exact fun _ => numberPair?_of_numbers hnumbers
    · split at hrecipe
      · next hconcat =>
        cases hrecipe
        exact fun _ => hconcat.2
      · cases hrecipe

private theorem accepts_compare {op : CompareOp} {lhs rhs : Value}
    (hrecipe : (compare op lhs rhs).recipe? = some recipe) : recipe.Accepts h (.binary lhs rhs) := by
  unfold compare at hrecipe
  split at hrecipe
  · next hints =>
    cases hrecipe
    exact fun _ => int32Pair?_of_int32s hints
  · split at hrecipe
    · next hnumbers =>
      cases hrecipe
      exact fun _ => numberPair?_of_numbers hnumbers
    · split at hrecipe
      · next hstrings =>
        cases hrecipe
        obtain ⟨s, rfl⟩ := type_eq_string hstrings.1
        obtain ⟨t, rfl⟩ := type_eq_string hstrings.2
        exact fun _ => rfl
      · split at hrecipe
        · next hnothing =>
          cases hrecipe
          intro code
          rw [Bool.and_assoc] at hnothing
          exact hnothing
        · cases hrecipe

private theorem accepts_getProp {target : Value} {key : PropertyKey}
    (hrecipe : (getProp h target key).recipe? = some recipe) : recipe.Accepts h (.unary target) := by
  cases target with
  | string s =>
    simp only [getProp] at hrecipe
    split at hrecipe
    · cases hrecipe
      exact fun _ => rfl
    · cases hrecipe
  | object id =>
    simp only [getProp] at hrecipe
    split at hrecipe
    · cases hrecipe
    · split at hrecipe
      · next hlength =>
        cases hrecipe
        intro code
        simp [Recipe.specialized, Guard.holds, Guard.isArray, hlength.1]
      · split at hrecipe
        · cases hrecipe
        · split at hrecipe
          · cases hrecipe
            intro code
            simp [Recipe.specialized, Recipe.toStub, Guard.holds, Guard.readSlot]
          · split at hrecipe
            · cases hrecipe
            · next harray =>
              cases hrecipe
              intro code
              simp [Recipe.specialized, Recipe.toStub, Guard.holds, Guard.readMissing, harray]
  | _ => cases hrecipe

private theorem accepts_setProp {target v : Value} {key : PropertyKey}
    (hrecipe : (setProp h target key).recipe? = some recipe) : recipe.Accepts h (.binary target v) := by
  cases target with
  | object id =>
    simp only [setProp] at hrecipe
    split at hrecipe
    · cases hrecipe
    · split at hrecipe
      · cases hrecipe
      · split at hrecipe
        · cases hrecipe
          intro code
          simp [Recipe.specialized, Recipe.toStub, Guard.holds, Guard.writeSlot]
        · split at hrecipe <;> cases hrecipe
  | _ => cases hrecipe

private theorem accepts_getElem {target index : Value}
    (hrecipe : (getElem h target index).recipe? = some recipe) :
    recipe.Accepts h (.binary target index) := by
  unfold getElem at hrecipe
  split at hrecipe
  · next id n hdense =>
    split at hrecipe
    · next hlt =>
      cases hrecipe
      intro code
      simp [Recipe.specialized, Guard.holds, Guard.elementRead?, hdense, hlt]
    · cases hrecipe
  · cases hrecipe

private theorem accepts_setElem {target index v : Value}
    (hrecipe : (setElem h target index).recipe? = some recipe) :
    recipe.Accepts h (.ternary target index v) := by
  unfold setElem at hrecipe
  split at hrecipe
  · next id n hdense =>
    split at hrecipe
    · cases hrecipe
    · split at hrecipe
      · next hlt =>
        cases hrecipe
        intro code
        simp [Recipe.specialized, Guard.holds, Guard.elementWrite?, hdense, hlt]
      · split at hrecipe <;> cases hrecipe
  · cases hrecipe

/-- The test for a named property of an object that is no array. -/
theorem accepts_hasNamed {id : ObjectId} {name : PropertyKey} (harray : (h.object id).cls ≠ .array)
    (hrecipe : (hasNamed h id name).recipe? = some recipe) :
    recipe.Accepts h (.binary (.string name) (.object id)) := by
  cases hrecipe
  intro code
  simp [Recipe.specialized, Recipe.toStub, Guard.holds, Guard.namedKey, harray]

private theorem accepts_hasProp {key target : Value}
    (hrecipe : (hasProp h key target).recipe? = some recipe) :
    recipe.Accepts h (.binary key target) := by
  unfold hasProp at hrecipe
  split at hrecipe
  · split at hrecipe
    · cases hrecipe
    · next harray => exact accepts_hasNamed harray hrecipe
  · cases hrecipe

private theorem accepts_hasOwn {key target : Value}
    (hrecipe : (hasOwn h key target).recipe? = some recipe) :
    recipe.Accepts h (.binary key target) := by
  unfold hasOwn at hrecipe
  split at hrecipe
  · split at hrecipe
    · next hdense =>
      cases hrecipe
      intro code
      simp [Recipe.specialized, Guard.holds, Guard.elementKey, denseTarget?, hdense.1, hdense.2]
    · cases hrecipe
  · split at hrecipe
    · cases hrecipe
    · next harray => exact accepts_hasNamed harray hrecipe
  · cases hrecipe

private theorem accepts_instanceOf {v ctor : Value}
    (hrecipe : (instanceOf h ctor).recipe? = some recipe) : recipe.Accepts h (.binary v ctor) := by
  cases ctor with
  | object id =>
    simp only [instanceOf] at hrecipe
    split at hrecipe
    · split at hrecipe
      · split at hrecipe
        · cases hrecipe
          intro code
          simp [Recipe.specialized, Recipe.toStub, Guard.holds, Guard.constructor]
        · cases hrecipe
      · cases hrecipe
    · cases hrecipe
  | _ => cases hrecipe

private theorem accepts_call {callee this : Value} {args : List Value}
    (hrecipe : (call h callee).recipe? = some recipe) : recipe.Accepts h (.call callee this args) := by
  cases callee with
  | object id =>
    simp only [call] at hrecipe
    split at hrecipe
    · cases hrecipe
    · split at hrecipe
      · cases hrecipe
      · cases hrecipe
        intro code
        simp [Recipe.specialized, Recipe.toStub, Guard.holds, Guard.callee]
  | _ => cases hrecipe

private theorem accepts_getIterator {v : Value} (hrecipe : (getIterator h v).recipe? = some recipe) :
    recipe.Accepts h (.unary v) := by
  cases v with
  | object id =>
    simp only [getIterator] at hrecipe
    split at hrecipe
    · next harray =>
      cases hrecipe
      intro code
      simp [Recipe.specialized, Guard.holds, Guard.isArray, harray]
    · cases hrecipe
  | _ => cases hrecipe

end Specialize

namespace Request

variable {h h₀ h' : Heap} {recipe : Recipe} {r : Request}

/-- A stub that is decided on accepts the operands that it was decided for. -/
theorem accepts_decision (hrecipe : (r.decision h).recipe? = some recipe) :
    recipe.Accepts h r.operands := by
  cases r with
  | toBool v => exact Specialize.accepts_toBool hrecipe
  | unaryArith op v => exact Specialize.accepts_unaryArith hrecipe
  | binaryArith op lhs rhs => exact Specialize.accepts_binaryArith hrecipe
  | compare op lhs rhs => exact Specialize.accepts_compare hrecipe
  | getProp target key => exact Specialize.accepts_getProp hrecipe
  | setProp target key v => exact Specialize.accepts_setProp hrecipe
  | getElem target index => exact Specialize.accepts_getElem hrecipe
  | setElem target index v => exact Specialize.accepts_setElem hrecipe
  | hasProp key target => exact Specialize.accepts_hasProp hrecipe
  | hasOwn key target => exact Specialize.accepts_hasOwn hrecipe
  | instanceOf v ctor => exact Specialize.accepts_instanceOf hrecipe
  | call callee this args => exact Specialize.accepts_call hrecipe
  | typeOf v => exact Specialize.accepts_typeOf hrecipe
  | getIterator v => exact Specialize.accepts_getIterator hrecipe

/-- The write of an element is looked at twice only if it is the one just past the end of an array. -/
theorem setElem_deferred {target index : Value} (hdeferred : Specialize.setElem h target index = .deferred) :
    ∃ id n, Specialize.denseTarget? h target index = some (id, n) ∧ n = (h.object id).elements.size := by
  unfold Specialize.setElem at hdeferred
  split at hdeferred
  · next id n hdense =>
    split at hdeferred
    · cases hdeferred
    · split at hdeferred
      · cases hdeferred
      · split at hdeferred
        · next hend => exact ⟨id, n, hdense, hend⟩
        · cases hdeferred
  · cases hdeferred

/-- Only writes are looked at twice. -/
theorem write_of_deferred (hdeferred : r.decision h = .deferred) :
    (∃ id key v, r = .setProp (.object id) key v) ∨ ∃ id index v, r = .setElem (.object id) index v := by
  cases r with
  | setProp target key v =>
    cases target with
    | object id => exact .inl ⟨id, key, v, rfl⟩
    | _ => cases hdeferred
  | setElem target index v =>
    obtain ⟨id, n, hdense, -⟩ := setElem_deferred hdeferred
    obtain ⟨i, rfl, -⟩ := Guard.denseTarget?_eq_some hdense
    exact .inr ⟨id, index, v, rfl⟩
  | _ =>
    simp only [decision, Specialize.toBool, Specialize.unaryArith, Specialize.binaryArith,
      Specialize.compare, Specialize.getProp, Specialize.getElem, Specialize.hasProp, Specialize.hasOwn,
      Specialize.instanceOf, Specialize.call, Specialize.typeOf, Specialize.getIterator] at hdeferred
    repeat' split at hdeferred
    all_goals cases hdeferred

/-- What is left alone by the write of a property of an object that is no array. -/
theorem object_setProperty {id : ObjectId} {key : PropertyKey} {v : Value}
    (harray : (h.object id).cls ≠ .array)
    (hset : Operation.setProperty h (.object id) key v = (.ok (), h')) :
    ∃ slots shape, h'.object id = { h.object id with slots := slots, shape := shape } := by
  have hnamed : (h.object id).cls.Named key := fun heq => absurd heq harray
  have heq : h' = (h.setNamed id key v).2 := by
    have hwrite := (Operation.setObjectProperty_of_named (v := v) hnamed).symm.trans hset
    exact (congrArg Prod.snd hwrite).symm
  rw [heq]
  exact Heap.object_setNamed h id key v

/-- A stub that a second look decides on accepts the operands on the heap before the operation ran. The
operation leaves alone what the guard of such a stub looks at. -/
theorem accepts_secondLook (hseen : h.seen = h₀.seen) (hdeferred : r.decision h₀ = .deferred) {v : Value}
    (houtcome : r.outcome? h = some (.ok (v, h')))
    (hrecipe : (r.secondLook h h').recipe? = some recipe) : recipe.Accepts h₀ r.operands := by
  rcases write_of_deferred hdeferred with ⟨id, key, v', rfl⟩ | ⟨id, index, v', rfl⟩
  · obtain ⟨harray, -, hextensible⟩ := setProp_deferred hdeferred
    have hobject : h.object id = h₀.object id := Heap.object_eq_of_seen hseen id
    obtain ⟨slots, shape, hobject'⟩ := object_setProperty (by rw [hobject]; exact harray)
      (setProperty_of_outcome houtcome)
    simp only [secondLook, Specialize.addSlot] at hrecipe
    split at hrecipe
    · cases hrecipe
      intro code
      simp [Recipe.specialized, Recipe.toStub, operands, Guard.holds, Guard.addSlot, hobject', hobject,
        hextensible]
    · cases hrecipe
  · obtain ⟨o, n, hdense, hend⟩ := setElem_deferred hdeferred
    simp only [secondLook] at hrecipe
    unfold Specialize.setElemAppend at hrecipe
    split at hrecipe
    · split at hrecipe
      · cases hrecipe
        intro code
        simp [Recipe.specialized, operands, Guard.holds, Guard.elementWrite?, hdense, hend]
      · cases hrecipe
    · cases hrecipe

/-- A write that is looked at twice succeeds. -/
theorem succeeds_of_deferred (hseen : h.seen = h₀.seen) (hdeferred : r.decision h₀ = .deferred) :
    (∃ write, r.write? h = .ok write) ∧ ∃ v h', r.outcome? h = some (.ok (v, h')) := by
  rcases write_of_deferred hdeferred with ⟨id, key, v', rfl⟩ | ⟨id, index, v', rfl⟩
  · obtain ⟨harray, -, -⟩ := setProp_deferred hdeferred
    rw [← Heap.object_eq_of_seen hseen] at harray
    have hnamed : (h.object id).cls.Named key := fun heq => absurd heq harray
    refine ⟨⟨_, rfl⟩, v', Operation.setNamedProperty h id key v', ?_⟩
    simp only [outcome?, Operation.setProperty, Operation.setObjectProperty_of_named hnamed,
      Operation.giving, Operation.settled, Except.map]
  · obtain ⟨o, n, hdense, -⟩ := setElem_deferred hdeferred
    obtain ⟨i, heq, rfl, harray, hi, -⟩ := Guard.denseTarget?_eq_some hdense
    cases heq
    rw [← Heap.object_eq_of_seen hseen] at harray
    refine ⟨⟨none, by simp only [write?, harray, if_true]⟩, v',
      Operation.setArrayElement h id i.toInt.toNat v', ?_⟩
    simp only [outcome?, Operation.setElement, StubFits.arrayElement?_eq_some harray hi,
      Operation.giving, Operation.settled, Except.map]

end Request

end InlineCache
