import InlineCache.Proofs.Number.Whole
import InlineCache.Proofs.Stub.Write
import InlineCache.Proofs.Text.Index

namespace InlineCache

variable {σ : Type} {w : World σ} {signature : Signature} {stub : Stub}

namespace Guard

private theorem int32?_isSome {v : Value} (h : (int32? (.unary v)).isSome = true) :
    ∃ i, v = .int32 i := by
  cases v with
  | int32 i => exact ⟨i, rfl⟩
  | _ => cases h

private theorem int32Pair?_isSome {a b : Value} (h : (int32Pair? (.binary a b)).isSome = true) :
    ∃ i j, a = .int32 i ∧ b = .int32 j := by
  cases a <;> cases b <;> cases h
  exact ⟨_, _, rfl, rfl⟩

private theorem numberPair?_isSome {a b : Value} (h : (numberPair? (.binary a b)).isSome = true) :
    a.isNumber = true ∧ b.isNumber = true := by
  cases a <;> cases b <;> cases h <;> exact ⟨rfl, rfl⟩

private theorem stringPair?_isSome {a b : Value} (h : (stringPair? (.binary a b)).isSome = true) :
    ∃ s t, a = .string s ∧ b = .string t := by
  cases a <;> cases b <;> cases h
  exact ⟨_, _, rfl, rfl⟩

@[simp] theorem object?_object (id : ObjectId) : object? (.unary (.object id)) = some id := rfl

/-- Only an object is an array. -/
theorem isArray_cases {h : Heap} {v : Value} (harray : isArray h (.unary v) = true) :
    ∃ id, v = .object id ∧ (h.object id).cls = .array := by
  cases v with
  | object id => exact ⟨id, rfl, by simpa [isArray] using harray⟩
  | _ => cases harray

theorem denseTarget?_eq_some {h : Heap} {target index : Value} {id : ObjectId} {n : Nat}
    (hdense : Specialize.denseTarget? h target index = some (id, n)) :
    ∃ i : Int32, target = .object id ∧ index = .int32 i ∧ (h.object id).cls = .array ∧ 0 ≤ i.toInt ∧
      n = i.toInt.toNat := by
  unfold Specialize.denseTarget? at hdense
  split at hdense
  · next id' i =>
    split at hdense
    · next hif =>
      cases hdense
      exact ⟨i, rfl, rfl, hif.1, hif.2, rfl⟩
    · cases hdense
  · cases hdense

/-- Guards look at objects, and at nothing of their groups but which they are. -/
theorem holds_seen (h : Heap) (signature : Signature) (stub : Stub) (ops : Operands) :
    holds h.seen signature stub ops = holds h signature stub ops := by
  cases signature <;> rfl

end Guard

namespace Operation

/-- A number is an integer, of which arithmetic and comparisons take the double that it is, or a
double. -/
theorem asNumber?_cases {v : Value} {x : Double} (hv : v.asNumber? = some x) :
    (∃ i, v = .int32 i ∧ x = Value.doubleOfInt32 i) ∨ v = .double x := by
  cases v with
  | int32 i => exact .inl ⟨i, rfl, (Option.some.inj hv).symm⟩
  | double d => exact .inr (congrArg Value.double (Option.some.inj hv))
  | _ => cases hv

theorem binaryArith_of_numbers (h : Heap) (op : BinaryOp) {a b : Value} {x y : Double}
    (ha : a.asNumber? = some x) (hb : b.asNumber? = some y) :
    binaryArith h op a b = .ok (doubleArith op x y) := by
  have hplain : ¬ (op = .add ∧ (a.type = .string ∨ b.type = .string)) := by
    rcases asNumber?_cases ha with ⟨i, rfl, -⟩ | rfl <;>
      rcases asNumber?_cases hb with ⟨j, rfl, -⟩ | rfl <;> simp [Value.type]
  unfold binaryArith
  rw [if_neg hplain]
  rcases asNumber?_cases ha with ⟨i, rfl, hx⟩ | rfl <;>
    rcases asNumber?_cases hb with ⟨j, rfl, hy⟩ | rfl
  · rw [hx, hy]
    exact congrArg Except.ok (int32Arith_eq op i j)
  · rw [hx]
    rfl
  · rw [hy]
    rfl
  · rfl

theorem unaryArith_of_number (op : UnaryOp) {v : Value} {x : Double} (hv : v.asNumber? = some x) :
    unaryArith op v = .ok (doubleUnary op x) := by
  rcases asNumber?_cases hv with ⟨i, rfl, hx⟩ | rfl
  · rw [hx]
    exact congrArg Except.ok (int32Unary_eq op i)
  · rfl

private theorem compare_of_numbers (op : CompareOp) {a b : Value} {x y : Double}
    (ha : a.asNumber? = some x) (hb : b.asNumber? = some y) :
    compare op a b = .ok (compareNumbers op x y) := by
  rcases asNumber?_cases ha with ⟨i, rfl, hx⟩ | rfl <;>
    rcases asNumber?_cases hb with ⟨j, rfl, hy⟩ | rfl
  · rw [hx, hy]
    cases op <;> rfl
  · rw [hx]
    cases op <;> rfl
  · rw [hy]
    cases op <;> rfl
  · cases op <;> rfl

private theorem compare_of_strings (op : CompareOp) (s t : String) :
    compare op (.string s) (.string t) = .ok (compareStrings op s t) := by
  cases op <;> rfl

end Operation

namespace StubFits

variable {payload : Payload}

theorem run_unaryArith (natives : Natives σ) {op : UnaryOp} {v : Value}
    (hfits : StubFits True w.heap (.unaryArith op) signature payload)
    (hguard : Guard.holds w.heap signature stub (.unary v) = true) :
    Handler.run natives signature stub (.unary v) w = (Request.unaryArith op v).perform natives w := by
  cases hfits with
  | unaryInt32 =>
    obtain ⟨i, rfl⟩ := Guard.int32?_isSome hguard
    rfl
  | unaryDouble =>
    obtain ⟨x, hx⟩ := Option.isSome_iff_exists.1 (hguard : v.isNumber = true)
    simp only [Handler.run, Operands.unary?, Option.bind_some, hx, Option.map_some, Handler.answer,
      Request.perform, Operation.unaryArith_of_number op hx]

theorem run_binaryArith (natives : Natives σ) {op : BinaryOp} {lhs rhs : Value}
    (hfits : StubFits True w.heap (.binaryArith op) signature payload)
    (hguard : Guard.holds w.heap signature stub (.binary lhs rhs) = true) :
    Handler.run natives signature stub (.binary lhs rhs) w =
      (Request.binaryArith op lhs rhs).perform natives w := by
  cases hfits with
  | binaryInt32 =>
    obtain ⟨i, j, rfl, rfl⟩ := Guard.int32Pair?_isSome hguard
    have hperform : Operation.binaryArith w.heap op (.int32 i) (.int32 j) =
        .ok (Operation.int32Arith op i j) := by
      unfold Operation.binaryArith
      rw [if_neg (by simp [Value.type])]
    simp only [Handler.run, Guard.int32Pair?, Option.map_some, Handler.answer, Request.perform, hperform]
  | binaryDouble =>
    obtain ⟨hlhs, hrhs⟩ := Guard.numberPair?_isSome hguard
    obtain ⟨x, hx⟩ := Option.isSome_iff_exists.1 hlhs
    obtain ⟨y, hy⟩ := Option.isSome_iff_exists.1 hrhs
    simp only [Handler.run, Guard.numberPair?, hx, hy, Option.bind_some, Option.map_some,
      Handler.answer, Request.perform, Operation.binaryArith_of_numbers w.heap op hx hy]
  | concat =>
    have hstring : lhs.type = .string ∨ rhs.type = .string := by
      simp only [Guard.holds, Guard.concat, Operands.binary?, Option.any_some, Specialize.isConcatPair,
        Bool.and_eq_true, Bool.or_eq_true, beq_iff_eq] at hguard
      exact hguard.1.1
    have hperform : Operation.binaryArith w.heap .add lhs rhs = Operation.concat w.heap lhs rhs := by
      unfold Operation.binaryArith
      rw [if_pos ⟨rfl, hstring⟩]
    simp only [Handler.run, Handler.ofBinary, Request.perform, hperform]

private theorem run_compare (natives : Natives σ) {op : CompareOp} {lhs rhs : Value}
    (hfits : StubFits True w.heap (.compare op) signature payload)
    (hguard : Guard.holds w.heap signature stub (.binary lhs rhs) = true) :
    Handler.run natives signature stub (.binary lhs rhs) w =
      (Request.compare op lhs rhs).perform natives w := by
  cases hfits with
  | compareInt32 =>
    obtain ⟨i, j, rfl, rfl⟩ := Guard.int32Pair?_isSome hguard
    have hperform := Operation.compare_of_numbers op (rfl : (Value.int32 i).asNumber? = _)
      (rfl : (Value.int32 j).asNumber? = _)
    simp only [Handler.run, Guard.int32Pair?, Option.map_some, Handler.answer, Request.perform, hperform,
      Except.map]
  | compareDouble =>
    obtain ⟨hlhs, hrhs⟩ := Guard.numberPair?_isSome hguard
    obtain ⟨x, hx⟩ := Option.isSome_iff_exists.1 hlhs
    obtain ⟨y, hy⟩ := Option.isSome_iff_exists.1 hrhs
    simp only [Handler.run, Guard.numberPair?, hx, hy, Option.bind_some, Option.map_some,
      Handler.answer, Request.perform, Operation.compare_of_numbers op hx hy, Except.map]
  | compareString =>
    obtain ⟨s, t, rfl, rfl⟩ := Guard.stringPair?_isSome hguard
    simp only [Handler.run, Guard.stringPair?, Option.map_some, Handler.answer, Request.perform,
      Operation.compare_of_strings op s t, Except.map]
  | compareNothing => rfl

/-- A property that is read from its slot, or is missing, is a named one. -/
theorem objectProperty_of_named {h : Heap} {id : ObjectId} {key : PropertyKey}
    (hnamed : (h.object id).cls.Named key) :
    Operation.objectProperty h id key = Operation.namedProperty h id key := by
  unfold Operation.objectProperty
  split
  · next harray =>
    obtain ⟨hlength, hindex⟩ := hnamed harray
    simp only [if_neg hlength, hindex]
  · rfl

private theorem run_getProp (natives : Natives σ) {target : Value} {key : PropertyKey}
    (hfits : StubFits True w.heap (.getProp key) signature stub.payload)
    (hguard : Guard.holds w.heap signature stub (.unary target) = true) :
    Handler.run natives signature stub (.unary target) w =
      (Request.getProp target key).perform natives w := by
  generalize hpayload : stub.payload = payload at hfits
  cases hfits with
  | @getPropSlot _ cls group shape offset hnamed hle hoffset =>
    simp only [Guard.holds, hpayload, Guard.readSlot] at hguard
    cases target with
    | object id =>
      simp only [Guard.object?_object, Bool.and_eq_true, beq_iff_eq] at hguard
      obtain ⟨hcls, hshape⟩ := hguard
      have hget : w.heap.getOwn? id key = some ((w.heap.object id).slot offset) := by
        rw [Heap.getOwn?, Heap.shapeOf, hshape, hoffset, Option.map_some]
      have hproperty : Operation.objectProperty w.heap id key = (w.heap.object id).slot offset := by
        rw [objectProperty_of_named (by rw [hcls]; exact hnamed), Operation.namedProperty, hget,
          Option.getD_some]
      simp only [Handler.run, hpayload, Handler.readSlot, Guard.object?_object, Request.perform,
        Operation.getProperty, hproperty]
    | _ => cases hguard
  | @getPropMissing _ cls shape hle hnone =>
    simp only [Guard.holds, hpayload, Guard.readMissing] at hguard
    cases target with
    | object id =>
      simp only [Guard.object?_object, Bool.and_eq_true, bne_iff_ne, beq_iff_eq] at hguard
      obtain ⟨⟨harray, hcls⟩, hshape⟩ := hguard
      have hnamed : (w.heap.object id).cls.Named key := fun heq => absurd (hcls.symm.trans heq) harray
      have hget : w.heap.getOwn? id key = none := by
        rw [Heap.getOwn?, Heap.shapeOf, hshape, hnone, Option.map_none]
      simp only [Handler.run, Request.perform, Operation.getProperty, objectProperty_of_named hnamed,
        Operation.namedProperty, hget, Option.getD_none]
    | _ => cases hguard
  | getPropArrayLength =>
    obtain ⟨id, rfl, harray⟩ := Guard.isArray_cases hguard
    simp only [Handler.run, Guard.object?_object, Option.map_some, Handler.answer, Request.perform,
      Operation.getProperty, Operation.objectProperty, harray, if_true]
  | getPropStringLength =>
    cases target with
    | string s => rfl
    | _ => cases hguard

/-- With the class of its group, an object is no array that a stub for a write accepts. -/
theorem run_setProp (hw : w.heap.WellFormed True) (natives : Natives σ) {target v : Value}
    {key : PropertyKey} (hfits : StubFits True w.heap (.setProp key) signature stub.payload)
    (hguard : Guard.holds w.heap signature stub (.binary target v) = true) :
    Handler.run natives signature stub (.binary target v) w =
      (Request.setProp target key v).perform natives w := by
  obtain ⟨id, rfl, hcls⟩ : ∃ id, target = .object id ∧ (w.heap.object id).cls ≠ .array := by
    have hgroup {id : ObjectId} {group : GroupId} (hgroup : (w.heap.object id).group = group)
        (hcls : True → (w.heap.group group).cls ≠ .array) : (w.heap.object id).cls ≠ .array := by
      rw [(hw.object id).cls_eq trivial, hgroup]
      exact hcls trivial
    generalize hpayload : stub.payload = payload at hfits
    cases hfits with
    | setPropSlot _ hcls _ _ =>
      simp only [Guard.holds, hpayload, Guard.writeSlot] at hguard
      cases target with
      | object id =>
        simp only [Bool.and_eq_true, beq_iff_eq] at hguard
        exact ⟨id, rfl, hgroup hguard.1 hcls⟩
      | _ => cases hguard
    | addSlot _ hcls _ _ _ =>
      simp only [Guard.holds, hpayload, Guard.addSlot] at hguard
      cases target with
      | object id =>
        simp only [Bool.and_eq_true, beq_iff_eq] at hguard
        exact ⟨id, rfl, hgroup hguard.1.1 hcls⟩
      | _ => cases hguard
  exact hfits.run_write_of_named natives hguard fun harray => absurd harray hcls

/-- The element of an array that an integer names. -/
theorem arrayElement?_eq_some {h : Heap} {id : ObjectId} {i : Int32}
    (harray : (h.object id).cls = .array) (hi : 0 ≤ i.toInt) :
    Operation.arrayElement? h (.object id) (.int32 i) = some (id, i.toInt.toNat) := by
  simp only [Operation.arrayElement?, Value.asNumber?, harray, if_true,
    Operation.indexOfNumber?_doubleOfInt32 hi, Option.map_some]

private theorem run_getElem (natives : Natives σ) {target index : Value}
    (hfits : StubFits True w.heap .getElem signature payload)
    (hguard : Guard.holds w.heap signature stub (.binary target index) = true) :
    Handler.run natives signature stub (.binary target index) w =
      (Request.getElem target index).perform natives w := by
  cases hfits with
  | getElemDense =>
    obtain ⟨⟨id, n⟩, hdense, -⟩ := (Option.any_eq_true _ _).1 hguard
    obtain ⟨i, rfl, rfl, harray, hi, hn⟩ := Guard.denseTarget?_eq_some hdense
    simp only [Handler.run, Handler.readElement?, if_pos hi, Handler.answer, Request.perform,
      Operation.getElement, arrayElement?_eq_some harray hi]

private theorem run_setElem (natives : Natives σ) {target index v : Value}
    (hfits : StubFits True w.heap .setElem signature payload)
    (hguard : Guard.holds w.heap signature stub (.ternary target index v) = true) :
    Handler.run natives signature stub (.ternary target index v) w =
      (Request.setElem target index v).perform natives w := by
  have hwrite {id : ObjectId} {i : Int32} (harray : (w.heap.object id).cls = .array)
      (hi : 0 ≤ i.toInt) : Handler.writeElement w signature (.ternary (.object id) (.int32 i) v) =
        (Request.setElem (.object id) (.int32 i) v).perform natives w := by
    simp only [Handler.writeElement, if_pos hi, Request.perform, World.onHeap, Operation.setElement,
      arrayElement?_eq_some harray hi]
    rfl
  cases hfits with
  | setElemDense =>
    obtain ⟨⟨id, n⟩, hdense, -⟩ := (Option.any_eq_true _ _).1 hguard
    obtain ⟨i, rfl, rfl, harray, hi, -⟩ := Guard.denseTarget?_eq_some hdense
    exact hwrite harray hi
  | setElemAppend =>
    obtain ⟨⟨id, n⟩, hdense, -⟩ := (Option.any_eq_true _ _).1 hguard
    obtain ⟨i, rfl, rfl, harray, hi, -⟩ := Guard.denseTarget?_eq_some hdense
    exact hwrite harray hi

theorem toPropertyKey_int32 (h : Heap) {i : Int32} (hi : 0 ≤ i.toInt) :
    Operation.toPropertyKey h (.int32 i) = .ok (Nat.repr i.toInt.toNat) := by
  have htext : toString i.toInt = Nat.repr i.toInt.toNat := by
    obtain ⟨n, hn⟩ := Int.eq_ofNat_of_zero_le hi
    rw [hn]
    rfl
  simp [Operation.toPropertyKey, Operation.toText, Operation.textWithin, htext]

private theorem namedKey_cases {h : Heap} {key : PropertyKey} {shape : ShapeId} {present : Bool}
    {a b : Value} (hguard : Guard.namedKey h (.hasProp shape key present) (.binary a b) = true)
    (hpresent : ((h.shape shape).offsetOf? key).isSome = present) :
    ∃ id, a = .string key ∧ b = .object id ∧ Operation.objectHasOwn h id key = present := by
  unfold Guard.namedKey at hguard
  split at hguard
  · next name id heq hops =>
    cases heq
    cases hops
    simp only [Bool.and_eq_true, beq_iff_eq, bne_iff_ne] at hguard
    obtain ⟨⟨rfl, harray⟩, hshape⟩ := hguard
    refine ⟨id, rfl, rfl, ?_⟩
    rw [Operation.objectHasOwn_of_not_array harray, Heap.hasOwnNamed, Heap.shapeOf, hshape, hpresent]
  · cases hguard

private theorem run_hasProp (natives : Natives σ) {key target : Value}
    (hfits : StubFits True w.heap .hasProp signature stub.payload)
    (hguard : Guard.holds w.heap signature stub (.binary key target) = true) :
    Handler.run natives signature stub (.binary key target) w =
      (Request.hasProp key target).perform natives w := by
  generalize hpayload : stub.payload = payload at hfits
  cases hfits with
  | hasPropSlot hle hpresent =>
    simp only [Guard.holds, hpayload] at hguard
    obtain ⟨id, rfl, rfl, hown⟩ := namedKey_cases hguard hpresent
    simp only [Handler.run, hpayload, Handler.hasOwnSlot, Request.perform, Operation.hasProperty,
      Operation.toPropertyKey_string, bind, Except.bind, hown]
    rfl

private theorem run_hasOwn (natives : Natives σ) {key target : Value}
    (hfits : StubFits True w.heap .hasOwn signature stub.payload)
    (hguard : Guard.holds w.heap signature stub (.binary key target) = true) :
    Handler.run natives signature stub (.binary key target) w =
      (Request.hasOwn key target).perform natives w := by
  generalize hpayload : stub.payload = payload at hfits
  cases hfits with
  | hasOwnSlot hle hpresent =>
    simp only [Guard.holds, hpayload] at hguard
    obtain ⟨id, rfl, rfl, hown⟩ := namedKey_cases hguard hpresent
    simp only [Handler.run, hpayload, Handler.hasOwnSlot, Request.perform, Operation.hasOwn,
      Operation.toPropertyKey_string, bind, Except.bind, hown]
    rfl
  | hasOwnElement =>
    obtain ⟨⟨id, n⟩, hdense⟩ := Option.isSome_iff_exists.1 hguard
    obtain ⟨i, rfl, rfl, harray, hi, hn⟩ := Guard.denseTarget?_eq_some hdense
    have hown : Operation.objectHasOwn w.heap id (Nat.repr i.toInt.toNat) =
        decide (0 ≤ i.toInt ∧ i.toInt < (w.heap.object id).elements.size) := by
      have hiff : i.toInt.toNat < (w.heap.object id).elements.size ↔
          0 ≤ i.toInt ∧ i.toInt < (w.heap.object id).elements.size := by omega
      have hindex : PropertyKey.arrayIndex? (Nat.repr i.toInt.toNat) = some i.toInt.toNat :=
        Text.arrayIndex?_repr (Operation.lt_indexLimit_of_int32 i)
      unfold Operation.objectHasOwn
      simp only [if_pos harray, Text.repr_ne_length, decide_false, Bool.false_or, hindex, hiff]
    simp only [Handler.run, Handler.hasElement?, Handler.answer, Request.perform, Operation.hasOwn,
      toPropertyKey_int32 _ hi, bind, Except.bind, hown]
    rfl

theorem run_instanceOf {classed : Prop} (natives : Natives σ) {v ctor : Value}
    (hfits : StubFits classed w.heap .instanceOf signature stub.payload)
    (hguard : Guard.holds w.heap signature stub (.binary v ctor) = true) :
    Handler.run natives signature stub (.binary v ctor) w =
      (Request.instanceOf v ctor).perform natives w := by
  generalize hpayload : stub.payload = payload at hfits
  cases hfits with
  | @instanceOfFunction function shape offset _ hcallable _ hoffset =>
    simp only [Guard.holds, hpayload, Guard.constructor] at hguard
    cases ctor with
    | object id =>
      simp only [Bool.and_eq_true, beq_iff_eq] at hguard
      obtain ⟨rfl, hshape⟩ := hguard
      have hget : w.heap.getOwn? id "prototype" = some ((w.heap.object id).slot offset) := by
        rw [Heap.getOwn?, Heap.shapeOf, hshape, hoffset, Option.map_some]
      have hfilter : (Value.object id).asObject?.filter (fun id => (w.heap.object id).isCallable) =
          some id := by
        simp [Value.asObject?, hcallable]
      simp only [Handler.run, hpayload, Handler.instanceOf, Handler.ofBinary, Request.perform]
      split
      · next value proto hvalue hslot =>
        simp only [Operation.instanceOf, hfilter, hvalue, Option.isNone_some, Bool.false_eq_true,
          if_false, hget, hslot, Except.map]
      · rfl
    | _ => cases hguard

private theorem run_call (natives : Natives σ) {callee this : Value} {args : List Value}
    (hfits : StubFits True w.heap .call signature stub.payload)
    (hguard : Guard.holds w.heap signature stub (.call callee this args) = true) :
    Handler.run natives signature stub (.call callee this args) w =
      (Request.call callee this args).perform natives w := by
  generalize hpayload : stub.payload = payload at hfits
  cases hfits with
  | @callFunction function _ hcallable =>
    simp only [Guard.holds, hpayload, Guard.callee] at hguard
    cases callee with
    | object id =>
      simp only [beq_iff_eq] at hguard
      subst hguard
      have hfilter : (Value.object id).asObject?.filter (fun id => (w.heap.object id).isCallable) =
          some id := by
        simp [Value.asObject?, hcallable]
      simp only [Handler.run, hpayload, Handler.callFunction, Request.perform, World.callValue, hfilter]
    | _ => cases hguard

private theorem run_getIterator (natives : Natives σ) {v : Value}
    (hfits : StubFits True w.heap .getIterator signature payload)
    (hguard : Guard.holds w.heap signature stub (.unary v) = true) :
    Handler.run natives signature stub (.unary v) w = (Request.getIterator v).perform natives w := by
  cases hfits with
  | iterateArray =>
    obtain ⟨id, rfl, harray⟩ := Guard.isArray_cases hguard
    have hfilter : (Value.object id).asObject?.filter (fun id => (w.heap.object id).cls = .array) =
        some id := by
      simp [Value.asObject?, harray]
    simp only [Handler.run, Handler.iterate, Guard.object?_object, Request.perform, World.onHeap,
      Operation.getIterator, hfilter]

/-- A guard holds of no operands but those that the operation takes. -/
theorem exists_request {classed : Prop} {h h' : Heap} {op : SiteOperation} {ops : Operands}
    (hfits : StubFits classed h op signature stub.payload)
    (hguard : Guard.holds h' signature stub ops = true) : ∃ r, op.request? ops = some r := by
  generalize hpayload : stub.payload = payload at hfits
  cases hfits with
  | getPropSlot | getPropMissing | setPropSlot | addSlot | callFunction | hasPropSlot | hasOwnSlot
  | instanceOfFunction =>
    -- these guards look at the payload first
    simp only [Guard.holds, hpayload] at hguard
    cases ops <;> first | exact ⟨_, rfl⟩ | cases hguard
  | compareNothing | toBool | typeOf =>
    obtain ⟨-, hoperands⟩ := Bool.and_eq_true_iff.1 hguard
    cases ops <;> first | exact ⟨_, rfl⟩ | cases hoperands
  | _ => cases ops <;> first | exact ⟨_, rfl⟩ | cases hguard

/-- Where its guard holds, a stub that fits does what the request does in full. The heap is one of
well-formed groups: each object is of the class of its group, so that a guard that compares groups pins
the class. -/
theorem run_eq_perform (hw : w.heap.WellFormed True) (natives : Natives σ) {r : Request}
    (hfits : StubFits True w.heap r.operation signature stub.payload)
    (hguard : Guard.holds w.heap signature stub r.operands = true) :
    Handler.run natives signature stub r.operands w = r.perform natives w := by
  cases r with
  | toBool v =>
    generalize stub.payload = payload at hfits
    cases hfits
    rfl
  | typeOf v =>
    generalize stub.payload = payload at hfits
    cases hfits
    rfl
  | unaryArith op v => exact run_unaryArith natives hfits hguard
  | binaryArith op lhs rhs => exact run_binaryArith natives hfits hguard
  | compare op lhs rhs => exact run_compare natives hfits hguard
  | getProp target key => exact run_getProp natives hfits hguard
  | setProp target key v => exact run_setProp hw natives hfits hguard
  | getElem target index => exact run_getElem natives hfits hguard
  | setElem target index v => exact run_setElem natives hfits hguard
  | hasProp key target => exact run_hasProp natives hfits hguard
  | hasOwn key target => exact run_hasOwn natives hfits hguard
  | instanceOf v ctor => exact run_instanceOf natives hfits hguard
  | call callee this args => exact run_call natives hfits hguard
  | getIterator v => exact run_getIterator natives hfits hguard

end StubFits

end InlineCache
