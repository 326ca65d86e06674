import InlineCache.Proofs.Heap.Working

namespace InlineCache

/-- Whether a key is that of a named property in objects of a class. Arrays keep their length and their
elements apart from the named properties. -/
def ObjectClass.Named (cls : ObjectClass) (key : PropertyKey) : Prop :=
  cls = .array → key ≠ "length" ∧ key.arrayIndex? = none

/-- Which payloads stubs of a signature have at an operation. With `classed`, the group that a write
pins is none of arrays. A guard compares the operands with the payload. That the payload says something
true of the operation is left to the time when the stub was built, so what was true then has to stay
true in every later heap. -/
inductive StubFits (classed : Prop) (h : Heap) : SiteOperation → Signature → Payload → Prop where
  | getPropSlot {key : PropertyKey} {cls : ObjectClass} {group : Option GroupId} {shape : ShapeId}
      {offset : Nat} (hnamed : cls.Named key) (hle : shape ≤ h.shapes.size)
      (hoffset : (h.shape shape).offsetOf? key = some offset) :
      StubFits classed h (.getProp key) .getPropSlot (.slot cls group shape offset)
  | getPropMissing {key : PropertyKey} {cls : ObjectClass} {shape : ShapeId}
      (hle : shape ≤ h.shapes.size) (hnone : (h.shape shape).offsetOf? key = none) :
      StubFits classed h (.getProp key) .getPropMissing (.shape cls shape)
  | getPropArrayLength {payload : Payload} :
      StubFits classed h (.getProp "length") .getPropArrayLength payload
  | getPropStringLength {payload : Payload} :
      StubFits classed h (.getProp "length") .getPropStringLength payload
  | getElemDense {payload : Payload} : StubFits classed h .getElem .getElemDense payload
  | setElemDense {payload : Payload} : StubFits classed h .setElem .setElemDense payload
  | setElemAppend {payload : Payload} : StubFits classed h .setElem .setElemAppend payload
  | setPropSlot {key : PropertyKey} {cls : ObjectClass} {group : GroupId} {shape : ShapeId}
      {offset : Nat} (hgroup : group ≤ h.groups.size) (hcls : classed → (h.group group).cls ≠ .array)
      (hle : shape ≤ h.shapes.size) (hoffset : (h.shape shape).offsetOf? key = some offset) :
      StubFits classed h (.setProp key) .setPropSlot (.slot cls (some group) shape offset)
  | addSlot {key : PropertyKey} {group : GroupId} {old new : ShapeId} (hgroup : group ≤ h.groups.size)
      (hcls : classed → (h.group group).cls ≠ .array) (hle : old ≤ h.shapes.size)
      (hnone : (h.shape old).offsetOf? key = none)
      (hstep : (h.shape old).transitions.find? key = some new) :
      StubFits classed h (.setProp key) .addSlot (.addSlot group old new)
  | callFunction {callee : ObjectId} (hle : callee ≤ h.objects.size)
      (hcallable : (h.object callee).isCallable = true) :
      StubFits classed h .call .callFunction (.callee callee)
  | binaryInt32 {op : BinaryOp} {payload : Payload} :
      StubFits classed h (.binaryArith op) (.binaryInt32 op) payload
  | binaryDouble {op : BinaryOp} {payload : Payload} :
      StubFits classed h (.binaryArith op) (.binaryDouble op) payload
  | concat {payload : Payload} : StubFits classed h (.binaryArith .add) .concat payload
  | unaryInt32 {op : UnaryOp} {payload : Payload} :
      StubFits classed h (.unaryArith op) (.unaryInt32 op) payload
  | unaryDouble {op : UnaryOp} {payload : Payload} :
      StubFits classed h (.unaryArith op) (.unaryDouble op) payload
  | compareInt32 {op : CompareOp} {payload : Payload} :
      StubFits classed h (.compare op) (.compareInt32 op) payload
  | compareDouble {op : CompareOp} {payload : Payload} :
      StubFits classed h (.compare op) (.compareDouble op) payload
  | compareString {op : CompareOp} {payload : Payload} :
      StubFits classed h (.compare op) (.compareString op) payload
  | compareNothing {op : CompareOp} {payload : Payload} :
      StubFits classed h (.compare op) (.compareNothing op) payload
  | toBool {type : ValueType} {payload : Payload} : StubFits classed h .toBool (.toBool type) payload
  | typeOf {type : ValueType} {payload : Payload} : StubFits classed h .typeOf (.typeOf type) payload
  | iterateArray {payload : Payload} : StubFits classed h .getIterator .iterateArray payload
  | hasPropSlot {key : PropertyKey} {shape : ShapeId} {present : Bool} (hle : shape ≤ h.shapes.size)
      (hpresent : ((h.shape shape).offsetOf? key).isSome = present) :
      StubFits classed h .hasProp .hasOwnSlot (.hasProp shape key present)
  | hasOwnSlot {key : PropertyKey} {shape : ShapeId} {present : Bool} (hle : shape ≤ h.shapes.size)
      (hpresent : ((h.shape shape).offsetOf? key).isSome = present) :
      StubFits classed h .hasOwn .hasOwnSlot (.hasProp shape key present)
  | hasOwnElement {payload : Payload} : StubFits classed h .hasOwn .hasOwnElement payload
  | instanceOfFunction {ctor : ObjectId} {shape : ShapeId} {offset : Nat}
      (hctor : ctor ≤ h.objects.size) (hcallable : (h.object ctor).isCallable = true)
      (hle : shape ≤ h.shapes.size) (hoffset : (h.shape shape).offsetOf? "prototype" = some offset) :
      StubFits classed h .instanceOf .instanceOfFunction (.prototype ctor shape offset)

namespace StubFits

variable {classed : Prop} {h h' : Heap} {op : SiteOperation} {signature : Signature}
  {payload : Payload}

/-- What a stub was built on stays. -/
theorem grows (hfits : StubFits classed h op signature payload) (hg : h.Grows h') :
    StubFits classed h' op signature payload := by
  have hoffset {id : ShapeId} (hle : id ≤ h.shapes.size) (key : PropertyKey) :
      (h'.shape id).offsetOf? key = (h.shape id).offsetOf? key := (hg.shape id hle).offsetOf?_eq key
  have hcallable {id : ObjectId} (hle : id ≤ h.objects.size)
      (hold : (h.object id).isCallable = true) : (h'.object id).isCallable = true :=
    (hg.object id hle).isCallable.trans hold
  cases hfits with
  | getPropSlot hnamed hle hoff =>
    exact .getPropSlot hnamed (Nat.le_trans hle hg.shapes_le) ((hoffset hle _).trans hoff)
  | getPropMissing hle hnone =>
    exact .getPropMissing (Nat.le_trans hle hg.shapes_le) ((hoffset hle _).trans hnone)
  | setPropSlot hgroup hcls hle hoff =>
    exact .setPropSlot (Nat.le_trans hgroup hg.groups_le)
      (fun hc => by rw [hg.group _ hgroup]; exact hcls hc) (Nat.le_trans hle hg.shapes_le)
      ((hoffset hle _).trans hoff)
  | addSlot hgroup hcls hle hnone hstep =>
    exact .addSlot (Nat.le_trans hgroup hg.groups_le)
      (fun hc => by rw [hg.group _ hgroup]; exact hcls hc) (Nat.le_trans hle hg.shapes_le)
      ((hoffset hle _).trans hnone) ((hg.shape _ hle).transition _ _ hstep)
  | callFunction hle hold =>
    exact .callFunction (Nat.le_trans hle hg.objects_le) (hcallable hle hold)
  | hasPropSlot hle hpresent =>
    exact .hasPropSlot (Nat.le_trans hle hg.shapes_le) (by rw [hoffset hle]; exact hpresent)
  | hasOwnSlot hle hpresent =>
    exact .hasOwnSlot (Nat.le_trans hle hg.shapes_le) (by rw [hoffset hle]; exact hpresent)
  | instanceOfFunction hctor hold hle hoff =>
    exact .instanceOfFunction (Nat.le_trans hctor hg.objects_le) (hcallable hctor hold)
      (Nat.le_trans hle hg.shapes_le) ((hoffset hle _).trans hoff)
  | _ => constructor

end StubFits

namespace Specialize

variable {classed : Prop} {h : Heap} {recipe : Recipe}

private theorem le_size_of_isCallable {id : ObjectId} (hcallable : (h.object id).isCallable = true) :
    id ≤ h.objects.size := by
  refine (Heap.there_of_ne_default fun heq => ?_).2
  rw [heq] at hcallable
  cases hcallable

private theorem fits_getProp (hw : h.WellFormed classed) {target : Value} {key : PropertyKey}
    (hrecipe : (getProp h target key).recipe? = some recipe) :
    StubFits classed h (.getProp key) recipe.signature recipe.payload := by
  cases target with
  | string s =>
    simp only [getProp] at hrecipe
    split at hrecipe
    · next hkey =>
      cases hrecipe
      rw [hkey]
      exact .getPropStringLength
    · cases hrecipe
  | object id =>
    simp only [getProp] at hrecipe
    split at hrecipe
    · cases hrecipe
    · split at hrecipe
      · next hlength =>
        cases hrecipe
        rw [hlength.2]
        exact .getPropArrayLength
      · next hlength =>
        split at hrecipe
        · cases hrecipe
        · next hindex =>
          split at hrecipe
          · next offset hoffset =>
            cases hrecipe
            refine .getPropSlot (fun harray => ?_) (hw.object id).shape_le hoffset
            exact ⟨fun hkey => hlength ⟨harray, hkey⟩,
              Option.not_isSome_iff_eq_none.1 fun hsome => hindex ⟨harray, hsome⟩⟩
          · next hnone =>
            split at hrecipe
            · cases hrecipe
            · cases hrecipe
              exact .getPropMissing (hw.object id).shape_le hnone
  | _ => cases hrecipe

private theorem fits_setProp (hw : h.WellFormed classed) {target : Value} {key : PropertyKey}
    (hrecipe : (setProp h target key).recipe? = some recipe) :
    StubFits classed h (.setProp key) recipe.signature recipe.payload := by
  cases target with
  | object id =>
    have ho := hw.object id
    simp only [setProp] at hrecipe
    split at hrecipe
    · cases hrecipe
    · split at hrecipe
      · cases hrecipe
      · next harray =>
        split at hrecipe
        · next offset hoffset =>
          cases hrecipe
          exact .setPropSlot ho.group_le (fun hc => by rw [← ho.cls_eq hc]; exact harray) ho.shape_le
            hoffset
        · split at hrecipe <;> cases hrecipe
  | _ => cases hrecipe

private theorem fits_getElem {target index : Value}
    (hrecipe : (getElem h target index).recipe? = some recipe) :
    StubFits classed h .getElem recipe.signature recipe.payload := by
  unfold getElem at hrecipe
  split at hrecipe
  · split at hrecipe <;> cases hrecipe
    exact .getElemDense
  · cases hrecipe

private theorem fits_setElem {target index : Value}
    (hrecipe : (setElem h target index).recipe? = some recipe) :
    StubFits classed h .setElem recipe.signature recipe.payload := by
  unfold setElem at hrecipe
  split at hrecipe
  · split at hrecipe
    · cases hrecipe
    · split at hrecipe
      · cases hrecipe
        exact .setElemDense
      · split at hrecipe <;> cases hrecipe
  · cases hrecipe

private theorem fits_setElemAppend {target index : Value} {oldSize : Nat}
    (hrecipe : (setElemAppend h target index oldSize).recipe? = some recipe) :
    StubFits classed h .setElem recipe.signature recipe.payload := by
  unfold setElemAppend at hrecipe
  split at hrecipe
  · split at hrecipe <;> cases hrecipe
    exact .setElemAppend
  · cases hrecipe

private theorem fits_hasProp (hw : h.WellFormed classed) {key target : Value}
    (hrecipe : (hasProp h key target).recipe? = some recipe) :
    StubFits classed h .hasProp recipe.signature recipe.payload := by
  unfold hasProp at hrecipe
  split at hrecipe
  · next name id =>
    split at hrecipe <;> cases hrecipe
    exact .hasPropSlot (hw.object id).shape_le rfl
  · cases hrecipe

private theorem fits_hasOwn (hw : h.WellFormed classed) {key target : Value}
    (hrecipe : (hasOwn h key target).recipe? = some recipe) :
    StubFits classed h .hasOwn recipe.signature recipe.payload := by
  unfold hasOwn at hrecipe
  split at hrecipe
  · split at hrecipe <;> cases hrecipe
    exact .hasOwnElement
  · next name id =>
    split at hrecipe <;> cases hrecipe
    exact .hasOwnSlot (hw.object id).shape_le rfl
  · cases hrecipe

private theorem fits_instanceOf (hw : h.WellFormed classed) {ctor : Value}
    (hrecipe : (instanceOf h ctor).recipe? = some recipe) :
    StubFits classed h .instanceOf recipe.signature recipe.payload := by
  cases ctor with
  | object id =>
    simp only [instanceOf] at hrecipe
    split at hrecipe
    · next hcallable =>
      split at hrecipe
      · next offset hoffset =>
        split at hrecipe <;> cases hrecipe
        exact .instanceOfFunction (le_size_of_isCallable hcallable) hcallable (hw.object id).shape_le
          hoffset
      · cases hrecipe
    · cases hrecipe
  | _ => cases hrecipe

private theorem fits_call {callee : Value} (hrecipe : (call h callee).recipe? = some recipe) :
    StubFits classed h .call recipe.signature recipe.payload := by
  cases callee with
  | object id =>
    simp only [call] at hrecipe
    split at hrecipe
    · cases hrecipe
    · next hcallable =>
      split at hrecipe <;> cases hrecipe
      have hcallable' : (h.object id).isCallable = true := by simpa using hcallable
      exact .callFunction (le_size_of_isCallable hcallable') hcallable'
  | _ => cases hrecipe

private theorem fits_binaryArith {op : BinaryOp} {lhs rhs : Value}
    (hrecipe : (binaryArith op lhs rhs).recipe? = some recipe) :
    StubFits classed h (.binaryArith op) recipe.signature recipe.payload := by
  unfold binaryArith at hrecipe
  split at hrecipe
  · cases hrecipe
    exact .binaryInt32
  · split at hrecipe
    · cases hrecipe
      exact .binaryDouble
    · split at hrecipe
      · next hadd =>
        cases hrecipe
        rw [hadd.1]
        exact .concat
      · cases hrecipe

private theorem fits_unaryArith {op : UnaryOp} {v : Value}
    (hrecipe : (unaryArith op v).recipe? = some recipe) :
    StubFits classed h (.unaryArith op) recipe.signature recipe.payload := by
  cases v with
  | int32 i =>
    cases hrecipe
    exact .unaryInt32
  | double d =>
    cases hrecipe
    exact .unaryDouble
  | _ => cases hrecipe

private theorem fits_compare {op : CompareOp} {lhs rhs : Value}
    (hrecipe : (compare op lhs rhs).recipe? = some recipe) :
    StubFits classed h (.compare op) recipe.signature recipe.payload := by
  unfold compare at hrecipe
  split at hrecipe
  · cases hrecipe
    exact .compareInt32
  · split at hrecipe
    · cases hrecipe
      exact .compareDouble
    · split at hrecipe
      · cases hrecipe
        exact .compareString
      · split at hrecipe <;> cases hrecipe
        exact .compareNothing

private theorem fits_toBool {v : Value} (hrecipe : (toBool v).recipe? = some recipe) :
    StubFits classed h .toBool recipe.signature recipe.payload := by
  unfold toBool at hrecipe
  split at hrecipe <;> cases hrecipe
  exact .toBool

private theorem fits_typeOf {v : Value} (hrecipe : (typeOf v).recipe? = some recipe) :
    StubFits classed h .typeOf recipe.signature recipe.payload := by
  unfold typeOf at hrecipe
  split at hrecipe <;> cases hrecipe
  exact .typeOf

private theorem fits_getIterator {v : Value} (hrecipe : (getIterator h v).recipe? = some recipe) :
    StubFits classed h .getIterator recipe.signature recipe.payload := by
  cases v with
  | object id =>
    simp only [getIterator] at hrecipe
    split at hrecipe <;> cases hrecipe
    exact .iterateArray
  | _ => cases hrecipe

end Specialize

namespace Request

variable {classed : Prop} {h h₀ h' : Heap} {recipe : Recipe}

/-- A stub that is decided on fits the operation. -/
theorem fits_decision (hw : h.WellFormed classed) {r : Request}
    (hrecipe : (r.decision h).recipe? = some recipe) :
    StubFits classed h r.operation recipe.signature recipe.payload := by
  cases r with
  | toBool v => exact Specialize.fits_toBool hrecipe
  | unaryArith op v => exact Specialize.fits_unaryArith hrecipe
  | binaryArith op lhs rhs => exact Specialize.fits_binaryArith hrecipe
  | compare op lhs rhs => exact Specialize.fits_compare hrecipe
  | getProp target key => exact Specialize.fits_getProp hw hrecipe
  | setProp target key v => exact Specialize.fits_setProp hw hrecipe
  | getElem target index => exact Specialize.fits_getElem hrecipe
  | setElem target index v => exact Specialize.fits_setElem hrecipe
  | hasProp key target => exact Specialize.fits_hasProp hw hrecipe
  | hasOwn key target => exact Specialize.fits_hasOwn hw hrecipe
  | instanceOf v ctor => exact Specialize.fits_instanceOf hw hrecipe
  | call callee this args => exact Specialize.fits_call hrecipe
  | typeOf v => exact Specialize.fits_typeOf hrecipe
  | getIterator v => exact Specialize.fits_getIterator hrecipe

/-- The write of a property is looked at twice only if the object gains the property by it. -/
theorem setProp_deferred {id : ObjectId} {key : PropertyKey}
    (hdeferred : Specialize.setProp h (.object id) key = .deferred) :
    (h.object id).cls ≠ .array ∧ (h.shapeOf id).offsetOf? key = none ∧
      (h.object id).extensible = true := by
  simp only [Specialize.setProp] at hdeferred
  split at hdeferred
  · cases hdeferred
  · split at hdeferred
    · cases hdeferred
    · next harray =>
      split at hdeferred
      · cases hdeferred
      · next hnone =>
        split at hdeferred
        · next hextensible => exact ⟨harray, hnone, hextensible⟩
        · cases hdeferred

/-- The heap that the write of a property comes to. -/
theorem setProperty_of_outcome {target v v' : Value} {key : PropertyKey}
    (houtcome : (setProp target key v).outcome? h = some (.ok (v', h'))) :
    Operation.setProperty h target key v = (.ok (), h') :=
  Operation.giving_eq_ok (Operation.settled_eq_ok (Option.some.inj houtcome))

/-- A stub that adds a slot fits after the write that it was made for: the object moved from a shape
without the property to the one that its old shape leads to. -/
theorem fits_addSlot (hw : h.WellFormed classed) {id : ObjectId} {key : PropertyKey} {v : Value}
    (harray : (h.object id).cls ≠ .array) (hnone : (h.shapeOf id).offsetOf? key = none)
    (hextensible : (h.object id).extensible = true)
    (hset : Operation.setProperty h (.object id) key v = (.ok (), h'))
    (hrecipe : (Specialize.addSlot h' (.object id) key (h.object id).shape).recipe? = some recipe) :
    StubFits classed h' (.setProp key) recipe.signature recipe.payload := by
  obtain ⟨hgrows, hw'⟩ := Operation.evolves_setProperty hset hw
  have ho' := hw'.object id
  have hid := (Heap.there_of_extensible hextensible).2
  have hold := (hw.object id).shape_le
  simp only [Specialize.addSlot] at hrecipe
  split at hrecipe
  · next hmoved =>
    cases hrecipe
    refine .addSlot ho'.group_le (fun hc => ?_) (Nat.le_trans hold hgrows.shapes_le) ?_
      (hw'.child _ _ _ hmoved.1 hmoved.2)
    · rw [← ho'.cls_eq hc, (hgrows.object id hid).cls]
      exact harray
    · rw [(hgrows.shape _ hold).offsetOf?_eq]
      exact hnone
  · cases hrecipe

/-- A stub that is decided on after the operation fits it. The decision to wait may have been made on a
heap with other types recorded. -/
theorem fits_secondLook (hw : h.WellFormed classed) (hseen : h.seen = h₀.seen) {r : Request}
    (hdeferred : r.decision h₀ = .deferred) {v : Value} (houtcome : r.outcome? h = some (.ok (v, h')))
    (hrecipe : (r.secondLook h h').recipe? = some recipe) :
    StubFits classed h' r.operation recipe.signature recipe.payload := by
  unfold secondLook at hrecipe
  split at hrecipe
  · next id key v' =>
    obtain ⟨harray, hnone, hextensible⟩ := setProp_deferred hdeferred
    rw [Heap.shapeOf] at hnone
    rw [← Heap.object_eq_of_seen hseen] at harray hnone hextensible
    rw [← Heap.shape_eq_of_seen hseen] at hnone
    exact fits_addSlot hw harray hnone hextensible (setProperty_of_outcome houtcome) hrecipe
  · exact Specialize.fits_setElemAppend hrecipe
  · cases hrecipe

end Request

end InlineCache
