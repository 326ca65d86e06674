import InlineCache.Proofs.Heap.Working

namespace InlineCache

namespace Heap

variable {h h' h'' : Heap}

/-- How many calls of an object have not returned, as the object counts them. -/
def calls (h : Heap) (id : ObjectId) : Nat := (h.object id).activeCalls

/-- Every object counts as many running calls as before. -/
def SameCalls (h h' : Heap) : Prop := ∀ id, h'.calls id = h.calls id

theorem SameCalls.refl (h : Heap) : h.SameCalls h := fun _ => rfl

theorem SameCalls.trans (hs : h.SameCalls h') (hs' : h'.SameCalls h'') : h.SameCalls h'' :=
  fun id => (hs' id).trans (hs id)

theorem sameCalls_of_seen (hseen : h'.seen = h.seen) : h.SameCalls h' := by
  intro id
  rw [calls, calls, object_eq_of_seen hseen]

theorem sameCalls_modifyObject (h : Heap) (id : ObjectId) {f : Object → Object}
    (hf : ∀ o : Object, (f o).function = o.function) : h.SameCalls (h.modifyObject id f) := by
  intro other
  rcases h.objects.get_modify_cases id f other with heq | heq
  · exact congrArg Object.activeCalls heq
  · refine (congrArg Object.activeCalls heq).trans ?_
    rw [Object.activeCalls, hf]
    rfl

/-- A new object was never called. -/
theorem sameCalls_addObject (h : Heap) {o : Object} (ho : o.activeCalls = 0) :
    h.SameCalls (h.addObject o).2 := by
  intro id
  rcases h.objects.get_add_cases o id with heq | ⟨rfl, heq⟩
  · exact congrArg Object.activeCalls heq
  · have hnone : h.calls h.objects.next = 0 :=
      congrArg Object.activeCalls (h.objects.get_of_size_lt (Nat.lt_succ_self _))
    exact (congrArg Object.activeCalls heq).trans (ho.trans hnone.symm)

private theorem sameCalls_transition (h : Heap) (id : ShapeId) (key : PropertyKey) :
    h.SameCalls (h.transition id key).2 := by
  intro other
  rw [calls, calls, object, objects_transition]
  rfl

theorem sameCalls_setNamed (h : Heap) (id : ObjectId) (key : PropertyKey) (v : Value) :
    h.SameCalls (h.setNamed id key v).2 := by
  unfold setNamed
  split
  · exact sameCalls_modifyObject h id fun _ => rfl
  · split
    · exact (sameCalls_transition h _ key).trans (sameCalls_modifyObject _ id fun _ => rfl)
    · exact .refl h

theorem sameCalls_addSlot (h : Heap) (id : ObjectId) (old next : ShapeId) (v : Value) :
    h.SameCalls (h.addSlot id old next v).2 := by
  unfold addSlot
  split
  · exact sameCalls_modifyObject h id fun _ => rfl
  · exact .refl h

theorem sameCalls_newArrayIterator (h : Heap) (target : ObjectId) :
    h.SameCalls (h.newArrayIterator target).2 := by
  have hadd := h.sameCalls_addObject (o := bareObject .arrayIterator iteratorGroup false) rfl
  exact (hadd.trans (sameCalls_setNamed _ _ _ _)).trans (sameCalls_setNamed _ _ _ _)

/-- Whatever a heap does by itself, no call begins or ends. -/
theorem Working.sameCalls {classed : Prop} (hworking : Working classed h h') : h.SameCalls h' := by
  cases hworking with
  | transition id key _ _ => exact sameCalls_transition h id key
  | addPropertyType group key v => exact sameCalls_of_seen (seen_addPropertyType h group key v)
  | newObject _ _ | newSingleton _ _ | newArray _ _ _ | newFunction _ _ _ =>
    exact sameCalls_addObject h rfl
  | newArrayIterator target => exact sameCalls_newArrayIterator h target
  | setNamed id key v => exact sameCalls_setNamed h id key v
  | addSlot id old v _ _ => exact sameCalls_addSlot h id old _ v
  | setSlot id _ _ | setElement id _ _ | setElementCount id _ | preventExtensions id =>
    exact sameCalls_modifyObject h id fun _ => rfl
  | _ => exact .refl h

end Heap

namespace World

open Heap

variable {h : Heap} {id : ObjectId}

/-- The running calls of a function are counted in one place of the object. -/
theorem activeCalls_map (o : Object) (f : Nat → Nat) :
    Object.activeCalls { o with function := o.function.map fun g =>
      { g with activeCalls := f g.activeCalls } } = if o.isCallable then f o.activeCalls else 0 := by
  unfold Object.activeCalls Object.isCallable
  cases o.function <;> rfl

private theorem calls_of_not_callable (hcallable : ¬ (h.object id).isCallable = true) :
    h.calls id = 0 := by
  unfold calls Object.activeCalls
  unfold Object.isCallable at hcallable
  cases hf : (h.object id).function with
  | none => rfl
  | some f =>
    rw [hf] at hcallable
    exact absurd rfl hcallable

private theorem there_of_callable (hcallable : (h.object id).isCallable = true) :
    0 < id ∧ id ≤ h.objects.size :=
  there_of_ne_default fun heq => by
    rw [heq] at hcallable
    cases hcallable

/-- A call that begins is counted by the function that is called, and by no other. -/
theorem calls_enterCall (hcallable : (h.object id).isCallable = true) (other : ObjectId) :
    (enterCall h id).calls other = h.calls other + if id = other then 1 else 0 := by
  by_cases hid : id = other
  · subst hid
    obtain ⟨hpos, hle⟩ := there_of_callable hcallable
    rw [if_pos rfl]
    refine (congrArg Object.activeCalls (h.objects.get_modify_self _ hpos hle)).trans ?_
    exact (activeCalls_map _ (· + 1)).trans (if_pos hcallable)
  · rw [if_neg hid]
    exact congrArg Object.activeCalls (h.objects.get_modify_of_ne _ (Ne.symm hid))

/-- A call that ends is taken off where it was counted. -/
theorem calls_leaveCall (h : Heap) (id other : ObjectId) :
    (leaveCall h id).calls other = h.calls other - if id = other then 1 else 0 := by
  by_cases hid : id = other
  · subst hid
    rw [if_pos rfl]
    by_cases hcallable : (h.object id).isCallable = true
    · obtain ⟨hpos, hle⟩ := there_of_callable hcallable
      refine (congrArg Object.activeCalls (h.objects.get_modify_self _ hpos hle)).trans ?_
      exact (activeCalls_map _ (· - 1)).trans (if_pos hcallable)
    · -- what is no function counts no calls, before and after
      rw [calls_of_not_callable hcallable, Nat.zero_sub]
      rcases h.objects.get_modify_cases id _ id with heq | heq
      · exact (congrArg Object.activeCalls heq).trans (calls_of_not_callable hcallable)
      · exact (congrArg Object.activeCalls heq).trans
          ((activeCalls_map _ (· - 1)).trans (if_neg hcallable))
  · rw [if_neg hid]
    exact congrArg Object.activeCalls (h.objects.get_modify_of_ne _ (Ne.symm hid))

/-- A call that has ended leaves the count as it was. -/
theorem sameCalls_enter_leave (hcallable : (h.object id).isCallable = true) :
    h.SameCalls (leaveCall (enterCall h id) id) := by
  intro other
  rw [calls_leaveCall, calls_enterCall hcallable, Nat.add_sub_cancel]

end World

end InlineCache
