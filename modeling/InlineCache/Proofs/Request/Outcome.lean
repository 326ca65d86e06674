import InlineCache.Cache.Dispatch

namespace InlineCache

/-- The bodies of a host without native functions. -/
def Natives.absent {σ : Type} : Natives σ := fun _ _ _ w => (.error .outOfMemory, w)

namespace Operation

variable {α β : Type} {h : Heap}

/-- What fails leaves the heap. -/
def KeepsOnError (h : Heap) (done : Except VmError α × Heap) : Prop :=
  ∀ e, done.1 = .error e → done.2 = h

private theorem keepsOnError_error (h : Heap) (e : VmError) :
    KeepsOnError h ((.error e, h) : Except VmError α × Heap) := fun _ _ => rfl

private theorem keepsOnError_ok (a : α) (h' : Heap) :
    KeepsOnError h ((.ok a, h') : Except VmError α × Heap) := nofun

theorem KeepsOnError.cases {done : Except VmError α × Heap} (hkeeps : KeepsOnError h done) :
    done.2 = h ∨ ∃ a, done = (.ok a, done.2) := by
  obtain ⟨result, h'⟩ := done
  cases result with
  | error e => exact .inl (hkeeps e rfl)
  | ok a => exact .inr ⟨a, rfl⟩

/-- Nothing is changed before it is clear what was found. -/
theorem keepsOnError_given {found : Except VmError α} {f : α → Except VmError β × Heap}
    (hf : ∀ a, KeepsOnError h (f a)) : KeepsOnError h (given h found f) := by
  cases found with
  | error e => exact keepsOnError_error h e
  | ok a => exact hf a

theorem given_eq_ok {found : Except VmError α} {f : α → Except VmError β × Heap} {b : β} {h' : Heap}
    (hdone : given h found f = (.ok b, h')) : ∃ a, found = .ok a ∧ f a = (.ok b, h') := by
  cases found with
  | error e => cases hdone
  | ok a => exact ⟨a, rfl, hdone⟩

theorem giving_eq_ok {v v' : Value} {written : Except VmError Unit × Heap} {h' : Heap}
    (hgiven : giving v written = (.ok v', h')) : written = (.ok (), h') := by
  obtain ⟨done, h₁⟩ := written
  cases done with
  | error e => cases hgiven
  | ok _ =>
    cases hgiven
    rfl

private theorem keepsOnError_giving {written : Except VmError Unit × Heap}
    (hwritten : KeepsOnError h written) (v : Value) : KeepsOnError h (giving v written) := by
  obtain ⟨done, h'⟩ := written
  cases done with
  | error e => exact fun _ _ => hwritten e rfl
  | ok _ => exact keepsOnError_ok v h'

/-- The length that an array is given is checked before the array changes. -/
theorem keepsOnError_setObjectProperty (h : Heap) (id : ObjectId) (key : PropertyKey) (v : Value) :
    KeepsOnError h (setObjectProperty h id key v) := by
  unfold setObjectProperty
  split
  · split
    · exact keepsOnError_given fun len => keepsOnError_ok _ _
    · split
      · exact keepsOnError_ok _ _
      · exact keepsOnError_ok _ _
  · exact keepsOnError_ok _ _

theorem keepsOnError_setProperty (h : Heap) (target : Value) (key : PropertyKey) (v : Value) :
    KeepsOnError h (setProperty h target key v) := by
  cases target with
  | undefined | null => exact keepsOnError_given fun text => keepsOnError_error h _
  | object id => exact keepsOnError_setObjectProperty h id key v
  | magic kind => exact keepsOnError_error h _
  | _ => exact keepsOnError_ok _ _

/-- The key of an element is found before anything is written. -/
theorem keepsOnError_setElement (h : Heap) (target index v : Value) :
    KeepsOnError h (setElement h target index v) := by
  unfold setElement
  split
  · exact keepsOnError_ok _ _
  · split
    · exact keepsOnError_given fun text => keepsOnError_given fun key => keepsOnError_error h _
    · exact keepsOnError_given fun key => keepsOnError_setProperty h target key v

private theorem keepsOnError_getIterator (h : Heap) (v : Value) : KeepsOnError h (getIterator h v) := by
  unfold getIterator
  split
  · exact keepsOnError_ok _ _
  · exact keepsOnError_given fun text => keepsOnError_error h _

/-- What the heap's own working comes to, where nothing needs to be said of the heap after a failure. -/
def settled (done : Except VmError α × Heap) : Except VmError (α × Heap) := done.1.map fun a => (a, done.2)

theorem settled_eq_ok {done : Except VmError α × Heap} {a : α} {h' : Heap}
    (hdone : settled done = .ok (a, h')) : done = (.ok a, h') := by
  obtain ⟨result, h₁⟩ := done
  cases result with
  | error e => cases hdone
  | ok _ =>
    cases hdone
    rfl

end Operation

namespace World

variable {σ : Type}

/-- The state after the heap's own working, which leaves it as it is if it fails. -/
def commit (w : World σ) : Except VmError (Value × Heap) → Except VmError Value × World σ
  | .ok (v, heap) => (.ok v, { w with heap := heap })
  | .error e => (.error e, w)

private theorem onHeap_eq_commit (w : World σ) {f : Heap → Except VmError Value × Heap}
    (hkeeps : Operation.KeepsOnError w.heap (f w.heap)) :
    w.onHeap f = w.commit (Operation.settled (f w.heap)) := by
  unfold onHeap
  rcases hdone : f w.heap with ⟨e | v, h⟩
  · rw [hdone] at hkeeps
    obtain rfl : h = w.heap := hkeeps e rfl
    rfl
  · rfl

end World

namespace Request

/-- The operation of which a request is one. -/
def operation : Request → SiteOperation
  | toBool _ => .toBool
  | unaryArith op _ => .unaryArith op
  | binaryArith op _ _ => .binaryArith op
  | compare op _ _ => .compare op
  | getProp _ key => .getProp key
  | setProp _ key _ => .setProp key
  | getElem _ _ => .getElem
  | setElem _ _ _ => .setElem
  | hasProp _ _ => .hasProp
  | hasOwn _ _ => .hasOwn
  | instanceOf _ _ => .instanceOf
  | call _ _ _ => .call
  | typeOf _ => .typeOf
  | getIterator _ => .getIterator

/-- The operands of a request. -/
def operands : Request → Operands
  | toBool v | unaryArith _ v | typeOf v | getIterator v => .unary v
  | binaryArith _ lhs rhs | compare _ lhs rhs => .binary lhs rhs
  | getProp target _ => .unary target
  | setProp target _ v => .binary target v
  | getElem target index => .binary target index
  | setElem target index v => .ternary target index v
  | hasProp key target | hasOwn key target => .binary key target
  | instanceOf v ctor => .binary v ctor
  | call callee this args => .call callee this args

theorem eq_of_request? {op : SiteOperation} {ops : Operands} {r : Request}
    (hr : op.request? ops = some r) : op = r.operation ∧ ops = r.operands := by
  cases op <;> cases ops <;> cases hr <;> exact ⟨rfl, rfl⟩

/-- What a request comes to on a heap, unless it is a call. -/
def outcome? (h : Heap) : Request → Option (Except VmError (Value × Heap))
  | toBool v => some (.ok (.boolean (Operation.toBoolean v), h))
  | unaryArith op v => some ((Operation.unaryArith op v).map fun v => (v, h))
  | binaryArith op lhs rhs => some ((Operation.binaryArith h op lhs rhs).map fun v => (v, h))
  | compare op lhs rhs => some ((Operation.compare op lhs rhs).map fun b => (.boolean b, h))
  | getProp target key => some ((Operation.getProperty h target key).map fun v => (v, h))
  | setProp target key v =>
    some (Operation.settled (Operation.giving v (Operation.setProperty h target key v)))
  | getElem target index => some ((Operation.getElement h target index).map fun v => (v, h))
  | setElem target index v =>
    some (Operation.settled (Operation.giving v (Operation.setElement h target index v)))
  | hasProp key target => some ((Operation.hasProperty h key target).map fun b => (.boolean b, h))
  | hasOwn key target => some ((Operation.hasOwn h key target).map fun b => (.boolean b, h))
  | instanceOf v ctor => some ((Operation.instanceOf h v ctor).map fun b => (.boolean b, h))
  | call _ _ _ => none
  | typeOf v => some (.ok (.string (Operation.typeOf h v), h))
  | getIterator v => some (Operation.settled (Operation.getIterator h v))

variable {σ : Type}

/-- Every request but a call works on the heap alone, and leaves all as it is if it fails. -/
theorem perform_of_outcome {r : Request} {w : World σ}
    {result : Except VmError (Value × Heap)} (natives : Natives σ)
    (h : r.outcome? w.heap = some result) : r.perform natives w = w.commit result := by
  have hkeep {α : Type} (e : Except VmError α) (f : α → Value) :
      ((e.map f : Except VmError Value), w) = w.commit (e.map fun a => (f a, w.heap)) := by
    cases e <;> rfl
  have hid (e : Except VmError Value) : (e, w) = w.commit (e.map fun a => (a, w.heap)) := by
    cases e <;> rfl
  cases r with
  | call callee this args => cases h
  | toBool v => cases h; rfl
  | typeOf v => cases h; rfl
  | getIterator v =>
    cases h
    have hkept := Operation.keepsOnError_getIterator w.heap v
    exact w.onHeap_eq_commit (f := (Operation.getIterator · v)) hkept
  | setProp target key v =>
    cases h
    have hkept := Operation.keepsOnError_giving (Operation.keepsOnError_setProperty w.heap target key v) v
    exact w.onHeap_eq_commit (f := fun h => Operation.giving v (Operation.setProperty h target key v)) hkept
  | setElem target index v =>
    cases h
    have hkept := Operation.keepsOnError_giving (Operation.keepsOnError_setElement w.heap target index v) v
    exact w.onHeap_eq_commit (f := fun h => Operation.giving v (Operation.setElement h target index v)) hkept
  | unaryArith op v => cases h; exact hid _
  | binaryArith op lhs rhs => cases h; exact hid _
  | getProp target key => cases h; exact hid _
  | getElem target index => cases h; exact hid _
  | compare op lhs rhs => cases h; exact hkeep _ _
  | hasProp key target => cases h; exact hkeep _ _
  | hasOwn key target => cases h; exact hkeep _ _
  | instanceOf v ctor => cases h; exact hkeep _ _

/-- Everything but a call comes to something on every heap. -/
theorem outcome?_cases (r : Request) :
    (∃ callee this args, r = .call callee this args) ∨ ∀ h, ∃ result, r.outcome? h = some result := by
  cases r with
  | call callee this args => exact .inl ⟨callee, this, args, rfl⟩
  | _ => exact .inr fun h => ⟨_, rfl⟩

end Request

namespace Handler

variable {σ : Type}

/-- Code that calls no function works on the heap alone. -/
theorem run_eq_commit {signature : Signature} (hsig : signature ≠ .callFunction) (stub : Stub)
    (ops : Operands) (w : World σ) :
    ∃ result, ∀ natives : Natives σ, run natives signature stub ops w = w.commit result := by
  have hkeep (e : Except VmError Value) : ∃ result, (e, w) = w.commit result := by
    refine ⟨e.map fun v => (v, w.heap), ?_⟩
    cases e <;> rfl
  have hanswer (sig : Signature) (v : Option Value) :
      ∃ result, ∀ _ : Natives σ, answer w sig v = w.commit result :=
    (hkeep _).imp fun _ h _ => h
  have hconst {x : Except VmError Value × World σ} (h : ∃ result, x = w.commit result) :
      ∃ result, ∀ _ : Natives σ, x = w.commit result := h.imp fun _ h _ => h
  cases signature with
  | callFunction => exact absurd rfl hsig
  | setElemDense | setElemAppend =>
    refine hconst ?_
    change ∃ result, writeElement w _ ops = w.commit result
    unfold writeElement
    split
    · split
      · exact ⟨.ok (_, _), rfl⟩
      · exact hkeep _
    · exact hkeep _
  | setPropSlot =>
    refine hconst ?_
    change ∃ result, writeSlot w stub.payload ops = w.commit result
    unfold writeSlot
    split
    · exact ⟨.ok (_, _), rfl⟩
    · exact hkeep _
    · exact hkeep _
  | addSlot =>
    refine hconst ?_
    change ∃ result, Handler.addSlot w stub.payload ops = w.commit result
    unfold Handler.addSlot
    split
    · split
      · exact ⟨.ok (_, _), rfl⟩
      · split
        · exact hkeep _
        · next key _ =>
          exact ⟨_, w.onHeap_eq_commit
            (Operation.keepsOnError_giving (Operation.keepsOnError_setProperty w.heap _ key _) _)⟩
    · exact hkeep _
    · exact hkeep _
  | iterateArray =>
    refine hconst ?_
    change ∃ result, iterate w ops = w.commit result
    unfold iterate
    split
    · exact ⟨.ok (_, _), rfl⟩
    · exact hkeep _
  | getPropSlot | getPropMissing | concat | compareNothing _ | hasOwnSlot | instanceOfFunction =>
    exact hconst (hkeep _)
  | _ => exact hanswer _ _

end Handler

end InlineCache
