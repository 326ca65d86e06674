import InlineCache.Proofs.World.Use

namespace InlineCache

/-- Which part of a use made a call. -/
inductive CallOrigin where
  | stub (flavor : Option Flavor)
  | fallback
deriving DecidableEq

/-- A call that has not returned, with what the use that made it goes on with. -/
structure Pending where
  callee : ObjectId
  body : BodyId
  this : Value
  args : List Value
  cache : CacheId
  index : Nat
  /-- The type guards that the entry had when the use began. -/
  guards : List TypeGuard
  origin : CallOrigin

/-- A use of an entry, as far as it comes by itself. It calls at most one function of the host. Up to
the call it is `begin`, and from the return on it is `finish`; while the function runs the state is for
all to see, and the function may use the same entry again. -/
inductive Use (σ : Type) where
  | answered (result : Except VmError Value) (w : World σ)
  | called (p : Pending) (w : World σ)

namespace World

variable {σ : Type}

/-- The call of a function, counted as running. -/
def call (w : World σ) (p : Pending) : Use σ := .called p (w.mapHeap (enterCall · p.callee))

/-- The call that a stub makes, if it makes one. -/
def stubCall? (w : World σ) (c : CacheId) (index : Nat) (ops : Operands) (stub : Stub)
    (signature : Signature) : Option Pending :=
  match signature, stub.payload, ops with
  | .callFunction, .callee callee, .call _ this args =>
    (w.heap.object callee).function.map fun f =>
      ⟨callee, f.body, this, args, c, index, (w.cache c).monitorGuards index,
        .stub stub.kind.flavor?⟩
  | _, _, _ => none

/-- The call that a use makes which no stub answered, if it makes one. -/
def fallbackCall? (w : World σ) (c : CacheId) (index : Nat) (guards : List TypeGuard) (r : Request) :
    Option Pending :=
  match r with
  | .call (.object callee) this args =>
    (w.heap.object callee).function.map fun f =>
      ⟨callee, f.body, this, args, c, index, guards, .fallback⟩
  | _ => none

/-- The call that a use makes, with the state in which it makes it. -/
def callOf? (c : CacheId) (id : EntryId) (ops : Operands) (w : World σ) :
    Option (Pending × World σ) :=
  let cache := w.cache c
  match cache.owns id, (cache.site id.index).role with
  | true, .operation op =>
    match hit? w.heap ((cache.entry id.index).chain.stubs cache.arena) ops with
    | some (stub, signature) => (w.stubCall? c id.index ops stub signature).map fun p => (p, w)
    | none =>
      (op.request? ops).bind fun r =>
        let guards := cache.monitorGuards id.index
        let (_, w) := (w.enterFallback c id.index).attempt c id.index (r.decision w.heap)
        (w.fallbackCall? c id.index guards r).map fun p => (p, w)
  | _, _ => none

/-- A use of an entry up to the call that it makes, or up to its end. -/
def begin (c : CacheId) (id : EntryId) (ops : Operands) (w : World σ) : Use σ :=
  match callOf? c id ops w with
  | some (p, w) => w.call p
  | none =>
    let (result, w) := dispatch .absent c id ops w
    .answered result w

/-- The rest of a use, once the function that it called has returned. -/
def finish (w : World σ) (p : Pending) (result : Except VmError Value) :
    Except VmError Value × World σ :=
  let w := w.mapHeap (leaveCall · p.callee)
  match result, p.origin with
  | .error e, _ => (.error e, w)
  | .ok v, .stub flavor =>
    let w := w.mapCounters p.cache fun n => { n with stubHits := n.stubHits + 1 }
    (.ok v, if flavor = some .monitored then w.recordResult p.cache p.index p.guards v else w)
  | .ok v, .fallback => (.ok v, w.recordResult p.cache p.index p.guards v)

/-- A use whose call, if it makes one, is run to its end. -/
def complete (natives : Natives σ) : Use σ → Except VmError Value × World σ
  | .answered result w => (result, w)
  | .called p w =>
    let (result, w) := natives p.body p.this p.args w
    w.finish p result

section
variable {w w₁ : World σ} {c : CacheId} {id : EntryId} {index : Nat} {ops : Operands} {p : Pending}

/-- A stub calls the function that it is for. -/
theorem stubCall?_cases {stub : Stub} {signature : Signature}
    (h : w.stubCall? c index ops stub signature = some p) :
    ∃ callee f value this args, signature = .callFunction ∧ stub.payload = .callee callee ∧
      ops = .call value this args ∧ (w.heap.object callee).function = some f ∧
      p = ⟨callee, f.body, this, args, c, index, (w.cache c).monitorGuards index,
        .stub stub.kind.flavor?⟩ := by
  unfold stubCall? at h
  split at h
  · next callee value this args hpayload =>
    obtain ⟨f, hf, rfl⟩ := Option.map_eq_some_iff.1 h
    exact ⟨callee, f, value, this, args, rfl, hpayload, rfl, hf, rfl⟩
  · cases h

/-- Without a stub it is a request for a call that makes one. -/
theorem fallbackCall?_cases {guards : List TypeGuard} {r : Request}
    (h : w.fallbackCall? c index guards r = some p) :
    ∃ callee f this args, r = .call (.object callee) this args ∧
      (w.heap.object callee).function = some f ∧
      p = ⟨callee, f.body, this, args, c, index, guards, .fallback⟩ := by
  unfold fallbackCall? at h
  split at h
  · next callee this args =>
    obtain ⟨f, hf, rfl⟩ := Option.map_eq_some_iff.1 h
    exact ⟨callee, f, this, args, rfl, hf, rfl⟩
  · cases h

/-- A call is made by the stub that answers a use of an operation, or after the attempt to attach one. -/
theorem callOf?_cases (h : callOf? c id ops w = some (p, w₁)) :
    ∃ op, (w.cache c).owns id = true ∧ ((w.cache c).site id.index).role = .operation op ∧
      ((∃ stub signature,
          hit? w.heap (((w.cache c).entry id.index).chain.stubs (w.cache c).arena) ops =
            some (stub, signature) ∧
          w.stubCall? c id.index ops stub signature = some p ∧ w₁ = w) ∨
        (hit? w.heap (((w.cache c).entry id.index).chain.stubs (w.cache c).arena) ops = none ∧
          ∃ r, op.request? ops = some r ∧
            w₁.fallbackCall? c id.index ((w.cache c).monitorGuards id.index) r = some p ∧
            w₁ = ((w.enterFallback c id.index).attempt c id.index (r.decision w.heap)).2)) := by
  unfold callOf? at h
  dsimp only at h
  split at h
  · next op hown hrole =>
    refine ⟨op, hown, hrole, ?_⟩
    split at h
    · next stub signature hhit =>
      obtain ⟨q, hq, heq⟩ := Option.map_eq_some_iff.1 h
      cases heq
      exact .inl ⟨stub, signature, hhit, hq, rfl⟩
    · next hhit =>
      obtain ⟨r, hr, hr'⟩ := Option.bind_eq_some_iff.1 h
      obtain ⟨q, hq, heq⟩ := Option.map_eq_some_iff.1 hr'
      cases heq
      exact .inr ⟨hhit, r, hr, hq, rfl⟩
  · cases h

end

/-- Operands of a call write nothing. -/
theorem recordStubWrite_call (w : World σ) (c : CacheId) (op : SiteOperation) (callee this : Value)
    (args : List Value) : w.recordStubWrite c op (.call callee this args) = w := by
  unfold recordStubWrite
  split
  · next h => cases h
  · rfl

theorem callObject_of_function {w : World σ} {id : ObjectId} {f : NativeFunction}
    (hf : (w.heap.object id).function = some f) (natives : Natives σ) (this : Value)
    (args : List Value) :
    w.callObject natives id this args =
      ((natives f.body this args (w.mapHeap (enterCall · id))).1,
        (natives f.body this args (w.mapHeap (enterCall · id))).2.mapHeap (leaveCall · id)) := by
  simp only [callObject, hf]

/-- A stub that makes no call does the same whatever the native functions are. -/
theorem runStub_of_no_call {w : World σ} {c : CacheId} {index : Nat} {ops : Operands} {stub : Stub}
    {signature : Signature} (hcall : w.stubCall? c index ops stub signature = none)
    (natives : Natives σ) (guards : List TypeGuard) (op : SiteOperation) :
    runStub natives c index guards op ops stub signature w =
      runStub .absent c index guards op ops stub signature w := by
  by_cases hsig : signature = .callFunction
  · subst hsig
    have hrun (w' : World σ) (hheap : w'.heap = w.heap) :
        Handler.run natives .callFunction stub ops w' = Handler.run .absent .callFunction stub ops w' := by
      change Handler.callFunction natives w' stub.payload ops =
        Handler.callFunction .absent w' stub.payload ops
      unfold stubCall? at hcall
      unfold Handler.callFunction
      split
      · next callee _ this args hpayload =>
        simp only [hpayload, Option.map_eq_none_iff] at hcall
        rw [callObject, callObject, hheap, hcall]
      · rfl
      · rfl
    cases ops with
    | call callee this args => simp only [runStub, recordStubWrite_call, ite_self, hrun w rfl]
    | _ =>
      have hargs (w' : World σ) (natives natives' : Natives σ) (ops : Operands)
          (hops : ∀ callee this args, ops ≠ .call callee this args) :
          Handler.callFunction natives w' stub.payload ops =
            Handler.callFunction natives' w' stub.payload ops := by
        unfold Handler.callFunction
        split
        · next h => exact absurd rfl (hops _ _ _)
        · rfl
        · rfl
      simp only [runStub, Handler.run]
      rw [hargs _ natives .absent _ (by simp)]
  · simp only [runStub]
    obtain ⟨result, hresult⟩ := Handler.run_eq_commit hsig stub ops
      (if stub.kind.flavor? = some .updated then w.recordStubWrite c op ops else w)
    rw [hresult, hresult]

/-- A request that makes no call comes to the same whatever the native functions are. -/
theorem perform_of_no_call {w : World σ} {c : CacheId} {index : Nat} {guards : List TypeGuard}
    {r : Request} (hcall : w.fallbackCall? c index guards r = none) (natives : Natives σ) :
    r.perform natives w = r.perform .absent w := by
  rcases r.outcome?_cases with ⟨callee, this, args, rfl⟩ | houtcome
  · change w.callValue natives callee this args = w.callValue .absent callee this args
    unfold callValue
    cases hf : callee.asObject?.filter fun id => (w.heap.object id).isCallable with
    | none => rfl
    | some id =>
      obtain ⟨hid, hcallable⟩ := Option.filter_eq_some_iff.1 hf
      cases callee <;> cases hid
      simp only [fallbackCall?, Option.map_eq_none_iff] at hcall
      rw [Object.isCallable, hcall] at hcallable
      cases hcallable
  · obtain ⟨result, h⟩ := houtcome w.heap
    rw [Request.perform_of_outcome natives h, Request.perform_of_outcome .absent h]

/-- Requests that are settled after the operation or before it, and that make no call. -/
theorem fallback_of_no_call {w : World σ} {c : CacheId} {index : Nat} {op : SiteOperation}
    {ops : Operands} {guards : List TypeGuard}
    (hcall : ∀ r, op.request? ops = some r → (((w.enterFallback c index).attempt c index
      (r.decision w.heap)).2.fallbackCall? c index guards r) = none) (natives : Natives σ) :
    fallback natives c index guards op ops w = fallback .absent c index guards op ops w := by
  simp only [fallback]
  cases hr : op.request? ops with
  | none => rfl
  | some r =>
    have hnone := hcall r hr
    dsimp only
    split
    · next hafter =>
      have hperform : ∀ w' : World σ, r.perform natives w' = r.perform .absent w' := by
        intro w'
        cases r with
        | call callee this args => cases hafter
        | _ => exact perform_of_no_call (rfl : w'.fallbackCall? c index guards _ = none) natives
      simp only [performThenAttach, hperform]
    · have hheap : (w.enterFallback c index).heap = w.heap := rfl
      simp only [attachThenPerform, hheap]
      rcases r.outcome?_cases with ⟨callee, this, args, rfl⟩ | houtcome
      · simp only [Request.write?, performThenSettle, perform_of_no_call hnone natives]
      · have hperform : ∀ w' : World σ, r.perform natives w' = r.perform .absent w' := by
          intro w'
          obtain ⟨result, h⟩ := houtcome w'.heap
          rw [Request.perform_of_outcome natives h, Request.perform_of_outcome .absent h]
        simp only [performThenSettle, hperform]

theorem call_decision_ne_deferred (h : Heap) (callee : Value) :
    Specialize.call h callee ≠ .deferred := by
  unfold Specialize.call
  split
  · dsimp only
    split
    · simp
    · split <;> simp [Decision.monitored]
  · simp

/-- The result of a call is never settled, only shown to the type guards. -/
theorem fallback_of_call {w : World σ} {c : CacheId} {index : Nat} {op : SiteOperation}
    {ops : Operands} {guards : List TypeGuard} {callee : ObjectId} {this : Value}
    {args : List Value} (hr : op.request? ops = some (.call (.object callee) this args))
    {f : NativeFunction}
    (hf : (((w.enterFallback c index).attempt c index
      (Specialize.call w.heap (.object callee))).2.heap.object callee).function = some f)
    (natives : Natives σ) :
    fallback natives c index guards op ops w =
      complete natives (((w.enterFallback c index).attempt c index
        (Specialize.call w.heap (.object callee))).2.call
          ⟨callee, f.body, this, args, c, index, guards, .fallback⟩) := by
  have houtcome := attempt_outcome (w.enterFallback c index) c index
    (Specialize.call w.heap (.object callee))
  have hdeferred := call_decision_ne_deferred w.heap (.object callee)
  cases ha : (w.enterFallback c index).attempt c index
    (Specialize.call w.heap (.object callee)) with
  | mk outcome w₁ =>
  rw [ha] at hf houtcome
  have hne : outcome ≠ .deferred := by
    rcases houtcome with rfl | rfl
    · exact hdeferred
    · simp
  have ha' : (w.enterFallback c index).attempt c index
      (Request.decision (w.enterFallback c index).heap (.call (.object callee) this args)) =
      (outcome, w₁) := ha
  have hfilter : (Value.object callee).asObject?.filter (fun id => (w₁.heap.object id).isCallable) =
      some callee := by
    simp [Value.asObject?, Object.isCallable, hf]
  simp only [fallback, hr, Request.attachesAfter, Bool.false_eq_true, if_false, attachThenPerform, ha',
    Request.write?, performThenSettle, Request.perform, callValue, hfilter,
    callObject_of_function hf natives this args, World.call, complete, finish, hne]
  cases (natives f.body this args (w₁.mapHeap (enterCall · callee))).1 <;> rfl

/-- A stub that accepts the operands answers the use. -/
theorem dispatch_of_hit (natives : Natives σ) {c : CacheId} {id : EntryId} {ops : Operands}
    {w : World σ} (hown : (w.cache c).owns id = true) {op : SiteOperation}
    (hrole : ((w.cache c).site id.index).role = .operation op) {stub : Stub} {signature : Signature}
    (hhit : hit? w.heap (((w.cache c).entry id.index).chain.stubs (w.cache c).arena) ops =
      some (stub, signature)) :
    dispatch natives c id ops w = runStub natives c id.index
      ((w.cache c).monitorGuards id.index) op ops stub signature w := by
  simp only [dispatch, hown, if_true, dispatchEntry, hrole, hhit]

/-- Without such a stub the use goes the long way. -/
theorem dispatch_of_no_hit (natives : Natives σ) {c : CacheId} {id : EntryId} {ops : Operands}
    {w : World σ} (hown : (w.cache c).owns id = true) {op : SiteOperation}
    (hrole : ((w.cache c).site id.index).role = .operation op)
    (hhit : hit? w.heap (((w.cache c).entry id.index).chain.stubs (w.cache c).arena) ops = none) :
    dispatch natives c id ops w =
      fallback natives c id.index ((w.cache c).monitorGuards id.index) op ops w := by
  simp only [dispatch, hown, if_true, dispatchEntry, hrole, hhit]

/-- A use that makes no call comes to the same whatever the native functions are. -/
theorem dispatch_of_no_call {c : CacheId} {id : EntryId} {ops : Operands} {w : World σ}
    (hnone : callOf? c id ops w = none) (natives : Natives σ) :
    dispatch natives c id ops w = dispatch .absent c id ops w := by
  cases hown : (w.cache c).owns id with
  | false => simp [dispatch, hown]
  | true =>
    cases hrole : ((w.cache c).site id.index).role with
    | monitor => simp [dispatch, dispatchEntry, hrole]
    | loopCounter => simp [dispatch, dispatchEntry, hrole]
    | operation op =>
      cases hhit : hit? w.heap (((w.cache c).entry id.index).chain.stubs (w.cache c).arena) ops with
      | some found =>
        obtain ⟨stub, signature⟩ := found
        have hcall : w.stubCall? c id.index ops stub signature = none := by
          simpa [callOf?, hown, hrole, hhit] using hnone
        rw [dispatch_of_hit _ hown hrole hhit, dispatch_of_hit _ hown hrole hhit]
        exact runStub_of_no_call hcall natives _ op
      | none =>
        rw [dispatch_of_no_hit _ hown hrole hhit, dispatch_of_no_hit _ hown hrole hhit]
        refine fallback_of_no_call (fun r hr => ?_) natives
        simpa [callOf?, hown, hrole, hhit, hr] using hnone

/-- A use that makes a call goes on with what the function answers. -/
theorem dispatch_of_call {c : CacheId} {id : EntryId} {ops : Operands} {w w₁ : World σ} {p : Pending}
    (hcall : callOf? c id ops w = some (p, w₁)) (natives : Natives σ) :
    dispatch natives c id ops w = complete natives (w₁.call p) := by
  obtain ⟨op, hown, hrole, ⟨stub, signature, hhit, hstub, rfl⟩ | ⟨hhit, r, hr, hfallback, rfl⟩⟩ :=
    callOf?_cases hcall
  · rw [dispatch_of_hit _ hown hrole hhit]
    obtain ⟨callee, f, value, this, args, rfl, hpayload, rfl, hf, rfl⟩ := stubCall?_cases hstub
    simp only [runStub, recordStubWrite_call, ite_self, Handler.run, Handler.callFunction, hpayload,
      callObject_of_function hf natives this args, World.call, complete, finish]
    cases (natives f.body this args (w₁.mapHeap (enterCall · callee))).1 <;> rfl
  · rw [dispatch_of_no_hit _ hown hrole hhit]
    obtain ⟨callee, f, this, args, rfl, hf, rfl⟩ := fallbackCall?_cases hfallback
    exact fallback_of_call hr hf natives

/-- A use is what comes before its call, the call, and what comes after. -/
theorem dispatch_eq_complete (natives : Natives σ) (c : CacheId) (id : EntryId) (ops : Operands)
    (w : World σ) : dispatch natives c id ops w = complete natives (begin c id ops w) := by
  cases hcall : callOf? c id ops w with
  | none =>
    rw [dispatch_of_no_call hcall natives]
    simp only [begin, hcall, complete]
  | some found =>
    obtain ⟨p, w₁⟩ := found
    rw [dispatch_of_call hcall natives]
    simp only [begin, hcall]

end World

end InlineCache
