import InlineCache.Proofs.Heap.Calls
import InlineCache.Proofs.Machine.Work
import InlineCache.Proofs.Stub.Touched

namespace InlineCache

open Heap

variable {σ : Type}

private theorem Heap.Touched.sameCalls {h h' : Heap} (htouched : h.Touched h') : h.SameCalls h' := by
  cases htouched with
  | same => exact .refl h
  | setSlot id _ _ | setElement id _ _ | setElementCount id _ =>
    exact sameCalls_modifyObject h id fun _ => rfl
  | setNamed id key v => exact sameCalls_setNamed h id key v
  | addSlot id old next v => exact sameCalls_addSlot h id old next v
  | newArrayIterator target => exact sameCalls_newArrayIterator h target
  | call id hcallable => exact World.sameCalls_enter_leave hcallable

namespace World

variable {w w' : World σ} {c : CacheId} {index : Nat} {p : Pending}

theorem sameCalls_recordWrite (w : World σ) (c : CacheId) (group : GroupId) (key : PropertyKey) (v : Value) :
    w.heap.SameCalls (w.recordWrite c group key v).2.heap :=
  sameCalls_of_seen (seen_recordWrite w c group key v)

private theorem heap_ite_recordResult (w : World σ) (c : CacheId) (index : Nat)
    (guards : List TypeGuard) (v : Value)
    (b : Prop) [Decidable b] : (if b then w.recordResult c index guards v else w).heap = w.heap := by
  split
  · exact heap_recordResult w c index guards v
  · rfl

private theorem sameCalls_runStub (w : World σ) (c : CacheId) (index : Nat) (guards : List TypeGuard)
    (op : SiteOperation) (ops : Operands) (stub : Stub) (signature : Signature) :
    w.heap.SameCalls (runStub .absent c index guards op ops stub signature w).2.heap := by
  have hshown : w.heap.SameCalls
      (if stub.kind.flavor? = some .updated then w.recordStubWrite c op ops else w).heap := by
    split
    · rw [recordStubWrite_eq]
      exact sameCalls_of_seen (seen_showWrite w c _)
    · exact .refl _
  unfold runStub
  dsimp only
  generalize (if stub.kind.flavor? = some .updated then w.recordStubWrite c op ops else w) = w₁ at hshown ⊢
  have hrun := (Handler.touched_run signature stub ops w₁).sameCalls
  generalize Handler.run .absent signature stub ops w₁ = ran at hrun ⊢
  obtain ⟨result, w₂⟩ := ran
  cases result with
  | error e => exact hshown.trans hrun
  | ok v =>
    rw [heap_ite_recordResult]
    exact hshown.trans hrun

private theorem sameCalls_performThenAttach (w : World σ) (c : CacheId) (index : Nat) (r : Request) :
    w.heap.SameCalls (performThenAttach .absent c index r w).2.heap := by
  have hperform := (touched_perform w r).sameCalls
  unfold performThenAttach
  generalize r.perform .absent w = performed at hperform ⊢
  obtain ⟨result, w₁⟩ := performed
  cases result with
  | error e => exact hperform
  | ok v =>
    dsimp only
    split
    · exact hperform
    · exact hperform

private theorem sameCalls_performThenSettle (w : World σ) (c : CacheId) (index : Nat)
    (guards : List TypeGuard) (r : Request) (outcome : Decision) :
    w.heap.SameCalls (performThenSettle .absent c index guards r outcome w).2.heap := by
  have hperform := (touched_perform w r).sameCalls
  unfold performThenSettle
  generalize r.perform .absent w = performed at hperform ⊢
  obtain ⟨result, w₁⟩ := performed
  cases result with
  | error e => exact hperform
  | ok v =>
    dsimp only
    rw [heap_ite_recordResult]
    split
    · exact hperform
    · exact hperform

private theorem sameCalls_attachThenPerform (w : World σ) (c : CacheId) (index : Nat)
    (guards : List TypeGuard)
    (r : Request) : w.heap.SameCalls (attachThenPerform .absent c index guards r w).2.heap := by
  have htried : (w.attempt c index (r.decision w.heap)).2.heap = w.heap := rfl
  unfold attachThenPerform
  generalize w.attempt c index (r.decision w.heap) = tried at htried ⊢
  obtain ⟨outcome, w₁⟩ := tried
  dsimp only at htried ⊢
  rw [← htried]
  cases r.write? w₁.heap with
  | error e => exact .refl _
  | ok write =>
    cases write with
    | none => exact sameCalls_performThenSettle w₁ c index guards r outcome
    | some written =>
      exact (sameCalls_recordWrite w₁ c _ _ _).trans (sameCalls_performThenSettle _ c index guards r outcome)

private theorem sameCalls_fallback (w : World σ) (c : CacheId) (index : Nat) (guards : List TypeGuard)
    (op : SiteOperation) (ops : Operands) :
    w.heap.SameCalls (fallback .absent c index guards op ops w).2.heap := by
  have henter : (w.enterFallback c index).heap = w.heap := rfl
  unfold fallback
  dsimp only
  rw [← henter]
  generalize w.enterFallback c index = w₁
  split
  · exact .refl _
  · next r _ =>
    split
    · exact sameCalls_performThenAttach w₁ c index r
    · exact sameCalls_attachThenPerform w₁ c index guards r

/-- A use whose call is refused leaves the counts alone. -/
theorem sameCalls_dispatch (w : World σ) (c : CacheId) (id : EntryId) (ops : Operands) :
    w.heap.SameCalls (dispatch .absent c id ops w).2.heap := by
  unfold dispatch
  split
  · unfold dispatchEntry
    dsimp only
    split
    · split
      · unfold watch
        split
        · exact .refl _
        · rw [heap_recordResult]
          exact .refl _
      · exact .refl _
    · exact .refl _
    · split
      · exact sameCalls_runStub w c _ _ _ ops _ _
      · exact sameCalls_fallback w c _ _ _ ops
  · exact .refl _

/-- A use that makes a call adds it to the count of a function, and changes nothing of the heap before. -/
theorem heap_begin_called {id : EntryId} {ops : Operands} (hbegin : begin c id ops w = .called p w') :
    (w.heap.object p.callee).isCallable = true ∧ w'.heap = enterCall w.heap p.callee := by
  unfold begin at hbegin
  split at hbegin
  · next q w₁ hcall =>
    cases hbegin
    obtain ⟨op, -, -, ⟨stub, signature, -, hstub, rfl⟩ | ⟨-, r, -, hfallback, rfl⟩⟩ := callOf?_cases hcall
    · obtain ⟨callee, f, value, this, args, -, -, -, hf, rfl⟩ := stubCall?_cases hstub
      refine ⟨?_, rfl⟩
      rw [Object.isCallable, hf]
      rfl
    · obtain ⟨callee, f, this, args, -, hf, rfl⟩ := fallbackCall?_cases hfallback
      refine ⟨?_, rfl⟩
      have hheap : (((w.enterFallback c id.index).attempt c id.index (r.decision w.heap)).2).heap = w.heap :=
        rfl
      rw [hheap] at hf
      rw [Object.isCallable, hf]
      rfl
  · cases hbegin

theorem sameCalls_begin_answered {id : EntryId} {ops : Operands} {result : Except VmError Value}
    (hbegin : begin c id ops w = .answered result w') : w.heap.SameCalls w'.heap := by
  unfold begin at hbegin
  split at hbegin
  · cases hbegin
  · cases hbegin
    exact sameCalls_dispatch w c id ops

/-- The rest of a use takes its call off, whether it came to a result or to an error. -/
theorem heap_finish (w : World σ) (p : Pending) (result : Except VmError Value) :
    (w.finish p result).2.heap = leaveCall w.heap p.callee := by
  unfold finish
  dsimp only
  split
  · rfl
  · rw [heap_ite_recordResult]
    rfl
  · rw [heap_recordResult]
    rfl

end World

end InlineCache
