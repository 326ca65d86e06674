import InlineCache.Proofs.Entry.Failed
import InlineCache.Proofs.TypeChain.Edited

namespace InlineCache

namespace TypeChain

/-- Why a chain is not widened for a value that it should be widened for. -/
def refineError? (t : TypeChain) (h : Heap) (env : AttachEnv) (types : TypeSet) (v : Value) :
    Option CacheError :=
  if v = .magic .optimizedOut then none else CacheError.of? (t.widen h env types v).1

/-- Why a chain is not widened for a write that it is shown. Nothing is widened for a write that is
accepted at once, or that the layout implies. -/
def writeError? (t : TypeChain) (h : Heap) (env : AttachEnv) (group : GroupId) (key : PropertyKey)
    (v : Value) : Option CacheError :=
  if t.accepts h env.arena v || ((h.group group).fieldRepr? key).any (·.implicitlyCovers v) then none
  else
    let env := env.mapCounters fun c => { c with updateFallbackHits := c.updateFallbackHits + 1 }
    let h := h.addPropertyType group key v
    t.refineError? h env ((h.group group).propertyTypes key) v

/-- What becomes of a chain, and of what widening works on, by a widening that may have failed: memory
ran out where the failure says so, and the guards are the same after a failure. The new stub is built
and room is found for it before anything else is done. -/
structure Tried (failure : Option CacheError) (t : TypeChain) (env : AttachEnv) (t' : TypeChain)
    (env' : AttachEnv) : Prop where
  ranOut : env.RanOut env' (CacheError.shortage failure)
  unharmed : failure ≠ none → t' = t ∧ env'.arena = env.arena

variable {t t' : TypeChain} {env env' : AttachEnv} {heap heap' : Heap} {types types' : TypeSet}
  {v : Value}

private theorem tried_none (h : env.RanOut env' 0) : Tried none t env t' env' :=
  ⟨h, fun hfailed => absurd rfl hfailed⟩

private theorem refine_tried (h : t.refine heap env types v = (t', types', env'))
    (hw : env.arena.WellLinked)
    (hs : t.chain.Sound env.arena) : Tried (t.refineError? heap env types v) t env t' env' := by
  unfold refine at h
  unfold refineError?
  by_cases hv : v = .magic .optimizedOut
  · rw [if_pos hv] at h ⊢
    cases h
    exact tried_none (.refl env)
  · rw [if_neg hv] at h ⊢
    cases hr : t.widen heap env types v with
    | mk result r =>
    obtain ⟨t₁, types₁, env₁⟩ := r
    rw [hr] at h
    obtain ⟨-, ⟨rfl, rfl, rfl, -⟩ | ⟨edit, r, hperform, rfl, hsuits⟩⟩ := widen_cases hr
    · cases h
      exact tried_none (.refl _)
    · obtain ⟨-, houtcome⟩ := perform_spec hw hs hsuits.widens hperform
      cases houtcome with
      | done _ hran _ =>
        cases h
        refine tried_none ⟨?_, hran.reports⟩
        rw [← hran.recoveries]
        cases t'.role <;> rfl
      | @failed e _ hsame hran _ =>
        cases h
        have hreport := hran.trans (env₁.ranOut_reportFailure e)
        rw [Nat.zero_add] at hreport
        exact ⟨hreport, fun _ => ⟨rfl, (env₁.sameStubs_reportFailure e).arena.trans hsame.arena⟩⟩

/-- What else is counted before a widening is no matter of stubs. -/
theorem Tried.after {failure : Option CacheError} {env₁ : AttachEnv} (h : Tried failure t env₁ t' env')
    (hsame : env.RanOut env₁ 0) (harena : env₁.arena = env.arena) : Tried failure t env t' env' where
  ranOut := by
    have hran := hsame.trans h.ranOut
    rwa [Nat.zero_add] at hran
  unharmed hfailed := ⟨(h.unharmed hfailed).1, (h.unharmed hfailed).2.trans harena⟩

theorem recordWrite_tried {group : GroupId} {key : PropertyKey} {accepted : Bool}
    (h : t.recordWrite heap env group key v = (accepted, t', heap', env')) (hw : env.arena.WellLinked)
    (hs : t.chain.Sound env.arena) : Tried (t.writeError? heap env group key v) t env t' env' := by
  unfold recordWrite at h
  unfold writeError?
  split at h
  · next haccepts =>
    cases h
    rw [haccepts, Bool.true_or, if_pos rfl]
    exact tried_none (.refl env)
  · next haccepts =>
    rw [Bool.eq_false_iff.2 haccepts, Bool.false_or]
    dsimp only at h ⊢
    split at h
    · next himplied =>
      cases h
      rw [if_pos himplied]
      exact tried_none ⟨rfl, rfl⟩
    · next himplied =>
      rw [if_neg himplied]
      cases hr : t.refine (heap.addPropertyType group key v) (env.mapCounters fun c =>
        { c with updateFallbackHits := c.updateFallbackHits + 1 })
        (((heap.addPropertyType group key v).group group).propertyTypes key) v with
      | mk t₁ r =>
      obtain ⟨types, env₁⟩ := r
      rw [hr] at h
      cases h
      exact (refine_tried hr hw hs).after ⟨rfl, rfl⟩ rfl

end TypeChain

namespace Monitor

/-- Why a watch is not widened for a result that it is shown. -/
def recordError? (m : Monitor) (h : Heap) (env : AttachEnv) (v : Value) : Option CacheError :=
  let env := env.mapCounters fun c => { c with monitorFallbackHits := c.monitorFallbackHits + 1 }
  m.chain.refineError? h env (m.types.addValue h.objectKey v) v

theorem record_tried {m m' : Monitor} {env env' : AttachEnv} {heap : Heap} {v : Value}
    (h : m.record heap env v = (m', env')) (hw : env.arena.WellLinked)
    (hs : m.chain.chain.Sound env.arena) :
    TypeChain.Tried (m.recordError? heap env v) m.chain env m'.chain env' :=
  (TypeChain.refine_tried (refine_of_record h) hw hs).after ⟨rfl, rfl⟩ rfl

end Monitor

end InlineCache
