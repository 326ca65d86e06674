import InlineCache.Proofs.Request.Kind
import InlineCache.Proofs.Stub.Accepts
import InlineCache.Proofs.World.Within

namespace InlineCache

/-- Whether the use of an entry that no stub answers gets to attach a stub. Where that is only tried once
the operation has run, the operation has to succeed. -/
def Request.getsToAttach (h : Heap) (r : Request) : Bool :=
  !r.attachesAfter || (r.outcome? h).any (·.isOk)

/-- Where a stub is attached only afterwards, the heap tells nothing about it. -/
theorem Request.decision_of_attachesAfter {r : Request} (hafter : r.attachesAfter = true) (h h' : Heap) :
    r.decision h = r.decision h' ∧ r.decision h ≠ .deferred := by
  refine ⟨?_, fun hdeferred => ?_⟩
  · cases r <;> first | rfl | cases hafter
  · rcases write_of_deferred hdeferred with ⟨id, key, v, rfl⟩ | ⟨id, key, v, rfl⟩ <;> cases hafter

namespace World

variable {σ : Type} {c : CacheId} {index : Nat} {w w' : World σ} {h : Heap} {r : Request}

/-- Where a use works that shows a write, apart from the stubs of the entry. -/
def Beside (index : Nat) (write : Option (GroupId × PropertyKey × Value)) (p : ChainPlace) : Prop :=
  p = .monitor index ∨ ∃ group key v, write = some (group, key, v) ∧ p = .update group key

/-- The request for which a use gets to attach a stub. -/
def attaching? (c : CacheId) (id : EntryId) (ops : Operands) (w : World σ) : Option Request :=
  match (w.cache c).owns id, ((w.cache c).site id.index).role with
  | true, .operation op =>
    match hit? w.heap (((w.cache c).entry id.index).chain.stubs (w.cache c).arena) ops with
    | some _ => none
    | none => (op.request? ops).filter (·.getsToAttach w.heap)
  | _, _ => none

/-- `w'` is what became of `w` by a use that gets to attach a stub for a request, or by one that does
not. What is decided is decided on a given heap. A use does nothing about the stubs of its entry, or
makes one attempt to attach one, which is settled later if it has to wait for the outcome of the
operation. All else it does beside the stubs. -/
inductive Course (c : CacheId) (index : Nat) (write : Option (GroupId × PropertyKey × Value)) (h : Heap) :
    Option Request → World σ → World σ → Prop where
  | aside {w w' : World σ} (hwithin : Within c (Beside index write) w w') :
      Course c index write h none w w'
  /-- One attempt, which need not be settled. -/
  | attempt {r : Request} {w w₁ w' : World σ} (hbefore : Within c (Beside index write) w w₁)
      (hdecided : w₁.DecidedFor c index (r.decision h))
      (hdone : (w₁.attempt c index (r.decision h)).1 ≠ .deferred)
      (hafter : Within c (Beside index write) (w₁.attempt c index (r.decision h)).2 w') :
      Course c index write h (some r) w w'
  /-- An attempt that has to wait until the operation has run, which it does with success. -/
  | settle {r : Request} {h₁ h₂ : Heap} {v : Value} {w w₁ w₂ w' : World σ}
      (hbefore : Within c (Beside index write) w w₁)
      (hdecided : w₁.DecidedFor c index (r.decision h))
      (hwaits : (w₁.attempt c index (r.decision h)).1 = .deferred)
      (hperformed : Within c (Beside index write) (w₁.attempt c index (r.decision h)).2 w₂)
      (hseen : h₁.seen = h.seen) (houtcome : r.outcome? h₁ = some (.ok (v, h₂)))
      (hsecond : w₂.DecidedFor c index (r.secondLook h₁ h₂))
      (hafter : Within c (Beside index write) (w₂.settle c index (r.secondLook h₁ h₂)) w') :
      Course c index write h (some r) w w'

/-- All that a use does to its unit is work on the stubs of the entry or beside them. -/
theorem Course.within {write : Option (GroupId × PropertyKey × Value)} {request : Option Request}
    (hat : w.At c index) (hcourse : Course c index write h request w w') :
    Within c (fun p => p = .main index ∨ Beside index write p) w w' := by
  have hc := hat.hasCache
  have hmain {w w' : World σ} (hwithin : Within c (· = .main index) w w') :
      Within c (fun p => p = .main index ∨ Beside index write p) w w' :=
    hwithin.mono fun _ => .inl
  have hbeside {w w' : World σ} (hwithin : Within c (Beside index write) w w') :
      Within c (fun p => p = .main index ∨ Beside index write p) w w' :=
    hwithin.mono fun _ => .inr
  cases hcourse with
  | aside hwithin => exact hbeside hwithin
  | attempt hbefore hdecided _ hafter =>
    have htried := within_attempt (hat.within hbefore) hdecided
    exact ((hbeside hbefore).trans hc (hmain htried)).trans hc (hbeside hafter)
  | settle hbefore hdecided _ hperformed _ _ hsecond hafter =>
    have htried := within_attempt (hat.within hbefore) hdecided
    have hfirst := ((hbeside hbefore).trans hc (hmain htried)).trans hc (hbeside hperformed)
    exact (hfirst.trans hc (hmain (within_settle (hat.within hfirst) hsecond))).trans hc (hbeside hafter)

/-- Work beside the stubs may come before. -/
theorem Course.after {write : Option (GroupId × PropertyKey × Value)} {request : Option Request}
    {w₀ : World σ} (hc : w₀.HasCache c) (hfirst : Within c (Beside index write) w₀ w)
    (hcourse : Course c index write h request w w') : Course c index write h request w₀ w' := by
  cases hcourse with
  | aside hwithin => exact .aside (hfirst.trans hc hwithin)
  | attempt hbefore hdecided hdone hafter =>
    exact .attempt (hfirst.trans hc hbefore) hdecided hdone hafter
  | settle hbefore hdecided hwaits hperformed hseen houtcome hsecond hafter =>
    exact .settle (hfirst.trans hc hbefore) hdecided hwaits hperformed hseen houtcome hsecond hafter

/-- An attempt is deferred only if that was decided. -/
theorem deferred_of_attempt {decision : Decision} (hwaits : (w.attempt c index decision).1 = .deferred) :
    decision = .deferred := by
  rcases attempt_outcome w c index decision with heq | heq
  · exact heq.symm.trans hwaits
  · rw [hwaits] at heq
    cases heq

/-- What is decided at an operation is about it. -/
theorem decidedFor_of_specialized (hat : w.At c index) {op : SiteOperation}
    (hrole : ((w.cache c).site index).role = .operation op) (hw : Works .open False True c w w')
    {decision : Decision} {flavor : Flavor} (hdecision : decision.Specialized flavor) :
    w'.DecidedFor c index decision :=
  fun _ hrecipe => .works hat hrole hw ⟨flavor, hdecision.recipe hrecipe⟩

private theorem within_result (hat : w.At c index) (write : Option (GroupId × PropertyKey × Value))
    (guards : List TypeGuard) (v : Value) (b : Prop) [Decidable b] :
    Within c (Beside index write) w (if b then w.recordResult c index guards v else w) := by
  split
  · exact (within_recordResult hat guards v).mono fun _ => .inl
  · exact .refl _ _ _

/-- A use that a stub answers by itself does nothing about the stubs. -/
theorem within_runStub (hat : w.At c index) {op : SiteOperation} {ops : Operands} {stub : Stub}
    {signature : Signature} (guards : List TypeGuard)
    (hcall : w.stubCall? c index ops stub signature = none) :
    Within c (Beside index
        (if stub.kind.flavor? = some .updated then stubWrite? w.heap op ops else none)) w
      (runStub .absent c index guards op ops stub signature w).2 := by
  have hc := hat.hasCache
  have hshow : (if stub.kind.flavor? = some .updated then w.recordStubWrite c op ops else w) =
      w.showWrite c (if stub.kind.flavor? = some .updated then stubWrite? w.heap op ops else none) := by
    split
    · exact recordStubWrite_eq w c op ops
    · rfl
  generalize (if stub.kind.flavor? = some .updated then stubWrite? w.heap op ops else none) =
    write at hshow ⊢
  have hwritten : Within c (Beside index write) w (w.showWrite c write) :=
    (within_showWrite hc hat.linked write).mono fun _ => .inr
  have hat₁ := hat.showWrite write
  obtain ⟨result, hresult⟩ := run_absent_eq_commit hcall (seen_showWrite w c write)
  simp only [runStub, hshow, hresult]
  cases result with
  | error e => exact hwritten
  | ok p =>
    obtain ⟨v, h⟩ := p
    dsimp only [commit]
    have hheap : Within c (Beside index write) (w.showWrite c write)
        { w.showWrite c write with heap := h } := within_heap c
    have hcount := hheap.trans hat₁.hasCache (within_mapCounters (f := fun n =>
      { n with stubHits := n.stubHits + 1 }) (hat₁.within hheap).hasCache (fun _ => rfl) (fun _ => rfl)
        fun _ => rfl)
    exact (hwritten.trans hc hcount).trans hc (within_result (hat₁.within hcount) _ guards v _)

/-- A stub that is attached only afterwards. -/
theorem course_performThenAttach (hat : w.At c index) {op : SiteOperation}
    (hrole : ((w.cache c).site index).role = .operation op)
    (hspecialized : ∀ h, (r.decision h).Specialized op.flavor) (hafter : r.attachesAfter = true)
    (write : Option (GroupId × PropertyKey × Value)) :
    Course c index write w.heap (if r.getsToAttach w.heap then some r else none) w
      (performThenAttach .absent c index r w).2 := by
  have hc := hat.hasCache
  obtain ⟨result, houtcome⟩ : ∃ result, r.outcome? w.heap = some result := by
    rcases r.outcome?_cases with ⟨callee, this, args, rfl⟩ | houtcome
    · cases hafter
    · exact houtcome w.heap
  simp only [performThenAttach, Request.perform_of_outcome .absent houtcome, Request.getsToAttach, hafter,
    houtcome, Bool.not_true, Bool.false_or, Option.any_some]
  cases result with
  | error e => exact .aside (.refl _ _ _)
  | ok p =>
    obtain ⟨v, h⟩ := p
    dsimp only [commit, Except.isOk, Except.toBool]
    have hheap : Within c (Beside index write) w { w with heap := h } := within_heap c
    have hnote : Within c (Beside index write) { w with heap := h } ({ w with heap := h }.mapEntry c index
        fun entry => { entry with sawDouble := true }) :=
      (within_mapEntry (f := fun entry => { entry with sawDouble := true }) (hat.within hheap)
        (fun _ => rfl) (fun _ => rfl) fun _ => rfl).mono fun _ => .inl
    have hnoted : Within c (Beside index write) w (if r.gaveDouble v then
        { w with heap := h }.mapEntry c index fun entry => { entry with sawDouble := true }
        else { w with heap := h }) := by
      split
      · exact hheap.trans hc hnote
      · exact hheap
    generalize (if r.gaveDouble v then
        { w with heap := h }.mapEntry c index fun entry => { entry with sawDouble := true }
        else { w with heap := h }) = w₁ at hnoted
    obtain ⟨hsame, hne⟩ := Request.decision_of_attachesAfter hafter w.heap w₁.heap
    rw [← hsame]
    exact .attempt hnoted (decidedFor_of_specialized hat hrole hnoted.works (hspecialized _))
      (mt deferred_of_attempt hne) (.refl _ _ _)

/-- Performing an operation of which nothing is left to settle. -/
theorem within_performThenSettle (hat : w.At c index) (write : Option (GroupId × PropertyKey × Value))
    (guards : List TypeGuard) (hcall : w.fallbackCall? c index guards r = none) {outcome : Decision}
    (hdone : outcome ≠ .deferred) :
    Within c (Beside index write) w (performThenSettle .absent c index guards r outcome w).2 := by
  obtain ⟨result, hperform, -⟩ := perform_absent_eq_commit hcall
  simp only [performThenSettle, hperform, hdone, if_false]
  cases result with
  | error e => exact .refl _ _ _
  | ok p =>
    obtain ⟨v, h⟩ := p
    have hheap : Within c (Beside index write) w { w with heap := h } := within_heap c
    exact hheap.trans hat.hasCache (within_result (hat.within hheap) write guards v _)

/-- What is left of a use once a stub was attempted: to perform the operation, and to settle the attempt if
it has to wait. -/
theorem course_performThenSettle (hat : w.At c index) {op : SiteOperation}
    (hrole : ((w.cache c).site index).role = .operation op) (guards : List TypeGuard)
    (hspecialized : ∀ h, (r.decision h).Specialized op.flavor)
    (hsecond : ∀ h h', (r.secondLook h h').Specialized op.flavor)
    {write : Option (GroupId × PropertyKey × Value)} {w₂ : World σ}
    (hshown : Within c (Beside index write) (w.attempt c index (r.decision w.heap)).2 w₂)
    (hseen : w₂.heap.seen = w.heap.seen) (hcall : w₂.fallbackCall? c index guards r = none) :
    Course c index write w.heap (some r) w
      (performThenSettle .absent c index guards r (w.attempt c index (r.decision w.heap)).1 w₂).2 := by
  have hc := hat.hasCache
  have hstart : Within c (Beside index write) w w := .refl _ _ _
  have hdecided := decidedFor_of_specialized hat hrole hstart.works (hspecialized w.heap)
  have htried := within_attempt hat hdecided
  have hat₁ := hat.within htried
  by_cases hdeferred : (w.attempt c index (r.decision w.heap)).1 = .deferred
  · obtain ⟨-, v, h, houtcome⟩ := Request.succeeds_of_deferred hseen (deferred_of_attempt hdeferred)
    have hperformed : Within c (Beside index write) (w.attempt c index (r.decision w.heap)).2
        { w₂ with heap := h } := hshown.trans hat₁.hasCache (within_heap c)
    have hat₃ := hat₁.within hperformed
    have hsettled := decidedFor_of_specialized hat hrole
      (htried.works.trans hc hperformed.works) (hsecond w₂.heap h)
    have hat₄ := hat₃.within (within_settle hat₃ hsettled)
    simp only [performThenSettle, Request.perform_of_outcome .absent houtcome, commit, hdeferred,
      if_true]
    exact .settle hstart hdecided hdeferred hperformed hseen houtcome hsettled
      (within_result hat₄ write guards v _)
  · exact .attempt hstart hdecided hdeferred (hshown.trans hat₁.hasCache
      (within_performThenSettle (hat₁.within hshown) write guards hcall hdeferred))

/-- A stub that is attached before the operation runs, or settled afterwards. -/
theorem course_attachThenPerform (hat : w.At c index) {op : SiteOperation}
    (hrole : ((w.cache c).site index).role = .operation op) (guards : List TypeGuard)
    (hspecialized : ∀ h, (r.decision h).Specialized op.flavor)
    (hsecond : ∀ h h', (r.secondLook h h').Specialized op.flavor)
    (hcall : (w.attempt c index (r.decision w.heap)).2.fallbackCall? c index guards r = none) :
    Course c index (r.shownWrite? w.heap) w.heap (some r) w
      (attachThenPerform .absent c index guards r w).2 := by
  have hstart : Within c (Beside index (r.shownWrite? w.heap)) w w := .refl _ _ _
  have hdecided := decidedFor_of_specialized hat hrole hstart.works (hspecialized w.heap)
  have hat₁ := hat.within (within_attempt hat hdecided)
  have hheap : (w.attempt c index (r.decision w.heap)).2.heap = w.heap := rfl
  simp only [attachThenPerform, hheap]
  cases hwrite : r.write? w.heap with
  | error e =>
    -- a write that has to wait is one that succeeds
    refine .attempt hstart hdecided (fun hdeferred => ?_) (.refl _ _ _)
    obtain ⟨⟨write, hwrite'⟩, -⟩ := Request.succeeds_of_deferred rfl (deferred_of_attempt hdeferred)
    rw [hwrite] at hwrite'
    cases hwrite'
  | ok write =>
    have hshown : r.shownWrite? w.heap = write := by
      rw [Request.shownWrite?, hwrite]
      cases write <;> rfl
    let w₂ := (w.attempt c index (r.decision w.heap)).2.showWrite c write
    have hseen : w₂.heap.seen = w.heap.seen := seen_showWrite _ c write
    have hnone : w₂.fallbackCall? c index guards r = none := by
      rw [← hcall]
      unfold fallbackCall?
      split
      · rw [Heap.object_eq_of_seen hseen]
        rfl
      · rfl
    rw [hshown]
    exact course_performThenSettle hat hrole guards hspecialized hsecond
      ((within_showWrite hat₁.hasCache hat₁.linked write).mono fun _ => .inr) hseen hnone

/-- A use that no stub answers and that makes no call. -/
theorem course_fallback (hat : w.At c index) {op : SiteOperation}
    (hrole : ((w.cache c).site index).role = .operation op) {ops : Operands} (guards : List TypeGuard)
    (hcall : ∀ r, op.request? ops = some r → (((w.enterFallback c index).attempt c index
      (r.decision w.heap)).2.fallbackCall? c index guards r) = none) :
    Course c index ((op.request? ops).bind (·.shownWrite? w.heap)) w.heap
      ((op.request? ops).filter (·.getsToAttach w.heap)) w
      (fallback .absent c index guards op ops w).2 := by
  have hc := hat.hasCache
  have henter {write : Option (GroupId × PropertyKey × Value)} :
      Within c (Beside index write) w (w.enterFallback c index) :=
    (within_enterFallback hat).mono fun _ => .inl
  have hat₁ := hat.within (within_enterFallback hat)
  have hrole₁ : (((w.enterFallback c index).cache c).site index).role = .operation op := by
    rw [(within_enterFallback hat).works.site_eq hat, hrole]
  simp only [fallback]
  cases hr : op.request? ops with
  | none => exact .aside henter
  | some r =>
    obtain ⟨rfl, rfl⟩ := Request.eq_of_request? hr
    refine Course.after hc henter ?_
    dsimp only [Option.bind_some]
    by_cases hafter : r.attachesAfter = true
    · rw [Option.filter_some, if_pos hafter]
      exact course_performThenAttach hat₁ hrole₁ (Request.specialized_decision · r) hafter _
    · have hgets : r.getsToAttach w.heap = true := by simp [Request.getsToAttach, hafter]
      rw [Option.filter_some, if_pos hgets, if_neg hafter]
      exact course_attachThenPerform hat₁ hrole₁ guards (Request.specialized_decision · r)
        (Request.specialized_secondLook · · r) (hcall r hr)

/-- A use of an operation, up to its call. -/
theorem course_begin_operation {id : EntryId} (hown : (w.cache c).owns id = true)
    (hat : w.At c id.index) {op : SiteOperation}
    (hrole : ((w.cache c).site id.index).role = .operation op) (ops : Operands) :
    Course c id.index (w.shownWrite? c id ops) w.heap (attaching? c id ops w) w
      (begin c id ops w).world := by
  have hc := hat.hasCache
  cases hhit : hit? w.heap (((w.cache c).entry id.index).chain.stubs (w.cache c).arena) ops with
  | some found =>
    obtain ⟨stub, signature⟩ := found
    have hnone : attaching? c id ops w = none := by simp only [attaching?, hown, hrole, hhit]
    rw [hnone]
    cases hcall : w.stubCall? c id.index ops stub signature with
    | none =>
      have hcallOf : callOf? c id ops w = none := by simp [callOf?, hown, hrole, hhit, hcall]
      simp only [begin, hcallOf, Use.world, dispatch, hown, if_true, dispatchEntry, hrole, hhit,
        shownWrite?]
      exact .aside (within_runStub hat _ hcall)
    | some p =>
      have hcallOf : callOf? c id ops w = some (p, w) := by simp [callOf?, hown, hrole, hhit, hcall]
      simp only [begin, hcallOf]
      exact .aside (within_heap c)
  | none =>
    have hattaching : attaching? c id ops w = (op.request? ops).filter (·.getsToAttach w.heap) := by
      simp only [attaching?, hown, hrole, hhit]
    have hshown : w.shownWrite? c id ops = (op.request? ops).bind (·.shownWrite? w.heap) := by
      simp only [shownWrite?, hown, hrole, hhit]
    cases hcall : callOf? c id ops w with
    | none =>
      simp only [begin, hcall, Use.world, dispatch, hown, if_true, dispatchEntry, hrole, hhit]
      rw [hattaching, hshown]
      refine course_fallback hat hrole _ fun r hr => ?_
      simpa [callOf?, hown, hrole, hhit, hr] using hcall
    | some found =>
      obtain ⟨p, w₁⟩ := found
      simp only [begin, hcall]
      simp only [callOf?, hown, hrole, hhit, Option.bind_eq_some_iff, Option.map_eq_some_iff,
        Prod.mk.injEq] at hcall
      obtain ⟨r, hr, p, hp, rfl, rfl⟩ := hcall
      obtain ⟨callee, f, this, args, rfl, -, -⟩ := fallbackCall?_cases hp
      rw [hattaching, hr]
      have henter : Within c (Beside id.index (w.shownWrite? c id ops)) w
          (w.enterFallback c id.index) := (within_enterFallback hat).mono fun _ => .inl
      have hdone : (Request.call (.object callee) this args).decision w.heap ≠ .deferred :=
        call_decision_ne_deferred w.heap (.object callee)
      exact .attempt henter (decidedFor_of_specialized hat hrole henter.works
        (Request.specialized_decision w.heap _)) (mt deferred_of_attempt hdone) (within_heap c)

/-- A use of an entry of another unit does nothing. -/
theorem begin_of_foreign {id : EntryId} (hown : ¬ (w.cache c).owns id = true) {ops : Operands} :
    (begin c id ops w).world = w := by
  have hcall : callOf? c id ops w = none := by simp [callOf?, hown]
  simp only [begin, hcall, Use.world, dispatch, hown]
  rfl

/-- A use up to its call. -/
theorem course_begin (hl : w.Linked) (c : CacheId) (id : EntryId) (ops : Operands) :
    Course c id.index (w.shownWrite? c id ops) w.heap (attaching? c id ops w) w
      (begin c id ops w).world := by
  cases hown : (w.cache c).owns id with
  | false =>
    have hnone : attaching? c id ops w = none := by simp [attaching?, hown]
    rw [begin_of_foreign (Bool.not_eq_true _ ▸ hown), hnone]
    exact .aside (.refl _ _ _)
  | true =>
    have hat := hl.at_of_owns hown
    cases hrole : ((w.cache c).site id.index).role with
    | monitor =>
      have hcall : callOf? c id ops w = none := by simp [callOf?, hrole]
      have hnone : attaching? c id ops w = none := by simp [attaching?, hrole]
      simp only [begin, hcall, Use.world, dispatch, hown, if_true, dispatchEntry, hrole, hnone]
      cases ops.unary? with
      | none => exact .aside (.refl _ _ _)
      | some v => exact .aside ((within_watch hat _ v).mono fun _ => .inl)
    | loopCounter =>
      have hcall : callOf? c id ops w = none := by simp [callOf?, hrole]
      have hnone : attaching? c id ops w = none := by simp [attaching?, hrole]
      simp only [begin, hcall, Use.world, dispatch, hown, if_true, dispatchEntry, hrole, hnone]
      exact .aside ((within_enterFallback hat).mono fun _ => .inl)
    | operation op => exact course_begin_operation hown hat hrole ops

/-- The rest of a use, after its call, does nothing about the stubs. -/
theorem within_finish {p : Pending} (hat : w.At p.cache p.index) (result : Except VmError Value) :
    Within p.cache (· = .monitor p.index) w (w.finish p result).2 := by
  have hc := hat.hasCache
  have hleave : Within p.cache (· = .monitor p.index) w (w.mapHeap (leaveCall · p.callee)) := within_heap _
  have hat₁ := hat.within hleave
  cases result with
  | error e => exact hleave
  | ok v =>
    cases horigin : p.origin with
    | fallback =>
      simp only [finish, horigin]
      exact hleave.trans hc (within_recordResult hat₁ p.guards v)
    | stub flavor =>
      have hcount : Within p.cache (· = .monitor p.index) w
          ((w.mapHeap (leaveCall · p.callee)).mapCounters p.cache
            fun n => { n with stubHits := n.stubHits + 1 }) :=
        hleave.trans hc (within_mapCounters hat₁.hasCache (fun _ => rfl) (fun _ => rfl) fun _ => rfl)
      simp only [finish, horigin]
      split
      · exact hcount.trans hc (within_recordResult (hat.within hcount) p.guards v)
      · exact hcount

end World

end InlineCache
