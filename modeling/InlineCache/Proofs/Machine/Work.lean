import InlineCache.Proofs.Machine.Call
import InlineCache.Proofs.World.Parts

namespace InlineCache

/-- The state that a use came to. -/
def Use.world {σ : Type} : Use σ → World σ
  | .answered _ w => w
  | .called _ w => w

/-- The value that a use came to by itself. -/
def Use.answer? {σ : Type} : Use σ → Option Value
  | .answered result _ => result.toOption
  | .called _ _ => none

theorem Use.eq_answered_of_answer? {σ : Type} {u : Use σ} {v : Value} (h : u.answer? = some v) :
    u = .answered (.ok v) u.world := by
  cases u with
  | called p w => cases h
  | answered result w =>
    cases result <;> cases h
    rfl

/-- What rules have to allow so that uses of entries follow them, on heaps with some property. -/
structure Rules.Cover (R : Rules) (valid : Heap → Prop) : Prop where
  valid_of_allows : ∀ {h h' : Heap}, valid h → R.allows h h' → valid h'
  /-- Recorded types are no matter of the property. -/
  valid_of_seen : ∀ {h h' : Heap}, valid h → h'.seen = h.seen → valid h'
  allows_refl : ∀ h : Heap, R.allows h h
  allows_enterCall : ∀ (h : Heap) (id : ObjectId), R.allows h (World.enterCall h id)
  allows_leaveCall : ∀ (h : Heap) (id : ObjectId), R.allows h (World.leaveCall h id)
  writes_object : ∀ {h : Heap} (id : ObjectId), valid h → R.writes h (h.object id).group
  allows_outcome : ∀ {h h' : Heap} {r : Request} {v : Value}, valid h →
    r.outcome? h = some (.ok (v, h')) → R.allows h h'
  fits_decision : ∀ {h : Heap} {op : SiteOperation} {ops : Operands} {r : Request}
    {recipe : Recipe}, valid h → op.request? ops = some r → (r.decision h).recipe? = some recipe →
    R.fits h op recipe
  fits_secondLook : ∀ {h₀ h h' : Heap} {op : SiteOperation} {ops : Operands} {r : Request} {v : Value}
    {recipe : Recipe}, valid h → h.seen = h₀.seen → op.request? ops = some r →
    r.decision h₀ = .deferred → r.outcome? h = some (.ok (v, h')) →
    (r.secondLook h h').recipe? = some recipe → R.fits h' op recipe

/-- Nothing of this is about type guards. -/
theorem Rules.Cover.showing {R : Rules} {valid : Heap → Prop} (h : R.Cover valid)
    (shows : Watch → Prop) : (R.showing shows).Cover valid :=
  { h with }

/-- The write that a request shows is one of a property of an object, by name or by a key in an operand. -/
theorem Request.write?_cases {h : Heap} {r : Request} {group : GroupId} {key : PropertyKey} {v : Value}
    (hwrite : r.write? h = .ok (some (group, key, v))) :
    ∃ id, group = (h.object id).group ∧ (r = .setProp (.object id) key v ∨
      ∃ index, r = .setElem (.object id) index v ∧ Operation.toPropertyKey h index = .ok key) := by
  cases r with
  | setProp target key v =>
    cases target with
    | object id =>
      simp only [write?, Except.ok.injEq] at hwrite
      split at hwrite <;> cases hwrite
      exact ⟨id, rfl, .inl rfl⟩
    | _ => cases hwrite
  | setElem target index v =>
    cases target with
    | object id =>
      simp only [write?] at hwrite
      split at hwrite
      · cases hwrite
      · cases hkey : Operation.toPropertyKey h index with
        | error e =>
          rw [hkey] at hwrite
          cases hwrite
        | ok key =>
          rw [hkey] at hwrite
          cases hwrite
          exact ⟨id, rfl, .inr ⟨index, rfl, hkey⟩⟩
    | _ => cases hwrite
  | _ => cases hwrite

/-- The write that a request shows to type guards. -/
def Request.shownWrite? (h : Heap) (r : Request) : Option (GroupId × PropertyKey × Value) :=
  (r.write? h).toOption.join

theorem Request.write?_of_shownWrite? {h : Heap} {r : Request}
    {write : GroupId × PropertyKey × Value} (hshown : r.shownWrite? h = some write) :
    r.write? h = .ok (some write) := by
  unfold shownWrite? at hshown
  cases hwrite : r.write? h with
  | error e =>
    rw [hwrite] at hshown
    cases hshown
  | ok write' =>
    rw [hwrite] at hshown
    cases write' <;> cases hshown
    rfl

/-- Whether the result of a call is shown to type guards. -/
def CallOrigin.showsResult : CallOrigin → Bool
  | .stub flavor => flavor = some .monitored
  | .fallback => true

/-- What is shown to type guards once a call has returned. -/
def Pending.showing (p : Pending) (result : Except VmError Value) : Showing :=
  ⟨p.cache, p.index, p.guards, none, if p.origin.showsResult then result.toOption else none⟩

namespace World

variable {σ : Type} {R : Rules} {valid : Heap → Prop} {resets turns : Prop} {c : CacheId}
  {index : Nat} {w : World σ}

@[simp] theorem heap_onEntry (w : World σ) (c : CacheId) (index : Nat) {α : Type}
    (f : Entry → AttachEnv → α × Entry × AttachEnv) : (w.onEntry c index f).2.heap = w.heap := rfl

@[simp] theorem heap_purge (w : World σ) (c : CacheId) : (w.purge c).heap = w.heap := by
  have hfold (indices : List Nat) : ∀ w' : World σ, (indices.foldl
      (fun w index => (w.onEntry c index fun entry env => ((), entry.purge env)).2) w').heap =
        w'.heap := by
    induction indices with
    | nil => exact fun _ => rfl
    | cons index indices ih => exact fun w' => ih _
  exact hfold _ w

/-- Where there are no caches, there is nothing to purge. -/
theorem purge_of_none (hnone : w.caches.get? c = none) : w.purge c = w := by
  have hcache : w.cache c = default := by rw [World.cache, Table.get, hnone]; rfl
  rw [World.purge, hcache]
  rfl

/-- The write that a stub shows to type guards, whatever it does. -/
def stubWrite? (h : Heap) (op : SiteOperation) (ops : Operands) :
    Option (GroupId × PropertyKey × Value) :=
  match op.key?, ops with
  | some key, .binary (.object id) v => some ((h.object id).group, key, v)
  | _, _ => none

/-- The write that a use of an entry shows to type guards. -/
def shownWrite? (w : World σ) (c : CacheId) (id : EntryId) (ops : Operands) :
    Option (GroupId × PropertyKey × Value) :=
  match (w.cache c).owns id, ((w.cache c).site id.index).role with
  | true, .operation op =>
    match hit? w.heap (((w.cache c).entry id.index).chain.stubs (w.cache c).arena) ops with
    | some (stub, _) =>
      if stub.kind.flavor? = some .updated then stubWrite? w.heap op ops else none
    | none => (op.request? ops).bind (·.shownWrite? w.heap)
  | _, _ => none

/-- Whether a use of an entry shows its result to the type guards of the entry. -/
def showsResult (w : World σ) (c : CacheId) (id : EntryId) (ops : Operands) : Bool :=
  match ((w.cache c).site id.index).role with
  | .monitor => true
  | .loopCounter => false
  | .operation op =>
    match hit? w.heap (((w.cache c).entry id.index).chain.stubs (w.cache c).arena) ops with
    | some (stub, _) => stub.kind.flavor? = some .monitored
    | none => (op.request? ops).any (·.isMonitored)

/-- What a use of an entry shows to type guards, up to the call that it makes, or up to its end. -/
def showing (c : CacheId) (id : EntryId) (ops : Operands) (w : World σ) : Showing where
  cache := c
  index := id.index
  guards := (w.cache c).monitorGuards id.index
  write := w.shownWrite? c id ops
  result := if w.showsResult c id ops then (begin c id ops w).answer? else none

theorem recordStubWrite_eq (w : World σ) (c : CacheId) (op : SiteOperation) (ops : Operands) :
    w.recordStubWrite c op ops = w.showWrite c (stubWrite? w.heap op ops) := by
  unfold recordStubWrite
  split
  · next hkey => simp only [stubWrite?, hkey, showWrite]
  · next hnone =>
    unfold stubWrite?
    split
    · next hkey => exact absurd rfl (hnone _ _ _ hkey)
    · rfl

private theorem group_of_stubWrite? {h : Heap} {op : SiteOperation} {ops : Operands} {group : GroupId}
    {key : PropertyKey} {v : Value} (hwrite : stubWrite? h op ops = some (group, key, v)) :
    ∃ id, group = (h.object id).group := by
  unfold stubWrite? at hwrite
  split at hwrite
  · cases hwrite
    exact ⟨_, rfl⟩
  · cases hwrite

private theorem works_mapHeap {f : Heap → Heap} (hallows : R.allows w.heap (f w.heap)) (c : CacheId) :
    Works R resets turns c w (w.mapHeap f) := works_heap hallows c

/-- The rest of a use, after its call. -/
theorem parts_finish (hcover : R.Cover valid) {p : Pending} (hat : w.At p.cache p.index)
    (result : Except VmError Value) :
    Parts R resets turns (p.showing result) w (w.finish p result).2 := by
  have hleave : Works R resets turns p.cache w (w.mapHeap (leaveCall · p.callee)) :=
    works_mapHeap (hcover.allows_leaveCall _ _) _
  cases result with
  | error e =>
    have hnothing : p.showing (.error e) = ⟨p.cache, p.index, p.guards, none, none⟩ :=
      congrArg _ (ite_self _)
    rw [hnothing]
    exact .of_works hleave _ _
  | ok v =>
    cases horigin : p.origin with
    | fallback =>
      have hshowing : p.showing (.ok v) = ⟨p.cache, p.index, p.guards, none, some v⟩ := by
        rw [Pending.showing, horigin]
        rfl
      simp only [hshowing, finish, horigin]
      exact .result hat hleave p.guards (some v)
    | stub flavor =>
      have hcount : Works R resets turns p.cache w
          ((w.mapHeap (leaveCall · p.callee)).mapCounters p.cache
            fun n => { n with stubHits := n.stubHits + 1 }) :=
        hleave.trans hat.hasCache (works_mapCounters (fun _ => rfl) (fun _ => rfl) fun _ => rfl)
      have hshowing : p.showing (.ok v) =
          ⟨p.cache, p.index, p.guards, none, if flavor = some .monitored then some v else none⟩ := by
        simp only [Pending.showing, horigin, CallOrigin.showsResult, decide_eq_true_eq, Except.toOption]
      simp only [hshowing, finish, horigin]
      rw [← showResult_ite]
      exact .result hat hcount p.guards _

/-- Without native functions a stub works on the heap alone, if it makes no call. -/
theorem run_absent_eq_commit {ops : Operands} {stub : Stub} {signature : Signature}
    (hcall : w.stubCall? c index ops stub signature = none) {w' : World σ}
    (hseen : w'.heap.seen = w.heap.seen) :
    ∃ result, Handler.run .absent signature stub ops w' = w'.commit result := by
  by_cases hsig : signature = .callFunction
  · subst hsig
    change ∃ result, Handler.callFunction .absent w' stub.payload ops = w'.commit result
    unfold stubCall? at hcall
    unfold Handler.callFunction
    split
    · next callee _ this args hpayload =>
      simp only [hpayload, Option.map_eq_none_iff] at hcall
      rw [callObject, Heap.object_eq_of_seen hseen, hcall]
      exact ⟨.error _, rfl⟩
    · exact ⟨.error _, rfl⟩
    · exact ⟨.error _, rfl⟩
  · exact (Handler.run_eq_commit hsig stub ops w').imp fun _ h => h .absent

/-- A use that a stub answers by itself. -/
theorem parts_runStub (hcover : R.Cover valid) (hat : w.At c index) (hvalid : valid w.heap)
    {op : SiteOperation} {ops : Operands} {stub : Stub} {signature : Signature} (guards : List TypeGuard)
    (hcall : w.stubCall? c index ops stub signature = none)
    (hrun : ∀ w' : World σ, w'.heap.seen = w.heap.seen →
      R.allows w'.heap (Handler.run .absent signature stub ops w').2.heap) :
    Parts R resets turns
      ⟨c, index, guards, if stub.kind.flavor? = some .updated then stubWrite? w.heap op ops else none,
        if stub.kind.flavor? = some .monitored then
          (runStub .absent c index guards op ops stub signature w).1.toOption else none⟩
      w (runStub .absent c index guards op ops stub signature w).2 := by
  have hshow : (if stub.kind.flavor? = some .updated then w.recordStubWrite c op ops else w) =
      w.showWrite c (if stub.kind.flavor? = some .updated then stubWrite? w.heap op ops else none) := by
    split
    · exact recordStubWrite_eq w c op ops
    · rfl
  generalize hwrite : (if stub.kind.flavor? = some .updated then stubWrite? w.heap op ops else none) =
    write at hshow ⊢
  have hwrites : ∀ group key v, write = some (group, key, v) → R.writes w.heap group := by
    rintro group key v rfl
    obtain ⟨o, rfl⟩ := group_of_stubWrite? (Option.ite_none_right_eq_some.1 hwrite).2
    exact hcover.writes_object o hvalid
  have hat₁ := hat.showWrite write
  have hseen := seen_showWrite w c write
  simp only [runStub, hshow]
  obtain ⟨result, hresult⟩ := run_absent_eq_commit hcall hseen
  have hallows := hrun _ hseen
  rw [hresult] at hallows ⊢
  refine .after hat hwrites (.refl w c) rfl ?_
  cases result with
  | error e =>
    simp only [commit, Except.toOption, ite_self]
    exact .refl _ c index guards
  | ok r =>
    obtain ⟨v, h⟩ := r
    have hheap : Works R resets turns c (w.showWrite c write) { w.showWrite c write with heap := h } :=
      works_heap hallows c
    have hcount : Works R resets turns c (w.showWrite c write)
        ({ w.showWrite c write with heap := h }.mapCounters c
          fun n => { n with stubHits := n.stubHits + 1 }) :=
      hheap.trans hat₁.hasCache (works_mapCounters (fun _ => rfl) (fun _ => rfl) fun _ => rfl)
    dsimp only [commit, Except.toOption]
    rw [← showResult_ite]
    exact .result hat₁ hcount guards _

/-- Without native functions a request works on the heap alone, if it makes no call. -/
theorem perform_absent_eq_commit {guards : List TypeGuard} {r : Request}
    (hcall : w.fallbackCall? c index guards r = none) :
    ∃ result, r.perform .absent w = w.commit result ∧
      ∀ v h, result = .ok (v, h) → r.outcome? w.heap = some (.ok (v, h)) := by
  rcases r.outcome?_cases with ⟨callee, this, args, rfl⟩ | houtcome
  · change ∃ result, w.callValue .absent callee this args = w.commit result ∧ _
    unfold callValue
    cases hf : callee.asObject?.filter fun id => (w.heap.object id).isCallable with
    | none =>
      cases Operation.describe w.heap callee with
      | error e => exact ⟨.error e, rfl, fun _ _ h => by cases h⟩
      | ok text => exact ⟨.error (.notFunction text), rfl, fun _ _ h => by cases h⟩
    | some id =>
      obtain ⟨hid, hcallable⟩ := Option.filter_eq_some_iff.1 hf
      cases callee <;> cases hid
      simp only [fallbackCall?, Option.map_eq_none_iff] at hcall
      rw [Object.isCallable, hcall] at hcallable
      cases hcallable
  · obtain ⟨result, h⟩ := houtcome w.heap
    exact ⟨result, Request.perform_of_outcome .absent h, fun v h' heq => by rw [h, heq]⟩

/-- A request whose stub is attached only afterwards shows nothing. -/
theorem works_performThenAttach (hcover : R.Cover valid) (hat : w.At c index) (hvalid : valid w.heap)
    {op : SiteOperation} (hrole : ((w.cache c).site index).role = .operation op) {ops : Operands}
    {r : Request} (hr : op.request? ops = some r)
    (hcall : w.fallbackCall? c index [] r = none) :
    Works R resets turns c w (performThenAttach .absent c index r w).2 := by
  obtain ⟨result, hperform, houtcome⟩ := perform_absent_eq_commit hcall
  simp only [performThenAttach, hperform]
  cases result with
  | error e => exact .refl w c
  | ok p =>
    obtain ⟨v, h⟩ := p
    have hallows := hcover.allows_outcome hvalid (houtcome v h rfl)
    have hheap : Works R resets turns c w { w with heap := h } := works_heap hallows c
    have hat₁ := hat.works hheap
    have hturns : turns ∨ (({ w with heap := h }.cache c).site index).role ≠ .loopCounter :=
      .inr (by rw [hheap.site_eq hat, hrole]; simp)
    have hdouble : Works R resets turns c { w with heap := h } (if r.gaveDouble v then
        { w with heap := h }.mapEntry c index fun entry => { entry with sawDouble := true }
        else { w with heap := h }) := by
      split
      · exact works_mapEntry hat₁.lt (fun _ => rfl) (fun _ => rfl) (fun _ => rfl) hturns
      · exact .refl _ c
    have hfirst := hheap.trans hat.hasCache hdouble
    have hheap₂ : (if r.gaveDouble v then
        { w with heap := h }.mapEntry c index fun entry => { entry with sawDouble := true }
        else { w with heap := h }).heap = h := by split <;> rfl
    dsimp only [commit]
    generalize (if r.gaveDouble v then
        { w with heap := h }.mapEntry c index fun entry => { entry with sawDouble := true }
        else { w with heap := h }) = w₂ at hfirst hheap₂
    have hat₂ := hat.works hfirst
    refine hfirst.trans hat.hasCache (works_attempt hat₂.lt hat₂.linked fun recipe hrecipe => ?_)
    have hvalid₂ : valid w₂.heap := by
      rw [hheap₂]
      exact hcover.valid_of_allows hvalid hallows
    exact .works hat hrole hfirst (hcover.fits_decision hvalid₂ hr hrecipe)

private theorem parts_performThenSettle (hcover : R.Cover valid) (hat : w.At c index)
    (hvalid : valid w.heap)
    {op : SiteOperation} (hrole : ((w.cache c).site index).role = .operation op) {ops : Operands}
    {r : Request} (hr : op.request? ops = some r) (guards : List TypeGuard)
    (hcall : w.fallbackCall? c index guards r = none) {outcome : Decision} {h₀ : Heap}
    (hseen : w.heap.seen = h₀.seen) (hdeferred : outcome = .deferred → r.decision h₀ = .deferred) :
    Parts R resets turns
      ⟨c, index, guards, none, if r.isMonitored then
        (performThenSettle .absent c index guards r outcome w).1.toOption else none⟩
      w (performThenSettle .absent c index guards r outcome w).2 := by
  obtain ⟨result, hperform, houtcome⟩ := perform_absent_eq_commit hcall
  simp only [performThenSettle, hperform]
  cases result with
  | error e =>
    simp only [commit, Except.toOption, ite_self]
    exact .refl w c index guards
  | ok p =>
    obtain ⟨v, h⟩ := p
    have hallows := hcover.allows_outcome hvalid (houtcome v h rfl)
    have hheap : Works R resets turns c w { w with heap := h } := works_heap hallows c
    have hat₁ := hat.works hheap
    have hsettle : Works R resets turns c w (if outcome = .deferred then
        { w with heap := h }.settle c index (r.secondLook w.heap h) else { w with heap := h }) := by
      split
      · next hout =>
        refine hheap.trans hat.hasCache (works_settle hat₁.lt fun recipe hrecipe => ?_)
        exact .works hat hrole hheap (hcover.fits_secondLook hvalid hseen hr (hdeferred hout)
          (houtcome v h rfl) hrecipe)
      · exact hheap
    dsimp only [commit, Except.toOption]
    rw [← showResult_ite]
    exact .result hat hsettle guards _

/-- The first part of a use that no stub answered and that is decided before the operation runs. -/
theorem works_enterAndAttempt (hcover : R.Cover valid) (hat : w.At c index) (hvalid : valid w.heap)
    {op : SiteOperation} (hrole : ((w.cache c).site index).role = .operation op) {ops : Operands}
    {r : Request} (hr : op.request? ops = some r) :
    Works R resets turns c w ((w.enterFallback c index).attempt c index (r.decision w.heap)).2 := by
  have henter : Works R resets turns c w (w.enterFallback c index) :=
    works_enterFallback hat.lt (.inr (by rw [hrole]; simp))
  have hat' := hat.works henter
  refine henter.trans hat.hasCache (works_attempt hat'.lt hat'.linked fun recipe hrecipe => ?_)
  exact .works hat hrole henter (hcover.fits_decision hvalid hr hrecipe)

/-- A use that no stub answered and that makes no call. -/
theorem parts_fallback (hcover : R.Cover valid) (hat : w.At c index) (hvalid : valid w.heap)
    {op : SiteOperation} (hrole : ((w.cache c).site index).role = .operation op) {ops : Operands}
    (guards : List TypeGuard)
    (hcall : ∀ r, op.request? ops = some r → (((w.enterFallback c index).attempt c index
      (r.decision w.heap)).2.fallbackCall? c index guards r) = none) :
    Parts R resets turns
      ⟨c, index, guards, (op.request? ops).bind (·.shownWrite? w.heap),
        if (op.request? ops).any (·.isMonitored) then
          (fallback .absent c index guards op ops w).1.toOption else none⟩
      w (fallback .absent c index guards op ops w).2 := by
  have henter : Works R resets turns c w (w.enterFallback c index) :=
    works_enterFallback hat.lt (.inr (by rw [hrole]; simp))
  simp only [fallback]
  cases hr : op.request? ops with
  | none => exact .of_works henter index guards
  | some r =>
    simp only [Option.bind_some, Option.any_some]
    by_cases hafter : r.attachesAfter = true
    · simp only [hafter, if_true]
      obtain ⟨hwrite, hmonitored, hnone⟩ : r.shownWrite? w.heap = none ∧ r.isMonitored = false ∧
          (w.enterFallback c index).fallbackCall? c index [] r = none := by
        cases r <;> first | exact ⟨rfl, rfl, rfl⟩ | exact absurd hafter Bool.false_ne_true
      simp only [hwrite, hmonitored, Bool.false_eq_true, if_false]
      exact .of_works (henter.trans hat.hasCache (works_performThenAttach hcover (hat.works henter)
        hvalid (by rw [henter.site_eq hat, hrole]) hr hnone)) index guards
    · simp only [hafter, Bool.false_eq_true, if_false]
      have hfirst : Works R resets turns c w
          ((w.enterFallback c index).attempt c index (r.decision w.heap)).2 :=
        works_enterAndAttempt hcover hat hvalid hrole hr
      have houtcome := attempt_outcome (w.enterFallback c index) c index (r.decision w.heap)
      have hnone := hcall r hr
      have hheap : ((w.enterFallback c index).attempt c index (r.decision w.heap)).2.heap = w.heap :=
        rfl
      have hheap₀ : (w.enterFallback c index).heap = w.heap := rfl
      simp only [attachThenPerform, hheap₀]
      cases ha : (w.enterFallback c index).attempt c index (r.decision w.heap) with
      | mk outcome w₁ =>
      rw [ha] at hfirst houtcome hnone hheap
      dsimp only at hfirst houtcome hnone hheap ⊢
      have hdeferred : outcome = .deferred → r.decision w.heap = .deferred := by
        rintro rfl
        rcases houtcome with h | h
        · exact h.symm
        · cases h
      rw [hheap]
      cases hwrite : r.write? w.heap with
      | error e =>
        have hshown : r.shownWrite? w.heap = none := by rw [Request.shownWrite?, hwrite]; rfl
        simp only [hshown, Except.toOption, ite_self]
        exact .of_works hfirst index guards
      | ok write =>
        have hshown : r.shownWrite? w.heap = write := by
          rw [Request.shownWrite?, hwrite]
          cases write <;> rfl
        have hwrites : Works .open False False c w₁ (w₁.showWrite c write) :=
          works_showWrite_open (hfirst.hasCache hat.hasCache) (hat.works hfirst).linked write
        have hseen : (w₁.showWrite c write).heap.seen = w.heap.seen := by
          rw [seen_showWrite, hheap]
        have hat₁ := hat.works hfirst
        have hnone' : (w₁.showWrite c write).fallbackCall? c index guards r = none := by
          rw [← hnone]
          unfold fallbackCall?
          split
          · rw [Heap.object_eq_of_seen (hseen.trans (congrArg Heap.seen hheap.symm))]
          · rfl
        simp only [hshown]
        refine .after hat ?_ hfirst hheap (parts_performThenSettle hcover
          (hat₁.showWrite write) (hcover.valid_of_seen hvalid hseen)
          (by rw [hwrites.site_eq hat₁, hfirst.site_eq hat, hrole]) hr guards hnone' hseen hdeferred)
        rintro group key v rfl
        obtain ⟨o, rfl, -⟩ := Request.write?_cases hwrite
        exact hcover.writes_object o hvalid

/-- What a stub does that answers a use is allowed. -/
def StubsAllowed (R : Rules) (w : World σ) (c : CacheId) (index : Nat) (ops : Operands) : Prop :=
  ∀ stub signature, hit? w.heap (((w.cache c).entry index).chain.stubs (w.cache c).arena) ops =
      some (stub, signature) →
    ∀ w' : World σ, w'.heap.seen = w.heap.seen →
      R.allows w'.heap (Handler.run .absent signature stub ops w').2.heap

/-- A call waits at the entry that is used, with the type guards that the entry had. -/
theorem place_of_callOf? {id : EntryId} {ops : Operands} {p : Pending} {w' : World σ}
    (hcall : callOf? c id ops w = some (p, w')) :
    (w.cache c).owns id = true ∧ p.cache = c ∧ p.index = id.index ∧
      p.guards = (w.cache c).monitorGuards id.index := by
  obtain ⟨op, hown, -, ⟨stub, signature, -, hstub, -⟩ | ⟨-, r, -, hfallback, -⟩⟩ := callOf?_cases hcall
  · obtain ⟨callee, f, value, this, args, -, -, -, -, rfl⟩ := stubCall?_cases hstub
    exact ⟨hown, rfl, rfl, rfl⟩
  · obtain ⟨callee, f, this, args, -, -, rfl⟩ := fallbackCall?_cases hfallback
    exact ⟨hown, rfl, rfl, rfl⟩

theorem callOf?_of_called {id : EntryId} {ops : Operands} {p : Pending} {w' : World σ}
    (hbegin : begin c id ops w = .called p w') : ∃ w₁, callOf? c id ops w = some (p, w₁) := by
  unfold begin at hbegin
  split at hbegin
  · next q w₁ hcall =>
    cases hbegin
    exact ⟨w₁, hcall⟩
  · cases hbegin

/-- A stub that makes a call shows no write, nor does a request. -/
theorem shownWrite?_of_callOf? {id : EntryId} {ops : Operands} {found : Pending × World σ}
    (hcall : callOf? c id ops w = some found) : w.shownWrite? c id ops = none := by
  obtain ⟨p, w₁⟩ := found
  obtain ⟨op, hown, hrole, ⟨stub, signature, hhit, hstub, -⟩ | ⟨hhit, r, hr, hfallback, -⟩⟩ :=
    callOf?_cases hcall
  · obtain ⟨callee, f, value, this, args, -, -, rfl, -⟩ := stubCall?_cases hstub
    have hnone : stubWrite? w.heap op (.call value this args) = none := by
      unfold stubWrite?
      split
      · next h => cases h
      · rfl
    simp only [shownWrite?, hown, hrole, hhit, hnone, ite_self]
  · obtain ⟨callee, f, this, args, rfl, -⟩ := fallbackCall?_cases hfallback
    simp only [shownWrite?, hown, hrole, hhit, hr, Option.bind_some]
    rfl

/-- A use that answers shows what it answers. -/
theorem parts_begin_of_none {id : EntryId} {ops : Operands} (hnone : callOf? c id ops w = none)
    (h : Parts R resets turns ⟨c, id.index, (w.cache c).monitorGuards id.index, w.shownWrite? c id ops,
      if w.showsResult c id ops then (dispatch .absent c id ops w).1.toOption else none⟩
      w (dispatch .absent c id ops w).2) :
    Parts R resets turns (showing c id ops w) w (begin c id ops w).world := by
  have hshowing : showing c id ops w =
      ⟨c, id.index, (w.cache c).monitorGuards id.index, w.shownWrite? c id ops,
        if w.showsResult c id ops then (dispatch .absent c id ops w).1.toOption else none⟩ := by
    rw [showing, begin, hnone]
    rfl
  rw [hshowing, begin, hnone]
  exact h

/-- A use that makes a call shows nothing before it. -/
theorem parts_begin_of_call (hcover : R.Cover valid) {id : EntryId} {ops : Operands} {p : Pending}
    {w' : World σ} (hcall : callOf? c id ops w = some (p, w')) (hat : w.At c id.index)
    (h : Works R resets turns c w w') :
    Parts R resets turns (showing c id ops w) w (begin c id ops w).world := by
  have hshowing : showing c id ops w =
      ⟨c, id.index, (w.cache c).monitorGuards id.index, none, none⟩ := by
    rw [showing, shownWrite?_of_callOf? hcall, begin, hcall]
    exact congrArg _ (ite_self _)
  rw [hshowing, begin, hcall]
  have henter : Works R resets turns c w' (w'.mapHeap (enterCall · p.callee)) :=
    works_mapHeap (hcover.allows_enterCall _ _) c
  exact .of_works (h.trans hat.hasCache henter) _ _

/-- A value that is watched is shown to the type guards of the entry. -/
theorem parts_watch (hat : w.At c index) (hrole : ((w.cache c).site index).role = .monitor) (v : Value) :
    Parts R resets turns ⟨c, index, (w.cache c).monitorGuards index, none, some v⟩ w
      (w.watch c index ((w.cache c).monitorGuards index) v) := by
  simp only [watch]
  split
  · next haccepts =>
    have hparts : Parts R resets turns ⟨c, index, (w.cache c).monitorGuards index, none, some v⟩ w _ :=
      .result hat (.refl w c) _ (some v)
    simpa only [showResult, recordResult, haccepts, if_true] using hparts
  · have henter : Works R resets turns c w (w.enter c index) :=
      works_enter hat.lt (.inr (by rw [hrole]; simp))
    exact .result hat henter _ (some v)

/-- A use of an operation, up to its call. -/
theorem parts_begin_operation (hcover : R.Cover valid) {id : EntryId} (hown : (w.cache c).owns id = true)
    (hat : w.At c id.index) (hvalid : valid w.heap) {op : SiteOperation}
    (hrole : ((w.cache c).site id.index).role = .operation op) {ops : Operands}
    (hstubs : StubsAllowed R w c id.index ops) :
    Parts R resets turns (showing c id ops w) w (begin c id ops w).world := by
  cases hhit : hit? w.heap (((w.cache c).entry id.index).chain.stubs (w.cache c).arena) ops with
  | some found =>
    obtain ⟨stub, signature⟩ := found
    cases hcall : w.stubCall? c id.index ops stub signature with
    | none =>
      refine parts_begin_of_none (by simp [callOf?, hown, hrole, hhit, hcall]) ?_
      simp only [dispatch, hown, if_true, dispatchEntry, hrole, hhit, shownWrite?, showsResult,
        decide_eq_true_eq]
      exact parts_runStub hcover hat hvalid _ hcall (hstubs stub signature hhit)
    | some p =>
      have hsome : callOf? c id ops w = some (p, w) := by simp [callOf?, hown, hrole, hhit, hcall]
      exact parts_begin_of_call hcover hsome hat (.refl w c)
  | none =>
    cases hcall : callOf? c id ops w with
    | none =>
      refine parts_begin_of_none hcall ?_
      simp only [dispatch, hown, if_true, dispatchEntry, hrole, hhit, shownWrite?, showsResult]
      refine parts_fallback hcover hat hvalid hrole _ fun r hr => ?_
      simpa [callOf?, hown, hrole, hhit, hr] using hcall
    | some found =>
      obtain ⟨p, w₁⟩ := found
      have hsome := hcall
      simp only [callOf?, hown, hrole, hhit, Option.bind_eq_some_iff, Option.map_eq_some_iff,
        Prod.mk.injEq] at hcall
      obtain ⟨r, hr, p, -, rfl, rfl⟩ := hcall
      exact parts_begin_of_call hcover hsome hat (works_enterAndAttempt hcover hat hvalid hrole hr)

/-- A use up to its call. -/
theorem parts_begin (hcover : R.Cover valid) {id : EntryId}
    (hat : (w.cache c).owns id → w.At c id.index) (hvalid : valid w.heap) {ops : Operands}
    (hstubs : (w.cache c).owns id → StubsAllowed R w c id.index ops)
    (hturns : turns ∨ ((w.cache c).site id.index).role ≠ .loopCounter) :
    Parts R resets turns (showing c id ops w) w (begin c id ops w).world := by
  cases hown : (w.cache c).owns id with
  | false =>
    refine parts_begin_of_none (by simp [callOf?, hown]) ?_
    simp only [dispatch, hown, shownWrite?, Bool.false_eq_true, if_false, Except.toOption, ite_self]
    exact .refl w c _ _
  | true =>
    cases hrole : ((w.cache c).site id.index).role with
    | monitor =>
      refine parts_begin_of_none (by simp [callOf?, hrole]) ?_
      simp only [dispatch, hown, if_true, dispatchEntry, hrole, shownWrite?, showsResult]
      cases ops.unary? with
      | none => exact .refl w c _ _
      | some v => exact parts_watch (hat hown) hrole v
    | loopCounter =>
      refine parts_begin_of_none (by simp [callOf?, hrole]) ?_
      simp only [dispatch, hown, if_true, dispatchEntry, hrole, shownWrite?, showsResult]
      exact .of_works (works_enterFallback (hat hown).lt hturns) _ _
    | operation op =>
      exact parts_begin_operation hcover hown (hat hown) hvalid hrole (hstubs hown)

end World

end InlineCache
