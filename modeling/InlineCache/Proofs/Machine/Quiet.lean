import InlineCache.Proofs.Machine.Fitted
import InlineCache.Proofs.Stub.Sound
import InlineCache.Proofs.World.Alike

namespace InlineCache

/-- A write to a key that is no text fails in full as well. -/
theorem Request.perform_of_write_error {σ : Type} {w : World σ} {r : Request} {e : VmError}
    (h : r.write? w.heap = .error e) (natives : Natives σ) : r.perform natives w = (.error e, w) := by
  cases r with
  | setElem target index v =>
    cases target with
    | object id =>
      simp only [write?] at h
      split at h
      · cases h
      · next hcls =>
        have hkey : Operation.toPropertyKey w.heap index = .error e := by
          cases hkey : Operation.toPropertyKey w.heap index with
          | error e' =>
            rw [hkey] at h
            cases h
            rfl
          | ok key =>
            rw [hkey] at h
            cases h
        have helement : Operation.arrayElement? w.heap (.object id) index = none := by
          unfold Operation.arrayElement?
          split
          · next hobject _ =>
            cases hobject
            rw [if_neg hcls]
          · rfl
        simp only [perform, World.onHeap, Operation.setElement, helement, Operation.isNothing, hkey]
        rfl
    | _ => cases h
  | setProp target key v =>
    cases target with
    | object id => cases h
    | _ => cases h
  | _ => cases h

namespace Machine

variable {σ : Type} {R : Rules}

theorem leads_heap (m : Machine σ) {h : Heap} (hallows : R.allows m.world.heap h) :
    m.Leads R { m.world with heap := h } :=
  .of_step (a := .host h m.world.runtime.zone m.world.bridges m.world.unitsMade m.world.host) hallows rfl

/-- An operation in full is a run of actions as well. -/
theorem leads_perform {classed : Prop} {natives : Natives σ} (hacts : natives.Acts (.fitting classed))
    (r : Request) (m : Machine σ) : m.Leads (.fitting classed) (r.perform natives m.world).2 := by
  have hcover := Rules.fitting_cover classed
  rcases r.outcome?_cases with ⟨callee, this, args, rfl⟩ | houtcome
  · simp only [Request.perform, World.callValue]
    split
    · next id _ =>
      unfold World.callObject
      split
      · exact .refl _ m
      · next f _ =>
        have henter := m.leads_heap (hcover.allows_enterCall m.world.heap id)
        have hbody := hacts f.body this args { m with world := m.world.mapHeap (World.enterCall · id) }
        exact (henter.trans hbody).trans (leads_heap _ (hcover.allows_leaveCall _ id))
    · split
      · exact .refl _ m
      · exact .refl _ m
  · obtain ⟨result, h⟩ := houtcome m.world.heap
    rw [Request.perform_of_outcome natives h]
    cases result with
    | error e => exact .refl _ m
    | ok p => exact m.leads_heap (Request.evolves_outcome h)

end Machine

namespace World

variable {σ : Type} {w w' w'' : World σ} {c : CacheId} {index : Nat}

/-- The state is linked, and its stubs fit on a heap in which objects are of the class of their group. -/
structure Sound (w : World σ) : Prop where
  linked : w.Linked
  fitted : w.Fitted True

/-- Work on the caches of a unit that scripts see nothing of. -/
structure Quiet (c : CacheId) (w w' : World σ) : Prop where
  works : Works (.fitting True) False False c w w'
  heap : w'.heap.seen = w.heap.seen

theorem Quiet.refl (c : CacheId) (w : World σ) : Quiet c w w := ⟨.refl w c, rfl⟩

theorem Quiet.trans (hc : w.HasCache c) (h : Quiet c w w') (h' : Quiet c w' w'') : Quiet c w w'' :=
  ⟨h.works.trans hc h'.works, h'.heap.trans h.heap⟩

theorem Quiet.alike (hc : w.HasCache c) (h : Quiet c w w') : w.Alike w' := h.works.alike hc h.heap

theorem Quiet.sound (hw : w.Sound) (hc : w.HasCache c) (h : Quiet c w w') : w'.Sound := by
  have hchange : Change (.fitting True) (fun _ => False) w w' :=
    .work hc (h.works.mono id False.elim)
  exact ⟨(hchange.linked hw.linked).1, hchange.fitted hw.linked hw.fitted⟩

/-- A run of actions keeps the caches in order. -/
theorem Sound.leads (hw : w.Sound) (h : Machine.Leads (.fitting True) ⟨w, []⟩ w') :
    w'.Sound ∧ w.Continues w' := by
  obtain ⟨actions, hobeys, hrun⟩ := h
  have hlinked : Machine.Linked ⟨w, []⟩ := ⟨hw.linked, fun p hp => by cases hp⟩
  have hsound := Machine.run_sound ⟨hlinked, hw.fitted⟩ hobeys
  have hcontinues := (Machine.run_linked hlinked actions).2
  rw [hrun] at hsound hcontinues
  exact ⟨⟨hsound.linked.world, hsound.fitted⟩, hcontinues⟩

/-- The entry of an operation is still there once the operation was performed. -/
theorem Sound.at_perform (hw : w.Sound) {natives : Natives σ} (hacts : natives.Acts (.fitting True))
    (hat : w.At c index) {op : SiteOperation}
    (hrole : ((w.cache c).site index).role = .operation op) (r : Request) :
    (r.perform natives w).2.Sound ∧ (r.perform natives w).2.At c index ∧
      (((r.perform natives w).2.cache c).site index).role = .operation op := by
  obtain ⟨hsound, hcontinues⟩ := hw.leads (Machine.leads_perform hacts r ⟨w, []⟩)
  refine ⟨hsound, hat.continues hsound.linked hcontinues, ?_⟩
  rw [hcontinues.site_eq hat.hasCache, hrole]

private theorem quiet_recordWrite (hat : w.At c index) (group : GroupId) (key : PropertyKey)
    (v : Value) : Quiet c w (w.recordWrite c group key v).2 :=
  ⟨works_recordWrite trivial hat.hasCache hat.linked trivial v, seen_recordWrite w c group key v⟩

private theorem quiet_recordResult (hat : w.At c index) (guards : List TypeGuard) (v : Value) :
    Quiet c w (w.recordResult c index guards v) :=
  ⟨works_recordResult trivial hat.lt hat.linked guards v, by rw [heap_recordResult]⟩

private theorem quiet_enterFallback (hat : w.At c index)
    (hrole : ((w.cache c).site index).role ≠ .loopCounter) :
    Quiet c w (w.enterFallback c index) :=
  ⟨works_enterFallback hat.lt (.inr hrole), rfl⟩

theorem quiet_watch (hat : w.At c index) (hrole : ((w.cache c).site index).role ≠ .loopCounter)
    (guards : List TypeGuard) (v : Value) : Quiet c w (w.watch c index guards v) := by
  refine ⟨works_watch trivial hat.lt hat.linked (.inr hrole) guards v, ?_⟩
  unfold watch
  split
  · rfl
  · rw [heap_recordResult]
    rfl

private theorem quiet_attempt (hat : w.At c index) {op : SiteOperation}
    (hrole : ((w.cache c).site index).role = .operation op) (hheap : w.heap.WellFormed True)
    {ops : Operands} {r : Request} (hr : op.request? ops = some r) :
    Quiet c w (w.attempt c index (r.decision w.heap)).2 := by
  refine ⟨works_attempt hat.lt hat.linked fun recipe hrecipe => ?_, rfl⟩
  exact ⟨op, hrole, (Rules.fitting_cover True).fits_decision hheap hr hrecipe⟩

/-- The stub that answers a use does what the operation does in full. -/
theorem runStub_split (hw : w.Sound) {natives : Natives σ} (hacts : natives.Acts (.fitting True))
    (hat : w.At c index) {op : SiteOperation}
    (hrole : ((w.cache c).site index).role = .operation op) {ops : Operands} {r : Request}
    (hr : op.request? ops = some r) {stub : Stub} {signature : Signature}
    (hhit : hit? w.heap (((w.cache c).entry index).chain.stubs (w.cache c).arena) ops =
      some (stub, signature)) (guards : List TypeGuard) :
    ∃ w₁, Quiet c w w₁ ∧
      (runStub natives c index guards op ops stub signature w).1 = (r.perform natives w₁).1 ∧
      Quiet c (r.perform natives w₁).2
        (runStub natives c index guards op ops stub signature w).2 := by
  obtain ⟨rfl, rfl⟩ := Request.eq_of_request? hr
  have hquiet : Quiet c w
      (if stub.kind.flavor? = some .updated then w.recordStubWrite c r.operation r.operands else w) := by
    split
    · unfold recordStubWrite
      split
      · exact quiet_recordWrite hat _ _ _
      · exact .refl c w
    · exact .refl c w
  simp only [runStub]
  generalize hw₁ : (if stub.kind.flavor? = some .updated then
    w.recordStubWrite c r.operation r.operands else w) = w₁ at hquiet
  obtain ⟨op, hop, hfits⟩ := hw.fitted.hit hat.lt hhit
  rw [hrole] at hop
  cases hop
  have hsound₁ := hquiet.sound hw hat.hasCache
  have hgrows := (Heap.evolves_of_seen hquiet.heap hw.fitted.heap).1
  have hguard : Guard.holds w₁.heap signature stub r.operands = true := by
    rw [← (mem_of_hit? hhit).2.1, ← Guard.holds_seen, hquiet.heap, Guard.holds_seen]
  have hrun := (hfits.grows hgrows).run_eq_perform hsound₁.fitted.heap natives hguard
  rw [hrun]
  refine ⟨w₁, hquiet, ?_⟩
  have hrole₁ : ((w₁.cache c).site index).role = .operation r.operation := by
    rw [hquiet.works.site_eq hat, hrole]
  obtain ⟨-, hat₂, -⟩ := hsound₁.at_perform hacts (hat.works hquiet.works) hrole₁ r
  cases hperform : r.perform natives w₁ with
  | mk result w₂ =>
  rw [hperform] at hat₂
  cases result with
  | error e => exact ⟨rfl, .refl c w₂⟩
  | ok v =>
    refine ⟨rfl, ?_⟩
    have hcount : Quiet c w₂ (w₂.mapCounters c fun n => { n with stubHits := n.stubHits + 1 }) :=
      ⟨works_mapCounters (fun _ => rfl) (fun _ => rfl) fun _ => rfl, rfl⟩
    dsimp only
    split
    · exact hcount.trans hat₂.hasCache (quiet_recordResult (hat₂.works hcount.works) guards v)
    · exact hcount

/-- The part of a use that comes after an operation whose stub is decided on once it has succeeded. -/
theorem performThenAttach_split (hw : w.Sound) {natives : Natives σ}
    (hacts : natives.Acts (.fitting True)) (hat : w.At c index) {op : SiteOperation}
    (hrole : ((w.cache c).site index).role = .operation op) {ops : Operands} {r : Request}
    (hr : op.request? ops = some r) :
    (performThenAttach natives c index r w).1 = (r.perform natives w).1 ∧
      Quiet c (r.perform natives w).2 (performThenAttach natives c index r w).2 := by
  obtain ⟨hw₁, hat₁, hrole₁⟩ := hw.at_perform hacts hat hrole r
  simp only [performThenAttach]
  cases hperform : r.perform natives w with
  | mk result w₁ =>
  rw [hperform] at hw₁ hat₁ hrole₁
  cases result with
  | error e => exact ⟨rfl, .refl c w₁⟩
  | ok v =>
    refine ⟨rfl, ?_⟩
    have hdouble : Quiet c w₁ (if r.gaveDouble v then
        w₁.mapEntry c index fun entry => { entry with sawDouble := true } else w₁) := by
      split
      · exact ⟨works_mapEntry hat₁.lt (fun _ => rfl) (fun _ => rfl) (fun _ => rfl)
          (.inr (by rw [hrole₁]; simp)), rfl⟩
      · exact .refl c w₁
    dsimp only
    generalize (if r.gaveDouble v then
      w₁.mapEntry c index fun entry => { entry with sawDouble := true } else w₁) = w₂ at hdouble
    refine hdouble.trans hat₁.hasCache (quiet_attempt (hat₁.works hdouble.works) ?_ ?_ hr)
    · rw [hdouble.works.site_eq hat₁, hrole₁]
    · exact (hdouble.sound hw₁ hat₁.hasCache).fitted.heap

/-- The part of a use that comes after an operation whose stub may be settled late. -/
theorem performThenSettle_split (hw : w.Sound) {natives : Natives σ}
    (hacts : natives.Acts (.fitting True)) (hat : w.At c index) {op : SiteOperation}
    (hrole : ((w.cache c).site index).role = .operation op) {ops : Operands} {r : Request}
    (hr : op.request? ops = some r) (guards : List TypeGuard) {outcome : Decision} {h₀ : Heap}
    (hseen : w.heap.seen = h₀.seen) (hdeferred : outcome = .deferred → r.decision h₀ = .deferred) :
    (performThenSettle natives c index guards r outcome w).1 = (r.perform natives w).1 ∧
      Quiet c (r.perform natives w).2 (performThenSettle natives c index guards r outcome w).2 := by
  obtain ⟨-, hat₁, hrole₁⟩ := hw.at_perform hacts hat hrole r
  simp only [performThenSettle]
  cases hperform : r.perform natives w with
  | mk result w₁ =>
  rw [hperform] at hat₁ hrole₁
  cases result with
  | error e => exact ⟨rfl, .refl c w₁⟩
  | ok v =>
    refine ⟨rfl, ?_⟩
    have hsettle : Quiet c w₁
        (if outcome = .deferred then w₁.settle c index (r.secondLook w.heap w₁.heap) else w₁) := by
      split
      · next hout =>
        refine ⟨works_settle hat₁.lt fun recipe hrecipe => ?_, rfl⟩
        have hdecision := hdeferred hout
        rcases r.outcome?_cases with ⟨callee, this, args, rfl⟩ | houtcome
        · exact absurd hdecision (call_decision_ne_deferred h₀ callee)
        · obtain ⟨result, h⟩ := houtcome w.heap
          have hcommit := Request.perform_of_outcome natives h
          rw [hperform] at hcommit
          cases result with
          | error e => cases hcommit
          | ok p =>
            cases hcommit
            exact ⟨op, hrole₁, (Rules.fitting_cover True).fits_secondLook hw.fitted.heap hseen hr
              hdecision h hrecipe⟩
      · exact .refl c w₁
    dsimp only
    split
    · exact hsettle.trans hat₁.hasCache (quiet_recordResult (hat₁.works hsettle.works) guards v)
    · exact hsettle

/-- An attempt before the operation, and the operation, which sees nothing of it. -/
theorem attachThenPerform_split (hw : w.Sound) {natives : Natives σ}
    (hacts : natives.Acts (.fitting True)) (hat : w.At c index) {op : SiteOperation}
    (hrole : ((w.cache c).site index).role = .operation op) {ops : Operands} {r : Request}
    (hr : op.request? ops = some r) (guards : List TypeGuard) :
    ∃ w₁, Quiet c w w₁ ∧
      (attachThenPerform natives c index guards r w).1 = (r.perform natives w₁).1 ∧
      Quiet c (r.perform natives w₁).2 (attachThenPerform natives c index guards r w).2 := by
  have hattempt := quiet_attempt hat hrole hw.fitted.heap hr
  have houtcome := attempt_outcome w c index (r.decision w.heap)
  simp only [attachThenPerform]
  cases ha : w.attempt c index (r.decision w.heap) with
  | mk outcome w₁ =>
  rw [ha] at hattempt houtcome
  have hdeferred : outcome = .deferred → r.decision w.heap = .deferred := by
    rintro rfl
    rcases houtcome with h | h
    · exact h.symm
    · cases h
  have hat₁ := hat.works hattempt.works
  cases hwrite : r.write? w₁.heap with
  | error e =>
    have hperform := Request.perform_of_write_error hwrite natives
    exact ⟨w₁, hattempt, by rw [hperform], by rw [hperform]; exact .refl c w₁⟩
  | ok write =>
    have hsettle {w₂ : World σ} (hrecord : Quiet c w w₂) :
        (performThenSettle natives c index guards r outcome w₂).1 = (r.perform natives w₂).1 ∧
          Quiet c (r.perform natives w₂).2
            (performThenSettle natives c index guards r outcome w₂).2 := by
      refine performThenSettle_split (hrecord.sound hw hat.hasCache) hacts
        (hat.works hrecord.works) ?_ hr guards hrecord.heap hdeferred
      rw [hrecord.works.site_eq hat, hrole]
    cases write with
    | none => exact ⟨w₁, hattempt, hsettle hattempt⟩
    | some written =>
      obtain ⟨group, key, v⟩ := written
      have hrecord := hattempt.trans hat.hasCache (quiet_recordWrite hat₁ group key v)
      exact ⟨_, hrecord, hsettle hrecord⟩

/-- A use that no stub answers performs its operation in full. -/
theorem fallback_split (hw : w.Sound) {natives : Natives σ} (hacts : natives.Acts (.fitting True))
    (hat : w.At c index) {op : SiteOperation}
    (hrole : ((w.cache c).site index).role = .operation op) {ops : Operands} {r : Request}
    (hr : op.request? ops = some r) (guards : List TypeGuard) :
    ∃ w₁, Quiet c w w₁ ∧
      (fallback natives c index guards op ops w).1 = (r.perform natives w₁).1 ∧
      Quiet c (r.perform natives w₁).2 (fallback natives c index guards op ops w).2 := by
  have henter : Quiet c w (w.enterFallback c index) := quiet_enterFallback hat (by rw [hrole]; simp)
  have hat₁ := hat.works henter.works
  have hrole₁ : (((w.enterFallback c index).cache c).site index).role = .operation op := by
    rw [henter.works.site_eq hat, hrole]
  have hw₁ := henter.sound hw hat.hasCache
  simp only [fallback, hr]
  generalize w.enterFallback c index = w₁ at henter hat₁ hrole₁ hw₁
  split
  · exact ⟨w₁, henter, performThenAttach_split hw₁ hacts hat₁ hrole₁ hr⟩
  · obtain ⟨w₂, hquiet, hrest⟩ := attachThenPerform_split hw₁ hacts hat₁ hrole₁ hr guards
    exact ⟨w₂, henter.trans hat.hasCache hquiet, hrest⟩

/-- A use of an entry is its operation in full, between work that scripts see nothing of. Which stubs
there are says only how the operation is run, and what the work is. -/
theorem dispatch_split (hw : w.Sound) {natives : Natives σ} (hacts : natives.Acts (.fitting True))
    {id : EntryId} (hown : (w.cache c).owns id = true) {op : SiteOperation}
    (hrole : ((w.cache c).site id.index).role = .operation op) {ops : Operands} {r : Request}
    (hr : op.request? ops = some r) :
    ∃ w₁, Quiet c w w₁ ∧ (dispatch natives c id ops w).1 = (r.perform natives w₁).1 ∧
      Quiet c (r.perform natives w₁).2 (dispatch natives c id ops w).2 := by
  have hat := hw.linked.at_of_owns hown
  cases hhit : hit? w.heap (((w.cache c).entry id.index).chain.stubs (w.cache c).arena) ops with
  | some found =>
    obtain ⟨stub, signature⟩ := found
    rw [dispatch_of_hit natives hown hrole hhit]
    exact runStub_split hw hacts hat hrole hr hhit _
  | none =>
    rw [dispatch_of_no_hit natives hown hrole hhit]
    exact fallback_split hw hacts hat hrole hr _

end World

end InlineCache
