import InlineCache.Proofs.Host.Program
import InlineCache.Proofs.Operation.Seen

namespace InlineCache

namespace World

variable {σ : Type} {w w' : World σ} {c : CacheId} {natives : Natives σ}

/-- The same answer, and states in which scripts see the same. -/
structure AnswersAlike {α : Type} (x x' : α × World σ) : Prop where
  answer : x'.1 = x.1
  world : x.2.Alike x'.2

private theorem Alike.withHeap (h : w.Alike w') {heap heap' : Heap} (hheap : heap'.seen = heap.seen) :
    World.Alike { w with heap := heap } { w' with heap := heap' } :=
  ⟨hheap, h.size, h.cache, h.bridges, h.unitsMade, h.host⟩

private theorem Alike.withRuntime (h : w.Alike w') (runtime runtime' : Runtime) :
    World.Alike { w with runtime := runtime } { w' with runtime := runtime' } :=
  ⟨h.heap, h.size, h.cache, h.bridges, h.unitsMade, h.host⟩

end World

/-- Native functions that go by what scripts see. -/
def Natives.Blind {σ : Type} (natives : Natives σ) : Prop :=
  ∀ (body : BodyId) (this : Value) (args : List Value) {w w' : World σ}, w.Sound → w'.Sound →
    w.Alike w' → World.AnswersAlike (natives body this args w) (natives body this args w')

namespace World

variable {σ : Type} {w w' : World σ} {c : CacheId} {natives : Natives σ}

private theorem callObject_alike (hblind : natives.Blind) (hw : w.Sound) (hw' : w'.Sound)
    (h : w.Alike w') (id : ObjectId) (this : Value) (args : List Value) :
    AnswersAlike (w.callObject natives id this args) (w'.callObject natives id this args) := by
  have hcover := Rules.fitting_cover True
  unfold callObject
  rw [Heap.object_eq_of_seen h.heap]
  cases (w.heap.object id).function with
  | none => exact ⟨rfl, h⟩
  | some f =>
    have hsound {w : World σ} (hw : w.Sound) : (w.mapHeap (enterCall · id)).Sound :=
      (hw.leads (Machine.leads_heap ⟨w, []⟩ (hcover.allows_enterCall w.heap id))).1
    have henter : (w.mapHeap (enterCall · id)).Alike (w'.mapHeap (enterCall · id)) :=
      h.withHeap (congrArg (enterCall · id) h.heap)
    have hbody := hblind f.body this args (hsound hw) (hsound hw') henter
    exact ⟨hbody.answer, hbody.world.withHeap (congrArg (leaveCall · id) hbody.world.heap)⟩

/-- An operation in full goes by what scripts see. -/
theorem perform_alike (hblind : natives.Blind) (hw : w.Sound) (hw' : w'.Sound) (h : w.Alike w')
    (r : Request) :
    AnswersAlike (r.perform natives w) (r.perform natives w') := by
  rcases r.outcome?_cases with ⟨callee, this, args, rfl⟩ | houtcome
  · have hdescribe : Operation.describe w'.heap callee = Operation.describe w.heap callee := by
      rw [← Operation.describe_seen, h.heap, Operation.describe_seen]
    have hcallable (id : ObjectId) :
        (w'.heap.object id).isCallable = (w.heap.object id).isCallable := by
      rw [Heap.object_eq_of_seen h.heap]
    simp only [Request.perform, callValue, hcallable, hdescribe]
    split
    · next id _ => exact callObject_alike hblind hw hw' h id this args
    · split
      · exact ⟨rfl, h⟩
      · exact ⟨rfl, h⟩
  · obtain ⟨result, hresult⟩ := houtcome w.heap
    obtain ⟨result', hresult'⟩ := houtcome w'.heap
    rw [Request.perform_of_outcome natives hresult, Request.perform_of_outcome natives hresult']
    have hseen := r.outcome?_seen w.heap
    have hseen' := r.outcome?_seen w'.heap
    rw [h.heap, hseen, hresult, hresult'] at hseen'
    cases result with
    | error e =>
      cases result' with
      | error e' =>
        cases hseen'
        exact ⟨rfl, h⟩
      | ok p => cases hseen'
    | ok p =>
      cases result' with
      | error e' => cases hseen'
      | ok p' =>
        obtain ⟨v, heap⟩ := p
        obtain ⟨v', heap'⟩ := p'
        simp only [Option.map_some, Except.map, Option.some.injEq, Except.ok.injEq,
          Prod.mk.injEq] at hseen'
        obtain ⟨rfl, hheap⟩ := hseen'
        exact ⟨rfl, h.withHeap hheap.symm⟩

/-- A use whose operands are too many or too few fails, and attaches nothing. -/
theorem dispatch_of_no_request (hw : w.Sound) {id : EntryId} (hown : (w.cache c).owns id = true)
    {op : SiteOperation} (hrole : ((w.cache c).site id.index).role = .operation op) {ops : Operands}
    (hr : op.request? ops = none) :
    dispatch natives c id ops w = (.error (.operandArity ((w.cache c).site id.index).label
      ((w.cache c).site id.index).pc), w.enterFallback c id.index) := by
  have hat := hw.linked.at_of_owns hown
  cases hhit : hit? w.heap (((w.cache c).entry id.index).chain.stubs (w.cache c).arena) ops with
  | some found =>
    obtain ⟨stub, signature⟩ := found
    obtain ⟨op', hop, hfits⟩ := hw.fitted.hit hat.lt hhit
    rw [hrole] at hop
    cases hop
    obtain ⟨r, hr'⟩ := hfits.exists_request (mem_of_hit? hhit).2.1
    rw [hr] at hr'
    cases hr'
  | none => rw [dispatch_of_no_hit natives hown hrole hhit, fallback, hr]

/-- A use of an entry goes by what scripts see, whatever stubs the entry has. This is not immediate,
since the stubs differ: it holds because on both sides the use comes to its operation in full. -/
theorem dispatch_alike (hacts : natives.Acts (.fitting True)) (hblind : natives.Blind) (hw : w.Sound)
    (hw' : w'.Sound) (h : w.Alike w') (c : CacheId) (id : EntryId) (ops : Operands) :
    AnswersAlike (dispatch natives c id ops w) (dispatch natives c id ops w') := by
  have howns := (h.cache c).owns_eq id
  have hsite := (h.cache c).site_eq id.index
  cases hown : (w.cache c).owns id with
  | false =>
    rw [hown] at howns
    simp only [dispatch, hown, howns, Bool.false_eq_true, if_false, (h.cache c).unit]
    exact ⟨rfl, h⟩
  | true =>
    rw [hown] at howns
    have hat := hw.linked.at_of_owns hown
    have hat' := hw'.linked.at_of_owns howns
    cases hrole : ((w.cache c).site id.index).role with
    | monitor =>
      simp only [dispatch, hown, howns, if_true, dispatchEntry, hsite, hrole]
      split
      · next v _ =>
        have hwatch := quiet_watch hat (by rw [hrole]; simp) ((w.cache c).monitorGuards id.index) v
        have hwatch' := quiet_watch hat' (by rw [hsite, hrole]; simp)
          ((w'.cache c).monitorGuards id.index) v
        exact ⟨rfl, ((hwatch.alike hat.hasCache).symm.trans h).trans (hwatch'.alike hat'.hasCache)⟩
      · exact ⟨rfl, h⟩
    | loopCounter =>
      have henter := h.enterFallback hat.lt
      have hrole₁ : (((w.enterFallback c id.index).cache c).site id.index).role = .loopCounter := by
        have hworks : Works (.fitting True) False True c w (w.enterFallback c id.index) :=
          works_enterFallback hat.lt (.inl trivial)
        rw [hworks.site_eq hat, hrole]
      simp only [dispatch, hown, howns, if_true, dispatchEntry, hsite, hrole,
        (henter.cache c).turns id.index hrole₁]
      exact ⟨rfl, henter⟩
    | operation op =>
      have hrole' : ((w'.cache c).site id.index).role = .operation op := by rw [hsite, hrole]
      cases hr : op.request? ops with
      | none =>
        rw [dispatch_of_no_request hw hown hrole hr, dispatch_of_no_request hw' howns hrole' hr, hsite]
        exact ⟨rfl, h.enterFallback hat.lt⟩
      | some r =>
        obtain ⟨w₁, hquiet, hanswer, hrest⟩ := dispatch_split hw hacts hown hrole hr
        obtain ⟨w₁', hquiet', hanswer', hrest'⟩ := dispatch_split hw' hacts howns hrole' hr
        have hw₁ := hquiet.sound hw hat.hasCache
        have hw₁' := hquiet'.sound hw' hat'.hasCache
        have halike := ((hquiet.alike hat.hasCache).symm.trans h).trans (hquiet'.alike hat'.hasCache)
        have hperform := perform_alike hblind hw₁ hw₁' halike r
        refine ⟨by rw [hanswer, hanswer', hperform.answer], ?_⟩
        have hrole₁ : ((w₁.cache c).site id.index).role = .operation op := by
          rw [hquiet.works.site_eq hat, hrole]
        have hat₂ := (hw₁.at_perform hacts (hat.works hquiet.works) hrole₁ r).2.1
        have hc₂ := hperform.world.hasCache hat₂.hasCache
        exact ((hrest.alike hat₂.hasCache).symm.trans hperform.world).trans (hrest'.alike hc₂)

end World

namespace Upkeep

variable {σ : Type} {w w' : World σ}

/-- Scripts see nothing of upkeep, unless it counts the turn of a loop. -/
theorem alike_run (hw : w.Linked) {u : Upkeep} (hu : ∀ c pc, u ≠ loopTurn c pc) :
    w.Alike (u.run w) := by
  cases u with
  | loopTurn c pc => exact absurd rfl (hu c pc)
  | buildStub recipe => exact (World.Alike.refl w).withRuntime _ _
  | teardown => exact (World.Alike.refl w).withRuntime _ _
  | recordWrite c group key v =>
    simp only [run, action, Machine.step]
    split
    · next hsome =>
      have hc : w.HasCache c := Option.isSome_iff_exists.1 hsome
      have hworks : World.Works .open False False c w (w.recordWrite c group key v).2 :=
        World.works_recordWrite trivial hc (hw.cache hc).1 trivial v
      exact hworks.alike hc (World.seen_recordWrite w c group key v)
    · exact .refl w
  | unlink c id signature =>
    simp only [run, action, Machine.step]
    split
    · next hown =>
      have hat := hw.at_of_owns hown
      have hworks : World.Works .open False False c w (w.unlinkStubs c id.index signature).2 :=
        World.works_unlinkStubs hat.lt signature
      exact hworks.alike hat.hasCache rfl
    · exact .refl w
  | purge c =>
    change w.Alike (w.purge c)
    cases hget : w.caches.get? c with
    | none =>
      rw [World.purge_of_none hget]
      exact .refl w
    | some cache =>
      have hc : w.HasCache c := ⟨cache, hget⟩
      have hworks : World.Works .open True False c w (w.purge c) :=
        World.works_purge trivial hc (hw.cache hc).1
      exact hworks.alike hc (by rw [World.heap_purge])

/-- Upkeep on both sides. -/
theorem run_alike (hw : w.Linked) (hw' : w'.Linked) (h : w.Alike w') (u : Upkeep) :
    (u.run w).Alike (u.run w') := by
  cases u with
  | loopTurn c pc =>
    change (w.loopEntry c pc).2.Alike (w'.loopEntry c pc).2
    unfold World.loopEntry
    rw [(h.cache c).entryAt?_eq]
    split
    · next id hid => exact h.enterFallback (hw.at_of_lt (UnitCache.entryAt?_lt hid)).lt
    · exact h
  | _ => exact ((alike_run hw (by simp)).symm.trans h).trans (alike_run hw' (by simp))

end Upkeep

variable {σ : Type} {natives : Natives σ}

private theorem Effect.run_alike (hacts : natives.Acts (.fitting True)) (hblind : natives.Blind)
    {w w' : World σ} (hw : w.Sound) (hw' : w'.Sound) (h : w.Alike w') {α : Type}
    (effect : Effect σ α) : World.AnswersAlike (effect.run natives w) (effect.run natives w') := by
  cases effect with
  | look reading => exact ⟨reading.alike w w' h, h⟩
  | edit change =>
    have hestate := change.alike w.estate w'.estate ⟨h.heap, h.bridges, h.unitsMade, h.host⟩
    exact ⟨rfl, ⟨hestate.heap, h.size, h.cache, hestate.bridges, hestate.unitsMade, hestate.host⟩⟩
  | use c id ops => exact World.dispatch_alike hacts hblind hw hw' h c id ops
  | perform r => exact World.perform_alike hblind hw hw' h r
  | addCache unit => exact ⟨(h.addCache unit).1, (h.addCache unit).2⟩
  | upkeep u => exact ⟨rfl, u.run_alike hw.linked hw'.linked h⟩

private theorem Program.run_alike (hacts : natives.Acts (.fitting True)) (hblind : natives.Blind)
    (program : Program σ) {w w' : World σ} (hw : w.Sound) (hw' : w'.Sound) (h : w.Alike w') :
    World.AnswersAlike (program.run natives w) (program.run natives w') := by
  induction program generalizing w w' with
  | done result => exact ⟨rfl, h⟩
  | step effect next ih =>
    have heffect := effect.run_alike hacts hblind hw hw' h
    have hw₁ := (hw.leads (effect.leads hacts ⟨w, []⟩)).1
    have hw₁' := (hw'.leads (effect.leads hacts ⟨w', []⟩)).1
    have hrest := ih (effect.run natives w).1 hw₁ hw₁' heffect.world
    simp only [run, heffect.answer]
    exact hrest

/-- Native functions whose bodies are programs go by what scripts see. -/
theorem Bodies.blind (bodies : Bodies σ) (depth : Nat) : (bodies.natives depth).Blind := by
  induction depth with
  | zero => exact fun _ _ _ _ _ _ _ h => ⟨rfl, h⟩
  | succ depth ih =>
    exact fun body this args _ _ hw hw' h =>
      (bodies body this args).run_alike (bodies.acts depth) ih hw hw' h

end InlineCache
