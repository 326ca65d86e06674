import InlineCache.Proofs.Osr.View

namespace InlineCache

namespace World

variable {σ : Type} {w w' : World σ} {b : BridgeId} {frame : Frame} {next : Option OsrCall}

/-- What a bridge has to do with a unit, in a state with some calls and events. -/
def unitView (w : World σ) (b : BridgeId) (unit : UnitId) (calls : List OsrCall)
    (trace : List OsrEvent) : UnitView :=
  .of unit (w.bridge b).units calls trace

private theorem unitView_of_units_eq (hunits : (w'.bridge b).units = (w.bridge b).units) (unit : UnitId)
    (calls : List OsrCall) (trace : List OsrEvent) :
    w'.unitView b unit calls trace = w.unitView b unit calls trace := by
  rw [unitView, unitView, hunits]

/-- A frame that begins to move into code that is there, or does not move. -/
theorem moves_beginTransferWith (hb : w.HasBridge b) {code : OsrCode}
    (hcode : ((w.bridge b).record frame.unit.id).code.isSome = true)
    (h : w.beginTransferWith b code frame = (next, w')) (asks forgets : Prop) (unit : UnitId)
    (calls : List OsrCall) (trace : List OsrEvent) :
    w'.HasBridge b ∧ UnitView.Moves asks forgets (w.unitView b unit calls trace)
      (w'.unitView b unit (next.toList ++ calls) trace) := by
  unfold beginTransferWith at h
  split at h
  · cases h
    exact ⟨hb.countOsr _, by rw [unitView_of_units_eq (units_countOsr hb _)]; exact .refl⟩
  split at h
  · cases h
    exact ⟨hb, .refl⟩
  dsimp only at h
  have hcount := units_countOsr hb fun n => { n with attempts := n.attempts + 1 }
  have hb₁ : (w.countOsr b fun n => { n with attempts := n.attempts + 1 }).HasBridge b := hb.countOsr _
  cases hs : (w.countOsr b fun n => { n with attempts := n.attempts + 1 }).takeSnapshot b frame
    code.entry with
  | mk result w₂ =>
  obtain ⟨hb₂, ⟨e, rfl, hunits⟩ | ⟨snapshot, rfl, hunits⟩⟩ := takeSnapshot_spec hb₁ hs
  · rw [hs] at h
    cases h
    exact ⟨hb₂, by rw [unitView_of_units_eq (hunits.trans hcount)]; exact .refl⟩
  · rw [hs] at h
    rw [Bridge.record, hcount] at hunits
    have hprepare : UnitView.Moves asks forgets (w.unitView b unit calls trace)
        (w₂.unitView b unit (⟨frame, .announcing code snapshot⟩ :: calls) trace) := by
      rw [unitView, unitView, hunits]
      exact UnitView.moves_prepare _ _ _ _ _ _ _ _ hcode
    dsimp only at h
    split at h
    · cases h
      exact ⟨hb₂, hprepare⟩
    · cases h
      refine ⟨(hb₂.mapTierRecord _ _).countOsr _, hprepare.trans ?_⟩
      rw [unitView, unitView, units_enterCompiled hb₂]
      exact UnitView.moves_enter _ _ _ _ _ _ _ _

private theorem requestsOf_beginTransferWith {code : OsrCode}
    (h : w.beginTransferWith b code frame = (next, w')) : OsrMachine.requestsOf next = [] := by
  unfold beginTransferWith at h
  dsimp only at h
  repeat' split at h
  all_goals
    cases h
    rfl

/-- A frame that is to move. -/
theorem moves_beginTransfer (hb : w.HasBridge b) (h : w.beginTransfer b frame = (next, w'))
    (asks forgets : Prop) (unit : UnitId) (calls : List OsrCall) (trace : List OsrEvent) :
    w'.HasBridge b ∧ UnitView.Moves asks forgets (w.unitView b unit calls trace)
      (w'.unitView b unit (next.toList ++ calls) trace) := by
  unfold beginTransfer at h
  split at h
  · next code hcode =>
    exact moves_beginTransferWith hb (by rw [← Bridge.compiledCode?, hcode]; rfl) h _ _ _ _ _
  · cases h
    exact ⟨hb, .refl⟩

/-- A loop is hot that a frame stands at, with this turn. -/
def IsHot (w : World σ) (b : BridgeId) (c : CacheId) (frame : Frame) : Prop :=
  (w.bridge b).config.enabled = true ∧
    ∃ turns, (loopEntry c frame.pc w).1 = .ok turns ∧ (w.bridge b).config.threshold ≤ turns

/-- A turn of a loop. -/
theorem moves_beginLoopEntry (hb : w.HasBridge b) {c : CacheId}
    (h : w.beginLoopEntry b c frame = (next, w')) (forgets : Prop) (unit : UnitId)
    (calls : List OsrCall) (trace : List OsrEvent) :
    w'.HasBridge b ∧ UnitView.Moves (w.IsHot b c frame ∧ frame.unit.id = unit) forgets
      (w.unitView b unit calls trace)
      (w'.unitView b unit (next.toList ++ calls) (OsrMachine.requestsOf next ++ trace)) := by
  unfold beginLoopEntry at h
  have hbridges := bridges_loopEntry c frame.pc w
  cases hloop : loopEntry c frame.pc w with
  | mk result w₁ =>
  rw [hloop] at h hbridges
  have hbridge : w₁.bridge b = w.bridge b := congrArg (Table.get · b) hbridges
  have hb₁ : w₁.HasBridge b := by
    rw [HasBridge, hbridges]
    exact hb
  have hview : w₁.unitView b unit calls trace = w.unitView b unit calls trace :=
    unitView_of_units_eq (congrArg Bridge.units hbridge) unit calls trace
  rw [← hview]
  cases result with
  | error e =>
    cases h
    exact ⟨hb₁, .refl⟩
  | ok turns =>
    dsimp only at h
    split at h
    · cases h
      exact ⟨hb₁, .refl⟩
    next hhot =>
    have hhot' : w.IsHot b c frame := by
      rw [hbridge] at hhot
      simp only [Bool.or_eq_true, Bool.not_eq_true', decide_eq_true_eq, not_or, Bool.not_eq_false,
        Nat.not_lt] at hhot
      exact ⟨hhot.1, turns, by rw [hloop], hhot.2⟩
    split at h
    · cases h
      exact ⟨hb₁, .refl⟩
    · cases h
      exact ⟨hb₁, .refl⟩
    · next hstate =>
      cases h
      refine ⟨(hb₁.mapTierRecord _ _).countOsr _, ?_⟩
      rw [unitView, unitView, units_requestCompile hb₁]
      exact UnitView.moves_request _ _ _ _ _ (fun hu => ⟨hhot', hu.symm⟩) hstate
    · split at h
      · cases h
        exact ⟨hb₁, .refl⟩
      · next code hcode =>
        rw [requestsOf_beginTransferWith h, List.nil_append]
        exact moves_beginTransferWith hb₁ (by rw [hcode]; rfl) h _ _ _ _ _

/-- What becomes of a compilation is noted in the record of the unit. -/
theorem finishCompile_spec (hb : w.HasBridge b) {unit : UnitId} {result : Except OsrError OsrCode}
    {found : Option OsrCode} (h : w.finishCompile b unit result = (found, w')) :
    w'.HasBridge b ∧
      ((found = none ∧ (w'.bridge b).units = (w.bridge b).units.set unit
          { (w.bridge b).record unit with state := .compileFailed }) ∨
        ∃ code, found = some code ∧ (w'.bridge b).units = (w.bridge b).units.set unit
          { (w.bridge b).record unit with state := .compileSucceeded, code := some code }) := by
  cases result with
  | error e =>
    cases h
    have hb₁ := hb.mapTierRecord unit fun t => { t with state := .compileFailed }
    exact ⟨hb₁.countOsr _, .inl ⟨rfl, by rw [units_countOsr hb₁, units_mapTierRecord hb]⟩⟩
  | ok code =>
    cases h
    exact ⟨hb.mapTierRecord _ _, .inr ⟨code, rfl, units_mapTierRecord hb _ _⟩⟩

/-- A frame that leaves compiled code, however it leaves. -/
theorem leaveCompiled_eq (w : World σ) (b : BridgeId) (frame : Frame)
    (exit : Except VmError TierExit) : ∃ bailedOut,
      (w.leaveCompiled b frame exit).2 = w.mapBridge b (·.leave frame.unit.id bailedOut) := by
  cases exit with
  | error e => exact ⟨false, rfl⟩
  | ok exit =>
    cases exit with
    | returned v => exact ⟨false, rfl⟩
    | bailout reason state => exact ⟨true, rfl⟩

/-- A call that is answered. -/
theorem moves_resume (hb : w.HasBridge b) {call : OsrCall} {reply : OsrReply}
    (hfits : reply.fits call.stage = true) (h : w.resume b call reply = (next, w'))
    (asks forgets : Prop) (unit : UnitId) (rest : List OsrCall) (trace : List OsrEvent) :
    w'.HasBridge b ∧ UnitView.Moves asks forgets (w.unitView b unit (call :: rest) trace)
      (w'.unitView b unit (next.toList ++ rest)
        (OsrMachine.eventsOf call (w.bridge b) (w'.bridge b) reply ++ trace)) := by
  obtain ⟨frame, stage⟩ := call
  cases stage with
  | compiling =>
    cases reply with
    | compiled result =>
      simp only [resume, OsrCall.unit] at h
      cases hfinish : w.finishCompile b frame.unit.id result with
      | mk found w₁ =>
      rw [hfinish] at h
      obtain ⟨hb₁, ⟨rfl, hunits⟩ | ⟨code, rfl, hunits⟩⟩ := finishCompile_spec hb hfinish
      · cases h
        refine ⟨hb₁, ?_⟩
        rw [unitView, unitView, hunits]
        exact UnitView.moves_reject _ _ _ _ _ _
      · have hcode : ((w₁.bridge b).record frame.unit.id).code.isSome = true := by
          rw [Bridge.record, hunits, Assoc.find?_set_self]
          rfl
        obtain ⟨hb', hmoves⟩ := moves_beginTransferWith hb₁ hcode h asks forgets unit rest trace
        refine ⟨hb', UnitView.Moves.trans ?_ hmoves⟩
        rw [unitView, unitView, hunits]
        exact UnitView.moves_compile _ _ _ _ _ _ _
    | _ => cases hfits
  | announcing code snapshot =>
    cases reply with
    | announced =>
      cases h
      refine ⟨(hb.mapTierRecord _ _).countOsr _, ?_⟩
      rw [unitView, unitView, units_enterCompiled hb]
      exact UnitView.moves_enter _ _ _ _ _ _ _ _
    | _ => cases hfits
  | running code snapshot =>
    cases reply with
    | exited exit =>
      obtain ⟨bailedOut, hleave⟩ := leaveCompiled_eq (w.mapBridge b (·.drop)) b frame exit
      simp only [resume, hleave] at h
      cases h
      have hdrop := hb.mapBridge (·.drop)
      refine ⟨hdrop.mapBridge _, ?_⟩
      rw [unitView, unitView, OsrMachine.eventsOf, bridge_mapBridge hdrop, bridge_mapBridge hb,
        units_leave]
      have hcounted := counted_leave (w.bridge b).drop frame.unit.id bailedOut
      rw [OsrCall.unit]
      change UnitView.Moves asks forgets _ (UnitView.of unit _ _ (OsrMachine.counted
        (w.bridge b).drop.counters _ _ ++ trace))
      rw [hcounted]
      exact UnitView.moves_leave _ _ _ _ _ _ _ _ _
    | _ => cases hfits

end World

namespace OsrMachine

variable {σ : Type} {b : BridgeId} {m : OsrMachine σ}

/-- What the bridge of a machine has to do with a unit. -/
def view (b : BridgeId) (unit : UnitId) (m : OsrMachine σ) : UnitView :=
  m.world.unitView b unit m.calls m.trace

/-- Whether an action is a turn of a hot loop of a unit. -/
def IsHotEntry (b : BridgeId) (m : OsrMachine σ) (unit : UnitId) : OsrAction σ → Prop
  | .loopEntry c frame => m.world.IsHot b c frame ∧ frame.unit.id = unit
  | _ => False

/-- What an action makes of a unit. -/
theorem step_spec (hb : m.world.HasBridge b) {a : OsrAction σ} (ha : m.Allows b a) (unit : UnitId) :
    (m.step b a).world.HasBridge b ∧
      UnitView.Moves (m.IsHotEntry b unit a) (a = .invalidate unit) (m.view b unit)
        ((m.step b a).view b unit) := by
  cases a with
  | host w =>
    refine ⟨ha.1, ?_⟩
    rw [view, view, step, World.unitView_of_units_eq ha.2]
    exact .refl
  | loopEntry c frame => exact World.moves_beginLoopEntry hb rfl _ unit m.calls m.trace
  | transfer frame => exact World.moves_beginTransfer hb rfl _ _ unit m.calls m.trace
  | reply reply =>
    cases hcalls : m.calls with
    | nil =>
      simp only [step, hcalls]
      exact ⟨hb, .refl⟩
    | cons call rest =>
      by_cases hfits : reply.fits call.stage = true
      · simp only [view, step, hcalls, hfits, if_true]
        exact World.moves_resume hb hfits rfl _ _ unit rest m.trace
      · simp only [step, hcalls, hfits]
        exact ⟨hb, .refl⟩
  | invalidate other =>
    refine ⟨hb.mapBridge _, ?_⟩
    rw [view, view, World.unitView, World.unitView, step, World.bridge_mapBridge hb]
    exact UnitView.moves_forget _ _ _ _ _ fun hu => by rw [hu]

theorem step_hasBridge (hb : m.world.HasBridge b) {a : OsrAction σ} (ha : m.Allows b a) :
    (m.step b a).world.HasBridge b :=
  (step_spec hb ha 0).1

private theorem step_moves (hb : m.world.HasBridge b) {a : OsrAction σ} (ha : m.Allows b a)
    (unit : UnitId) : UnitView.Moves (m.IsHotEntry b unit a) (a = .invalidate unit) (m.view b unit)
      ((m.step b a).view b unit) :=
  (step_spec hb ha unit).2

/-- Whether no action of a run is a turn of a hot loop of a unit. -/
def Quiet (b : BridgeId) (unit : UnitId) : OsrMachine σ → List (OsrAction σ) → Prop
  | _, [] => True
  | m, a :: rest => ¬ m.IsHotEntry b unit a ∧ Quiet b unit (m.step b a) rest

theorem run_hasBridge {actions : List (OsrAction σ)} (hb : m.world.HasBridge b)
    (hobeys : m.Obeys b actions) : (m.run b actions).world.HasBridge b := by
  induction actions generalizing m with
  | nil => exact hb
  | cons a rest ih => exact ih (step_hasBridge hb hobeys.1) hobeys.2

/-- What a run makes of a unit that it does not forget. The compiler is not asked in a quiet run. -/
theorem run_moves {asks : Prop} {unit : UnitId} {actions : List (OsrAction σ)}
    (hb : m.world.HasBridge b) (hobeys : m.Obeys b actions) (hnever : .invalidate unit ∉ actions)
    (hasks : asks ∨ m.Quiet b unit actions) :
    UnitView.Moves asks False (m.view b unit) ((m.run b actions).view b unit) := by
  induction actions generalizing m with
  | nil => exact .refl
  | cons a rest ih =>
    have hfirst : UnitView.Moves asks False (m.view b unit) ((m.step b a).view b unit) := by
      refine (step_moves hb hobeys.1 unit).mono (fun hhot => ?_) fun ha =>
        hnever (ha ▸ List.mem_cons_self)
      exact hasks.resolve_right fun hquiet => hquiet.1 hhot
    exact hfirst.trans (ih (step_hasBridge hb hobeys.1) hobeys.2
      (fun h => hnever (List.mem_cons_of_mem _ h)) (hasks.imp_right And.right))

end OsrMachine

end InlineCache
