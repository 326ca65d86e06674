import InlineCache.Proofs.Osr.Lifecycle

namespace InlineCache

namespace UnitView

variable {v v' : UnitView}

/-- A unit of which nothing is known, and nothing is about to be noted. -/
structure Forgotten (v : UnitView) : Prop where
  record : v.record? = none
  compiling : v.compiling = 0
  announcing : v.announcing = 0

/-- A unit of which something is known, or about to be noted. A forgotten unit is remembered again by a
call that is about to note something: when its compilation ends, or when a frame that was copied enters
the code after all. -/
def Remembered (v : UnitView) : Prop := v.record.state ≠ .interpreting ∨ 0 < v.compiling + v.announcing

/-- Frames that leave the code of a forgotten unit leave it forgotten. -/
theorem Forgotten.move (h : v.Forgotten) (hmove : Move False False v v') : v'.Forgotten := by
  cases hmove with
  | request hasks => exact hasks.elim
  | reject hcalls => exact absurd (h.compiling.symm.trans hcalls) (Nat.succ_ne_zero _).symm
  | compile hcalls => exact absurd (h.compiling.symm.trans hcalls) (Nat.succ_ne_zero _).symm
  | prepare hcode =>
    rw [UnitView.record, h.record] at hcode
    cases hcode
  | enter hcalls => exact absurd (h.announcing.symm.trans hcalls) (Nat.succ_ne_zero _).symm
  | leave => exact ⟨by rw [h.record]; rfl, h.compiling, h.announcing⟩
  | forget hforgets => exact hforgets.elim

private theorem state_leave_ne (t : TierRecord) (bailedOut : Bool) :
    (t.leave bailedOut).state ≠ .interpreting := by
  rw [TierRecord.state_leave, TierRecord.restingState]
  repeat' split
  all_goals
    intro h
    cases h

/-- What is noted of a unit is not lost. -/
theorem Remembered.move (h : v.Remembered) (hmove : Move False False v v') : v'.Remembered := by
  cases hmove with
  | request hasks => exact hasks.elim
  | reject => exact .inl nofun
  | compile => exact .inl nofun
  | prepare => exact .inr (Nat.succ_pos _)
  | enter => exact .inl nofun
  | leave _ bailedOut =>
    refine h.imp (fun hstate => ?_) id
    have hmap := record_map (record?_eq_some hstate) (·.leave bailedOut)
    rw [UnitView.record, hmap]
    exact state_leave_ne _ _
  | forget hforgets => exact hforgets.elim

end UnitView

namespace World

variable {σ : Type} {w : World σ} {b : BridgeId}

/-- A turn of a hot loop of a unit that is interpreted asks the compiler. -/
theorem beginLoopEntry_hot {c : CacheId} {frame : Frame} (hhot : w.IsHot b c frame)
    (hstate : ((w.bridge b).record frame.unit.id).state = .interpreting) :
    (w.beginLoopEntry b c frame).1 = some ⟨frame, .compiling⟩ := by
  obtain ⟨henabled, turns, hturns, hthreshold⟩ := hhot
  unfold beginLoopEntry
  have hbridges := bridges_loopEntry c frame.pc w
  cases hloop : loopEntry c frame.pc w with
  | mk result w₁ =>
  rw [hloop] at hturns hbridges
  have hbridge : w₁.bridge b = w.bridge b := congrArg (Table.get · b) hbridges
  cases hturns
  dsimp only
  rw [hbridge, hstate, henabled, if_neg]
  simpa using hthreshold

end World

namespace OsrMachine

variable {σ : Type} {b : BridgeId} {unit : UnitId} {m : OsrMachine σ}

/-- Whether a unit is as it was before anything was known of it: the next turn of a hot loop asks the
compiler. -/
structure Renewed (b : BridgeId) (unit : UnitId) (m : OsrMachine σ) : Prop where
  state : (m.world.bridge b).tierState unit = .interpreting
  code : (m.world.bridge b).compiledCode? unit = none
  compiles : ∀ c frame, m.IsHotEntry b unit (.loopEntry c frame) →
    (m.step b (.loopEntry c frame)).calls = ⟨frame, .compiling⟩ :: m.calls

private theorem renewed_of_forgotten (h : (m.view b unit).Forgotten) : m.Renewed b unit := by
  have hrecord : (m.world.bridge b).record unit = .initial := congrArg (·.getD .initial) h.record
  refine ⟨congrArg TierRecord.state hrecord, congrArg TierRecord.code hrecord, fun c frame hhot => ?_⟩
  obtain ⟨hhot, rfl⟩ := hhot
  have hbegin := World.beginLoopEntry_hot hhot (congrArg TierRecord.state hrecord)
  simp only [step, hbegin, Option.toList_some, List.singleton_append]

/-- All frames of a unit that calls are about are in its code. -/
def AllInside (m : OsrMachine σ) (unit : UnitId) : Prop :=
  ∀ call ∈ m.calls, call.unit = unit → call.stage.isRunning = true

/-- The other calls of the unit are about to note something of it. -/
theorem allInside_iff : m.AllInside unit ↔
    (m.view b unit).compiling = 0 ∧ (m.view b unit).announcing = 0 := by
  constructor
  · intro h
    refine ⟨List.countP_eq_zero.2 fun call hmem hcall => ?_,
      List.countP_eq_zero.2 fun call hmem hcall => ?_⟩
    all_goals
      rw [Bool.and_eq_true, decide_eq_true_eq] at hcall
      obtain ⟨hcompiling, hannouncing⟩ := OsrStage.isRunning_iff.1 (h call hmem hcall.1)
    · exact Bool.false_ne_true (hcompiling.symm.trans hcall.2)
    · exact Bool.false_ne_true (hannouncing.symm.trans hcall.2)
  · rintro ⟨hcompiling, hannouncing⟩ call hmem hunit
    have hcompiling := List.countP_eq_zero.1 hcompiling call hmem
    have hannouncing := List.countP_eq_zero.1 hannouncing call hmem
    rw [decide_eq_true hunit, Bool.true_and] at hcompiling hannouncing
    exact OsrStage.isRunning_iff.2 ⟨Bool.eq_false_iff.2 hcompiling, Bool.eq_false_iff.2 hannouncing⟩

/-- When all calls have returned, a unit that is remembered is not as new. -/
theorem not_renewed_of_remembered (hreturned : m.calls = []) (h : (m.view b unit).Remembered) :
    ¬ m.Renewed b unit := by
  intro hrenewed
  rcases h with hstate | hwaiting
  · exact hstate hrenewed.state
  · simp only [view, World.unitView, UnitView.of, hreturned, List.countP_nil] at hwaiting
    cases hwaiting

private theorem view_invalidate (hb : m.world.HasBridge b) (unit : UnitId) :
    (m.step b (.invalidate unit)).view b unit = { m.view b unit with record? := none } := by
  simp only [view, World.unitView, step, World.bridge_mapBridge hb, Bridge.invalidate, UnitView.of,
    Assoc.find?_erase_self]

/-- A unit that is invalidated at any point of a run, the last time, and whose loops are not hot after
that, is as new when all calls have returned exactly if all frames of the unit that calls were about at
that point were in its code. A call that waits for the compiler, or for the observer, brings the unit
back. -/
theorem renewed_iff_allInside (hb : m.world.HasBridge b) (later : List (OsrAction σ))
    (hobeys : (m.step b (.invalidate unit)).Obeys b later)
    (hquiet : (m.step b (.invalidate unit)).Quiet b unit later) (hlast : .invalidate unit ∉ later)
    (hreturned : ((m.step b (.invalidate unit)).run b later).calls = []) :
    ((m.step b (.invalidate unit)).run b later).Renewed b unit ↔ m.AllInside unit := by
  have hinvalid := step_hasBridge (a := .invalidate unit) hb trivial
  have hmoves : UnitView.Moves False False ((m.step b (.invalidate unit)).view b unit)
      (((m.step b (.invalidate unit)).run b later).view b unit) :=
    run_moves hinvalid hobeys hlast (.inr hquiet)
  rw [allInside_iff (b := b)]
  by_cases hinside : (m.view b unit).compiling = 0 ∧ (m.view b unit).announcing = 0
  · have hforgotten : ((m.step b (.invalidate unit)).view b unit).Forgotten := by
      rw [view_invalidate hb]
      exact ⟨rfl, hinside.1, hinside.2⟩
    exact iff_of_true (renewed_of_forgotten (hmoves.keeps UnitView.Forgotten.move hforgotten)) hinside
  · have hremembered : ((m.step b (.invalidate unit)).view b unit).Remembered := by
      rw [view_invalidate hb]
      exact .inr (by dsimp only; omega)
    exact iff_of_false (not_renewed_of_remembered hreturned
      (hmoves.keeps UnitView.Remembered.move hremembered)) hinside

/-- A unit that is invalidated while its only frame is in compiled code is as new when the frame has
returned. -/
theorem invalidated_inside_renewed :
    (((start loopWorld (.withThreshold .standard 1) false).run 1
      [.loopEntry 1 loopFrame, .reply (.compiled (.ok ⟨⟨16⟩, 0, false⟩)), .invalidate 1,
        .reply (.exited (.ok (.returned .undefined)))]).Renewed 1 1) := by
  have hb : ((start loopWorld (.withThreshold .standard 1) false).run 1
      [.loopEntry 1 loopFrame, .reply (.compiled (.ok ⟨⟨16⟩, 0, false⟩))]).world.HasBridge 1 :=
    run_hasBridge (World.hasBridge_addBridge loopWorld _ _) ⟨trivial, trivial, trivial⟩
  have hinside : ((start loopWorld (.withThreshold .standard 1) false).run 1
      [.loopEntry 1 loopFrame, .reply (.compiled (.ok ⟨⟨16⟩, 0, false⟩))]).calls.all
        (·.stage.isRunning) = true := by decide +kernel
  exact (renewed_iff_allInside hb [.reply (.exited (.ok (.returned .undefined)))]
    ⟨trivial, trivial⟩ ⟨id, trivial⟩ (by simp) (by decide +kernel)).2
      fun call hmem _ => List.all_eq_true.1 hinside call hmem

/-- An invalidation while the unit is being compiled is lost. -/
theorem invalidation_not_always_kept :
    ¬ ∀ before later : List (OsrAction Unit),
      (start loopWorld (.withThreshold .standard 1) false).Obeys 1
        (before ++ .invalidate 1 :: later) →
      (((start loopWorld (.withThreshold .standard 1) false).run 1 before).step 1
        (.invalidate 1)).Quiet 1 1 later →
      ((start loopWorld (.withThreshold .standard 1) false).run 1
        (before ++ .invalidate 1 :: later)).calls = [] →
      ((start loopWorld (.withThreshold .standard 1) false).run 1
        (before ++ .invalidate 1 :: later)).Renewed 1 1 := by
  intro hkept
  have hfailed : (((start loopWorld (.withThreshold .standard 1) false).run 1
      [.loopEntry 1 loopFrame, .invalidate 1,
        .reply (.compiled (.error (.compile "no")))]).world.bridge 1).tierState 1 = .compileFailed := by
    decide +kernel
  have hrenewed := hkept [.loopEntry 1 loopFrame] [.reply (.compiled (.error (.compile "no")))]
    ⟨trivial, trivial, trivial, trivial⟩ ⟨id, trivial⟩ (by decide +kernel)
  cases hfailed.symm.trans hrenewed.state

end OsrMachine

end InlineCache
