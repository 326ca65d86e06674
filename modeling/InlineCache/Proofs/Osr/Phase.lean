import InlineCache.Proofs.Osr.Step

namespace InlineCache

namespace TierRecord

/-- A record says of some number of frames that they are in compiled code, and rests if there are none. -/
structure Tallies (t : TierRecord) (rests : TierState → Prop) (running : Nat) : Prop where
  active : t.active = running
  transferred : 0 < running → t.state = .transferred
  rests : running = 0 → rests t.state

variable {t : TierRecord} {rests rests' : TierState → Prop} {n : Nat} {bailedOut : Bool}

private theorem Tallies.state_cases (h : t.Tallies rests n) : t.state = .transferred ∨ rests t.state :=
  (Nat.eq_zero_or_pos n).elim (fun hzero => .inr (h.rests hzero)) fun hpos => .inl (h.transferred hpos)

private theorem Tallies.prepare (h : t.Tallies rests n) (hrests : rests .transferPrepared) :
    t.prepare.Tallies rests n := by
  unfold TierRecord.prepare
  split
  · next hactive =>
    have hzero : n = 0 := h.active.symm.trans hactive
    exact ⟨h.active, fun hpos => absurd hzero (Nat.ne_of_gt hpos), fun _ => hrests⟩
  · exact h

private theorem Tallies.enter (h : t.Tallies rests n) : t.enter.Tallies rests (n + 1) :=
  ⟨congrArg (· + 1) h.active, fun _ => rfl, fun hzero => absurd hzero (Nat.succ_ne_zero n)⟩

@[simp] theorem bailouts_prepare (t : TierRecord) : t.prepare.bailouts = t.bailouts := by
  unfold TierRecord.prepare
  split <;> rfl

private theorem active_leave (t : TierRecord) (bailedOut : Bool) :
    (t.leave bailedOut).active = t.active - 1 := by
  cases bailedOut <;> rfl

private theorem code_leave (t : TierRecord) (bailedOut : Bool) :
    (t.leave bailedOut).code = if bailedOut && t.givesUp then none else t.code := by
  cases bailedOut <;> rfl

private theorem bailouts_leave (t : TierRecord) (bailedOut : Bool) :
    (t.leave bailedOut).bailouts = t.bailouts + bailedOut.toNat := by
  cases bailedOut <;> rfl

theorem state_leave (t : TierRecord) (bailedOut : Bool) : (t.leave bailedOut).state =
    if 0 < t.active - 1 then .transferred else (t.leave bailedOut).restingState := by
  cases bailedOut <;> rfl

/-- The last frame that leaves sets the state to rest, and none before it. -/
theorem Tallies.leave (h : t.Tallies rests (n + 1))
    (hrests : rests' (t.leave bailedOut).restingState) : (t.leave bailedOut).Tallies rests' n := by
  have hactive : t.active - 1 = n := by rw [h.active, Nat.add_sub_cancel]
  refine ⟨(active_leave t bailedOut).trans hactive, fun hpos => ?_, fun hzero => ?_⟩
  · rw [state_leave, hactive, if_pos hpos]
  · rw [state_leave, hactive, if_neg (Nat.not_lt.2 (Nat.le_of_eq hzero))]
    exact hrests

end TierRecord

namespace UnitView

/-- The states of a unit that has code, when no frame is in it. -/
def Ready (state : TierState) : Prop := state = .compileSucceeded ∨ state = .transferPrepared

/-- The state of a unit without code that will never be compiled again, when no frame is in code it had. -/
def Failed (state : TierState) : Prop := state = .compileFailed

/-- A unit whose code was rejected or given up. -/
structure Dead (v : UnitView) : Prop where
  code : v.record.code = none
  tally : v.record.Tallies Failed v.running
  compiling : v.compiling = 0
  compiles : v.compiles = 1
  deopts : v.deopts ≤ 1

/-- A unit that has code. -/
structure Live (v : UnitView) : Prop where
  code : v.record.code.isSome = true
  tally : v.record.Tallies Ready v.running
  compiling : v.compiling = 0
  compiles : v.compiles = 1
  bailouts : v.record.bailouts = v.bailouts
  few : v.bailouts < TierRecord.deoptThreshold
  deopts : v.deopts = 0

/-- A unit that never had code, with some number of compilations under way. -/
structure Fresh (v : UnitView) (state : TierState) (n : Nat) : Prop where
  record : v.record = ⟨state, none, 0, 0⟩
  compiling : v.compiling = n
  announcing : v.announcing = 0
  running : v.running = 0
  compiles : v.compiles = n
  bailouts : v.bailouts = 0
  deopts : v.deopts = 0

/-- How far a unit has come that was never forgotten. It is cold at first, then it is being compiled,
then it has code, and in the end it has none any more. -/
inductive Phase (v : UnitView) : Prop where
  | cold (h : v.Fresh .interpreting 0)
  | hot (h : v.Fresh .compileRequested 1)
  | live (h : v.Live)
  | dead (h : v.Dead)

variable {v v' : UnitView} {asks : Prop}

theorem record?_eq_some (h : v.record.state ≠ .interpreting) : v.record? = some v.record := by
  unfold record at h ⊢
  cases hrecord : v.record? with
  | none =>
    rw [hrecord] at h
    exact absurd rfl h
  | some t => rfl

/-- A unit has a record if frames are in its code. -/
theorem record?_of_running {rests : TierState → Prop} {n : Nat} (h : v.record.Tallies rests v.running)
    (hcalls : v.running = n + 1) : v.record? = some v.record := by
  refine record?_eq_some fun hstate => ?_
  have htransferred := h.transferred (hcalls ▸ Nat.succ_pos n)
  rw [hstate] at htransferred
  cases htransferred

theorem Dead.not_interpreting (h : v.Dead) : v.record.state ≠ .interpreting := by
  intro hstate
  rcases h.tally.state_cases with hs | hs <;> cases hstate.symm.trans hs

private theorem Live.not_interpreting (h : v.Live) : v.record.state ≠ .interpreting := by
  intro hstate
  rcases h.tally.state_cases with hs | hs | hs <;> cases hstate.symm.trans hs

theorem record_map (hrecord : v.record? = some v.record) (f : TierRecord → TierRecord) :
    (v.record?.map f).getD .initial = f v.record := by
  rw [hrecord, Option.map_some, Option.getD_some]

/-- A unit without code that will never be compiled again stays one. -/
theorem Dead.move (h : v.Dead) (hmove : Move asks False v v') : v'.Dead := by
  cases hmove with
  | request _ hstate => exact absurd hstate h.not_interpreting
  | reject hcalls => exact absurd (h.compiling.symm.trans hcalls) (Nat.succ_ne_zero _).symm
  | compile hcalls => exact absurd (h.compiling.symm.trans hcalls) (Nat.succ_ne_zero _).symm
  | prepare hcode =>
    rw [h.code] at hcode
    cases hcode
  | enter => exact ⟨h.code, h.tally.enter, h.compiling, h.compiles, h.deopts⟩
  | @leave n hcalls bailedOut =>
    have hrecord := record?_of_running h.tally hcalls
    have hmap := record_map hrecord (·.leave bailedOut)
    have hcode : (v.record.leave bailedOut).code = none := by
      rw [TierRecord.code_leave, h.code, ite_self]
    have hdeopts : (bailedOut && v.record?.any (·.givesUp)) = false := by
      rw [hrecord, Option.any_some, TierRecord.givesUp, h.code, Option.isSome_none, Bool.and_false,
        Bool.and_false]
    refine ⟨(congrArg TierRecord.code hmap).trans hcode, ?_, h.compiling, h.compiles, ?_⟩
    · rw [record, hmap]
      refine (hcalls ▸ h.tally).leave ?_
      rw [TierRecord.restingState, hcode]
      rfl
    · simpa only [hdeopts, Bool.toNat_false, Nat.add_zero] using h.deopts
  | forget hforgets => exact hforgets.elim

private theorem Fresh.tally {state : TierState} {n : Nat} (h : v.Fresh state n) (state' : TierState)
    (code : Option OsrCode) {rests : TierState → Prop} (hrests : rests state') :
    TierRecord.Tallies { v.record with state := state', code := code } rests v.running :=
  ⟨by rw [h.record, h.running], fun hpos => absurd h.running (Nat.ne_of_gt hpos), fun _ => hrests⟩

/-- A unit that is cold or that is being compiled goes on to the next phase. -/
theorem Fresh.move {state : TierState} {n : Nat} (h : v.Fresh state n)
    (hstate : state = .interpreting ∧ n = 0 ∨ state = .compileRequested ∧ n = 1)
    (hmove : Move asks False v v') : v'.Phase := by
  cases hmove with
  | request _ hinterpreting =>
    rw [h.record] at hinterpreting
    obtain ⟨-, rfl⟩ | ⟨rfl, -⟩ := hstate
    · exact .hot ⟨by rw [h.record]; rfl, by rw [h.compiling], h.announcing, h.running, by rw [h.compiles],
        h.bailouts, h.deopts⟩
    · cases hinterpreting
  | @reject k hcalls =>
    obtain ⟨-, rfl⟩ | ⟨-, rfl⟩ := hstate
    · exact absurd (h.compiling.symm.trans hcalls) (Nat.succ_ne_zero _).symm
    · have hk : k = 0 := Nat.succ.inj (hcalls.symm.trans h.compiling)
      exact .dead ⟨congrArg TierRecord.code h.record, h.tally _ v.record.code rfl, hk, h.compiles,
        h.deopts ▸ Nat.zero_le 1⟩
  | @compile k hcalls code =>
    obtain ⟨-, rfl⟩ | ⟨-, rfl⟩ := hstate
    · exact absurd (h.compiling.symm.trans hcalls) (Nat.succ_ne_zero _).symm
    · have hk : k = 0 := Nat.succ.inj (hcalls.symm.trans h.compiling)
      refine .live ⟨rfl, h.tally _ _ (.inl rfl), hk, h.compiles, ?_, ?_, h.deopts⟩
      · exact (congrArg TierRecord.bailouts h.record).trans h.bailouts.symm
      · exact h.bailouts ▸ Nat.succ_pos 9
  | prepare hcode =>
    rw [h.record] at hcode
    cases hcode
  | enter hcalls => exact absurd (h.announcing.symm.trans hcalls) (Nat.succ_ne_zero _).symm
  | leave hcalls => exact absurd (h.running.symm.trans hcalls) (Nat.succ_ne_zero _).symm
  | forget hforgets => exact hforgets.elim

/-- A frame leaves the code of a unit, which is given up with the last of the bailouts allowed. -/
theorem Live.leave {n : Nat} (h : v.Live) (hcalls : v.running = n + 1) (bailedOut : Bool) :
    Phase { v with
      record? := v.record?.map (·.leave bailedOut)
      running := n
      bailouts := v.bailouts + bailedOut.toNat
      deopts := v.deopts + (bailedOut && v.record?.any (·.givesUp)).toNat } := by
  have hrecord := record?_of_running h.tally hcalls
  have hmap := record_map hrecord (·.leave bailedOut)
  have htally := hcalls ▸ h.tally
  have hcode := TierRecord.code_leave v.record bailedOut
  have hany : v.record?.any (·.givesUp) = v.record.givesUp := by rw [hrecord, Option.any_some]
  cases hup : bailedOut && v.record.givesUp with
  | true =>
    rw [hup, if_pos rfl] at hcode
    refine .dead ⟨(congrArg TierRecord.code hmap).trans hcode, ?_, h.compiling, h.compiles, ?_⟩
    · rw [record, hmap]
      exact htally.leave (by rw [TierRecord.restingState, hcode]; rfl)
    · simp only [hany, hup, h.deopts, Bool.toNat_true]
      exact Nat.le_refl 1
  | false =>
    rw [hup, if_neg Bool.false_ne_true] at hcode
    have hsome : (v.record.leave bailedOut).code.isSome = true := hcode ▸ h.code
    have hbailouts := (TierRecord.bailouts_leave v.record bailedOut).trans
      (congrArg (· + bailedOut.toNat) h.bailouts)
    refine .live ⟨?_, ?_, h.compiling, h.compiles, ?_, ?_, ?_⟩
    · exact (congrArg (·.code.isSome) hmap).trans hsome
    · rw [record, hmap]
      exact htally.leave (.inl (by rw [TierRecord.restingState, if_pos hsome]))
    · exact (congrArg TierRecord.bailouts hmap).trans hbailouts
    · have hfew := h.few
      simp only [TierRecord.givesUp, h.code, h.bailouts, Bool.and_true] at hup
      cases bailedOut with
      | false => exact hfew
      | true => simpa using hup
    · simp only [hany, hup, h.deopts, Bool.toNat_false]

private theorem Live.move (h : v.Live) (hmove : Move asks False v v') : v'.Phase := by
  cases hmove with
  | request _ hstate => exact absurd hstate h.not_interpreting
  | reject hcalls => exact absurd (h.compiling.symm.trans hcalls) (Nat.succ_ne_zero _).symm
  | compile hcalls => exact absurd (h.compiling.symm.trans hcalls) (Nat.succ_ne_zero _).symm
  | prepare =>
    refine .live ⟨?_, h.tally.prepare (.inr rfl), h.compiling, h.compiles, ?_, h.few, h.deopts⟩
    · exact (congrArg Option.isSome (TierRecord.code_prepare _)).trans h.code
    · exact (TierRecord.bailouts_prepare _).trans h.bailouts
  | enter =>
    exact .live ⟨h.code, h.tally.enter, h.compiling, h.compiles, h.bailouts, h.few, h.deopts⟩
  | leave hcalls bailedOut => exact h.leave hcalls bailedOut
  | forget hforgets => exact hforgets.elim

/-- A unit that is not forgotten goes from one phase to the next. -/
theorem Phase.move (h : v.Phase) (hmove : Move asks False v v') : v'.Phase := by
  cases h with
  | cold h => exact h.move (.inl ⟨rfl, rfl⟩) hmove
  | hot h => exact h.move (.inr ⟨rfl, rfl⟩) hmove
  | live h => exact h.move hmove
  | dead h => exact .dead (h.move hmove)

/-- What every phase has. -/
theorem Phase.active (h : v.Phase) : v.record.active = v.running := by
  cases h with
  | cold h | hot h => rw [h.record, h.running]
  | live h => exact h.tally.active
  | dead h => exact h.tally.active

theorem Phase.few (h : v.Phase) (hcode : v.record.code.isSome = true) :
    v.bailouts < TierRecord.deoptThreshold := by
  cases h with
  | live h => exact h.few
  | cold h | hot h =>
    rw [h.record] at hcode
    cases hcode
  | dead h =>
    rw [h.code] at hcode
    cases hcode

end UnitView

end InlineCache
