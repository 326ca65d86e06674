import InlineCache.Proofs.Osr.Machine

namespace InlineCache

namespace TierRecord

/-- A frame was copied for entry into compiled code. -/
def prepare (t : TierRecord) : TierRecord :=
  if t.active = 0 then { t with state := .transferPrepared } else t

/-- A frame enters compiled code. -/
def enter (t : TierRecord) : TierRecord := { t with active := t.active + 1, state := .transferred }

@[simp] theorem code_prepare (t : TierRecord) : t.prepare.code = t.code := by
  unfold prepare
  split <;> rfl

end TierRecord

/-- What there is to a unit: its record, the calls that wait, by what they wait for, and how often things
have happened to it. -/
structure UnitView where
  record? : Option TierRecord
  compiling : Nat
  announcing : Nat
  running : Nat
  compiles : Nat
  bailouts : Nat
  deopts : Nat

namespace UnitView

/-- What is known of the unit; nothing yet is the record of one that is interpreted. -/
def record (v : UnitView) : TierRecord := v.record?.getD .initial

/-- One move of a unit. Whether the compiler may be asked, and whether the unit may be forgotten, is
said apart. A step of the bridge is a few moves of one unit, and none of the others. -/
inductive Move (asks forgets : Prop) : UnitView → UnitView → Prop where
  /-- The compiler is asked for code. -/
  | request {v : UnitView} (hasks : asks) (hstate : v.record.state = .interpreting) :
      Move asks forgets v
        { v with
          record? := some { v.record with state := .compileRequested }
          compiling := v.compiling + 1
          compiles := v.compiles + 1 }
  /-- The compiler rejects the unit. -/
  | reject {v : UnitView} {n : Nat} (hcalls : v.compiling = n + 1) :
      Move asks forgets v
        { v with record? := some { v.record with state := .compileFailed }, compiling := n }
  /-- The compiler has code. -/
  | compile {v : UnitView} {n : Nat} (hcalls : v.compiling = n + 1) (code : OsrCode) :
      Move asks forgets v
        { v with
          record? := some { v.record with state := .compileSucceeded, code := some code }
          compiling := n }
  /-- A frame is copied, to move into code that is there. -/
  | prepare {v : UnitView} (hcode : v.record.code.isSome = true) :
      Move asks forgets v
        { v with record? := some v.record.prepare, announcing := v.announcing + 1 }
  /-- A frame that was copied enters the code. -/
  | enter {v : UnitView} {n : Nat} (hcalls : v.announcing = n + 1) :
      Move asks forgets v
        { v with record? := some v.record.enter, announcing := n, running := v.running + 1 }
  /-- A frame leaves the code, perhaps by a bailout. -/
  | leave {v : UnitView} {n : Nat} (hcalls : v.running = n + 1) (bailedOut : Bool) :
      Move asks forgets v
        { v with
          record? := v.record?.map (·.leave bailedOut)
          running := n
          bailouts := v.bailouts + bailedOut.toNat
          deopts := v.deopts + (bailedOut && v.record?.any (·.givesUp)).toNat }
  | forget {v : UnitView} (hforgets : forgets) : Move asks forgets v { v with record? := none }

/-- Some moves, one after the other. -/
inductive Moves (asks forgets : Prop) : UnitView → UnitView → Prop where
  | refl {v : UnitView} : Moves asks forgets v v
  | tail {v v' v'' : UnitView} (h : Moves asks forgets v v') (h' : Move asks forgets v' v'') :
      Moves asks forgets v v''

variable {asks forgets : Prop} {v v' v'' : UnitView}

private theorem Move.moves (h : Move asks forgets v v') : Moves asks forgets v v' := .tail .refl h

theorem Moves.trans (h : Moves asks forgets v v') (h' : Moves asks forgets v' v'') :
    Moves asks forgets v v'' := by
  induction h' with
  | refl => exact h
  | tail _ hmove ih => exact .tail ih hmove

theorem Move.mono {asks' forgets' : Prop} (h : Move asks forgets v v') (hasks : asks → asks')
    (hforgets : forgets → forgets') : Move asks' forgets' v v' := by
  cases h with
  | request h hstate => exact .request (hasks h) hstate
  | reject hcalls => exact .reject hcalls
  | compile hcalls code => exact .compile hcalls code
  | prepare hcode => exact .prepare hcode
  | enter hcalls => exact .enter hcalls
  | leave hcalls bailedOut => exact .leave hcalls bailedOut
  | forget h => exact .forget (hforgets h)

theorem Moves.mono {asks' forgets' : Prop} (h : Moves asks forgets v v') (hasks : asks → asks')
    (hforgets : forgets → forgets') : Moves asks' forgets' v v' := by
  induction h with
  | refl => exact .refl
  | tail _ hmove ih => exact .tail ih (hmove.mono hasks hforgets)

/-- What every move keeps, some moves keep. -/
theorem Moves.keeps {K : UnitView → Prop} (hmove : ∀ {v v'}, K v → Move asks forgets v v' → K v')
    (hv : K v) (h : Moves asks forgets v v') : K v' := by
  induction h with
  | refl => exact hv
  | tail _ hmove' ih => exact hmove ih hmove'

/-- The view of a unit that a table of records, calls and events give. -/
def of (unit : UnitId) (units : Assoc UnitId TierRecord) (calls : List OsrCall)
    (trace : List OsrEvent) : UnitView where
  record? := units.find? unit
  compiling := calls.countP fun call => call.unit = unit && call.stage.isCompiling
  announcing := calls.countP fun call => call.unit = unit && call.stage.isAnnouncing
  running := calls.countP fun call => call.unit = unit && call.stage.isRunning
  compiles := trace.count (.compile unit)
  bailouts := trace.count (.bailout unit)
  deopts := trace.count (.deoptimize unit)

section

variable {unit other : UnitId} (units : Assoc UnitId TierRecord) (calls : List OsrCall)
  (trace : List OsrEvent)

private theorem of_set_of_ne (hne : unit ≠ other) (t : TierRecord) :
    of unit (units.set other t) calls trace = of unit units calls trace := by
  simp only [of, Assoc.find?_set_of_ne units t hne]

private theorem of_set_self (t : TierRecord) :
    of unit (units.set unit t) calls trace = { of unit units calls trace with record? := some t } := by
  simp [of]

private theorem of_cons_of_ne {call : OsrCall} (hne : call.unit ≠ unit) :
    of unit units (call :: calls) trace = of unit units calls trace := by
  simp [of, hne]

variable (frame : Frame)

private theorem of_cons_compiling : of frame.unit.id units (⟨frame, .compiling⟩ :: calls) trace =
    { of frame.unit.id units calls trace with
      compiling := (of frame.unit.id units calls trace).compiling + 1 } := by
  simp [of, OsrCall.unit, OsrStage.isCompiling, OsrStage.isAnnouncing, OsrStage.isRunning]

private theorem of_cons_announcing (code : OsrCode) (snapshot : Snapshot) :
    of frame.unit.id units (⟨frame, .announcing code snapshot⟩ :: calls) trace =
      { of frame.unit.id units calls trace with
        announcing := (of frame.unit.id units calls trace).announcing + 1 } := by
  simp [of, OsrCall.unit, OsrStage.isCompiling, OsrStage.isAnnouncing, OsrStage.isRunning]

private theorem of_cons_running (code : OsrCode) (snapshot : Snapshot) :
    of frame.unit.id units (⟨frame, .running code snapshot⟩ :: calls) trace =
      { of frame.unit.id units calls trace with
        running := (of frame.unit.id units calls trace).running + 1 } := by
  simp [of, OsrCall.unit, OsrStage.isCompiling, OsrStage.isAnnouncing, OsrStage.isRunning]

/-- The compiler is asked for the code of a unit: a move of this unit, and none of the others. -/
theorem moves_request {asks : Prop} (forgets : Prop) (hasks : unit = frame.unit.id → asks)
    (hstate : (of frame.unit.id units calls trace).record.state = .interpreting) :
    Moves asks forgets (of unit units calls trace)
      (of unit (units.set frame.unit.id
          { (of frame.unit.id units calls trace).record with state := .compileRequested })
        (⟨frame, .compiling⟩ :: calls) (.compile frame.unit.id :: trace)) := by
  by_cases hu : unit = frame.unit.id
  · subst hu
    rw [of_set_self, of_cons_compiling]
    have hmove : Moves asks forgets (of frame.unit.id units calls trace) _ :=
      (Move.request (hasks rfl) hstate).moves
    simpa [of] using hmove
  · rw [of_set_of_ne _ _ _ hu, of_cons_of_ne _ _ _ (Ne.symm hu)]
    simpa [of, Ne.symm hu] using Moves.refl

/-- The compiler rejects a unit. -/
theorem moves_reject (asks forgets : Prop) :
    Moves asks forgets (of unit units (⟨frame, .compiling⟩ :: calls) trace)
      (of unit (units.set frame.unit.id
        { (of frame.unit.id units calls trace).record with state := .compileFailed }) calls trace) := by
  by_cases hu : unit = frame.unit.id
  · subst hu
    rw [of_set_self, of_cons_compiling]
    exact (Move.reject (v := { of frame.unit.id units calls trace with
      compiling := (of frame.unit.id units calls trace).compiling + 1 }) rfl).moves
  · rw [of_set_of_ne _ _ _ hu, of_cons_of_ne _ _ _ (Ne.symm hu)]
    exact .refl

/-- The compiler has code for a unit. -/
theorem moves_compile (asks forgets : Prop) (code : OsrCode) :
    Moves asks forgets (of unit units (⟨frame, .compiling⟩ :: calls) trace)
      (of unit (units.set frame.unit.id { (of frame.unit.id units calls trace).record with
        state := .compileSucceeded, code := some code }) calls trace) := by
  by_cases hu : unit = frame.unit.id
  · subst hu
    rw [of_set_self, of_cons_compiling]
    exact (Move.compile (v := { of frame.unit.id units calls trace with
      compiling := (of frame.unit.id units calls trace).compiling + 1 }) rfl code).moves
  · rw [of_set_of_ne _ _ _ hu, of_cons_of_ne _ _ _ (Ne.symm hu)]
    exact .refl

/-- A frame of a unit is copied: a move of this unit, and none of the others. -/
theorem moves_prepare (asks forgets : Prop) (code : OsrCode) (snapshot : Snapshot)
    (hcode : (of frame.unit.id units calls trace).record.code.isSome = true) :
    Moves asks forgets (of unit units calls trace)
      (of unit (units.set frame.unit.id (of frame.unit.id units calls trace).record.prepare)
        (⟨frame, .announcing code snapshot⟩ :: calls) trace) := by
  by_cases hu : unit = frame.unit.id
  · subst hu
    rw [of_set_self, of_cons_announcing]
    exact (Move.prepare hcode).moves
  · rw [of_set_of_ne _ _ _ hu, of_cons_of_ne _ _ _ (Ne.symm hu)]
    exact .refl

/-- A frame of a unit that was copied enters the code. -/
theorem moves_enter (asks forgets : Prop) (code : OsrCode) (snapshot : Snapshot) :
    Moves asks forgets (of unit units (⟨frame, .announcing code snapshot⟩ :: calls) trace)
      (of unit (units.set frame.unit.id (of frame.unit.id units calls trace).record.enter)
        (⟨frame, .running code snapshot⟩ :: calls) trace) := by
  by_cases hu : unit = frame.unit.id
  · subst hu
    rw [of_set_self, of_cons_announcing, of_cons_running]
    exact (Move.enter (v := { of frame.unit.id units calls trace with
      announcing := (of frame.unit.id units calls trace).announcing + 1 }) rfl).moves
  · rw [of_set_of_ne _ _ _ hu, of_cons_of_ne _ _ _ (Ne.symm hu), of_cons_of_ne _ _ _ (Ne.symm hu)]
    exact .refl

/-- A frame of a unit leaves the code, and what is counted then happens to the unit. -/
theorem moves_leave (asks forgets : Prop) (code : OsrCode) (snapshot : Snapshot) (bailedOut : Bool) :
    Moves asks forgets (of unit units (⟨frame, .running code snapshot⟩ :: calls) trace)
      (of unit (match units.find? frame.unit.id with
          | none => units
          | some t => units.set frame.unit.id (t.leave bailedOut)) calls
        ((if bailedOut && (units.find? frame.unit.id).any (·.givesUp) then
            [.deoptimize frame.unit.id] else []) ++
          (if bailedOut then [.bailout frame.unit.id] else []) ++ trace)) := by
  by_cases hu : unit = frame.unit.id
  · subst hu
    rw [of_cons_running]
    have hmove : Moves asks forgets { of frame.unit.id units calls trace with
        running := (of frame.unit.id units calls trace).running + 1 } _ :=
      (Move.leave rfl bailedOut).moves
    cases hfind : units.find? frame.unit.id with
    | none => cases bailedOut <;> simpa [of, hfind] using hmove
    | some t => cases bailedOut <;> cases hup : t.givesUp <;> simpa [of, hfind, hup] using hmove
  · rw [of_cons_of_ne _ _ _ (Ne.symm hu)]
    have hsame : of unit (match units.find? frame.unit.id with
        | none => units
        | some t => units.set frame.unit.id (t.leave bailedOut)) calls trace =
        of unit units calls trace := by
      cases units.find? frame.unit.id with
      | none => rfl
      | some t => exact of_set_of_ne _ _ _ hu _
    rw [← hsame]
    cases bailedOut <;> cases (units.find? frame.unit.id).any (·.givesUp) <;>
      simpa [of, Ne.symm hu] using Moves.refl

/-- A unit is forgotten. -/
theorem moves_forget (asks : Prop) {forgets : Prop} (other : UnitId) (hforgets : unit = other → forgets) :
    Moves asks forgets (of unit units calls trace) (of unit (units.erase other) calls trace) := by
  by_cases hu : unit = other
  · subst hu
    have hmove : Moves asks forgets (of unit units calls trace) _ := (Move.forget (hforgets rfl)).moves
    simpa [of] using hmove
  · simpa [of, Assoc.find?_erase_of_ne units hu] using Moves.refl

end

end UnitView

namespace World

variable {σ : Type} {w w' : World σ} {b : BridgeId}

theorem bridge_mapBridge (hb : w.HasBridge b) (f : Bridge → Bridge) :
    (w.mapBridge b f).bridge b = f (w.bridge b) := by
  obtain ⟨bridge, hget⟩ := hb
  simp only [World.bridge, World.mapBridge, Table.get, Table.get?_modify_self, hget, Option.map_some,
    Option.getD_some]

theorem HasBridge.mapBridge (hb : w.HasBridge b) (f : Bridge → Bridge) : (w.mapBridge b f).HasBridge b := by
  obtain ⟨bridge, hget⟩ := hb
  exact ⟨f bridge, by simp only [World.mapBridge, Table.get?_modify_self, hget, Option.map_some]⟩

theorem units_mapTierRecord (hb : w.HasBridge b) (unit : UnitId) (f : TierRecord → TierRecord) :
    ((w.mapTierRecord b unit f).bridge b).units =
      (w.bridge b).units.set unit (f ((w.bridge b).record unit)) := by
  rw [mapTierRecord, bridge_mapBridge hb]
  rfl

theorem units_countOsr (hb : w.HasBridge b) (f : OsrCounters → OsrCounters) :
    ((w.countOsr b f).bridge b).units = (w.bridge b).units := by
  rw [countOsr, bridge_mapBridge hb]
  rfl

theorem HasBridge.mapTierRecord (hb : w.HasBridge b) (unit : UnitId) (f : TierRecord → TierRecord) :
    (w.mapTierRecord b unit f).HasBridge b := hb.mapBridge _

theorem HasBridge.countOsr (hb : w.HasBridge b) (f : OsrCounters → OsrCounters) :
    (w.countOsr b f).HasBridge b := hb.mapBridge _

theorem units_requestCompile (hb : w.HasBridge b) (unit : UnitId) :
    ((w.requestCompile b unit).bridge b).units = (w.bridge b).units.set unit
      { (w.bridge b).record unit with state := .compileRequested } := by
  rw [requestCompile, units_countOsr (hb.mapTierRecord _ _), units_mapTierRecord hb]

theorem units_enterCompiled (hb : w.HasBridge b) (unit : UnitId) :
    ((w.enterCompiled b unit).bridge b).units =
      (w.bridge b).units.set unit ((w.bridge b).record unit).enter := by
  rw [enterCompiled, units_countOsr (hb.mapTierRecord _ _), units_mapTierRecord hb]
  rfl

/-- A frame that leaves compiled code changes the record of its unit and two counts. -/
theorem leave_eq (bridge : Bridge) (unit : UnitId) (bailedOut : Bool) :
    bridge.leave unit bailedOut = { bridge with
      units := match bridge.units.find? unit with
        | none => bridge.units
        | some t => bridge.units.set unit (t.leave bailedOut)
      counters := { bridge.counters with
        bailouts := bridge.counters.bailouts + bailedOut.toNat
        deoptimizations := bridge.counters.deoptimizations +
          (bailedOut && (bridge.units.find? unit).any (·.givesUp)).toNat } } := by
  cases hfind : bridge.units.find? unit with
  | none => cases bailedOut <;> simp [Bridge.leave, Bridge.mapCounters, hfind]
  | some t =>
    cases bailedOut <;> cases hup : t.givesUp <;>
      simp [Bridge.leave, Bridge.mapCounters, Bridge.setRecord, hfind, hup]

theorem units_leave (bridge : Bridge) (unit : UnitId) (bailedOut : Bool) :
    (bridge.leave unit bailedOut).units = match bridge.units.find? unit with
      | none => bridge.units
      | some t => bridge.units.set unit (t.leave bailedOut) := congrArg Bridge.units (leave_eq ..)

/-- What a bridge counts when a frame of a unit leaves compiled code. -/
theorem counted_leave (bridge : Bridge) (unit : UnitId) (bailedOut : Bool) :
    OsrMachine.counted bridge.counters (bridge.leave unit bailedOut).counters unit =
      (if bailedOut && (bridge.units.find? unit).any (·.givesUp) then [.deoptimize unit] else []) ++
        if bailedOut then [.bailout unit] else [] := by
  rw [leave_eq]
  cases bailedOut <;> cases (bridge.units.find? unit).any (·.givesUp) <;> simp [OsrMachine.counted]

/-- Copying a frame takes note of it in the record of the unit, unless there is no room. -/
theorem takeSnapshot_spec (hb : w.HasBridge b) {frame : Frame} {entry : CodeAddress}
    {result : Except OsrError Snapshot} (h : w.takeSnapshot b frame entry = (result, w')) :
    w'.HasBridge b ∧
      ((∃ e, result = .error e ∧ (w'.bridge b).units = (w.bridge b).units) ∨
        ∃ snapshot, result = .ok snapshot ∧ (w'.bridge b).units =
          (w.bridge b).units.set frame.unit.id ((w.bridge b).record frame.unit.id).prepare) := by
  have hunits : ((w.bridge b).prepare frame entry).2.units = (w.bridge b).units := rfl
  unfold takeSnapshot at h
  rcases hp : (w.bridge b).prepare frame entry with ⟨copied, bridge⟩
  rw [hp] at h hunits
  have hmapped := hb.mapBridge fun _ => bridge
  have hbridge := bridge_mapBridge hb fun _ => bridge
  cases copied with
  | error e =>
    cases h
    have hzone : ((w.mapBridge b fun _ => bridge).mapZone (·.reportOom)).HasBridge b := hmapped
    refine ⟨hzone.mapBridge _, .inl ⟨e, rfl, ?_⟩⟩
    rw [units_countOsr hzone]
    exact (congrArg Bridge.units hbridge).trans hunits
  | ok snapshot =>
    cases h
    refine ⟨hmapped.mapBridge _, .inr ⟨snapshot, rfl, ?_⟩⟩
    rw [units_mapTierRecord hmapped, hbridge, Bridge.record, Bridge.record, hunits]
    rfl

theorem bridges_loopEntry (c : CacheId) (pc : Offset) (w : World σ) :
    (loopEntry c pc w).2.bridges = w.bridges := by
  unfold loopEntry
  split <;> rfl

end World

end InlineCache
