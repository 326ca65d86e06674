import InlineCache.Cache.Dispatch

namespace InlineCache

/-- The optimizing compiler and its code. Both may use the machine while they run. -/
structure Tier (σ : Type) where
  /-- Compiles a unit for entry at a loop. -/
  compile : BridgeId → CodeUnit → Offset → World σ → Except OsrError OsrCode × World σ
  /-- Runs code from a snapshot of a frame. -/
  enter : BridgeId → OsrCode → Snapshot → Frame → World σ → Except VmError TierExit × World σ
  /-- Is told that a watched frame is about to move. -/
  relocate : BridgeId → Frame → Snapshot → World σ → World σ

namespace World

variable {σ : Type}

def mapTierRecord (w : World σ) (b : BridgeId) (unit : UnitId) (f : TierRecord → TierRecord) :
    World σ :=
  w.mapBridge b fun bridge => bridge.setRecord unit (f (bridge.record unit))

def countOsr (w : World σ) (b : BridgeId) (f : OsrCounters → OsrCounters) : World σ :=
  w.mapBridge b (·.mapCounters f)

/-- Takes note of what became of a compilation. -/
def finishCompile (w : World σ) (b : BridgeId) (unit : UnitId) :
    Except OsrError OsrCode → Option OsrCode × World σ
  | .ok code =>
    (some code,
     w.mapTierRecord b unit fun t => { t with state := .compileSucceeded, code := some code })
  | .error _ =>
    (none, (w.mapTierRecord b unit fun t => { t with state := .compileFailed }).countOsr b fun n =>
      { n with compileFailures := n.compileFailures + 1 })

/-- The code of a unit. The first request compiles it; there is none while that goes on, nor after it
failed. -/
def requestCode (tier : Tier σ) (b : BridgeId) (unit : CodeUnit) (pc : Offset) (w : World σ) :
    Option OsrCode × World σ :=
  let record := (w.bridge b).record unit.id
  match record.state with
  | .compileFailed | .compileRequested => (none, w)
  | .interpreting =>
    let w := w.mapTierRecord b unit.id fun t => { t with state := .compileRequested }
    let w := w.countOsr b fun n => { n with compileRequests := n.compileRequests + 1 }
    let (result, w) := tier.compile b unit pc w
    w.finishCompile b unit.id result
  | _ => (record.code, w)

/-- Copies a frame for entry into compiled code, and takes note if there is no room. -/
def takeSnapshot (w : World σ) (b : BridgeId) (frame : Frame) (entry : CodeAddress) :
    Except OsrError Snapshot × World σ :=
  let (copied, bridge) := (w.bridge b).prepare frame entry
  let w := w.mapBridge b fun _ => bridge
  match copied with
  | .ok snapshot =>
    (.ok snapshot, w.mapTierRecord b frame.unit.id fun t =>
      if t.active = 0 then { t with state := .transferPrepared } else t)
  | .error e =>
    (.error e, (w.mapZone (·.reportOom)).countOsr b fun n =>
      { n with outOfMemory := n.outOfMemory + 1 })

/-- Announces the move of a frame, if anyone watches it. -/
def announce (tier : Tier σ) (b : BridgeId) (frame : Frame) (snapshot : Snapshot) (w : World σ) :
    World σ :=
  if frame.debuggee && (w.bridge b).observed then tier.relocate b frame snapshot w else w

/-- Takes note that a frame enters compiled code. -/
def enterCompiled (w : World σ) (b : BridgeId) (unit : UnitId) : World σ :=
  (w.mapTierRecord b unit fun t => { t with active := t.active + 1, state := .transferred }).countOsr b
    fun n => { n with transfers := n.transfers + 1 }

/-- What becomes of a frame when control left compiled code. -/
def leaveCompiled (w : World σ) (b : BridgeId) (frame : Frame) :
    Except VmError TierExit → Except OsrError (OsrOutcome × Frame) × World σ
  | .ok (.returned v) =>
    (.ok (.returned v, frame), w.mapBridge b (·.leave frame.unit.id false))
  | .ok (.bailout reason state) =>
    ((frame.restore state).map fun frame => (.bailedOut reason, frame),
     w.mapBridge b (·.leave frame.unit.id true))
  | .error e => (.error (.vm e), w.mapBridge b (·.leave frame.unit.id false))

/-- Runs compiled code from a snapshot of a frame. The snapshot is gone when control comes back. -/
def runCompiled (tier : Tier σ) (b : BridgeId) (code : OsrCode) (frame : Frame)
    (snapshot : Snapshot) (w : World σ) : Except OsrError (OsrOutcome × Frame) × World σ :=
  let w := announce tier b frame snapshot w
  let w := w.enterCompiled b frame.unit.id
  let (exit, w) := tier.enter b code snapshot frame w
  (w.mapBridge b (·.drop)).leaveCompiled b frame exit

/-- Moves a frame into code. If it does not move, or an operation in the code fails, the frame is as it
was. -/
def transferWith (tier : Tier σ) (b : BridgeId) (code : OsrCode) (frame : Frame) (w : World σ) :
    Except OsrError (OsrOutcome × Frame) × World σ :=
  if code.pc ≠ frame.pc then
    (.error (.pcMismatch code.pc frame.pc),
     w.countOsr b fun n => { n with pcMismatches := n.pcMismatches + 1 })
  else if code.bailoutExpected then (.error .bailoutExpected, w)
  else
    let w := w.countOsr b fun n => { n with attempts := n.attempts + 1 }
    match w.takeSnapshot b frame code.entry with
    | (.error e, w) => (.error e, w)
    | (.ok snapshot, w) => runCompiled tier b code frame snapshot w

/-- Moves a frame into the code of its unit. -/
def transfer (tier : Tier σ) (b : BridgeId) (frame : Frame) (w : World σ) :
    Except OsrError (OsrOutcome × Frame) × World σ :=
  match (w.bridge b).compiledCode? frame.unit.id with
  | some code => transferWith tier b code frame w
  | none => (.error (.noCompiledCode frame.unit.id), w)

/-- What the interpreter does after an attempt to move a frame. A frame that cannot move is interpreted;
only errors that arose in compiled code, or from the state it gave back, are errors here. -/
def settleTransfer (frame : Frame) :
    Except OsrError (OsrOutcome × Frame) → Except VmError (OsrOutcome × Frame)
  | .ok result => .ok result
  | .error (.pcMismatch _ _) | .error .bailoutExpected | .error (.outOfMemory _ _) =>
    .ok (.continueInterpreting, frame)
  | .error e => .error e.toVmError

/-- Counts a turn of the loop that a frame stands at, and moves the frame if its unit is hot. The unit is
compiled once, when the count reaches the threshold. Compiled code goes on from a copy of the frame; the
frame itself stays as it is until the code bails out, when the state that comes back is put into it. -/
def onLoopEntry (tier : Tier σ) (b : BridgeId) (c : CacheId) (frame : Frame) (w : World σ) :
    Except VmError (OsrOutcome × Frame) × World σ :=
  match loopEntry c frame.pc w with
  | (.error e, w) => (.error e, w)
  | (.ok turns, w) =>
    let config := (w.bridge b).config
    if !config.enabled || turns < config.threshold then (.ok (.continueInterpreting, frame), w)
    else
      match requestCode tier b frame.unit frame.pc w with
      | (none, w) => (.ok (.continueInterpreting, frame), w)
      | (some code, w) =>
        let (result, w) := transferWith tier b code frame w
        (settleTransfer frame result, w)

end World

end InlineCache
