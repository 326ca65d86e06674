import InlineCache.Osr.Transfer

namespace InlineCache

/-- Where a call of a bridge waits for the host. The compiler, the observer and compiled code belong to
the host, and while they run they may use the bridge again. So a call is what it does up to the first of
them, and then what it does with each answer, up to the next one. -/
inductive OsrStage where
  /-- The unit of the frame is being compiled. -/
  | compiling
  /-- The observer is told that the frame is about to move. -/
  | announcing (code : OsrCode) (snapshot : Snapshot)
  /-- The frame is in compiled code. -/
  | running (code : OsrCode) (snapshot : Snapshot)

namespace OsrStage

def isCompiling : OsrStage → Bool
  | compiling => true
  | _ => false

def isAnnouncing : OsrStage → Bool
  | announcing _ _ => true
  | _ => false

def isRunning : OsrStage → Bool
  | running _ _ => true
  | _ => false

theorem isRunning_iff {stage : OsrStage} :
    stage.isRunning = true ↔ stage.isCompiling = false ∧ stage.isAnnouncing = false := by
  cases stage <;> simp [isRunning, isCompiling, isAnnouncing]

end OsrStage

/-- A call that waits for the host. -/
structure OsrCall where
  frame : Frame
  stage : OsrStage

/-- The unit that a call is about. -/
def OsrCall.unit (call : OsrCall) : UnitId := call.frame.unit.id

/-- What the host answers. -/
inductive OsrReply where
  | compiled (result : Except OsrError OsrCode)
  | announced
  | exited (exit : Except VmError TierExit)

/-- Whether an answer is one that a call waits for. -/
def OsrReply.fits : OsrReply → OsrStage → Bool
  | compiled _, .compiling | announced, .announcing _ _ | exited _, .running _ _ => true
  | _, _ => false

namespace World

variable {σ : Type}

/-- Whether there is a bridge at a place. -/
def HasBridge (w : World σ) (b : BridgeId) : Prop := ∃ bridge, w.bridges.get? b = some bridge

/-- Takes note that the compiler is asked for the code of a unit. -/
def requestCompile (w : World σ) (b : BridgeId) (unit : UnitId) : World σ :=
  (w.mapTierRecord b unit fun t => { t with state := .compileRequested }).countOsr b fun n =>
    { n with compileRequests := n.compileRequests + 1 }

/-- Begins to move a frame into code. There is no call to wait for if the frame does not move. -/
def beginTransferWith (w : World σ) (b : BridgeId) (code : OsrCode) (frame : Frame) :
    Option OsrCall × World σ :=
  if code.pc ≠ frame.pc then
    (none, w.countOsr b fun n => { n with pcMismatches := n.pcMismatches + 1 })
  else if code.bailoutExpected then (none, w)
  else
    let w := w.countOsr b fun n => { n with attempts := n.attempts + 1 }
    match w.takeSnapshot b frame code.entry with
    | (.error _, w) => (none, w)
    | (.ok snapshot, w) =>
      if frame.debuggee && (w.bridge b).observed then (some ⟨frame, .announcing code snapshot⟩, w)
      else (some ⟨frame, .running code snapshot⟩, w.enterCompiled b frame.unit.id)

/-- Begins to move a frame into the code of its unit. -/
def beginTransfer (w : World σ) (b : BridgeId) (frame : Frame) : Option OsrCall × World σ :=
  match (w.bridge b).compiledCode? frame.unit.id with
  | some code => w.beginTransferWith b code frame
  | none => (none, w)

/-- Begins to count a turn of the loop that a frame stands at, and to move the frame if its unit is hot. -/
def beginLoopEntry (w : World σ) (b : BridgeId) (c : CacheId) (frame : Frame) :
    Option OsrCall × World σ :=
  match loopEntry c frame.pc w with
  | (.error _, w) => (none, w)
  | (.ok turns, w) =>
    let config := (w.bridge b).config
    if !config.enabled || turns < config.threshold then (none, w)
    else
      let record := (w.bridge b).record frame.unit.id
      match record.state with
      | .compileFailed | .compileRequested => (none, w)
      | .interpreting => (some ⟨frame, .compiling⟩, w.requestCompile b frame.unit.id)
      | _ =>
        match record.code with
        | none => (none, w)
        | some code => w.beginTransferWith b code frame

/-- Goes on with a call when the host has answered. -/
def resume (w : World σ) (b : BridgeId) (call : OsrCall) (reply : OsrReply) :
    Option OsrCall × World σ :=
  match call.stage, reply with
  | .compiling, .compiled result =>
    match w.finishCompile b call.unit result with
    | (none, w) => (none, w)
    | (some code, w) => w.beginTransferWith b code call.frame
  | .announcing code snapshot, .announced =>
    (some ⟨call.frame, .running code snapshot⟩, w.enterCompiled b call.unit)
  | .running _ _, .exited exit =>
    (none, ((w.mapBridge b (·.drop)).leaveCompiled b call.frame exit).2)
  | _, _ => (none, w)

end World

namespace Tier

variable {σ : Type}

/-- What a tier answers a call that waits, and what becomes of the state. -/
def answer (tier : Tier σ) (b : BridgeId) (call : OsrCall) (w : World σ) : OsrReply × World σ :=
  match call.stage with
  | .compiling =>
    let (result, w) := tier.compile b call.frame.unit call.frame.pc w
    (.compiled result, w)
  | .announcing _ snapshot => (.announced, tier.relocate b call.frame snapshot w)
  | .running code snapshot =>
    let (exit, w) := tier.enter b code snapshot call.frame w
    (.exited exit, w)

/-- One answer of a tier, if a call waits for it. -/
def round (tier : Tier σ) (b : BridgeId) : Option OsrCall × World σ → Option OsrCall × World σ
  | (none, w) => (none, w)
  | (some call, w) =>
    let (reply, w) := tier.answer b call w
    w.resume b call reply

/-- All the answers that a call waits for: of the compiler, the observer and the code. -/
def rounds (tier : Tier σ) (b : BridgeId) (s : Option OsrCall × World σ) : Option OsrCall × World σ :=
  tier.round b (tier.round b (tier.round b s))

variable (tier : Tier σ) (b : BridgeId) (call : OsrCall) (w : World σ)

theorem fits_answer : (tier.answer b call w).1.fits call.stage = true := by
  obtain ⟨frame, stage⟩ := call
  cases stage <;> rfl

@[simp] theorem round_none : tier.round b (none, w) = (none, w) := rfl

@[simp] theorem rounds_none : tier.rounds b (none, w) = (none, w) := rfl

end Tier

namespace World

variable {σ : Type} (tier : Tier σ) (b : BridgeId) (frame : Frame) (w : World σ)

/-- Moving a frame into code is beginning to, and waiting twice at most. -/
theorem round_beginTransferWith (code : OsrCode) :
    tier.round b (tier.round b (w.beginTransferWith b code frame)) =
      (none, (transferWith tier b code frame w).2) := by
  unfold transferWith beginTransferWith
  split
  · rfl
  · split
    · rfl
    · dsimp only
      cases hs : (w.countOsr b fun n => { n with attempts := n.attempts + 1 }).takeSnapshot b frame
        code.entry with
      | mk result w₁ =>
      cases result with
      | error e => rfl
      | ok snapshot =>
        dsimp only
        by_cases hwatched : (frame.debuggee && (w₁.bridge b).observed) = true
        · rw [if_pos hwatched, runCompiled, announce, if_pos hwatched]
          rfl
        · rw [if_neg hwatched, runCompiled, announce, if_neg hwatched]
          rfl

/-- A request of a frame to move is one call, with all that it waits for. -/
theorem rounds_beginTransfer :
    tier.rounds b (w.beginTransfer b frame) = (none, (transfer tier b frame w).2) := by
  unfold beginTransfer transfer
  cases (w.bridge b).compiledCode? frame.unit.id with
  | none => rfl
  | some code => rw [Tier.rounds, round_beginTransferWith, Tier.round_none]

/-- Asks the compiler for the code of a unit, and waits for it. -/
def compileCode (tier : Tier σ) (b : BridgeId) (unit : CodeUnit) (pc : Offset) (w : World σ) :
    Option OsrCode × World σ :=
  (tier.compile b unit pc (w.requestCompile b unit.id)).2.finishCompile b unit.id
    (tier.compile b unit pc (w.requestCompile b unit.id)).1

private theorem round_compiling :
    tier.round b (some ⟨frame, .compiling⟩, w.requestCompile b frame.unit.id) =
      match compileCode tier b frame.unit frame.pc w with
      | (none, w) => (none, w)
      | (some code, w) => w.beginTransferWith b code frame := rfl

private theorem requestCode_of_interpreting {unit : CodeUnit} {pc : Offset}
    (hstate : ((w.bridge b).record unit.id).state = .interpreting) :
    requestCode tier b unit pc w = compileCode tier b unit pc w := by
  simp only [requestCode, hstate]
  rfl

/-- A turn of a loop is one call, with all that it waits for. -/
theorem rounds_beginLoopEntry (c : CacheId) :
    tier.rounds b (w.beginLoopEntry b c frame) = (none, (onLoopEntry tier b c frame w).2) := by
  unfold beginLoopEntry onLoopEntry
  cases hloop : loopEntry c frame.pc w with
  | mk result w₁ =>
  cases result with
  | error e => rfl
  | ok turns =>
    dsimp only
    split
    · rfl
    · cases hstate : ((w₁.bridge b).record frame.unit.id).state with
      | interpreting =>
        rw [requestCode_of_interpreting tier b w₁ hstate]
        dsimp only
        rw [Tier.rounds, round_compiling]
        cases compileCode tier b frame.unit frame.pc w₁ with
        | mk found w₂ =>
        cases found with
        | none => rfl
        | some code => exact round_beginTransferWith tier b frame w₂ code
      | compileFailed | compileRequested => simp only [requestCode, hstate, Tier.rounds_none]
      | _ =>
        simp only [requestCode, hstate]
        cases ((w₁.bridge b).record frame.unit.id).code with
        | none => rfl
        | some code =>
          dsimp only
          rw [Tier.rounds, round_beginTransferWith, Tier.round_none]

end World

end InlineCache
