import InlineCache.Proofs.Osr.Leases
import InlineCache.Proofs.Osr.Lifecycle

namespace InlineCache

/-- What is leased and counted when frames move. -/
structure OsrAccount where
  /-- The leases that were not released. -/
  live : Nat
  attempts : Nat
  transfers : Nat
  outOfMemory : Nat
  /-- How often the collector was told that memory ran out. -/
  oomCount : Nat

namespace OsrAccount

/-- The account of a bridge, and of the zone that it tells of lacks of memory. -/
def of (bridge : Bridge) (zone : Zone) : OsrAccount :=
  ⟨bridge.region.live, bridge.counters.attempts, bridge.counters.transfers,
    bridge.counters.outOfMemory, zone.oomCount⟩

/-- The account after some attempts, of which some were moves and the others failed for lack of memory. -/
def add (a : OsrAccount) (moved lacking : Nat) : OsrAccount where
  live := a.live
  attempts := a.attempts + (moved + lacking)
  transfers := a.transfers + moved
  outOfMemory := a.outOfMemory + lacking
  oomCount := a.oomCount + lacking

/-- The account while a call waits: a frame that was copied holds a lease, and one that is still announced
is an attempt that did not come to anything yet. -/
def during (a : OsrAccount) : Option OsrCall → OsrAccount
  | none => a
  | some call =>
    match call.stage with
    | .compiling => a
    | .announcing _ _ => { a with live := a.live + 1, attempts := a.attempts + 1 }
    | .running _ _ => { a with live := a.live + 1 }

private theorem add_add (a : OsrAccount) (moved lacking moved' lacking' : Nat) :
    (a.add moved lacking).add moved' lacking' = a.add (moved + moved') (lacking + lacking') := by
  simp only [add, mk.injEq, true_and]
  omega

private theorem during_add (a : OsrAccount) (moved lacking : Nat) (call : Option OsrCall) :
    (a.during call).add moved lacking = (a.add moved lacking).during call := by
  cases call with
  | none => rfl
  | some call =>
    obtain ⟨frame, stage⟩ := call
    cases stage with
    | announcing =>
      simp only [during, add, mk.injEq, true_and, and_true]
      omega
    | _ => rfl

/-- Bailouts, and code that is given up, are no matter of the account. -/
theorem of_leave (bridge : Bridge) (unit : UnitId) (bailedOut : Bool) (zone : Zone) :
    of (bridge.leave unit bailedOut) zone = of bridge zone := by
  rw [World.leave_eq]
  rfl

/-- What a lease takes, its release gives back. -/
theorem of_drop {a : OsrAccount} {bridge : Bridge} {zone : Zone}
    (h : of bridge zone = { a with live := a.live + 1 }) : of bridge.drop zone = a := by
  have hlive : bridge.region.live = a.live + 1 := congrArg live h
  have hdrop : of bridge.drop zone = { of bridge zone with live := bridge.region.live - 1 } := rfl
  rw [hdrop, h, hlive]
  rfl

end OsrAccount

namespace World

variable {σ : Type} {w w' w'' : World σ} {b : BridgeId} {a : OsrAccount} {frame : Frame}
  {next : Option OsrCall}

def account (w : World σ) (b : BridgeId) : OsrAccount := .of (w.bridge b) w.runtime.zone

private theorem account_mapBridge (hb : w.HasBridge b) (f : Bridge → Bridge) :
    (w.mapBridge b f).account b = .of (f (w.bridge b)) w.runtime.zone := by
  rw [account, bridge_mapBridge hb]
  rfl

/-- The records of units are no matter of the account. -/
theorem account_mapTierRecord (hb : w.HasBridge b) (unit : UnitId) (f : TierRecord → TierRecord) :
    (w.mapTierRecord b unit f).account b = w.account b := account_mapBridge hb _

private theorem account_countOsr (hb : w.HasBridge b) (f : OsrCounters → OsrCounters) :
    (w.countOsr b f).account b = .of ((w.bridge b).mapCounters f) w.runtime.zone :=
  account_mapBridge hb _

/-- What happens to a call keeps the account: it is what it was when the call began, but for attempts
that came to their end, and for what the call still holds. A call that waits for the host may hold a
lease, and may have been counted as an attempt without being counted as a move yet; it gives both back
on every way out. -/
structure Accounted (b : BridgeId) (a : OsrAccount) (next : Option OsrCall) (w : World σ) : Prop where
  hasBridge : w.HasBridge b
  account : ∃ moved lacking, w.account b = (a.add moved lacking).during next

private theorem accounted_self (hb : w.HasBridge b) : Accounted b (w.account b) none w :=
    ⟨hb, 0, 0, rfl⟩

/-- Attempts that ended while a call waited are added to those of before. -/
theorem Accounted.trans (h : Accounted b a next w) (h' : Accounted b (w.account b) none w') :
    Accounted b a next w' := by
  obtain ⟨-, moved, lacking, haccount⟩ := h
  obtain ⟨hb', moved', lacking', haccount'⟩ := h'
  refine ⟨hb', moved + moved', lacking + lacking', ?_⟩
  rw [haccount', haccount, OsrAccount.during, OsrAccount.during_add, OsrAccount.add_add]

/-- A call that begins when nothing is held. -/
theorem Accounted.begin (h : Accounted b a none w) (h' : Accounted b (w.account b) next w') :
    Accounted b a next w' := by
  obtain ⟨-, moved, lacking, haccount⟩ := h
  obtain ⟨hb', moved', lacking', haccount'⟩ := h'
  refine ⟨hb', moved + moved', lacking + lacking', ?_⟩
  rw [haccount', haccount, OsrAccount.during, OsrAccount.add_add]

/-- What leaves the account alone. -/
theorem Accounted.of_eq (h : Accounted b a next w) (hb : w'.HasBridge b)
    (haccount : w'.account b = w.account b) : Accounted b a next w' := by
  obtain ⟨-, moved, lacking, heq⟩ := h
  exact ⟨hb, moved, lacking, haccount.trans heq⟩

private theorem accounted_enterCompiled {code : OsrCode} {snapshot : Snapshot}
    (h : Accounted b a (some ⟨frame, .announcing code snapshot⟩) w) (unit : UnitId) :
    Accounted b a (some ⟨frame, .running code snapshot⟩) (w.enterCompiled b unit) := by
  obtain ⟨hb, moved, lacking, haccount⟩ := h
  have hb₁ := hb.mapTierRecord unit fun t => { t with active := t.active + 1, state := .transferred }
  refine ⟨hb₁.countOsr _, moved + 1, lacking, ?_⟩
  have hrecord := account_mapTierRecord hb unit fun t =>
    { t with active := t.active + 1, state := .transferred }
  rw [haccount] at hrecord
  rw [enterCompiled, account_countOsr hb₁]
  simp only [account, OsrAccount.of, OsrAccount.during, OsrAccount.add, OsrAccount.mk.injEq] at hrecord
  obtain ⟨hlive, hattempts, htransfers, houtOfMemory, hoom⟩ := hrecord
  simp only [OsrAccount.of, OsrAccount.during, OsrAccount.add, Bridge.mapCounters, OsrAccount.mk.injEq]
  omega

private theorem mapBridge_self (w : World σ) (b : BridgeId) :
    (w.mapBridge b fun _ => w.bridge b) = w := by
  have hbridges : (w.bridges.modify b fun _ => w.bridge b) = w.bridges := by
    refine Table.modify_self _ fun bridge hget => ?_
    rw [World.bridge, Table.get, hget, Option.getD_some]
  rw [mapBridge, hbridges]

/-- A frame that there is no room to copy leaves the bridge, but for the count of such frames. -/
theorem takeSnapshot_eq_error {entry : CodeAddress} {e : OsrError}
    (h : w.takeSnapshot b frame entry = (.error e, w')) :
    w' = (w.mapZone (·.reportOom)).countOsr b fun n => { n with outOfMemory := n.outOfMemory + 1 } := by
  unfold takeSnapshot Bridge.prepare at h
  rcases hleased : (w.bridge b).region.allocate frame.byteSize with ⟨_ | lease, region⟩
  · obtain ⟨-, -, rfl⟩ := Region.of_allocate_eq_error hleased
    simp only [hleased] at h
    cases h
    exact congrArg (fun v : World σ => (v.mapZone (·.reportOom)).countOsr b _) (mapBridge_self w b)
  · simp only [hleased] at h
    cases h

/-- A frame is copied for entry, or there is no room for the copy, of which the collector is told. -/
theorem accounted_takeSnapshot (hb : w.HasBridge b) {entry : CodeAddress}
    {result : Except OsrError Snapshot}
    (h : (w.countOsr b fun n => { n with attempts := n.attempts + 1 }).takeSnapshot b frame entry =
      (result, w')) :
    (∃ e, result = .error e ∧ Accounted b (w.account b) none w') ∨
      ∃ snapshot, result = .ok snapshot ∧
        ∀ code, Accounted b (w.account b) (some ⟨frame, .announcing code snapshot⟩) w' := by
  have hb₁ : (w.countOsr b fun n => { n with attempts := n.attempts + 1 }).HasBridge b := hb.countOsr _
  have hbridge := bridge_mapBridge hb (·.mapCounters fun n => { n with attempts := n.attempts + 1 })
  rw [← countOsr] at hbridge
  have hb' := (takeSnapshot_spec hb₁ h).1
  cases result with
  | error e =>
    obtain rfl := takeSnapshot_eq_error h
    have hzone : ((w.countOsr b fun n => { n with attempts := n.attempts + 1 }).mapZone
        (·.reportOom)).HasBridge b := hb₁
    refine .inl ⟨e, rfl, hb', 0, 1, ?_⟩
    rw [account_countOsr hzone]
    have hsame : (((w.countOsr b fun n => { n with attempts := n.attempts + 1 }).mapZone
        (·.reportOom)).bridge b) = (w.bridge b).mapCounters
          fun n => { n with attempts := n.attempts + 1 } := hbridge
    rw [hsame]
    rfl
  | ok snapshot =>
    unfold takeSnapshot Bridge.prepare at h
    rw [hbridge] at h
    rcases hleased : (w.bridge b).region.allocate frame.byteSize with ⟨_ | lease, region⟩
    · simp only [Bridge.mapCounters, hleased] at h
      cases h
    · simp only [Bridge.mapCounters, hleased] at h
      cases h
      refine .inr ⟨_, rfl, fun code => ⟨hb', 0, 0, ?_⟩⟩
      rw [account_mapTierRecord (hb₁.mapBridge _), account_mapBridge hb₁]
      obtain ⟨-, -, rfl⟩ := Region.of_allocate_eq_ok hleased
      rfl

private theorem accounted_beginTransferWith (hb : w.HasBridge b) {code : OsrCode}
    (h : w.beginTransferWith b code frame = (next, w')) : Accounted b (w.account b) next w' := by
  unfold beginTransferWith at h
  split at h
  · cases h
    exact (accounted_self hb).of_eq (hb.countOsr _) (account_countOsr hb _)
  split at h
  · cases h
    exact accounted_self hb
  dsimp only at h
  cases hs : (w.countOsr b fun n => { n with attempts := n.attempts + 1 }).takeSnapshot b frame
    code.entry with
  | mk result w₁ =>
  rw [hs] at h
  rcases accounted_takeSnapshot hb hs with ⟨e, rfl, hlacking⟩ | ⟨snapshot, rfl, hcopied⟩
  · cases h
    exact hlacking
  · dsimp only at h
    split at h
    · cases h
      exact hcopied code
    · cases h
      exact accounted_enterCompiled (hcopied code) _

private theorem accounted_beginTransfer (hb : w.HasBridge b)
    (h : w.beginTransfer b frame = (next, w')) : Accounted b (w.account b) next w' := by
  unfold beginTransfer at h
  split at h
  · exact accounted_beginTransferWith hb h
  · cases h
    exact accounted_self hb

/-- What becomes of a compilation is no matter of the account. -/
theorem account_finishCompile (hb : w.HasBridge b) {unit : UnitId} {result : Except OsrError OsrCode}
    {found : Option OsrCode} (h : w.finishCompile b unit result = (found, w')) :
    w'.account b = w.account b := by
  cases result with
  | error e =>
    cases h
    have hrecord := hb.mapTierRecord unit fun t => { t with state := .compileFailed }
    exact (account_countOsr hrecord _).trans (account_mapTierRecord hb _ _)
  | ok code =>
    cases h
    exact account_mapTierRecord hb _ _

private theorem runtime_loopEntry (c : CacheId) (pc : Offset) (w : World σ) :
    (loopEntry c pc w).2.runtime = w.runtime := by
  unfold loopEntry
  split <;> rfl

private theorem accounted_requestCompile (hb : w.HasBridge b) (frame : Frame) :
    Accounted b (w.account b) (some ⟨frame, .compiling⟩) (w.requestCompile b frame.unit.id) := by
  have hrecord := hb.mapTierRecord frame.unit.id fun t => { t with state := .compileRequested }
  refine ⟨hrecord.countOsr _, 0, 0, ?_⟩
  rw [requestCompile, account_countOsr hrecord]
  exact account_mapTierRecord hb _ _

private theorem accounted_beginLoopEntry (hb : w.HasBridge b) {c : CacheId}
    (h : w.beginLoopEntry b c frame = (next, w')) : Accounted b (w.account b) next w' := by
  unfold beginLoopEntry at h
  have hbridges := bridges_loopEntry c frame.pc w
  have hruntime := runtime_loopEntry c frame.pc w
  cases hloop : loopEntry c frame.pc w with
  | mk result w₁ =>
  rw [hloop] at h hbridges hruntime
  have hb₁ : w₁.HasBridge b := by
    rw [HasBridge, hbridges]
    exact hb
  have haccount : w₁.account b = w.account b := by
    rw [account, account, bridge, bridge, hbridges, hruntime]
  rw [← haccount]
  cases result with
  | error e =>
    cases h
    exact accounted_self hb₁
  | ok turns =>
    dsimp only at h
    split at h
    · cases h
      exact accounted_self hb₁
    split at h
    · cases h
      exact accounted_self hb₁
    · cases h
      exact accounted_self hb₁
    · cases h
      exact accounted_requestCompile hb₁ frame
    · split at h
      · cases h
        exact accounted_self hb₁
      · exact accounted_beginTransferWith hb₁ h

/-- A frame that leaves compiled code gives its lease back, however it leaves. -/
theorem accounted_exited {code : OsrCode} {snapshot : Snapshot}
    (h : Accounted b a (some ⟨frame, .running code snapshot⟩) w) (exit : Except VmError TierExit) :
    Accounted b a none ((w.mapBridge b (·.drop)).leaveCompiled b frame exit).2 := by
  obtain ⟨hb, moved, lacking, haccount⟩ := h
  obtain ⟨bailedOut, hleave⟩ := leaveCompiled_eq (w.mapBridge b (·.drop)) b frame exit
  have hdrop := hb.mapBridge (·.drop)
  rw [hleave]
  refine ⟨hdrop.mapBridge _, moved, lacking, ?_⟩
  rw [account_mapBridge hdrop, bridge_mapBridge hb, OsrAccount.of_leave]
  exact OsrAccount.of_drop haccount

/-- A call that is answered. -/
theorem accounted_resume {call : OsrCall} (h : Accounted b a (some call) w) {reply : OsrReply}
    (hfits : reply.fits call.stage = true) (hresume : w.resume b call reply = (next, w')) :
    Accounted b a next w' := by
  obtain ⟨frame, stage⟩ := call
  cases stage with
  | compiling =>
    cases reply with
    | compiled result =>
      simp only [resume, OsrCall.unit] at hresume
      cases hfinish : w.finishCompile b frame.unit.id result with
      | mk found w₁ =>
      rw [hfinish] at hresume
      have hidle : Accounted b a none w := ⟨h.hasBridge, h.account⟩
      have hfinished := hidle.of_eq (finishCompile_spec h.hasBridge hfinish).1
        (account_finishCompile h.hasBridge hfinish)
      cases found with
      | none =>
        cases hresume
        exact hfinished
      | some code => exact hfinished.begin (accounted_beginTransferWith hfinished.hasBridge hresume)
    | _ => cases hfits
  | announcing code snapshot =>
    cases reply with
    | announced =>
      cases hresume
      exact accounted_enterCompiled h _
    | _ => cases hfits
  | running code snapshot =>
    cases reply with
    | exited exit =>
      cases hresume
      exact accounted_exited h exit
    | _ => cases hfits

/-- While the host answers, the account of the call that waits is kept. -/
theorem accounted_round {tier : Tier σ}
    (hanswers : ∀ call (w : World σ), w.HasBridge b →
      Accounted b (w.account b) none (tier.answer b call w).2)
    {s : Option OsrCall × World σ} (h : Accounted b a s.1 s.2) :
    Accounted b a (tier.round b s).1 (tier.round b s).2 := by
  obtain ⟨call?, w⟩ := s
  cases call? with
  | none => exact h
  | some call =>
    have hanswered := h.trans (hanswers call w h.hasBridge)
    exact accounted_resume hanswered (tier.fits_answer b call w) rfl

private theorem accounted_rounds {tier : Tier σ}
    (hanswers : ∀ call (w : World σ), w.HasBridge b →
      Accounted b (w.account b) none (tier.answer b call w).2)
    {s : Option OsrCall × World σ} (h : Accounted b a s.1 s.2) :
    Accounted b a (tier.rounds b s).1 (tier.rounds b s).2 :=
  accounted_round hanswers (accounted_round hanswers (accounted_round hanswers h))

/-- What may become of a state while the host has control. It does what is its own, which is no matter of
the account, and calls the bridge again; while such a call waits for the host, the same may happen. -/
inductive Hosted (b : BridgeId) : World σ → World σ → Prop where
  | own {w w' : World σ} (hb : w.HasBridge b → w'.HasBridge b) (haccount : w'.account b = w.account b) :
      Hosted b w w'
  | loopEntry {tier : Tier σ} (hanswers : ∀ call w, Hosted b w (tier.answer b call w).2) (c : CacheId)
      (frame : Frame) (w : World σ) : Hosted b w (onLoopEntry tier b c frame w).2
  | transfer {tier : Tier σ} (hanswers : ∀ call w, Hosted b w (tier.answer b call w).2) (frame : Frame)
      (w : World σ) : Hosted b w (transfer tier b frame w).2
  | trans {w w' w'' : World σ} (h : Hosted b w w') (h' : Hosted b w' w'') : Hosted b w w''

private theorem accounted_onLoopEntry {tier : Tier σ}
    (hanswers : ∀ call (w : World σ), w.HasBridge b →
      Accounted b (w.account b) none (tier.answer b call w).2)
    (hb : w.HasBridge b) (c : CacheId) (frame : Frame) :
    Accounted b (w.account b) none (onLoopEntry tier b c frame w).2 := by
  have hbegin : Accounted b (w.account b) (w.beginLoopEntry b c frame).1 (w.beginLoopEntry b c frame).2 :=
    accounted_beginLoopEntry hb rfl
  have hrounds := accounted_rounds hanswers hbegin
  rwa [rounds_beginLoopEntry] at hrounds

private theorem accounted_transfer {tier : Tier σ}
    (hanswers : ∀ call (w : World σ), w.HasBridge b →
      Accounted b (w.account b) none (tier.answer b call w).2)
    (hb : w.HasBridge b) (frame : Frame) :
    Accounted b (w.account b) none (transfer tier b frame w).2 := by
  have hbegin : Accounted b (w.account b) (w.beginTransfer b frame).1 (w.beginTransfer b frame).2 :=
    accounted_beginTransfer hb rfl
  have hrounds := accounted_rounds hanswers hbegin
  rwa [rounds_beginTransfer] at hrounds

/-- The induction is on the depth to which calls are nested. -/
theorem Hosted.accounted (h : Hosted b w w') (hb : w.HasBridge b) :
    Accounted b (w.account b) none w' := by
  induction h with
  | own hb' haccount => exact (accounted_self hb).of_eq (hb' hb) haccount
  | loopEntry _ c frame w ih => exact accounted_onLoopEntry ih hb c frame
  | transfer _ frame w ih => exact accounted_transfer ih hb frame
  | trans _ _ ih ih' =>
    have hfirst := ih hb
    exact hfirst.begin (ih' hfirst.hasBridge)

/-- A call of the bridge, by what is leased and counted before and after it. -/
structure Settled (b : BridgeId) (w w' : World σ) : Prop where
  live : (w'.bridge b).region.live = (w.bridge b).region.live
  /-- Every attempt that was counted meanwhile was a move, or failed for lack of memory. -/
  counters : ∃ moved lacking,
    (w'.bridge b).counters.transfers = (w.bridge b).counters.transfers + moved ∧
    (w'.bridge b).counters.outOfMemory = (w.bridge b).counters.outOfMemory + lacking ∧
    (w'.bridge b).counters.attempts = (w.bridge b).counters.attempts + (moved + lacking) ∧
    w'.runtime.zone.oomCount = w.runtime.zone.oomCount + lacking

private theorem Accounted.settled (h : Accounted b (w.account b) none w') : Settled b w w' := by
  obtain ⟨-, moved, lacking, haccount⟩ := h
  exact ⟨congrArg OsrAccount.live haccount, moved, lacking, congrArg OsrAccount.transfers haccount,
    congrArg OsrAccount.outOfMemory haccount, congrArg OsrAccount.attempts haccount,
    congrArg OsrAccount.oomCount haccount⟩

end World

namespace OsrMachine

/-- A turn of a loop, and a request of a frame to move, give back every lease that they took, and count
each attempt once for what it came to, whatever comes out and however deep the host nests calls in it. -/
theorem call_settled {σ : Type} {tier : Tier σ} {b : BridgeId}
    (hanswers : ∀ call w, World.Hosted b w (tier.answer b call w).2) {w : World σ}
    (hb : w.HasBridge b) (frame : Frame) :
    (∀ c, World.Settled b w (World.onLoopEntry tier b c frame w).2) ∧
      World.Settled b w (World.transfer tier b frame w).2 := by
  constructor
  · intro c
    have hcall : World.Hosted b w (World.onLoopEntry tier b c frame w).2 := .loopEntry hanswers c frame w
    exact (hcall.accounted hb).settled
  · have hcall : World.Hosted b w (World.transfer tier b frame w).2 := .transfer hanswers frame w
    exact (hcall.accounted hb).settled

/-- A tier whose code returns at once. -/
def returningTier : Tier Unit where
  compile _ _ _ w := (.ok ⟨⟨16⟩, 0, false⟩, w)
  enter _ _ _ _ w := (.ok (.returned .undefined), w)
  relocate _ _ _ w := w

/-- A tier whose code lets the frame move once more, and then gives back a state that does not fit it. -/
def nestingTier : Tier Unit where
  compile _ _ _ w := (.ok ⟨⟨16⟩, 0, false⟩, w)
  enter b _ _ frame w := (.ok (.bailout .overflow ⟨7, #[]⟩), (World.transfer returningTier b frame w).2)
  relocate _ _ _ w := w

private theorem hosted_returningTier (b : BridgeId) (call : OsrCall) (w : World Unit) :
    World.Hosted b w (returningTier.answer b call w).2 := by
  obtain ⟨frame, stage⟩ := call
  cases stage <;> exact .own id rfl

private theorem hosted_nestingTier (b : BridgeId) (call : OsrCall) (w : World Unit) :
    World.Hosted b w (nestingTier.answer b call w).2 := by
  obtain ⟨frame, stage⟩ := call
  cases stage with
  | running => exact .transfer (hosted_returningTier b) frame w
  | _ => exact .own id rfl

/-- A state with a bridge whose region has room for one frame. -/
def narrowWorld : World Unit :=
  (loopWorld.addBridge ((OsrConfig.standard.withThreshold 1).withRegionCapacity 24) false).2

/-- The second move finds no room and the first one ends with an error, and no lease is left. -/
theorem nested_move_settled :
    (World.onLoopEntry nestingTier 1 1 loopFrame narrowWorld).1 =
        .error (.raised .internalError "invalid frame state: offset 00007 is outside the unit") ∧
      World.Settled 1 narrowWorld (World.onLoopEntry nestingTier 1 1 loopFrame narrowWorld).2 ∧
      ((World.onLoopEntry nestingTier 1 1 loopFrame narrowWorld).2.bridge 1).counters.attempts = 2 ∧
      (World.onLoopEntry nestingTier 1 1 loopFrame narrowWorld).2.runtime.zone.oomCount = 1 := by
  have hb : narrowWorld.HasBridge 1 := World.hasBridge_addBridge loopWorld _ _
  exact ⟨by rfl, (call_settled (hosted_nestingTier 1) hb loopFrame).1 1, by rfl, by rfl⟩

end OsrMachine

end InlineCache
