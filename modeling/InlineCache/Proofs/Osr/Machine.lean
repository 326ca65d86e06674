import InlineCache.Proofs.Osr.Call

namespace InlineCache

/-- What happens to a unit. -/
inductive OsrEvent where
  /-- The compiler is called. -/
  | compile (unit : UnitId)
  /-- Its code bailed out. -/
  | bailout (unit : UnitId)
  /-- Its code was given up. -/
  | deoptimize (unit : UnitId)
deriving DecidableEq

/-- A state, the calls that have not returned, and what has happened. The host acts, begins calls and
answers them; what it does while a call waits, it does before it answers. So the states in which a run
of actions can stop are all the states in which the host may look at the bridge. -/
structure OsrMachine (σ : Type) where
  world : World σ
  /-- The calls that have not returned, the last one first. -/
  calls : List OsrCall
  /-- What has happened, the last event first. -/
  trace : List OsrEvent

inductive OsrAction (σ : Type) where
  /-- The host changes what is its own to change. -/
  | host (w : World σ)
  /-- A frame stands at a loop. -/
  | loopEntry (c : CacheId) (frame : Frame)
  /-- A frame is to move into code. -/
  | transfer (frame : Frame)
  /-- The host answers the last call. -/
  | reply (reply : OsrReply)
  | invalidate (unit : UnitId)

namespace OsrMachine

variable {σ : Type}

/-- What a bridge counted when a frame of a unit left compiled code. -/
def counted (before after : OsrCounters) (unit : UnitId) : List OsrEvent :=
  (if before.deoptimizations < after.deoptimizations then [.deoptimize unit] else []) ++
    if before.bailouts < after.bailouts then [.bailout unit] else []

/-- The events of a call that begins. -/
def requestsOf : Option OsrCall → List OsrEvent
  | some ⟨frame, .compiling⟩ => [.compile frame.unit.id]
  | _ => []

/-- The events of an answer. -/
def eventsOf (call : OsrCall) (before after : Bridge) : OsrReply → List OsrEvent
  | .exited _ => counted before.counters after.counters call.unit
  | _ => []

def step (b : BridgeId) (m : OsrMachine σ) : OsrAction σ → OsrMachine σ
  | .host w => { m with world := w }
  | .loopEntry c frame =>
    let (next, w) := m.world.beginLoopEntry b c frame
    ⟨w, next.toList ++ m.calls, requestsOf next ++ m.trace⟩
  | .transfer frame =>
    let (next, w) := m.world.beginTransfer b frame
    ⟨w, next.toList ++ m.calls, m.trace⟩
  | .reply reply =>
    match m.calls with
    | [] => m
    | call :: rest =>
      if reply.fits call.stage then
        let (next, w) := m.world.resume b call reply
        ⟨w, next.toList ++ rest, eventsOf call (m.world.bridge b) (w.bridge b) reply ++ m.trace⟩
      else m
  | .invalidate unit => { m with world := m.world.mapBridge b (·.invalidate unit) }

def run (b : BridgeId) (m : OsrMachine σ) (actions : List (OsrAction σ)) : OsrMachine σ :=
  actions.foldl (step b) m

/-- The machine of a bridge that was just started. -/
def start (w : World σ) (config : OsrConfig) (observed : Bool) : OsrMachine σ :=
  ⟨(w.addBridge config observed).2, [], []⟩

private theorem run_append (b : BridgeId) (m : OsrMachine σ) (first rest : List (OsrAction σ)) :
    m.run b (first ++ rest) = (m.run b first).run b rest :=
  List.foldl_append

/-- Whether the host leaves to the bridge what it knows of units. -/
def Allows (b : BridgeId) (m : OsrMachine σ) : OsrAction σ → Prop
  | .host w => w.HasBridge b ∧ (w.bridge b).units = (m.world.bridge b).units
  | _ => True

/-- Whether the host does so all through a run. -/
def Obeys (b : BridgeId) : OsrMachine σ → List (OsrAction σ) → Prop
  | _, [] => True
  | m, a :: rest => m.Allows b a ∧ Obeys b (m.step b a) rest

private theorem obeys_append {b : BridgeId} {m : OsrMachine σ} {first rest : List (OsrAction σ)}
    (hfirst : m.Obeys b first) (hrest : (m.run b first).Obeys b rest) : m.Obeys b (first ++ rest) := by
  induction first generalizing m with
  | nil => exact hrest
  | cons a first ih => exact ⟨hfirst.1, ih hfirst.2 hrest⟩

/-- A run of actions of some kinds comes to a state and to calls that wait. -/
def LeadsTo (b : BridgeId) (P : OsrAction σ → Prop) (m : OsrMachine σ) (w : World σ)
    (calls : List OsrCall) : Prop :=
  ∃ actions, m.Obeys b actions ∧ (∀ a ∈ actions, P a) ∧
    (m.run b actions).world = w ∧ (m.run b actions).calls = calls

/-- A run that sees through all calls that it makes. -/
def Leads (b : BridgeId) (P : OsrAction σ → Prop) (m : OsrMachine σ) (w : World σ) : Prop :=
  m.LeadsTo b P w m.calls

variable {b : BridgeId} {P : OsrAction σ → Prop} {m : OsrMachine σ} {w w' : World σ}
  {calls calls' : List OsrCall}

theorem LeadsTo.trans (h : m.LeadsTo b P w calls)
    (h' : ∀ m' : OsrMachine σ, m'.world = w → m'.calls = calls → m'.LeadsTo b P w' calls') :
    m.LeadsTo b P w' calls' := by
  obtain ⟨actions, hobeys, hP, hworld, hcalls⟩ := h
  obtain ⟨actions', hobeys', hP', hend⟩ := h' _ hworld hcalls
  refine ⟨actions ++ actions', obeys_append hobeys hobeys', fun a ha => ?_, ?_⟩
  · exact (List.mem_append.1 ha).elim (hP a) (hP' a)
  · rw [run_append]
    exact hend

private theorem LeadsTo.of_step {a : OsrAction σ} (hallows : m.Allows b a) (ha : P a) :
    m.LeadsTo b P (m.step b a).world (m.step b a).calls :=
  ⟨[a], ⟨hallows, trivial⟩, fun _ hmem => List.mem_singleton.1 hmem ▸ ha, rfl, rfl⟩

end OsrMachine

namespace Tier

variable {σ : Type} {tier : Tier σ} {b : BridgeId} {P : OsrAction σ → Prop}

/-- Callbacks that do no more than act. -/
def Acts (tier : Tier σ) (b : BridgeId) (P : OsrAction σ → Prop) : Prop :=
  ∀ (call : OsrCall) (m : OsrMachine σ), m.Leads b P (tier.answer b call m.world).2

/-- A tier that changes the state before it does anything else. -/
def after (tier : Tier σ) (f : World σ → World σ) : Tier σ where
  compile b unit pc w := tier.compile b unit pc (f w)
  enter b code snapshot frame w := tier.enter b code snapshot frame (f w)
  relocate b frame snapshot w := tier.relocate b frame snapshot (f w)

private theorem answer_after (f : World σ → World σ) (call : OsrCall) (w : World σ) :
    (tier.after f).answer b call w = tier.answer b call (f w) := by
  obtain ⟨frame, stage⟩ := call
  cases stage <;> rfl

/-- The change may be a call of the same bridge, so callbacks nest to any depth. -/
theorem Acts.after (hacts : tier.Acts b P) {f : World σ → World σ}
    (hf : ∀ m : OsrMachine σ, m.Leads b P (f m.world)) : (tier.after f).Acts b P := by
  intro call m
  refine (hf m).trans fun m' hworld hcalls => ?_
  have hanswer := hacts call m'
  rw [OsrMachine.Leads, hcalls, hworld] at hanswer
  rw [answer_after]
  exact hanswer

end Tier

namespace OsrMachine

variable {σ : Type} {b : BridgeId} {P : OsrAction σ → Prop} {tier : Tier σ} {m : OsrMachine σ}

end OsrMachine

end InlineCache
