import InlineCache.Proofs.Osr.Phase

namespace InlineCache

namespace World

variable {σ : Type} {w : World σ} {b : BridgeId}

theorem hasBridge_addBridge (w : World σ) (config : OsrConfig) (observed : Bool) :
    (w.addBridge config observed).2.HasBridge w.bridges.next :=
  ⟨_, w.bridges.get?_add_next _⟩

end World

namespace OsrMachine

variable {σ : Type} {b : BridgeId} {unit : UnitId} {m : OsrMachine σ}

/-- The number of frames of a unit that are in compiled code. -/
def inside (m : OsrMachine σ) (unit : UnitId) : Nat :=
  m.calls.countP fun call => call.unit = unit && call.stage.isRunning

/-- A unit of one loop. -/
def loopUnit : CodeUnit := ⟨1, "f", 0, false, 0, #[.loopEntry, .ret], #[]⟩

def loopFrame : Frame := .enter loopUnit .undefined []

/-- A state with the caches of a unit of one loop. -/
def loopWorld : World Unit :=
  ((World.create .standard (fun _ _ => none) ()).addCache loopUnit).2

end OsrMachine

end InlineCache
