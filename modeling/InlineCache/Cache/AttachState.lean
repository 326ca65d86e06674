namespace InlineCache

/-- How far an entry is specialized. With as many stubs as the limit allows it has seen too much and turns
megamorphic; when attaching keeps failing it turns generic. Both give up the stubs for good. -/
inductive Mode where
  /-- Never used yet. -/
  | uninitialized
  /-- Stubs may be attached. -/
  | optimizable
  /-- Too many different operands were seen. -/
  | megamorphic
  /-- Attaching kept failing. -/
  | generic
deriving DecidableEq, Inhabited

namespace Mode

def name : Mode → String
  | uninitialized => "Uninitialized"
  | optimizable => "Optimizable"
  | megamorphic => "Megamorphic"
  | generic => "Generic"

/-- Whether specialization was given up. -/
def isTerminal : Mode → Bool
  | megamorphic | generic => true
  | _ => false

end Mode

/-- The mode with its counters, which stick at the greatest value they can hold. -/
structure AttachState where
  mode : Mode
  /-- The number of stubs in the chain. -/
  stubs : UInt8
  /-- Failures since a stub was attached. -/
  failures : UInt16
  /-- Attempts of any outcome. -/
  attempts : UInt32
deriving DecidableEq, Inhabited

namespace AttachState

def initial : AttachState := ⟨.uninitialized, 0, 0, 0⟩

/-- How many failures are tolerated: the more stubs there are, the more. -/
def maxFailures (s : AttachState) : Nat := 5 + 40 * s.stubs.toNat

def tooManyFailures (s : AttachState) : Bool := s.maxFailures ≤ s.failures.toNat

/-- The mode for the next attempt, and whether the stubs have to go. -/
def transition (s : AttachState) (cap : Nat) : Bool × AttachState :=
  match s.mode with
  | .generic => (false, s)
  | .uninitialized => (false, { s with mode := .optimizable })
  | .optimizable =>
    if s.tooManyFailures then (true, { s with mode := .generic })
    else if cap ≤ s.stubs.toNat then (true, { s with mode := .megamorphic })
    else (false, s)
  | .megamorphic => if s.tooManyFailures then (true, { s with mode := .generic }) else (false, s)

/-- Whether one more stub may be attached. -/
def canAttach (s : AttachState) (cap : Nat) : Bool := !s.mode.isTerminal && s.stubs.toNat < cap

def countAttempt (s : AttachState) : AttachState :=
  { s with attempts := if s.attempts = 0xffffffff then s.attempts else s.attempts + 1 }

/-- A stub was attached. -/
def countAttached (s : AttachState) : AttachState :=
  { s with mode := .optimizable, failures := 0,
           stubs := if s.stubs = 0xff then s.stubs else s.stubs + 1 }

/-- The fallback ran and no stub was attached. -/
def countFailure (s : AttachState) : AttachState :=
  { s with failures := if s.failures = 0xffff then s.failures else s.failures + 1 }

/-- Some stubs were taken out. -/
def countUnlinked (s : AttachState) (removed : Nat) : AttachState :=
  { s with stubs := UInt8.ofNat (s.stubs.toNat - removed) }

end AttachState

end InlineCache
