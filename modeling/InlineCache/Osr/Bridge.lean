import InlineCache.Heap.Debug
import InlineCache.Json.Basic
import InlineCache.Osr.Frame
import InlineCache.Osr.Region
import InlineCache.Store.Assoc

namespace InlineCache

/-- Settings of the bridge. -/
structure OsrConfig where
  /-- Whether frames ever move. -/
  enabled : Bool
  /-- The number of turns of a loop after which its unit is compiled. -/
  threshold : Nat
  /-- The number of bytes for snapshots. -/
  regionCapacity : Nat
deriving DecidableEq, Inhabited

namespace OsrConfig

def standard : OsrConfig := ⟨true, 1000, 64 * 1024⟩

/-- Sets the threshold, to one at least. -/
def withThreshold (c : OsrConfig) (threshold : Nat) : OsrConfig :=
  { c with threshold := max threshold 1 }

def withRegionCapacity (c : OsrConfig) (bytes : Nat) : OsrConfig :=
  { c with regionCapacity := bytes }

def disabled (c : OsrConfig) : OsrConfig := { c with enabled := false }

/-- The standard settings with the changes that a record asks for. -/
def ofJson (j : Json) : OsrConfig :=
  let c := standard
  let c := ((j.get "threshold").natural?.map c.withThreshold).getD c
  let c := ((j.get "region").natural?.map c.withRegionCapacity).getD c
  if (j.get "disabled").bool? = some true then c.disabled else c

def debugText (c : OsrConfig) : String :=
  Text.debugRecord "OsrConfig" [("enabled", toString c.enabled),
    ("warmup_threshold", toString c.threshold), ("region_capacity", toString c.regionCapacity)]

end OsrConfig

/-- Counts of what the bridge did. -/
structure OsrCounters where
  /-- Moves begun with code at hand. -/
  attempts : Nat
  transfers : Nat
  compileRequests : Nat
  compileFailures : Nat
  /-- Snapshots there was no room for. -/
  outOfMemory : Nat
  bailouts : Nat
  /-- Units whose code was given up after too many bailouts. -/
  deoptimizations : Nat
  pcMismatches : Nat
deriving DecidableEq, Inhabited

namespace OsrCounters

def zero : OsrCounters := ⟨0, 0, 0, 0, 0, 0, 0, 0⟩

/-- The counts with their names, in the order of their declaration. -/
def toList (c : OsrCounters) : List (String × Nat) :=
  [("attempts", c.attempts), ("transfers", c.transfers), ("compile_requests", c.compileRequests),
    ("compile_failures", c.compileFailures), ("out_of_memory", c.outOfMemory),
    ("bailouts", c.bailouts), ("deoptimizations", c.deoptimizations),
    ("pc_mismatches", c.pcMismatches)]

def debugText (c : OsrCounters) : String :=
  Text.debugRecord "OsrStats" (c.toList.map fun (name, n) => (name, toString n))

end OsrCounters

/-- The place where machine code is entered. -/
structure CodeAddress where
  address : Nat
deriving DecidableEq, Inhabited

def CodeAddress.display (a : CodeAddress) : String :=
  "code@0x" ++ String.ofList (Nat.toDigits 16 a.address)

/-- Compiled code of a unit, entered at one of its loops. -/
structure OsrCode where
  entry : CodeAddress
  /-- The loop header where the code is entered. -/
  pc : Offset
  /-- Whether the code would bail out at once. -/
  bailoutExpected : Bool
deriving DecidableEq, Inhabited

/-- Why compiled code gave control back. -/
inductive BailoutReason where
  | typeGuardFailure
  | overflow
  | unsupportedOperation
deriving DecidableEq, Inhabited

namespace BailoutReason

def all : List BailoutReason := [typeGuardFailure, overflow, unsupportedOperation]

def name : BailoutReason → String
  | typeGuardFailure => "TypeGuardFailure"
  | overflow => "Overflow"
  | unsupportedOperation => "UnsupportedOperation"

def ofName? (s : String) : Option BailoutReason := all.find? (·.name = s)

end BailoutReason

/-- How control left compiled code. -/
inductive TierExit where
  /-- The unit returned. -/
  | returned (v : Value)
  /-- The interpreter has to go on from a state. -/
  | bailout (reason : BailoutReason) (state : FrameState)
deriving DecidableEq, Inhabited

/-- What the interpreter does after a loop header. -/
inductive OsrOutcome where
  | continueInterpreting
  /-- Compiled code ran the unit to its end. -/
  | returned (v : Value)
  /-- Compiled code gave up, and the frame was restored. -/
  | bailedOut (reason : BailoutReason)
deriving DecidableEq, Inhabited

/-- How far a unit is on its way to compiled code. -/
inductive TierState where
  | interpreting
  | compileRequested
  /-- The compiler rejected the unit, or its code was given up. -/
  | compileFailed
  | compileSucceeded
  /-- A snapshot of a frame was made. -/
  | transferPrepared
  /-- Some frame is in compiled code. -/
  | transferred
deriving DecidableEq, Inhabited

namespace TierState

def name : TierState → String
  | interpreting => "Interpreting"
  | compileRequested => "CompileRequested"
  | compileFailed => "CompileFailed"
  | compileSucceeded => "CompileSucceeded"
  | transferPrepared => "TransferPrepared"
  | transferred => "Transferred"

end TierState

/-- The state of a frame, copied for one move. -/
structure Snapshot where
  entry : CodeAddress
  header : FrameHeader
  state : FrameState
  byteSize : Nat
  lease : Lease
deriving DecidableEq, Inhabited

/-- What the bridge knows of a unit. -/
structure TierRecord where
  state : TierState
  code : Option OsrCode
  bailouts : Nat
  /-- The number of frames in compiled code. -/
  active : Nat
deriving DecidableEq, Inhabited

namespace TierRecord

def initial : TierRecord := ⟨.interpreting, none, 0, 0⟩

/-- How many bailouts make the bridge give up the code of a unit. -/
def deoptThreshold : Nat := 10

/-- The state when no frame is in compiled code. -/
def restingState (t : TierRecord) : TierState :=
  if t.code.isSome then .compileSucceeded else .compileFailed

/-- Whether one more bailout makes the bridge give up the code. -/
def givesUp (t : TierRecord) : Bool := deoptThreshold ≤ t.bailouts + 1 && t.code.isSome

/-- A frame left compiled code, perhaps by a bailout. -/
def leave (t : TierRecord) (bailedOut : Bool) : TierRecord :=
  let active := t.active - 1
  let t :=
    if bailedOut then
      { t with active := active, bailouts := t.bailouts + 1,
               code := if t.givesUp then none else t.code }
    else { t with active := active }
  { t with state := if 0 < active then .transferred else t.restingState }

end TierRecord

/-- What the interpreter and the optimizing compiler know of each unit. -/
structure Bridge where
  config : OsrConfig
  /-- Whether the moves of watched frames are announced. -/
  observed : Bool
  region : Region
  units : Assoc UnitId TierRecord
  counters : OsrCounters
deriving Inhabited

namespace Bridge

def create (config : OsrConfig) (observed : Bool) : Bridge :=
  ⟨config, observed, .create config.regionCapacity, .empty, .zero⟩

/-- What is known of a unit; nothing yet is the state of one that is interpreted. -/
def record (b : Bridge) (unit : UnitId) : TierRecord := (b.units.find? unit).getD .initial

def setRecord (b : Bridge) (unit : UnitId) (t : TierRecord) : Bridge :=
  { b with units := b.units.set unit t }

def tierState (b : Bridge) (unit : UnitId) : TierState := (b.record unit).state

def compiledCode? (b : Bridge) (unit : UnitId) : Option OsrCode := (b.record unit).code

/-- Forgets all that is known of a unit. -/
def invalidate (b : Bridge) (unit : UnitId) : Bridge := { b with units := b.units.erase unit }

def mapCounters (b : Bridge) (f : OsrCounters → OsrCounters) : Bridge :=
  { b with counters := f b.counters }

/-- Copies a frame for entry into compiled code. -/
def prepare (b : Bridge) (frame : Frame) (entry : CodeAddress) : Except OsrError Snapshot × Bridge :=
  let (leased, region) := b.region.allocate frame.byteSize
  (leased.map fun lease => ⟨entry, frame.header, frame.capture, frame.byteSize, lease⟩,
    { b with region := region })

/-- Gives the room of a snapshot back. -/
def drop (b : Bridge) : Bridge := { b with region := b.region.release }

/-- A frame of a unit left compiled code. A unit that was forgotten stays forgotten. -/
def leave (b : Bridge) (unit : UnitId) (bailedOut : Bool) : Bridge :=
  let b := if bailedOut then b.mapCounters fun c => { c with bailouts := c.bailouts + 1 } else b
  match b.units.find? unit with
  | none => b
  | some t =>
    let b :=
      if bailedOut && t.givesUp then
        b.mapCounters fun c => { c with deoptimizations := c.deoptimizations + 1 }
      else b
    b.setRecord unit (t.leave bailedOut)

def debugText (b : Bridge) : String :=
  let region := Text.debugRecord "RegionState" [("offset", toString b.region.offset),
    ("live", toString b.region.live), ("high_water", toString b.region.highWater)]
  Text.debugRecord "OsrBridge" [("config", b.config.debugText),
    ("region", Text.debugRecord "OsrTempRegion" [("capacity", toString b.region.capacity),
      ("state", Text.debugRecord "Mutex" [("data", region)])]),
    ("stats", b.counters.debugText)]

end Bridge

end InlineCache
