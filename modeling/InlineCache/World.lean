import InlineCache.Cache.UnitCache
import InlineCache.Operation.Inherit
import InlineCache.Osr.Bridge

namespace InlineCache

/-- The place of a unit's caches in the state. -/
abbrev CacheId := Nat

/-- The place of a bridge in the state. -/
abbrev BridgeId := Nat

/-- The state of a running machine. Native functions and the optimizing compiler belong to the host; while
they run they may use any entry, frame or bridge again, and the host keeps a state of its own beside the
machine's. -/
structure World (σ : Type) where
  heap : Heap
  runtime : Runtime
  caches : Table UnitCache
  bridges : Table Bridge
  /-- The number of unit identities given out. -/
  unitsMade : Nat
  host : σ
deriving Inhabited

/-- The bodies of native functions: receiver and arguments to a result or an error. -/
abbrev Natives (σ : Type) :=
  BodyId → Value → List Value → World σ → Except VmError Value × World σ

namespace World

variable {σ : Type}

def create (config : CacheConfig) (compiler : Compiler) (host : σ) : World σ :=
  ⟨.initial, .create config compiler, .empty, .empty, 0, host⟩

def mapHeap (w : World σ) (f : Heap → Heap) : World σ := { w with heap := f w.heap }

/-- Runs a part of the heap's own working. -/
def onHeap {α : Type} (w : World σ) (f : Heap → α × Heap) : α × World σ :=
  let (a, heap) := f w.heap
  (a, { w with heap := heap })

def mapZone (w : World σ) (f : Zone → Zone) : World σ :=
  { w with runtime := { w.runtime with zone := f w.runtime.zone } }

def cache (w : World σ) (id : CacheId) : UnitCache := w.caches.get id

def mapCache (w : World σ) (id : CacheId) (f : UnitCache → UnitCache) : World σ :=
  { w with caches := w.caches.modify id f }

def bridge (w : World σ) (id : BridgeId) : Bridge := w.bridges.get id

def mapBridge (w : World σ) (id : BridgeId) (f : Bridge → Bridge) : World σ :=
  { w with bridges := w.bridges.modify id f }

/-- A fresh identity for a unit. -/
def freshUnit (w : World σ) : UnitId × World σ :=
  (UInt32.ofNat (w.unitsMade + 1), { w with unitsMade := w.unitsMade + 1 })

/-- The unit of a draft. The identity is used up even if the unit is not well formed. -/
def buildUnit (w : World σ) (d : CodeUnit.Draft) : Except BytecodeError CodeUnit × World σ :=
  let (id, w) := w.freshUnit
  ((d.toUnit id).check, w)

/-- The unit that a text encodes. A text that encodes none uses up no identity. -/
def readUnit (w : World σ) (text : String) : Except BytecodeError CodeUnit × World σ :=
  let (id, next) := w.freshUnit
  match CodeUnit.parse? id text with
  | none => (.error .undecodable, w)
  | some unit => (unit.check, next)

/-- Prepares a unit for use. -/
def addCache (w : World σ) (unit : CodeUnit) : Except CacheError CacheId × World σ :=
  match UnitCache.create unit w.runtime.config with
  | .error e => (.error e, w)
  | .ok cache => (.ok w.caches.next, { w with caches := w.caches.add cache })

/-- Builds a stub. -/
def buildStub (w : World σ) (recipe : Recipe) : Except CacheError Stub × World σ :=
  let (result, runtime) := w.runtime.build recipe
  (result, { w with runtime := runtime })

/-- Tears the runtime down. Units keep their stubs. -/
def teardown (w : World σ) : World σ := { w with runtime := w.runtime.teardown }

/-- Starts a bridge. -/
def addBridge (w : World σ) (config : OsrConfig) (observed : Bool) : BridgeId × World σ :=
  (w.bridges.next, { w with bridges := w.bridges.add (.create config observed) })

/-- Adds to the number of running calls of a function. -/
def enterCall (h : Heap) (id : ObjectId) : Heap :=
  h.modifyObject id fun o =>
    { o with function := o.function.map fun f => { f with activeCalls := f.activeCalls + 1 } }

/-- Takes from the number of running calls of a function. -/
def leaveCall (h : Heap) (id : ObjectId) : Heap :=
  h.modifyObject id fun o =>
    { o with function := o.function.map fun f => { f with activeCalls := f.activeCalls - 1 } }

/-- Calls an object. The call counts as running until it has returned, with a result or an error. -/
def callObject (w : World σ) (natives : Natives σ) (id : ObjectId) (this : Value)
    (args : List Value) : Except VmError Value × World σ :=
  match (w.heap.object id).function with
  | none => (.error (.objectNotFunction id), w)
  | some f =>
    let (result, w) := natives f.body this args (w.mapHeap (enterCall · id))
    (result, w.mapHeap (leaveCall · id))

/-- Calls a value. -/
def callValue (w : World σ) (natives : Natives σ) (callee this : Value) (args : List Value) :
    Except VmError Value × World σ :=
  match callee.asObject?.filter fun id => (w.heap.object id).isCallable with
  | some id => w.callObject natives id this args
  | none =>
    match Operation.describe w.heap callee with
    | .ok text => (.error (.notFunction text), w)
    | .error e => (.error e, w)

end World

end InlineCache
