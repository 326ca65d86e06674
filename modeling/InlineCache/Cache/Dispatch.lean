import InlineCache.Cache.Request

namespace InlineCache.World

variable {σ : Type}

/-- What attaching a stub to an entry of a unit works on. -/
def attachEnv (w : World σ) (c : CacheId) : AttachEnv :=
  ⟨(w.cache c).arena, (w.cache c).counters, w.runtime⟩

/-- Takes over what was attached for a unit. -/
def setAttachEnv (w : World σ) (c : CacheId) (env : AttachEnv) : World σ :=
  { w with runtime := env.runtime }.mapCache c fun cache =>
    { cache with arena := env.arena, counters := env.counters }

/-- Works on an entry and on what attaching to it needs. -/
def onEntry {α : Type} (w : World σ) (c : CacheId) (index : Nat)
    (f : Entry → AttachEnv → α × Entry × AttachEnv) : α × World σ :=
  let (a, entry, env) := f ((w.cache c).entry index) (w.attachEnv c)
  (a, (w.setAttachEnv c env).mapCache c (·.setEntry index entry))

def mapCounters (w : World σ) (c : CacheId) (f : Counters → Counters) : World σ :=
  w.mapCache c fun cache => { cache with counters := f cache.counters }

def mapEntry (w : World σ) (c : CacheId) (index : Nat) (f : Entry → Entry) : World σ :=
  w.mapCache c fun cache => cache.setEntry index (f (cache.entry index))

/-- Shows the type guards of a property a value that is about to be written, and tells whether they
accepted it at once. The guards of a property are made when it is first written. -/
def recordWrite (w : World σ) (c : CacheId) (group : GroupId) (key : PropertyKey) (v : Value) :
    Bool × World σ :=
  let env := w.attachEnv c
  let (chain, arena) :=
    match (w.cache c).updates.find? (group, key) with
    | some chain => (chain, env.arena)
    | none => TypeChain.create env.arena .update
  let (accepted, chain, heap, env) :=
    chain.recordWrite w.heap { env with arena := arena } group key v
  (accepted,
   ({ w with heap := heap }.setAttachEnv c env).mapCache c fun cache =>
     { cache with updates := cache.updates.set (group, key) chain })

/-- Shows the type guards of an entry a result, unless one of the given guards accepts it. -/
def recordResult (w : World σ) (c : CacheId) (index : Nat) (guards : List TypeGuard) (v : Value) :
    World σ :=
  if guards.any (·.accepts w.heap v) then w
  else
    (w.onEntry c index fun entry env =>
      match entry.monitor with
      | some monitor =>
        let (monitor, env) := monitor.record w.heap env v
        ((), { entry with monitor := some monitor }, env)
      | none => ((), entry, env)).2

/-- Counts a use of an entry that no stub answered. -/
def enter (w : World σ) (c : CacheId) (index : Nat) : World σ :=
  w.mapEntry c index fun entry => { entry with entered := entry.entered + 1 }

/-- Watches a value that comes from elsewhere. Only values that were not accepted at once are counted. -/
def watch (w : World σ) (c : CacheId) (index : Nat) (guards : List TypeGuard) (v : Value) :
    World σ :=
  if guards.any (·.accepts w.heap v) then w else (w.enter c index).recordResult c index guards v

/-- Counts a use of an entry that reached its fallback. -/
def enterFallback (w : World σ) (c : CacheId) (index : Nat) : World σ :=
  (w.mapCounters c fun n => { n with fallbackHits := n.fallbackHits + 1 }).enter c index

/-- Tries to attach a stub before or after the operation. -/
def attempt (w : World σ) (c : CacheId) (index : Nat) (decision : Decision) : Decision × World σ :=
  w.onEntry c index fun entry env => entry.attempt env decision

/-- Finishes an attempt that was deferred. -/
def settle (w : World σ) (c : CacheId) (index : Nat) (decision : Decision) : World σ :=
  (w.onEntry c index fun entry env => ((), entry.settle env decision)).2

/-- Performs an operation, and attaches a stub if it succeeded. -/
def performThenAttach (natives : Natives σ) (c : CacheId) (index : Nat) (r : Request)
    (w : World σ) : Except VmError Value × World σ :=
  match r.perform natives w with
  | (.error e, w) => (.error e, w)
  | (.ok v, w) =>
    let w :=
      if r.gaveDouble v then w.mapEntry c index fun entry => { entry with sawDouble := true }
      else w
    (.ok v, (w.attempt c index (r.decision w.heap)).2)

/-- Performs an operation, and settles what could not be decided before it ran. -/
def performThenSettle (natives : Natives σ) (c : CacheId) (index : Nat) (guards : List TypeGuard)
    (r : Request) (outcome : Decision) (w : World σ) : Except VmError Value × World σ :=
  let before := w.heap
  match r.perform natives w with
  | (.error e, w) => (.error e, w)
  | (.ok v, w) =>
    let w := if outcome = .deferred then w.settle c index (r.secondLook before w.heap) else w
    (.ok v, if r.isMonitored then w.recordResult c index guards v else w)

/-- Attaches a stub if that can be decided, shows a write to the type guards of the property, and
performs the operation. -/
def attachThenPerform (natives : Natives σ) (c : CacheId) (index : Nat) (guards : List TypeGuard)
    (r : Request) (w : World σ) : Except VmError Value × World σ :=
  let (outcome, w) := w.attempt c index (r.decision w.heap)
  match r.write? w.heap with
  | .error e => (.error e, w)
  | .ok write =>
    let w := match write with
      | some (group, key, v) => (w.recordWrite c group key v).2
      | none => w
    performThenSettle natives c index guards r outcome w

/-- The use of an entry that no stub answered. -/
def fallback (natives : Natives σ) (c : CacheId) (index : Nat) (guards : List TypeGuard)
    (op : SiteOperation) (ops : Operands) (w : World σ) : Except VmError Value × World σ :=
  let site := (w.cache c).site index
  let w := w.enterFallback c index
  match op.request? ops with
  | none => (.error (.operandArity site.label site.pc), w)
  | some r =>
    if r.attachesAfter then performThenAttach natives c index r w
    else attachThenPerform natives c index guards r w

/-- The first stub whose guard holds, with the signature of its code. -/
def hit? (h : Heap) (stubs : List Stub) (ops : Operands) : Option (Stub × Signature) :=
  stubs.findSome? fun stub =>
    stub.code.bind fun code =>
      if Guard.holds h code.signature stub ops then some (stub, code.signature) else none

/-- Shows a write that a stub is about to make to the type guards of the property. -/
def recordStubWrite (w : World σ) (c : CacheId) (op : SiteOperation) (ops : Operands) : World σ :=
  match op.key?, ops with
  | some key, .binary (.object id) v => (w.recordWrite c (w.heap.object id).group key v).2
  | _, _ => w

/-- The use of an entry that a stub answers. -/
def runStub (natives : Natives σ) (c : CacheId) (index : Nat) (guards : List TypeGuard)
    (op : SiteOperation) (ops : Operands) (stub : Stub) (signature : Signature) (w : World σ) :
    Except VmError Value × World σ :=
  let flavor := stub.kind.flavor?
  let w := if flavor = some .updated then w.recordStubWrite c op ops else w
  match Handler.run natives signature stub ops w with
  | (.error e, w) => (.error e, w)
  | (.ok v, w) =>
    let w := w.mapCounters c fun n => { n with stubHits := n.stubHits + 1 }
    (.ok v, if flavor = some .monitored then w.recordResult c index guards v else w)

/-- The use of an entry, known by its place. The first stub whose guard holds answers. If there is none, the
operation is performed in full, and a stub for its operands may be attached. An answer is checked by the
type guards that the entry had when the use began, since a call may have used the same entry in the
meantime. -/
def dispatchEntry (natives : Natives σ) (c : CacheId) (index : Nat) (ops : Operands)
    (w : World σ) : Except VmError Value × World σ :=
  let cache := w.cache c
  let site := cache.site index
  let guards := cache.monitorGuards index
  match site.role with
  | .monitor =>
    match ops.unary? with
    | some v => (.ok v, w.watch c index guards v)
    | none => (.error (.monitorArity site.pc), w)
  | .loopCounter =>
    let w := w.enterFallback c index
    (.ok (.number (Double.ofNat ((w.cache c).entry index).entered)), w)
  | .operation op =>
    match hit? w.heap ((cache.entry index).chain.stubs cache.arena) ops with
    | some (stub, signature) => runStub natives c index guards op ops stub signature w
    | none => fallback natives c index guards op ops w

/-- The use of an entry, which has to be one of the unit's. -/
def dispatch (natives : Natives σ) (c : CacheId) (id : EntryId) (ops : Operands) (w : World σ) :
    Except VmError Value × World σ :=
  if (w.cache c).owns id then dispatchEntry natives c id.index ops w
  else (.error (.foreignEntry id.index (w.cache c).unit.name), w)

/-- The use of the entry of the instruction at an offset. -/
def dispatchAt (natives : Natives σ) (c : CacheId) (pc : Offset) (ops : Operands) (w : World σ) :
    Except VmError Value × World σ :=
  match (w.cache c).entryAt? pc with
  | some id => dispatch natives c id ops w
  | none => (.error (CacheError.noEntry pc).toVmError, w)

/-- The use of an entry that answers yes or no. -/
def testAt (natives : Natives σ) (c : CacheId) (pc : Offset) (ops : Operands) (w : World σ) :
    Except VmError Bool × World σ :=
  let (result, w) := dispatchAt natives c pc ops w
  (result.map (· == .boolean true), w)

/-- Counts a turn of the loop at an offset and gives the number of turns. -/
def loopEntry (c : CacheId) (pc : Offset) (w : World σ) : Except VmError Nat × World σ :=
  match (w.cache c).entryAt? pc with
  | some id =>
    let w := w.enterFallback c id.index
    (.ok ((w.cache c).entry id.index).entered, w)
  | none => (.error (CacheError.noEntry pc).toVmError, w)

/-- Watches a value at an entry, if there is one. -/
def monitorAt (natives : Natives σ) (c : CacheId) (id : Option EntryId) (v : Value) (w : World σ) :
    Except VmError Unit × World σ :=
  match id with
  | some id =>
    let (result, w) := dispatch natives c id (.unary v) w
    (result.map fun _ => (), w)
  | none => (.ok (), w)

/-- Watches the receiver of a function. -/
def monitorThis (natives : Natives σ) (c : CacheId) (v : Value) (w : World σ) :
    Except VmError Unit × World σ :=
  monitorAt natives c (w.cache c).entryOfThis? v w

/-- Watches an argument of a function. -/
def monitorArgument (natives : Natives σ) (c : CacheId) (index : ArgumentIndex) (v : Value)
    (w : World σ) : Except VmError Unit × World σ :=
  monitorAt natives c ((w.cache c).entryOfArgument? index) v w

/-- Takes the stubs of a signature out of an entry, and counts them. -/
def unlinkStubs (w : World σ) (c : CacheId) (index : Nat) (signature : Signature) :
    Nat × World σ :=
  w.onEntry c index fun entry env => entry.unlinkSignature env signature

/-- Takes all stubs out of all entries, which start anew. Type guards stay. -/
def purge (w : World σ) (c : CacheId) : World σ :=
  (List.range (w.cache c).entries.size).foldl
    (fun w index => (w.onEntry c index fun entry env => ((), entry.purge env)).2) w

end InlineCache.World
