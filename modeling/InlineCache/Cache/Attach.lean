import InlineCache.Cache.AttachState
import InlineCache.Cache.Specialize
import InlineCache.Cache.TypeChain

namespace InlineCache

/-- The changing part of a cache entry. -/
structure Entry where
  /-- The specialized stubs. -/
  chain : Chain
  state : AttachState
  /-- How often the fallback ran. -/
  entered : Nat
  /-- The watch over results, for entries that have one. -/
  monitor : Option Monitor
  /-- Whether binary arithmetic in full ever gave a double. -/
  sawDouble : Bool
deriving DecidableEq, Inhabited

namespace Entry

/-- A new entry of a kind, without stubs. -/
def create (a : Arena) (kind : SiteKind) : Entry × Arena :=
  let (chain, a) := Chain.create a (.ending (.fallback kind))
  let (monitor, a) :=
    if kind.isMonitored then
      let (monitor, a) := Monitor.create a
      (some monitor, a)
    else (none, a)
  (⟨chain, .initial, 0, monitor, false⟩, a)

/-- Takes note of stubs that were taken out. -/
def noteRemoved (e : Entry) (env : AttachEnv) (removed : Nat) (chain : Chain) : Entry × AttachEnv :=
  ({ e with chain := chain, state := e.state.countUnlinked removed },
   env.mapCounters fun c => { c with stubsDiscarded := c.stubsDiscarded + removed })

/-- Takes out all stubs. -/
def discard (e : Entry) (env : AttachEnv) : Entry × AttachEnv :=
  let (removed, chain, env) := env.discardAll e.chain
  e.noteRemoved env removed chain

/-- Takes out the stubs of a signature, and counts them. -/
def unlinkSignature (e : Entry) (env : AttachEnv) (signature : Signature) :
    Nat × Entry × AttachEnv :=
  let (removed, chain, arena, zone) :=
    e.chain.unlinkMatching env.arena env.runtime.zone fun s => s.kind.signature? = some signature
  let env := { env with arena := arena, runtime := { env.runtime with zone := zone } }
  (removed, e.noteRemoved env removed chain)

/-- Counts the mode that an entry has turned to. -/
def countTransition (mode : Mode) (c : Counters) : Counters :=
  match mode with
  | .megamorphic => { c with megamorphicTransitions := c.megamorphicTransitions + 1 }
  | .generic => { c with genericTransitions := c.genericTransitions + 1 }
  | _ => c

/-- Changes the mode before an attempt, and takes the stubs out if they have to go. -/
def transition (e : Entry) (env : AttachEnv) : Entry × AttachEnv :=
  match e.state.transition env.runtime.config.maxStubs with
  | (false, state) => ({ e with state := state }, env)
  | (true, state) =>
    let (e, env) := { e with state := state }.discard env
    (e, env.mapCounters (countTransition state.mode))

/-- Compiles a recipe and adds its stub at the head of the chain; tells whether that succeeded. A failure to
compile or to find room is noted, and the entry goes on without the stub. -/
def link (e : Entry) (env : AttachEnv) (recipe : Recipe) : Bool × Entry × AttachEnv :=
  match env.build recipe with
  | (.error err, env) => (false, e, env.reportFailure err)
  | (.ok stub, env) =>
    match env.insert e.chain stub with
    | (.error err, chain, env) => (false, { e with chain := chain }, env.reportFailure err)
    | (.ok _, chain, env) =>
      (true, { e with chain := chain, state := e.state.countAttached },
       env.mapCounters fun c => { c with stubsAttached := c.stubsAttached + 1 })

def canAttach (e : Entry) (env : AttachEnv) : Bool :=
  e.state.canAttach env.runtime.config.maxStubs

/-- Carries out a decision, if stubs may be attached. A stub that could not be attached counts as
nothing done. -/
def tryAttach (e : Entry) (env : AttachEnv) (decision : Decision) : Decision × Entry × AttachEnv :=
  if !env.runtime.config.enabled || !e.canAttach env then (.noAction, e, env)
  else
    let e := { e with state := e.state.countAttempt }
    match decision with
    | .attach recipe =>
      let (linked, e, env) := e.link env recipe
      (if linked then decision else .noAction, e, env)
    | .temporarilyUnoptimizable =>
      (decision, e,
       env.mapCounters fun c => { c with temporarilyUnoptimizable := c.temporarilyUnoptimizable + 1 })
    | _ => (decision, e, env)

def countFailure (e : Entry) : Entry := { e with state := e.state.countFailure }

/-- One attempt, the change of mode before it included. Only doing nothing is a failure. -/
def attempt (e : Entry) (env : AttachEnv) (decision : Decision) : Decision × Entry × AttachEnv :=
  let (e, env) := e.transition env
  let (outcome, e, env) := e.tryAttach env decision
  (outcome, if outcome = .noAction then e.countFailure else e, env)

/-- The second part of an attempt that was deferred until the operation had run. -/
def settle (e : Entry) (env : AttachEnv) (decision : Decision) : Entry × AttachEnv :=
  match decision.recipe?.filter fun _ => e.canAttach env with
  | some recipe =>
    match e.link env recipe with
    | (true, e, env) =>
      (e, env.mapCounters fun c => { c with deferredAttaches := c.deferredAttaches + 1 })
    | (false, e, env) => (e.countFailure, env)
  | none => (e.countFailure, env)

/-- Forgets all stubs and how far the entry was specialized. -/
def purge (e : Entry) (env : AttachEnv) : Entry × AttachEnv :=
  let (e, env) := e.discard env
  ({ e with state := .initial }, env)

end Entry

end InlineCache
