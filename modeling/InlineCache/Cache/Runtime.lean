import InlineCache.Cache.Config
import InlineCache.Cache.Counters
import InlineCache.Cache.Chain

namespace InlineCache

/-- What all units share: settings, the collector's zone, and the compiler with its cache of code. -/
structure Runtime where
  config : CacheConfig
  zone : Zone
  codeCache : CodeCache
  /-- The compiler, which is called for code that the cache lacks. -/
  compiler : Compiler
  tornDown : Bool
deriving Inhabited

namespace Runtime

def create (config : CacheConfig) (compiler : Compiler) : Runtime :=
  ⟨config, .initial, .empty, compiler, false⟩

/-- The stub of a recipe, with its code from the cache. -/
def build (r : Runtime) (recipe : Recipe) : Except CacheError Stub × Runtime :=
  let (result, codeCache) :=
    r.codeCache.getOrCompile (r.compiler r.codeCache.misses) recipe.signature
  (match result with
    | .ok code => .ok (recipe.toStub code)
    | .error e => .error (.uncompiled e),
   { r with codeCache := codeCache })

/-- Gives up the cached code. Stubs keep theirs, and later ones are compiled again. -/
def teardown (r : Runtime) : Runtime := { r with codeCache := r.codeCache.clear, tornDown := true }

def debugText (r : Runtime) : String :=
  Text.debugRecord "IcRuntime" [("config", r.config.debugText),
    ("code_cache", Text.debugRecord "StubCodeCache" [("len", toString r.codeCache.size),
      ("hits", toString r.codeCache.hits), ("misses", toString r.codeCache.misses)]),
    ("torn_down", toString r.tornDown)]

end Runtime

/-- What attaching a stub works on: the arena and the counts of a unit, and the runtime. -/
structure AttachEnv where
  arena : Arena
  counters : Counters
  runtime : Runtime
deriving Inhabited

namespace AttachEnv

def build (env : AttachEnv) (recipe : Recipe) : Except CacheError Stub × AttachEnv :=
  let (result, runtime) := env.runtime.build recipe
  (result, { env with runtime := runtime })

def mapCounters (env : AttachEnv) (f : Counters → Counters) : AttachEnv :=
  { env with counters := f env.counters }

/-- Notes that attaching failed. Only a lack of memory leaves a trace. -/
def reportFailure (env : AttachEnv) (e : CacheError) : AttachEnv :=
  if e.isOutOfMemory then
    { env with
      counters := { env.counters with oomRecoveries := env.counters.oomRecoveries + 1 }
      runtime := { env.runtime with zone := env.runtime.zone.reportOom } }
  else env

/-- Takes all stubs out of a chain, and counts them. -/
def discardAll (env : AttachEnv) (c : Chain) : Nat × Chain × AttachEnv :=
  let (removed, c, arena, zone) := c.discardAll env.arena env.runtime.zone
  (removed, c, { env with arena := arena, runtime := { env.runtime with zone := zone } })

/-- Adds a stub at the head of a chain. -/
def insert (env : AttachEnv) (c : Chain) (s : Stub) : Except CacheError StubId × Chain × AttachEnv :=
  let (result, c, arena) := c.insert env.arena s
  (result, c, { env with arena := arena })

end AttachEnv

end InlineCache
