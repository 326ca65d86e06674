import InlineCache.Proofs.Machine.Linked
import InlineCache.Proofs.World.Supply

namespace InlineCache

namespace World

variable {σ : Type}

/-- Whether a stub is in a chain of some unit: among the stubs of an entry, or among the type guards over its
results or over the writes to a property. -/
def Links (w : World σ) (s : Stub) : Prop :=
  ∃ (c : CacheId) (cache : UnitCache) (p : ChainPlace) (chain : Chain),
    w.caches.get? c = some cache ∧ cache.chain? p = some chain ∧ s ∈ chain.stubs cache.arena

private theorem links_of_stubs {w : World σ} {c : CacheId} {p : ChainPlace} {s : Stub}
    (h : ((w.caches.get? c).bind fun cache => (cache.chain? p).map fun chain => chain.stubs cache.arena) =
      some [s]) : w.Links s := by
  obtain ⟨cache, hget, h⟩ := Option.bind_eq_some_iff.1 h
  obtain ⟨chain, hchain, h⟩ := Option.map_eq_some_iff.1 h
  exact ⟨c, cache, p, chain, hget, hchain, by rw [h]; exact List.mem_singleton_self s⟩

/-- The calls that were made on a new cache of code account for a state: for the cache as it is, and for
every stub of every unit, whether or not it is still in a chain. The cache is cleared while stubs go on
holding what they have, so it is the calls that account for a stub, and not the cache. -/
structure Supplied (calls : List CodeCache.Call) (w : World σ) : Prop where
  cache_eq : CodeCache.empty.run calls = w.runtime.codeCache
  stubs : ∀ c, ∀ s ∈ (w.cache c).arena.stubs, s.Supplied (CodeCache.GivenOut calls)

namespace Supplied

variable {calls : List CodeCache.Call} {w w' : World σ} {s : Stub}

/-- Some more calls, while the stubs stay. -/
theorem call (h : w.Supplied calls) {more : List CodeCache.Call} (hcaches : w'.caches = w.caches)
    (hcode : w.runtime.codeCache.run more = w'.runtime.codeCache) : w'.Supplied (calls ++ more) := by
  refine ⟨by rw [CodeCache.run_append, h.cache_eq, hcode], fun c s hs => ?_⟩
  rw [cache, hcaches] at hs
  exact (h.stubs c s hs).mono fun _ _ hgiven => hgiven.append more

/-- Stubs that are added are accounted for by the lookups of their code. -/
theorem supplies (h : w.Supplied calls) (hsupplies : w.Supplies w') : ∃ more, w'.Supplied (calls ++ more) := by
  obtain ⟨⟨more, -, hmore⟩, hstubs⟩ := hsupplies
  have hcache : CodeCache.empty.run (calls ++ more) = w'.runtime.codeCache := by
    rw [CodeCache.run_append, h.cache_eq, hmore]
  refine ⟨more, hcache, fun c s hs => ?_⟩
  rcases hstubs c s hs with hbefore | hnew
  · exact (h.stubs c s hbefore).mono fun _ _ hgiven => hgiven.append more
  · exact Stub.Supplied.mono hnew fun _ _ hget => CodeCache.givenOut_of_get? (hcache ▸ hget)

/-- There is a stub at a place of an arena, or what is found there stands for the end of a chain. -/
theorem stub (h : w.Supplied calls) (c : CacheId) (id : StubId) :
    ((w.cache c).arena.stub id).Supplied (CodeCache.GivenOut calls) := by
  unfold Arena.stub
  cases hget : (w.cache c).arena.stubs[id]? with
  | none => exact .ending rfl rfl
  | some s => exact h.stubs c s (Array.mem_of_getElem? hget)

/-- Wherever code is found in a unit, it was given out for the signature of its stub. -/
theorem givenOut_of_code (h : w.Supplied calls) {c : CacheId} {id : StubId} {code : Code}
    (hcode : ((w.cache c).arena.stub id).code = some code) :
    ((w.cache c).arena.stub id).kind.codeKey? = some code.signature ∧
      CodeCache.GivenOut calls code.signature code := by
  obtain ⟨key, hkey, hgiven⟩ := (h.stub c id).of_code hcode
  rw [hgiven.signature_eq]
  exact ⟨hkey, hgiven⟩

/-- Every stub of a chain has code. -/
theorem givenOut_of_links (h : w.Supplied calls) (hl : w.Linked) (hs : w.Links s) :
    ∃ code, s.code = some code ∧ s.kind.codeKey? = some code.signature ∧
      CodeCache.GivenOut calls code.signature code := by
  obtain ⟨c, cache, p, chain, hget, hchain, hmem⟩ := hs
  obtain ⟨id, hid, rfl⟩ := List.mem_map.1 hmem
  have hlinked := (hl c cache hget).1
  have hstub : (cache.arena.stub id).isFallback = false :=
    (hlinked.sound hchain).path.isFallback_of_mem hlinked.arena hid
  rw [← cache_eq_of_get? hget] at hstub ⊢
  obtain ⟨code, hcode⟩ := (h.stub c id).exists_code hstub
  exact ⟨code, hcode, h.givenOut_of_code hcode⟩

/-- The code that answers a use is of the signature of its stub. -/
theorem codeKey?_of_hit (h : w.Supplied calls) {c : CacheId} {chain : Chain} {heap : Heap} {ops : Operands}
    {signature : Signature} (hhit : hit? heap (chain.stubs (w.cache c).arena) ops = some (s, signature)) :
    s.kind.codeKey? = some signature := by
  obtain ⟨stub, hmem, hfound⟩ := List.exists_of_findSome?_eq_some hhit
  obtain ⟨id, -, rfl⟩ := List.mem_map.1 hmem
  obtain ⟨code, hcode, hholds⟩ := Option.bind_eq_some_iff.1 hfound
  obtain ⟨-, heq⟩ := Option.ite_none_right_eq_some.1 hholds
  cases heq
  exact (h.givenOut_of_code hcode).1

end Supplied

end World

/-- What can happen to a machine: an action, or a call on the cache of code, which the host can reach too. -/
inductive HostAction (σ : Type) where
  | act (a : Action σ)
  | call (call : CodeCache.Call)

namespace Machine

variable {σ : Type} {m : Machine σ} {calls : List CodeCache.Call}

def hostStep (m : Machine σ) : HostAction σ → Machine σ
  | .act a => m.step a
  | .call call =>
    { m with world :=
        { m.world with
          runtime := { m.world.runtime with codeCache := m.world.runtime.codeCache.step call } } }

def hostRun (m : Machine σ) (actions : List (HostAction σ)) : Machine σ := actions.foldl hostStep m

private theorem hostRun_linked (hm : m.Linked) (actions : List (HostAction σ)) :
    (m.hostRun actions).Linked := by
  induction actions generalizing m with
  | nil => exact hm
  | cons a actions ih =>
    cases a with
    | act a => exact ih (step_linked_open hm a).1
    | call call => exact ih ⟨hm.world, fun p hp => ⟨(hm.calls p hp).lt, (hm.calls p hp).linked⟩⟩

/-- An action only looks code up, but for the end of the runtime, which clears the cache. -/
theorem step_supplied (hm : m.world.Supplied calls) (a : Action σ) :
    ∃ more, (m.step a).world.Supplied (calls ++ more) := by
  cases a with
  | host heap zone bridges unitsMade host => exact hm.supplies (.of_eq rfl rfl)
  | addCache unit => exact hm.supplies (World.supplies_addCache m.world unit)
  | buildStub recipe => exact hm.supplies (World.supplies_buildStub m.world recipe)
  | use c id ops =>
    rw [world_use]
    exact hm.supplies (World.supplies_begin m.world c id ops)
  | ret result =>
    cases hcalls : m.calls with
    | nil =>
      simp only [step, hcalls]
      exact hm.supplies (.refl _)
    | cons p rest =>
      simp only [step, hcalls]
      exact hm.supplies (World.supplies_finish m.world p result)
  | loopTurn c pc => exact hm.supplies (World.supplies_loopEntry m.world c pc)
  | recordWrite c group key v =>
    simp only [step]
    split
    · exact hm.supplies (World.supplies_recordWrite m.world c group key v)
    · exact hm.supplies (.refl _)
  | unlink c id signature =>
    simp only [step]
    split
    · exact hm.supplies (World.supplies_unlinkStubs m.world c id.index signature)
    · exact hm.supplies (.refl _)
  | purge c => exact hm.supplies (World.supplies_purge m.world c)
  | teardown => exact ⟨[.clear], hm.call rfl rfl⟩

private theorem hostStep_supplied (hm : m.world.Supplied calls) (a : HostAction σ) :
    ∃ more, (m.hostStep a).world.Supplied (calls ++ more) := by
  cases a with
  | act a => exact step_supplied hm a
  | call call => exact ⟨[call], hm.call rfl rfl⟩

/-- A run only adds calls to those that account for the state. -/
theorem hostRun_supplied (hm : m.world.Supplied calls) (actions : List (HostAction σ)) :
    ∃ more, (m.hostRun actions).world.Supplied (calls ++ more) := by
  induction actions generalizing m calls with
  | nil => exact ⟨[], by rw [List.append_nil]; exact hm⟩
  | cons a actions ih =>
    obtain ⟨first, hfirst⟩ := hostStep_supplied hm a
    obtain ⟨more, hmore⟩ := ih hfirst
    exact ⟨first ++ more, by rw [← List.append_assoc]; exact hmore⟩

private theorem initial_supplied (config : CacheConfig) (compiler : Compiler) (host : σ) :
    (initial config compiler host).world.Supplied [] := by
  refine ⟨rfl, fun c s hs => ?_⟩
  have hnone := initial_get? config compiler host c
  rw [World.cache, Table.get, hnone] at hs
  exact absurd hs (Array.not_mem_empty s)

/-- Code keeps its identity, and stubs keep to their code.

An identity stands for one compilation of one signature: it is given out again just for lookups of the same
signature up to the next time the cache is cleared, and failures to compile change nothing of that; every lookup
is counted once. In every state that a machine can come to, whatever is done, cleared or allowed to fail, a stub
in a chain of any unit has code that was given out for its own signature; stubs whose code has one identity, of
whatever units and at whatever times, have the same code; and the code that answers a use is of the signature of
its stub. -/
theorem code_identified (config : CacheConfig) (compiler : Compiler) (host : σ) :
    (∀ before failure signature, CodeCache.LookupLaws before failure signature) ∧
    (∀ calls, (CodeCache.empty.run calls).hits + (CodeCache.empty.run calls).misses =
      calls.countP CodeCache.Call.isLookup) ∧
    ∀ actions : List (HostAction σ), let m := (initial config compiler host).hostRun actions
      (∃ calls, CodeCache.empty.run calls = m.world.runtime.codeCache ∧
        ∀ stub, m.world.Links stub → ∃ code, stub.code = some code ∧
          stub.kind.codeKey? = some code.signature ∧ CodeCache.GivenOut calls code.signature code) ∧
      (∀ later stub stub' code code', m.world.Links stub → (m.hostRun later).world.Links stub' →
        stub.code = some code → stub'.code = some code' → code.id = code'.id →
          code = code' ∧ stub.kind.codeKey? = stub'.kind.codeKey?) ∧
      ∀ c index ops stub signature,
        World.hit? m.world.heap (((m.world.cache c).entry index).chain.stubs (m.world.cache c).arena) ops =
          some (stub, signature) → stub.kind.codeKey? = some signature := by
  refine ⟨CodeCache.lookupLaws, fun calls => ?_, fun actions => ?_⟩
  · rw [CodeCache.hits_add_misses]
    exact Nat.zero_add _
  · intro m
    have hlinked : m.Linked := hostRun_linked (initial_linked config compiler host) actions
    obtain ⟨calls, hm⟩ : ∃ calls, m.world.Supplied calls :=
      (hostRun_supplied (initial_supplied config compiler host) actions).imp fun _ h => h
    refine ⟨⟨calls, hm.cache_eq, fun stub hs => hm.givenOut_of_links hlinked.world hs⟩, ?_,
      fun c index ops stub signature hhit => hm.codeKey?_of_hit hhit⟩
    intro later stub stub' code code' hs hs' hcode hcode' hid
    obtain ⟨more, hm'⟩ := hostRun_supplied hm later
    obtain ⟨found, hfound, hkey, hgiven⟩ := hm.givenOut_of_links hlinked.world hs
    obtain ⟨found', hfound', hkey', hgiven'⟩ :=
      hm'.givenOut_of_links (hostRun_linked hlinked later).world hs'
    rw [hcode, Option.some.injEq] at hfound
    rw [hcode', Option.some.injEq] at hfound'
    subst hfound hfound'
    have heq := (hgiven.append more).eq_of_id_eq hgiven' hid
    exact ⟨heq, by rw [hkey, hkey', heq]⟩

/-- Of two units that take the type of an integer the second does so after the cache was cleared, so its stub
has new code. The first unit failed to compile its stub at first; it also watches an integer as a result and as
a property, with guards that share their code. -/
theorem recompiled_code_identified :
    let compiler : Compiler := fun misses _ => if misses = 0 then some .outOfMemory else none
    let first : List (HostAction Unit) :=
      [.act (.addCache ⟨1, "f", 0, false, 0, #[.typeOf, .getAliasedVar 0], #[]⟩),
        .act (.use 1 ⟨1, 0⟩ (.unary (.int32 5))), .act (.use 1 ⟨1, 0⟩ (.unary (.int32 5))),
        .act (.use 1 ⟨1, 1⟩ (.unary (.int32 5))), .act (.recordWrite 1 1 "x" (.int32 5))]
    let later : List (HostAction Unit) :=
      [.call .clear, .act (.addCache ⟨2, "g", 0, false, 0, #[.typeOf], #[]⟩),
        .act (.use 2 ⟨2, 0⟩ (.unary (.int32 5)))]
    let typeOf (id : CodeId) : Stub :=
      ⟨.specialized (.typeOf .int32) .regular, .none, some ⟨id, .typeOf .int32⟩⟩
    let watch (kind : StubKind) : Stub := ⟨kind, .none, some ⟨2, .typeGuard .primitiveSet⟩⟩
    ((initial .standard compiler ()).hostRun first).world.Links
        (watch (.monitor (.primitives (.of .int32)))) ∧
      ((initial .standard compiler ()).hostRun first).world.Links
        (watch (.update (.primitives (.of .int32)))) ∧
      ((initial .standard compiler ()).hostRun (first ++ later)).world.Links (typeOf 1) ∧
      ((initial .standard compiler ()).hostRun (first ++ later)).world.Links (typeOf 3) ∧
      ∃ calls, CodeCache.empty.run calls =
          ((initial .standard compiler ()).hostRun (first ++ later)).world.runtime.codeCache ∧
        CodeCache.GivenOut calls (.typeOf .int32) ⟨1, .typeOf .int32⟩ ∧
        CodeCache.GivenOut calls (.typeOf .int32) ⟨3, .typeOf .int32⟩ := by
  intro compiler first later typeOf watch
  have hmonitor : ((initial .standard compiler ()).hostRun first).world.Links
      (watch (.monitor (.primitives (.of .int32)))) :=
    World.links_of_stubs (c := 1) (p := .monitor 1) (by decide +kernel)
  have hupdate : ((initial .standard compiler ()).hostRun first).world.Links
      (watch (.update (.primitives (.of .int32)))) :=
    World.links_of_stubs (c := 1) (p := .update 1 "x") (by decide +kernel)
  have hold : ((initial .standard compiler ()).hostRun (first ++ later)).world.Links (typeOf 1) :=
    World.links_of_stubs (c := 1) (p := .main 0) (by decide +kernel)
  have hnew : ((initial .standard compiler ()).hostRun (first ++ later)).world.Links (typeOf 3) :=
    World.links_of_stubs (c := 2) (p := .main 0) (by decide +kernel)
  obtain ⟨⟨calls, hcache, hgiven⟩, -, -⟩ := (code_identified .standard compiler ()).2.2 (first ++ later)
  obtain ⟨code, hcode, -, holdGiven⟩ := hgiven _ hold
  obtain ⟨code', hcode', -, hnewGiven⟩ := hgiven _ hnew
  cases hcode
  cases hcode'
  exact ⟨hmonitor, hupdate, hold, hnew, calls, hcache, holdGiven, hnewGiven⟩

end Machine

end InlineCache
