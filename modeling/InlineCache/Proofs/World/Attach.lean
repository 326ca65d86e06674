import InlineCache.Proofs.Entry.Failed
import InlineCache.Proofs.TypeChain.Failed
import InlineCache.Proofs.World.Use

namespace InlineCache

/-- An attempt to attach. -/
inductive Attach where
  /-- A stub for the operation of an entry. -/
  | attempt (index : Nat) (decision : Decision)
  /-- A stub that could not be decided on before the operation had run. -/
  | settle (index : Nat) (decision : Decision)
  /-- A type guard for a result, if the given ones do not accept it. -/
  | result (index : Nat) (guards : List TypeGuard) (v : Value)
  /-- A type guard for a write. -/
  | write (group : GroupId) (key : PropertyKey) (v : Value)

/-- Whether an attempt is about an entry of a unit, if it is about any. -/
def Attach.Within (c : UnitCache) : Attach → Prop
  | attempt index _ | settle index _ | result index _ _ => index < c.entries.size
  | write _ _ _ => True

namespace UnitCache

/-- The chains of a unit are the same in another state of it: those that were there hold the same stubs,
entries count as many, and none was made that is in no chain. -/
structure Unharmed (c c' : UnitCache) : Prop where
  chains : ∀ p chain, c.chain? p = some chain → c'.chain? p = some chain ∧
    chain.stubIds c'.arena = chain.stubIds c.arena ∧ chain.stubs c'.arena = chain.stubs c.arena
  stubs : ∀ index, (c'.entry index).state.stubs = (c.entry index).state.stubs
  optimized : c'.arena.optimized = c.arena.optimized

private theorem unharmed_of_eq {c c' : UnitCache} (harena : c'.arena = c.arena)
    (hchains : ∀ p, c'.chain? p = c.chain? p)
    (hstubs : ∀ index, (c'.entry index).state.stubs = (c.entry index).state.stubs) : c.Unharmed c' where
  chains p chain hchain := by
    rw [hchains, harena]
    exact ⟨hchain, rfl, rfl⟩
  stubs := hstubs
  optimized := by rw [harena]

end UnitCache

namespace World

variable {σ : Type}

/-- Carries out an attempt. All of them in a unit share its arena and report to the zone of the runtime
alike. -/
def attach (w : World σ) (c : CacheId) : Attach → World σ
  | .attempt index decision => (w.attempt c index decision).2
  | .settle index decision => w.settle c index decision
  | .result index guards v => w.recordResult c index guards v
  | .write group key v => (w.recordWrite c group key v).2

/-- The state in which attaching begins. The mode of an entry may change before. -/
def beforeAttach (w : World σ) (c : CacheId) : Attach → World σ
  | .attempt index _ => (w.onEntry c index fun e env => ((), e.transition env)).2
  | _ => w

/-- The type guards that a write is shown to, and the arena that they are in. -/
def updateChain (w : World σ) (c : CacheId) (group : GroupId) (key : PropertyKey) : TypeChain × Arena :=
  match (w.cache c).updates.find? (group, key) with
  | some t => (t, (w.cache c).arena)
  | none => TypeChain.create (w.cache c).arena .update

/-- Why an attempt to attach fails, if it does. -/
def attachError? (w : World σ) (c : CacheId) (a : Attach) : Option CacheError :=
  let w := w.beforeAttach c a
  match a with
  | .attempt index decision => ((w.cache c).entry index).attemptError? (w.attachEnv c) decision
  | .settle index decision => ((w.cache c).entry index).settleError? (w.attachEnv c) decision
  | .result index guards v =>
    if guards.any (·.accepts w.heap v) then none
    else ((w.cache c).entry index).monitor.bind fun m => m.recordError? w.heap (w.attachEnv c) v
  | .write group key v =>
    let (t, arena) := w.updateChain c group key
    t.writeError? w.heap { w.attachEnv c with arena := arena } group key v

/-- What becomes of a state by an attempt that may have failed: memory ran out where the failure says so,
by the counts of the unit and of the zone; other units are left alone; and so are the chains of the unit
after a failure. -/
structure Tried (c : CacheId) (failure : Option CacheError) (w w' : World σ) : Prop where
  ranOut : (w.attachEnv c).RanOut (w'.attachEnv c) (CacheError.shortage failure)
  others : ∀ other, other ≠ c → w'.caches.get? other = w.caches.get? other
  unharmed : failure ≠ none → (w.cache c).Unharmed (w'.cache c)

variable {w : World σ} {c : CacheId} {index : Nat} {failure : Option CacheError}

private theorem tried_refl (w : World σ) (c : CacheId) : Tried c none w w :=
  ⟨.refl _, fun _ _ => rfl, fun hfailed => absurd rfl hfailed⟩

private theorem attachEnv_putBench (hc : w.HasCache c) (b : Bench) :
    (w.putBench c b).attachEnv c = b.env := by
  rw [attachEnv, cache_eq_of_get? (get?_putBench_self hc b)]
  rfl

private theorem tried_putBench (hc : w.HasCache c) {b : Bench}
    (hran : (w.attachEnv c).RanOut b.env (CacheError.shortage failure))
    (hunharmed : failure ≠ none → (w.cache c).Unharmed b.cache) :
    Tried c failure w (w.putBench c b) where
  ranOut := by
    rw [attachEnv_putBench hc]
    exact hran
  others other hne := get?_putBench_of_ne hne b
  unharmed hfailed := by
    rw [cache_eq_of_get? (get?_putBench_self hc b)]
    exact hunharmed hfailed

/-- An attempt at an entry. -/
theorem tried_entry (hin : index < (w.cache c).entries.size) {e : Entry} {env : AttachEnv}
    (h : Entry.Tried failure ((w.cache c).entry index) (w.attachEnv c) e env) :
    Tried c failure w (w.putBench c ((w.bench c).setEntry index e env)) := by
  refine tried_putBench (hasCache_of_lt hin) h.ranOut fun hfailed => ?_
  obtain ⟨hchain, hstubs, harena⟩ := h.unharmed hfailed
  refine UnitCache.unharmed_of_eq harena (Bench.chain?_setEntry_of_same hin hchain h.monitor) ?_
  exact Bench.entry_setEntry_congr (·.state.stubs) hin hstubs

private theorem tried_attempt (hin : index < (w.cache c).entries.size) (decision : Decision) :
    Tried c (w.attachError? c (.attempt index decision)) (w.beforeAttach c (.attempt index decision))
      (w.attach c (.attempt index decision)) := by
  have hc := hasCache_of_lt hin
  cases ht : ((w.cache c).entry index).transition (w.attachEnv c) with
  | mk e₁ env₁ =>
  cases ha : ((w.cache c).entry index).attempt (w.attachEnv c) decision with
  | mk outcome r =>
  obtain ⟨e, env⟩ := r
  have hbefore : w.beforeAttach c (.attempt index decision) =
      w.putBench c ((w.bench c).setEntry index e₁ env₁) := by
    rw [beforeAttach, onEntry_eq (a := ()) hc (congrArg (Prod.mk ()) ht)]
  have hcache : (w.beforeAttach c (.attempt index decision)).cache c =
      ((w.bench c).setEntry index e₁ env₁).cache := by
    rw [hbefore, cache_eq_of_get? (get?_putBench_self hc _)]
  have hentry : ((w.beforeAttach c (.attempt index decision)).cache c).entry index = e₁ := by
    rw [hcache]
    exact UnitCache.entry_setEntry_self (c := ((w.bench c).setEnv env₁).cache) hin e₁
  have henv : (w.beforeAttach c (.attempt index decision)).attachEnv c = env₁ := by
    rw [hbefore, attachEnv_putBench hc, Bench.env_setEntry]
  have hin₁ : index < ((w.beforeAttach c (.attempt index decision)).cache c).entries.size := by
    rw [hcache, Bench.setEntry, UnitCache.size_setEntry]
    exact hin
  have htried := Entry.attempt_tried ht ha
  rw [← hentry, ← henv] at htried
  have hworld := tried_entry hin₁ htried
  rw [hbefore, bench_putBench hc, putBench_putBench, Bench.setEntry_setEntry, ← hbefore] at hworld
  rw [attach, attempt, onEntry_eq hc ha]
  exact hworld

private theorem tried_settle (hin : index < (w.cache c).entries.size) (decision : Decision) :
    Tried c (w.attachError? c (.settle index decision)) w (w.attach c (.settle index decision)) := by
  cases hs : ((w.cache c).entry index).settle (w.attachEnv c) decision with
  | mk e env =>
  rw [attach, settle, onEntry_eq (a := ()) (hasCache_of_lt hin) (congrArg (Prod.mk ()) hs)]
  exact tried_entry hin (Entry.settle_tried hs)

private theorem tried_result (hin : index < (w.cache c).entries.size) (hl : (w.cache c).Linked)
    (guards : List TypeGuard) (v : Value) :
    Tried c (w.attachError? c (.result index guards v)) w (w.attach c (.result index guards v)) := by
  unfold attach attachError? beforeAttach
  dsimp only
  obtain ⟨hnone, heq⟩ | ⟨m, m', env, haccepts, hm, hsound, hr, heq⟩ := recordResult_cases hin hl guards v
  · have herror : (if guards.any (·.accepts w.heap v) = true then none
        else ((w.cache c).entry index).monitor.bind fun m => m.recordError? w.heap (w.attachEnv c) v) =
        none := by
      rcases hnone with haccepts | hm
      · rw [if_pos haccepts]
      · rw [hm, Option.bind_none, ite_self]
    rw [heq, herror]
    exact tried_refl w c
  · have htried := Monitor.record_tried hr hl.arena hsound
    rw [heq, haccepts, if_neg Bool.false_ne_true, hm, Option.bind_some]
    refine tried_putBench (hasCache_of_lt hin) htried.ranOut fun hfailed => ?_
    obtain ⟨hchain, harena⟩ := htried.unharmed hfailed
    refine UnitCache.unharmed_of_eq harena ?_
      (Bench.entry_setEntry_congr (·.state.stubs) hin rfl)
    refine Bench.chain?_setEntry_of_chains (b := w.bench c) hin rfl ?_
    change some m'.chain.chain = ((w.cache c).entry index).monitor.map (·.chain.chain)
    rw [hm, hchain, Option.map_some]

/-- The type guards of a write that is the first of its property are in no chain that was there. -/
theorem unharmed_newUpdate (hl : (w.cache c).Linked) {group : GroupId} {key : PropertyKey}
    {t : TypeChain} {arena : Arena} (hnone : (w.cache c).updates.find? (group, key) = none)
    (hcreate : TypeChain.create (w.cache c).arena .update = (t, arena)) {env : AttachEnv}
    (harena : env.arena = arena) :
    (w.cache c).Unharmed ((w.bench c).setUpdate group key t env).cache := by
  subst harena
  have hnew := Bench.editedAt_newUpdate (b := w.bench c) hl.arena hnone hcreate
  have hne {p : ChainPlace} {chain : Chain} (hchain : (w.cache c).chain? p = some chain) :
      p ≠ .update group key := by
    rintro rfl
    simp [UnitCache.chain?, hnone] at hchain
  refine ⟨fun p chain hchain => ⟨?_, ?_, ?_⟩, fun _ => rfl, ?_⟩
  · exact (Bench.chain?_setUpdate_of_ne (hne hchain)).trans hchain
  · exact hnew.stubIds_eq hl (hne hchain) hchain
  · exact hnew.stubs_eq hl (hne hchain) hchain
  · exact congrArg (·.2.optimized) hcreate.symm

private theorem tried_write (hc : w.HasCache c) (hl : (w.cache c).Linked) (group : GroupId)
    (key : PropertyKey) (v : Value) :
    Tried c (w.attachError? c (.write group key v)) w (w.attach c (.write group key v)) := by
  unfold attach attachError? beforeAttach updateChain
  dsimp only
  obtain ⟨t, accepted, t', h, env, hfind, hsound, hr, heq⟩ |
    ⟨t, a, accepted, t', h, env, hnone, hcreate, hr, heq⟩ := recordWrite_cases hc hl group key v
  · have htried := TypeChain.recordWrite_tried hr hl.arena hsound
    rw [heq, hfind]
    refine tried_putBench hc htried.ranOut fun hfailed => ?_
    obtain ⟨rfl, harena⟩ := htried.unharmed hfailed
    refine UnitCache.unharmed_of_eq harena (fun p => ?_) fun _ => rfl
    by_cases hp : p = .update group key
    · have hold : (w.cache c).chain? (.update group key) = some t'.chain := by
        simp [UnitCache.chain?, hfind]
      rw [hp, hold]
      exact Bench.chain?_setUpdate_self (w.bench c) group key t' env
    · exact Bench.chain?_setUpdate_of_ne hp
  · obtain ⟨hedit, hsound, -⟩ := TypeChain.create_spec hl.arena hcreate
    have htried := TypeChain.recordWrite_tried hr hedit.wellLinked hsound
    rw [heq, hnone]
    dsimp only
    rw [hcreate]
    refine tried_putBench hc ⟨htried.ranOut.recoveries, htried.ranOut.reports⟩ fun hfailed => ?_
    obtain ⟨rfl, harena⟩ := htried.unharmed hfailed
    exact unharmed_newUpdate hl hnone hcreate harena

/-- Before attaching begins nothing but the unit changes, and memory does not run out. -/
theorem tried_beforeAttach {a : Attach} (ha : a.Within (w.cache c)) :
    Tried c none w (w.beforeAttach c a) := by
  cases a with
  | attempt index decision =>
    cases ht : ((w.cache c).entry index).transition (w.attachEnv c) with
    | mk e env =>
    rw [beforeAttach, onEntry_eq (a := ()) (hasCache_of_lt ha) (congrArg (Prod.mk ()) ht)]
    exact tried_putBench (hasCache_of_lt ha) (Entry.ranOut_transition ht) fun hfailed => absurd rfl hfailed
  | _ => exact tried_refl w c

/-- An attempt to attach leaves the stubs of the unit alone if it fails, and a lack of memory is counted
once. -/
theorem attach_tried (hc : w.HasCache c) (hl : (w.cache c).Linked) {a : Attach}
    (ha : a.Within (w.cache c)) :
    Tried c (w.attachError? c a) (w.beforeAttach c a) (w.attach c a) := by
  cases a with
  | attempt index decision => exact tried_attempt ha decision
  | settle index decision => exact tried_settle ha decision
  | result index guards v => exact tried_result ha hl guards v
  | write group key v => exact tried_write hc hl group key v

/-- A lack of memory is all that is counted of an attempt, the change of mode before it included. -/
theorem ranOut_attach (hc : w.HasCache c) (hl : (w.cache c).Linked) {a : Attach}
    (ha : a.Within (w.cache c)) :
    (w.attachEnv c).RanOut ((w.attach c a).attachEnv c) (CacheError.shortage (w.attachError? c a)) := by
  have hran := (tried_beforeAttach ha).ranOut.trans (attach_tried hc hl ha).ranOut
  rwa [CacheError.shortage, Nat.zero_add] at hran

end World

end InlineCache
