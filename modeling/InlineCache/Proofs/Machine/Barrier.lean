import InlineCache.Proofs.Bench.Barrier
import InlineCache.Proofs.Machine.Linked

namespace InlineCache

namespace World

variable {σ : Type} {resets turns cleared : Prop} {w w' : World σ} {c : CacheId}

/-- The type guards of all units have cached code, unless the cache of code was cleared. -/
def Compiled (cleared : Prop) (w : World σ) : Prop :=
  ∀ (c : CacheId) (cache : UnitCache), w.caches.get? c = some cache →
    cache.Compiled cleared w.runtime.codeCache

private theorem Compiled.cache (hw : w.Compiled cleared) (hc : w.HasCache c) :
    (w.cache c).Compiled cleared w.runtime.codeCache := by
  obtain ⟨cache, hget⟩ := hc
  rw [cache_eq_of_get? hget]
  exact hw c cache hget

/-- What is kept alive at a place of a unit. -/
def KeepsAlive (cleared : Prop) (w : World σ) (c : CacheId) (p : ChainPlace) (e : Edge) : Prop :=
  KeptAlive cleared ((w.cache c).held p) w.runtime.zone e

private theorem KeepsAlive.of_get?_eq {p : ChainPlace} {e : Edge} (he : w.KeepsAlive cleared c p e)
    (hget : w'.caches.get? c = w.caches.get? c) (hzone : w.runtime.zone.Keeps w'.runtime.zone) :
    w'.KeepsAlive cleared c p e := by
  have hcache : w'.cache c = w.cache c := by rw [World.cache, World.cache, Table.get, Table.get, hget]
  rw [KeepsAlive, hcache]
  exact he.imp_right (hzone.marked _)

/-- Where there is no unit, nothing is kept alive but by the mark. -/
theorem held_of_none (hget : w.caches.get? c = none) (p : ChainPlace) : (w.cache c).held p = [] := by
  have hcache : w.cache c = default := by
    rw [World.cache, Table.get, hget]
    rfl
  rw [hcache]
  exact UnitCache.held_of_none (by cases p <;> rfl)

private theorem hasCache_of_mem_held {p : ChainPlace} {s : Stub} (hs : s ∈ (w.cache c).held p) :
    w.HasCache c := by
  cases hget : w.caches.get? c with
  | some cache => exact ⟨cache, hget⟩
  | none =>
    rw [held_of_none hget] at hs
    cases hs

/-- What a unit reports is what the stubs of its chains keep alive. -/
theorem Compiled.mem_edges (hw : w.Compiled cleared) (c : CacheId) {e : Edge} :
    e ∈ (w.cache c).edges ↔ ∃ p, ∃ s ∈ (w.cache c).held p, e ∈ s.edges := by
  refine UnitCache.mem_edges ?_
  cases hget : w.caches.get? c with
  | some cache => exact (hw.cache ⟨cache, hget⟩).keyed
  | none =>
    rw [World.cache, Table.get, hget]
    exact Assoc.keyed_empty

/-- What a change of the state makes of its units, for the collector. The mark itself is in the hands of the
host. -/
structure Spares (cleared : Prop) (w w' : World σ) : Prop where
  compiled : w.Compiled cleared → w'.Compiled cleared
  keptAlive : w.Compiled cleared → w.runtime.zone.marking = true →
    w.runtime.zone.Keeps w'.runtime.zone → ∀ (c : CacheId) (p : ChainPlace) (e : Edge),
      w.KeepsAlive cleared c p e → w'.KeepsAlive cleared c p e

private theorem spares_of_caches_eq (hcaches : w'.caches = w.caches)
    (hcodes : ¬ cleared → ∀ signature code, w.runtime.codeCache.get? signature = some code →
      w'.runtime.codeCache.get? signature = some code) : w.Spares cleared w' where
  compiled hw c cache hget := by
    rw [hcaches] at hget
    exact (hw c cache hget).of_codes id hcodes
  keptAlive _ _ hzone _ _ _ he := he.of_get?_eq (by rw [hcaches]) hzone

private theorem Works.spares (hc : w.HasCache c) (hl : (w.cache c).Linked)
    (h : Works .open resets turns c w w') : w.Spares cleared w' := by
  have hfollows := h.follows hc
  obtain ⟨-, -, -, hothers⟩ := h.same
  obtain ⟨b, hmoves, rfl⟩ := h
  have hb := hmoves.spares cleared hl
  have hcache := cache_eq_of_get? (get?_putBench_self hc b)
  constructor
  · intro hw d cache hget
    by_cases hd : d = c
    · subst hd
      rw [get?_putBench_self hc] at hget
      cases hget
      exact hb.compiled (hw.cache hc)
    · rw [hothers d hd] at hget
      exact (hw d cache hget).of_codes id fun _ => hfollows.codes
  · intro hw hmarking hzone d p e he
    by_cases hd : d = c
    · subst hd
      rw [KeepsAlive, hcache]
      exact hb.keptAlive (hw.cache hc) hmarking p e he
    · exact he.of_get?_eq (hothers d hd) hzone

private theorem spares_addCache {unit : CodeUnit} {cache : UnitCache}
    (hcreate : UnitCache.create unit w.runtime.config = .ok cache) :
    w.Spares cleared { w with caches := w.caches.add cache } where
  compiled hw d cache' hget := by
    by_cases hd : d = w.caches.next
    · subst hd
      rw [Table.get?_add_next] at hget
      cases hget
      exact UnitCache.compiled_create cleared _ hcreate
    · rw [Table.get?_add_of_ne _ _ hd] at hget
      exact hw d cache' hget
  keptAlive _ _ hzone d p e he := by
    by_cases hd : d = w.caches.next
    · subst hd
      rw [KeepsAlive, held_of_none (Table.get?_next _)] at he
      refine .inr (hzone.marked _ (he.resolve_left ?_))
      rintro ⟨s, hs, -⟩
      cases hs
    · exact he.of_get?_eq (Table.get?_add_of_ne _ _ hd) hzone

end World

namespace Machine

variable {σ : Type} {m : Machine σ} {cleared : Prop}

/-- Whether the host lets a mark go on: it neither begins nor ends one, and what was reached stays
reached. -/
def SparesMark (m : Machine σ) : Action σ → Prop
  | .host _ zone _ _ _ => m.world.runtime.zone.Keeps zone
  | _ => True

/-- Whether a mark goes on all through a run. -/
def MarksThrough : Machine σ → List (Action σ) → Prop
  | _, [] => True
  | m, a :: rest => m.SparesMark a ∧ MarksThrough (m.step a) rest

private theorem initial_compiled (cleared : Prop) (config : CacheConfig) (compiler : Compiler)
    (host : σ) : (initial config compiler host).world.Compiled cleared := by
  intro c cache hget
  cases c <;> cases hget

/-- No action gives up what is kept alive, while the mark goes on. Only a teardown clears the cache of
code. -/
theorem step_spares (hm : m.Linked) {a : Action σ} (ha : a = .teardown → cleared) :
    m.world.Spares cleared (m.step a).world := by
  by_cases hunit : a.WorksOnUnit
  · rcases step_works Rules.open_cover hm trivial (fun _ => trivial) (m.allows_open a) hunit with
      heq | ⟨c, hc, hworks⟩
    · rw [heq]
      exact World.spares_of_caches_eq rfl fun _ _ _ => id
    · exact hworks.spares hc (hm.world.cache hc).1
  · cases a with
    | host heap zone bridges unitsMade host => exact World.spares_of_caches_eq rfl fun _ _ _ => id
    | addCache unit =>
      simp only [step, World.addCache]
      cases hcreate : UnitCache.create unit m.world.runtime.config with
      | error e => exact World.spares_of_caches_eq rfl fun _ _ _ => id
      | ok cache => exact World.spares_addCache hcreate
    | buildStub recipe =>
      simp only [step, World.buildStub]
      cases hbuild : m.world.runtime.build recipe with
      | mk result runtime =>
      exact World.spares_of_caches_eq rfl fun _ => (Runtime.follows_build hbuild).codes
    | teardown => exact World.spares_of_caches_eq rfl fun hkept => absurd (ha rfl) hkept
    | _ => exact absurd trivial hunit

/-- Nothing but the host ends a mark. -/
theorem step_keeps (hm : m.Linked) {a : Action σ} (ha : m.SparesMark a) :
    m.world.runtime.zone.Keeps (m.step a).world.runtime.zone := by
  by_cases hunit : a.WorksOnUnit
  · rcases step_works Rules.open_cover hm trivial (fun _ => trivial) (m.allows_open a) hunit with
      heq | ⟨c, hc, hworks⟩
    · rw [heq]
      exact .refl _
    · exact (hworks.follows hc).zone
  · cases a with
    | host heap zone bridges unitsMade host => exact ha
    | addCache unit =>
      simp only [step, World.addCache]
      cases UnitCache.create unit m.world.runtime.config <;> exact .refl _
    | buildStub recipe =>
      simp only [step, World.buildStub]
      cases hbuild : m.world.runtime.build recipe with
      | mk result runtime => exact (Runtime.follows_build hbuild).zone
    | teardown => exact .refl _
    | _ => exact absurd trivial hunit

private theorem run_compiled (hm : m.Linked) (hw : m.world.Compiled cleared) (actions : List (Action σ))
    (hactions : .teardown ∈ actions → cleared) :
    (m.run actions).Linked ∧ (m.run actions).world.Compiled cleared := by
  refine List.foldlRecOn (motive := fun m' => m'.Linked ∧ m'.world.Compiled cleared) actions step
    ⟨hm, hw⟩ ?_
  rintro m' ⟨hm', hw'⟩ a ha
  have hstep := step_spares hm' (a := a) fun heq => hactions (heq ▸ ha)
  exact ⟨(step_linked_open hm' a).1, hstep.compiled hw'⟩

/-- While a mark goes on, nothing that was kept alive is given up. -/
theorem run_keepsAlive (hm : m.Linked) (hw : m.world.Compiled cleared)
    (hmarking : m.world.runtime.zone.marking = true) {actions : List (Action σ)}
    (hmark : m.MarksThrough actions) (hactions : .teardown ∈ actions → cleared) {c : CacheId}
    {p : ChainPlace} {e : Edge} (he : m.world.KeepsAlive cleared c p e) :
    (m.run actions).world.KeepsAlive cleared c p e := by
  induction actions generalizing m with
  | nil => exact he
  | cons a actions ih =>
    have hstep := step_spares hm (a := a) fun heq => hactions (heq ▸ List.mem_cons_self)
    have hzone := step_keeps hm hmark.1
    exact ih (step_linked_open hm a).1 (hstep.compiled hw) (hzone.marking.trans hmarking) hmark.2
      (fun hmem => hactions (List.mem_cons_of_mem _ hmem)) (hstep.keptAlive hw hmarking hzone c p e he)

/-- What a unit reports at some moment of a mark it reports at every later one, or the mark has reached it,
whatever is done to the unit meanwhile. The one exception is the code of a guard for primitives, if there
ever was a teardown: such a guard makes way for a broader one without the barrier. -/
theorem reported_or_marked {config : CacheConfig} {compiler : Compiler} {host : σ}
    {before later : List (Action σ)} (hm : (initial config compiler host).run before = m)
    (hmarking : m.world.runtime.zone.marking = true) (hmark : m.MarksThrough later) (c : CacheId) :
    ∀ e ∈ (m.world.cache c).edges,
      e ∈ ((m.run later).world.cache c).edges ∨
      (m.run later).world.runtime.zone.isMarked e.thing = true ∨
      (.teardown ∈ before ∨ .teardown ∈ later) ∧ ∃ p chain stub set code,
        (m.world.cache c).chain? p = some chain ∧ stub ∈ chain.stubs (m.world.cache c).arena ∧
        stub.kind.typeGuard? = some (.primitives set) ∧ stub.code = some code ∧
        e = ⟨.ofCode code.id, "stub-code"⟩ := by
  intro e he
  have hstart := run_compiled (initial_linked config compiler host)
    (initial_compiled (.teardown ∈ before ∨ .teardown ∈ later) config compiler host) before .inl
  rw [hm] at hstart
  obtain ⟨hlinked, hcompiled⟩ := hstart
  obtain ⟨hlinked', hcompiled'⟩ := run_compiled hlinked hcompiled later .inr
  obtain ⟨p, s, hs, hmem⟩ := (hcompiled.mem_edges c).1 he
  by_cases hcounts : (.teardown ∈ before ∨ .teardown ∈ later) → ¬ s.GuardsPrimitives
  · rcases run_keepsAlive hlinked hcompiled hmarking hmark .inr (c := c) (p := p)
      (.inl ⟨s, hs, hcounts, hmem⟩) with ⟨s', hs', -, hmem'⟩ | hmarked
    · exact .inl ((hcompiled'.mem_edges c).2 ⟨p, s', hs', hmem'⟩)
    · exact .inr (.inl hmarked)
  · obtain ⟨hcleared, hprims⟩ := Classical.not_imp.1 hcounts
    rw [Classical.not_not] at hprims
    have hc := World.hasCache_of_mem_held hs
    obtain ⟨code, hcode, hedges, -⟩ := ((hcompiled.cache hc).coded p s hs).edges_eq hprims
    rw [hedges, List.mem_singleton] at hmem
    obtain ⟨set, hguard⟩ := hprims
    obtain ⟨chain, hchain, hstub | hnone⟩ := UnitCache.mem_held (hlinked.world.cache hc).1 hs
    · exact .inr (.inr ⟨hcleared, p, chain, s, set, code, hchain, hstub, hguard, hcode, hmem⟩)
    · rw [hnone] at hguard
      cases hguard

/-- The code of a stub that was taken out by a purge during a mark is reached by the mark. -/
theorem purged_code_marked :
    let attached : List (Action Unit) :=
      [.addCache ⟨1, "f", 0, false, 0, #[.typeOf], #[]⟩, .use 1 ⟨1, 0⟩ (.unary (.int32 5)),
        .host .initial Zone.initial.beginMark .empty 0 ()]
    let m := (initial .standard (fun _ _ => none) ()).run attached
    (m.world.cache 1).edges = [⟨.ofCode 1, "stub-code"⟩] ∧
      ((m.run [.purge 1]).world.cache 1).edges = [] ∧
      (m.run [.purge 1]).world.runtime.zone.isMarked (.ofCode 1) = true := by
  intro attached m
  have hreported : (m.world.cache 1).edges = [⟨.ofCode 1, "stub-code"⟩] := by decide +kernel
  have hgone : ((m.run [.purge 1]).world.cache 1).edges = [] := by decide +kernel
  refine ⟨hreported, hgone, ?_⟩
  have hmem : (⟨.ofCode 1, "stub-code"⟩ : Edge) ∈ (m.world.cache 1).edges := by
    rw [hreported]
    exact List.mem_singleton_self _
  have hattached : (initial .standard (fun _ _ => none) ()).run attached = m := rfl
  have hmark : m.MarksThrough [.purge 1] := ⟨trivial, trivial⟩
  rcases reported_or_marked hattached (by decide +kernel) hmark 1 _ hmem with
    hstill | hmarked | ⟨hteardown, -⟩
  · rw [hgone] at hstill
    cases hstill
  · exact hmarked
  · simp [attached] at hteardown

/-- Not all that a unit reports when a mark runs is reported or reached later: the code of an integer's
guard is lost when a string widens the guard after a teardown. -/
theorem reported_not_always_kept :
    ¬ ∀ (before later : List (Action Unit)) (m : Machine Unit),
        (initial .standard (fun _ _ => none) ()).run before = m →
        m.world.runtime.zone.marking = true → m.MarksThrough later → ∀ c : CacheId,
        ∀ e ∈ (m.world.cache c).edges,
          e.thing ∈ ((m.run later).world.cache c).edges.map (·.thing) ∨
          (m.run later).world.runtime.zone.isMarked e.thing = true := by
  intro hall
  let seen : List (Action Unit) :=
    [.addCache ⟨1, "f", 0, false, 0, #[.getAliasedVar 0], #[]⟩, .use 1 ⟨1, 0⟩ (.unary (.int32 5)),
      .host .initial Zone.initial.beginMark .empty 0 ()]
  let widened : List (Action Unit) := [.teardown, .use 1 ⟨1, 0⟩ (.unary (.string "a"))]
  let m := (initial .standard (fun _ _ => none) ()).run seen
  have hreported : (m.world.cache 1).edges = [⟨.ofCode 1, "stub-code"⟩] := by decide +kernel
  have hlater : (((m.run widened).world.cache 1).edges.map (·.thing),
      (m.run widened).world.runtime.zone.isMarked (.ofCode 1)) = ([.ofCode 2], false) := by
    decide +kernel
  obtain ⟨hthings, hunmarked⟩ := Prod.mk.inj hlater
  have hkept := hall seen widened m rfl (by decide +kernel) ⟨trivial, trivial, trivial⟩ 1
    ⟨.ofCode 1, "stub-code"⟩ (by rw [hreported]; exact List.mem_singleton_self _)
  rw [hthings, hunmarked] at hkept
  simp [Thing.ofCode] at hkept

end Machine

end InlineCache
