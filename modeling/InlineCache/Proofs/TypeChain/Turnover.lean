import InlineCache.Proofs.TypeChain.Edited

namespace InlineCache

namespace Stub

def GuardsPrimitives (s : Stub) : Prop := ∃ set, s.kind.typeGuard? = some (.primitives set)

/-- A type guard has no payload, and its code is in the cache, unless that was cleared since. -/
def Coded (cleared : Prop) (codes : CodeCache) (s : Stub) : Prop :=
  ∀ guard, s.kind.typeGuard? = some guard → s.payload = .none ∧ ∃ code, s.code = some code ∧
    (¬ cleared → codes.get? (.typeGuard guard.kind) = some code)

variable {s : Stub} {cleared : Prop} {codes codes' : CodeCache}

theorem coded_of_typeGuard?_eq_none (h : s.kind.typeGuard? = none) : s.Coded cleared codes := by
  intro guard hguard
  rw [h] at hguard
  cases hguard

theorem Coded.of_codes (h : s.Coded cleared codes) {cleared' : Prop} (hcleared : cleared → cleared')
    (hcodes : ¬ cleared' → ∀ signature code, codes.get? signature = some code →
      codes'.get? signature = some code) : s.Coded cleared' codes' := by
  intro guard hguard
  obtain ⟨hpayload, code, hcode, hget⟩ := h guard hguard
  exact ⟨hpayload, code, hcode, fun hkept => hcodes hkept _ _ (hget (mt hcleared hkept))⟩

/-- A guard for primitives keeps nothing alive but its code. -/
theorem Coded.edges_eq (h : s.Coded cleared codes) (hs : s.GuardsPrimitives) :
    ∃ code, s.code = some code ∧ s.edges = [⟨.ofCode code.id, "stub-code"⟩] ∧
      (¬ cleared → codes.get? (.typeGuard .primitiveSet) = some code) := by
  obtain ⟨set, hguard⟩ := hs
  obtain ⟨hpayload, code, hcode, hget⟩ := h _ hguard
  refine ⟨code, hcode, ?_, hget⟩
  simp [edges, hcode, hpayload, hguard, payloadEdges, guardEdges]

end Stub

/-- What is kept alive: by a stub of a list, or as a thing that a mark has reached. Where the cache of code
may have been cleared, guards for primitives do not count. -/
def KeptAlive (cleared : Prop) (stubs : List Stub) (z : Zone) (e : Edge) : Prop :=
  (∃ s ∈ stubs, (cleared → ¬ s.GuardsPrimitives) ∧ e ∈ s.edges) ∨ z.isMarked e.thing = true

/-- What became of the stubs of a chain by one change. Stubs go only after they were handed to the
barrier, but for the guard for primitives, which makes way for a broader one without further ado. All
that it keeps alive is its code, and so does the guard in its place, as long as both have the code that
is in the cache. -/
structure Turnover (env env' : AttachEnv) (stubs stubs' : List Stub) : Prop where
  /-- A new type guard has its code from the cache. -/
  new : ∀ s ∈ stubs', s ∈ stubs ∨ s.Coded False env'.runtime.codeCache
  /-- A stub went to the barrier first, or it made way as a guard for primitives. -/
  old : ∀ s ∈ stubs, s ∈ stubs' ∨
    (env.runtime.zone.marking = true → ∀ e ∈ s.edges, env'.runtime.zone.isMarked e.thing = true) ∨
    s.GuardsPrimitives ∧
      ∃ s' ∈ stubs', s'.GuardsPrimitives ∧ s'.Coded False env'.runtime.codeCache

namespace Turnover

variable {env env' env'' : AttachEnv} {stubs stubs' : List Stub} {cleared : Prop}

theorem of_eq (env env' : AttachEnv) (h : stubs' = stubs) : Turnover env env' stubs stubs' :=
  ⟨fun _ hs => .inl (h ▸ hs), fun _ hs => .inl (h ▸ hs)⟩

theorem of_cons {s : Stub} (hs : s.Coded False env'.runtime.codeCache) (h : stubs' = s :: stubs) :
    Turnover env env' stubs stubs' := by
  subst h
  refine ⟨fun x hx => ?_, fun _ hx => .inl (List.mem_cons_of_mem _ hx)⟩
  rcases List.mem_cons.1 hx with rfl | hx
  · exact .inr hs
  · exact .inl hx

private theorem after (hfirst : env.Follows env') (h : Turnover env' env'' stubs stubs') :
    Turnover env env'' stubs stubs' := by
  refine ⟨h.new, fun s hs => (h.old s hs).imp_right (Or.imp_left fun hmarked hmarking => ?_)⟩
  exact hmarked (hfirst.zone.marking.trans hmarking)

private theorem before (h : Turnover env env' stubs stubs') (hthen : env'.Follows env'') :
    Turnover env env'' stubs stubs' := by
  have hcoded {s : Stub} (hs : s.Coded False env'.runtime.codeCache) :
      s.Coded False env''.runtime.codeCache := hs.of_codes id fun _ => hthen.codes
  refine ⟨fun s hs => (h.new s hs).imp_right hcoded, fun s hs => ?_⟩
  rcases h.old s hs with hstays | hmarked | ⟨hprims, s', hs', hprims', hcoded'⟩
  · exact .inl hstays
  · exact .inr (.inl fun hmarking e he => hthen.zone.marked _ (hmarked hmarking e he))
  · exact .inr (.inr ⟨hprims, s', hs', hprims', hcoded hcoded'⟩)

theorem coded (h : Turnover env env' stubs stubs') (hfollows : env.Follows env')
    (hstubs : ∀ s ∈ stubs, s.Coded cleared env.runtime.codeCache) :
    ∀ s ∈ stubs', s.Coded cleared env'.runtime.codeCache := by
  intro s hs
  rcases h.new s hs with hold | hnew
  · exact (hstubs s hold).of_codes id fun _ => hfollows.codes
  · exact hnew.of_codes False.elim fun _ _ _ => id

/-- While a mark runs, nothing that was kept alive is given up, except for the code of guards for primitives
if the cache of code was cleared. -/
theorem keptAlive (h : Turnover env env' stubs stubs') (hfollows : env.Follows env')
    (hmarking : env.runtime.zone.marking = true)
    (hstubs : ∀ s ∈ stubs, s.Coded cleared env.runtime.codeCache) {e : Edge}
    (he : KeptAlive cleared stubs env.runtime.zone e) :
    KeptAlive cleared stubs' env'.runtime.zone e := by
  rcases he with ⟨s, hs, hcounts, hmem⟩ | hmarked
  · rcases h.old s hs with hstays | hbarrier | ⟨hprims, s', hs', hprims', hcoded'⟩
    · exact .inl ⟨s, hstays, hcounts, hmem⟩
    · exact .inr (hbarrier hmarking e hmem)
    · have hcached : ¬ cleared := fun hcleared => hcounts hcleared hprims
      obtain ⟨code, -, hedges, hget⟩ := (hstubs s hs).edges_eq hprims
      obtain ⟨code', -, hedges', hget'⟩ := hcoded'.edges_eq hprims'
      have hsame := hfollows.codes _ _ (hget hcached)
      rw [hget' id, Option.some.injEq] at hsame
      rw [hedges, ← hsame, ← hedges'] at hmem
      exact .inl ⟨s', hs', fun hcleared => absurd hcleared hcached, hmem⟩
  · exact .inr (hfollows.zone.marked _ hmarked)

end Turnover

namespace TypeChain

variable {t t' : TypeChain} {env env' : AttachEnv}

private theorem New.coded {guard : TypeGuard} {id : StubId} (h : t.New guard env id) :
    (env.arena.stub id).Coded False env.runtime.codeCache := by
  obtain ⟨code, hstub, hget⟩ := h
  intro guard' hguard
  rw [hstub] at hguard ⊢
  cases hrole : t.role <;>
    · simp only [recipe, hrole] at hguard hget ⊢
      cases hguard
      exact ⟨rfl, code, rfl, fun _ => hget⟩

private theorem Done.turnover (hw : env.arena.WellLinked) (hs : t.chain.Sound env.arena)
    {edit : GuardEdit} (hedit : t.Edited env t' env') (hwidens : edit.Widens (t.guards env.arena))
    (h : t.Done env t' env' edit) :
    Turnover env env' (t.chain.held env.arena) (t'.chain.held env'.arena) := by
  rw [Chain.held_eq hw hs, Chain.held_eq hedit.chain.arena.wellLinked hedit.chain.sound,
    hedit.chain.stub_fallback hw hs, Chain.stubs, Chain.stubs]
  cases h with
  | attach hnew hids hothers =>
    refine .of_cons hnew.coded ?_
    rw [hids, List.map_cons, List.cons_append, List.map_congr_left hothers]
  | @replace guard id hid hnew hids hothers =>
    obtain ⟨hprims, old, hmem, hold, -⟩ := hwidens
    have hguards {g : TypeGuard} {s : Stub} (hg : g.isPrimitives = true)
        (hs : s.kind.typeGuard? = some g) : s.GuardsPrimitives := by
      cases g with
      | primitives set => exact ⟨set, hs⟩
      | _ => cases hg
    have hnewMem : env'.arena.stub id ∈ (t'.chain.stubIds env'.arena).map env'.arena.stub :=
      List.mem_map_of_mem (by rw [hids]; exact hid)
    refine ⟨fun s hs => ?_, fun s hs => ?_⟩
    · rcases List.mem_append.1 hs with hs | hs
      · obtain ⟨x, hx, rfl⟩ := List.mem_map.1 hs
        by_cases hxid : x = id
        · subst hxid
          exact .inr hnew.coded
        · rw [hothers x hxid]
          exact .inl (List.mem_append_left _ (List.mem_map_of_mem (hids ▸ hx)))
      · exact .inl (List.mem_append_right _ hs)
    · rcases List.mem_append.1 hs with hs | hs
      · obtain ⟨x, hx, rfl⟩ := List.mem_map.1 hs
        by_cases hxid : x = id
        · subst hxid
          exact .inr (.inr ⟨hguards hold (mem_guards.1 hmem).2, _, List.mem_append_left _ hnewMem,
            hguards hprims hnew.typeGuard?, hnew.coded⟩)
        · refine .inl (List.mem_append_left _ ?_)
          rw [← hothers x hxid]
          exact List.mem_map_of_mem (by rw [hids]; exact hx)
      · exact .inl (List.mem_append_right _ hs)
  | @replaceAll guard id hnew hids hmarked =>
    refine ⟨fun s hs => ?_, fun s hs => ?_⟩
    · rw [hids] at hs
      rcases List.mem_append.1 hs with hs | hs
      · rw [List.map_singleton, List.mem_singleton] at hs
        rw [hs]
        exact .inr hnew.coded
      · exact .inl (List.mem_append_right _ hs)
    · rcases List.mem_append.1 hs with hs | hs
      · obtain ⟨x, hx, rfl⟩ := List.mem_map.1 hs
        exact .inr (.inl fun hmarking => hmarked hmarking x hx)
      · exact .inl (List.mem_append_right _ hs)

private theorem refine_turnover {heap : Heap} {types types' : TypeSet} {v : Value}
    (h : t.refine heap env types v = (t', types', env')) (hw : env.arena.WellLinked)
    (hs : t.chain.Sound env.arena) :
    Turnover env env' (t.chain.held env.arena) (t'.chain.held env'.arena) := by
  rcases (refine_cases h hw hs).2 with
    ⟨rfl, hsame, -⟩ | ⟨-, edit, env₁, hsuits, hedit, hdone, hsame⟩
  · exact .of_eq _ _ (by rw [hsame.arena])
  · rw [hsame.arena]
    exact (hdone.turnover hw hs hedit hsuits.widens).before hsame.toFollows

theorem recordWrite_turnover {heap heap' : Heap} {group : GroupId} {key : PropertyKey} {v : Value}
    {accepted : Bool} (h : t.recordWrite heap env group key v = (accepted, t', heap', env'))
    (hw : env.arena.WellLinked) (hs : t.chain.Sound env.arena) :
    Turnover env env' (t.chain.held env.arena) (t'.chain.held env'.arena) := by
  rcases recordWrite_cases h with ⟨rfl, -, hsame, -⟩ | ⟨env₁, types, types', hsame, -, hrefine, -⟩
  · exact .of_eq _ _ (by rw [hsame.arena])
  · rw [← hsame.arena] at hw hs ⊢
    exact (refine_turnover hrefine hw hs).after hsame.toFollows

end TypeChain

theorem Monitor.record_turnover {m m' : Monitor} {env env' : AttachEnv} {heap : Heap} {v : Value}
    (h : m.record heap env v = (m', env')) (hw : env.arena.WellLinked)
    (hs : m.chain.chain.Sound env.arena) :
    Turnover env env' (m.chain.chain.held env.arena) (m'.chain.chain.held env'.arena) := by
  obtain ⟨env₁, hsame, hrefine⟩ := record_cases h
  rw [← hsame.arena] at hw hs ⊢
  exact (TypeChain.refine_turnover hrefine hw hs).after hsame.toFollows

end InlineCache
