import InlineCache.Proofs.Entry.Move
import InlineCache.Proofs.TypeChain.Edit

namespace InlineCache.TypeChain

/-- A chain of type guards after work on it. The stubs of entries are not counted anew. -/
structure Edited (t : TypeChain) (env : AttachEnv) (t' : TypeChain) (env' : AttachEnv) : Prop where
  chain : t.chain.EditedTo env.arena t'.chain env'.arena
  role : t'.role = t.role
  tally : env.SameTally env'

variable {t t' t'' : TypeChain} {env env' env'' : AttachEnv}

theorem Edited.trans (h : t.Edited env t' env') (h' : t'.Edited env' t'' env'') :
    t.Edited env t'' env'' :=
  ⟨h.chain.trans h'.chain, h'.role.trans h.role, h.tally.trans h'.tally⟩

private theorem edited_of_sameStubs (hw : env.arena.WellLinked) (hs : t.chain.Sound env.arena)
    (h : env.SameStubs env') : t.Edited env t env' :=
  ⟨by rw [h.arena]; exact .refl hw hs, rfl, h.toSameTally⟩

private theorem isFallback_toStub (t : TypeChain) (guard : TypeGuard) (code : Code) :
    ((t.recipe guard).toStub code).isFallback = false := by
  unfold recipe
  split <;> rfl

/-- A new stub for a guard is at a place, with code that is in the cache. -/
def New (t : TypeChain) (guard : TypeGuard) (env : AttachEnv) (id : StubId) : Prop :=
  ∃ code, env.arena.stub id = (t.recipe guard).toStub code ∧
    env.runtime.codeCache.get? (t.recipe guard).signature = some code

theorem New.typeGuard? {guard : TypeGuard} {id : StubId} (h : t.New guard env id) :
    (env.arena.stub id).kind.typeGuard? = some guard := by
  obtain ⟨code, hstub, -⟩ := h
  rw [hstub]
  unfold recipe
  split <;> rfl

/-- What an edit makes of the stubs of a chain. -/
inductive Done (t : TypeChain) (env : AttachEnv) (t' : TypeChain) (env' : AttachEnv) :
    GuardEdit → Prop where
  | attach {guard : TypeGuard} {id : StubId} (hnew : t.New guard env' id)
      (hids : t'.chain.stubIds env'.arena = id :: t.chain.stubIds env.arena)
      (hothers : ∀ x ∈ t.chain.stubIds env.arena, env'.arena.stub x = env.arena.stub x) :
      Done t env t' env' (.attach guard)
  | replace {guard : TypeGuard} {id : StubId} (hid : id ∈ t.chain.stubIds env.arena)
      (hnew : t.New guard env' id) (hids : t'.chain.stubIds env'.arena = t.chain.stubIds env.arena)
      (hothers : ∀ x, x ≠ id → env'.arena.stub x = env.arena.stub x) :
      Done t env t' env' (.replace id guard)
  | replaceAll {guard : TypeGuard} {id : StubId} (hnew : t.New guard env' id)
      (hids : t'.chain.stubIds env'.arena = [id])
      (hmarked : env.runtime.zone.marking = true → ∀ x ∈ t.chain.stubIds env.arena,
        ∀ e ∈ (env.arena.stub x).edges, env'.runtime.zone.isMarked e.thing = true) :
      Done t env t' env' (.replaceAll guard)

/-- An edit is done, or it fails for lack of code or of room and leaves the stubs alone. -/
inductive Outcome (t : TypeChain) (env : AttachEnv) (edit : GuardEdit) :
    Except CacheError Unit → TypeChain → AttachEnv → Prop where
  | done {t' : TypeChain} {env' : AttachEnv} (hdone : t.Done env t' env' edit)
      (hran : env.RanOut env' 0) (hfailures : env'.failures = env.failures) :
      Outcome t env edit (.ok ()) t' env'
  | failed {e : CacheError} {env' : AttachEnv} (hsame : env.SameStubs env') (hran : env.RanOut env' 0)
      (hfailures : env.failures < (env'.reportFailure e).failures) : Outcome t env edit (.error e) t env'

/-- A failure to compile is counted by the cache of code already. -/
theorem failures_lt_of_build {e : CacheError} (h : env.failures < env'.failures) :
    env.failures < (env'.reportFailure e).failures :=
  Int.lt_of_lt_of_le h (env'.sameStubs_reportFailure e).failures

private theorem attach_spec (hw : env.arena.WellLinked) (hs : t.chain.Sound env.arena)
    {guard : TypeGuard}
    {result : Except CacheError Unit} (h : t.attach env guard = (result, t', env')) :
    t.Edited env t' env' ∧ t.Outcome env (.attach guard) result t' env' := by
  unfold attach at h
  cases hb : env.build (t.recipe guard) with
  | mk built env₁ =>
  obtain ⟨hsame, hran, hbuilt⟩ := AttachEnv.build_spec hb
  rw [hb] at h
  rcases hbuilt with ⟨code, rfl, hget, hfailures⟩ | ⟨e, rfl, hlt⟩
  · dsimp only at h
    unfold insert at h
    rcases hi : env₁.insert t.chain ((t.recipe guard).toStub code) with ⟨_ | id, chain, env₂⟩
    · rw [hi] at h
      cases h
      obtain ⟨rfl, rfl, hmemory⟩ := AttachEnv.of_insert_eq_error hi
      have hlt := env'.failures_reportFailure_lt hmemory
      exact ⟨edited_of_sameStubs hw hs hsame, .failed hsame hran (by rw [← hfailures]; exact hlt)⟩
    · rw [hi] at h
      cases h
      obtain ⟨arena, hinsert, rfl⟩ := AttachEnv.insert_spec hi
      rw [hsame.arena] at hinsert
      obtain ⟨hedit, hid, hids, hstub, hothers⟩ :=
        Chain.insert_spec hw hs (t.isFallback_toStub guard code) hinsert
      refine ⟨⟨hedit, rfl, hsame.toSameTally.trans ⟨.of_runtime rfl rfl, rfl, rfl⟩⟩, ?_⟩
      refine .done (.attach ⟨code, hstub, hget⟩ hids fun x hx => hothers x ?_)
        ⟨hran.recoveries, hran.reports⟩ hfailures
      obtain ⟨_, hpath⟩ := hs.path.of_mem hx
      rw [hid]
      exact Nat.ne_of_lt (hpath.lt_size hw)
  · cases h
    exact ⟨edited_of_sameStubs hw hs hsame, .failed hsame hran (failures_lt_of_build hlt)⟩

private theorem replace_spec (hw : env.arena.WellLinked) (hs : t.chain.Sound env.arena) {id : StubId}
    (hid : id ∈ t.chain.stubIds env.arena) {guard : TypeGuard}
    {result : Except CacheError Unit} (h : t.replace env id guard = (result, t', env')) :
    t.Edited env t' env' ∧ t.Outcome env (.replace id guard) result t' env' := by
  unfold replace at h
  cases hb : env.build (t.recipe guard) with
  | mk built env₁ =>
  obtain ⟨hsame, hran, hbuilt⟩ := AttachEnv.build_spec hb
  rw [hb] at h
  rcases hbuilt with ⟨code, rfl, hget, hfailures⟩ | ⟨e, rfl, hlt⟩
  · cases h
    obtain ⟨hedit, hids, hstub, hothers⟩ :=
      Chain.replace_spec hw hs hid (t.isFallback_toStub guard code)
    rw [← hsame.arena] at hedit hids hstub hothers
    refine ⟨⟨?_, rfl, hsame.toSameTally.trans ⟨.of_runtime rfl rfl, rfl, rfl⟩⟩, ?_⟩
    · rw [← hsame.arena]
      exact hedit
    · refine .done (.replace hid ⟨code, hstub, hget⟩ ?_ fun x hx => ?_)
        ⟨hran.recoveries, hran.reports⟩ hfailures
      · rw [← hsame.arena]
        exact hids
      · rw [← hsame.arena]
        exact hothers x hx
  · cases h
    exact ⟨edited_of_sameStubs hw hs hsame, .failed hsame hran (failures_lt_of_build hlt)⟩

/-- Room for the broader guard is found before the others go, so the chain is never left empty. -/
theorem replaceAll_spec (hw : env.arena.WellLinked) (hs : t.chain.Sound env.arena)
    {guard : TypeGuard} {result : Except CacheError Unit}
    (h : t.replaceAll env guard = (result, t', env')) :
    t.Edited env t' env' ∧ t.Outcome env (.replaceAll guard) result t' env' := by
  unfold replaceAll at h
  cases hb : env.build (t.recipe guard) with
  | mk built env₁ =>
  obtain ⟨hsame, hran, hbuilt⟩ := AttachEnv.build_spec hb
  rw [hb] at h
  rcases hbuilt with ⟨code, rfl, hget, hfailures⟩ | ⟨e, rfl, hlt⟩
  · dsimp only at h
    split at h
    · cases h
      have hlt := env'.failures_reportFailure_lt (e := .outOfMemory "type guard") rfl
      exact ⟨edited_of_sameStubs hw hs hsame, .failed hsame hran (by rw [← hfailures]; exact hlt)⟩
    · next hroom =>
      unfold AttachEnv.discardAll at h
      cases hd : t.chain.discardAll env₁.arena env₁.runtime.zone with
      | mk removed r =>
      obtain ⟨chain, arena, zone⟩ := r
      have hroom' : arena.isFull = false := by
        rw [Chain.isFull_unlinkFrom hd]
        simpa using hroom
      obtain ⟨id, chain', arena', hinsert⟩ :=
        Chain.insert_of_not_full hroom' chain ((t.recipe guard).toStub code)
      simp only [hd, insert, AttachEnv.insert, hinsert] at h
      cases h
      rw [hsame.arena] at hd
      obtain ⟨hzone, hmarked⟩ := Chain.unlinkMatching_barrier hd
      have hcount := Chain.oomCount_unlinkFrom hd
      obtain ⟨hemptied, hnone, -, -⟩ := Chain.discardAll_spec hw hs hd
      obtain ⟨hadded, -, hids, hstub, -⟩ := Chain.insert_spec hemptied.arena.wellLinked
        hemptied.sound (t.isFallback_toStub guard code) hinsert
      rw [hnone] at hids
      refine ⟨⟨hemptied.trans hadded, rfl,
        hsame.toSameTally.trans ⟨.of_zone rfl hzone rfl hcount, rfl, rfl⟩⟩, ?_⟩
      refine .done (.replaceAll ⟨code, hstub, hget⟩ hids fun hmarking x hx => ?_)
        ⟨hran.recoveries, hcount.trans hran.reports⟩ hfailures
      exact hmarked (hsame.zone.marking.trans hmarking) x hx rfl
  · cases h
    exact ⟨edited_of_sameStubs hw hs hsame, .failed hsame hran (failures_lt_of_build hlt)⟩

/-- The guards of a chain are those of its stubs. -/
theorem mem_guards {a : Arena} {p : StubId × TypeGuard} :
    p ∈ t.guards a ↔ p.1 ∈ t.chain.stubIds a ∧ (a.stub p.1).kind.typeGuard? = some p.2 := by
  simp only [guards, List.mem_filterMap, Option.map_eq_some_iff]
  constructor
  · rintro ⟨id, hid, guard, hguard, rfl⟩
    exact ⟨hid, hguard⟩
  · exact fun ⟨hid, hguard⟩ => ⟨p.1, hid, p.2, hguard, rfl⟩

theorem perform_spec (hw : env.arena.WellLinked) (hs : t.chain.Sound env.arena) {edit : GuardEdit}
    (hwidens : edit.Widens (t.guards env.arena)) {result : Except CacheError Unit}
    (h : t.perform env edit = (result, t', env')) :
    t.Edited env t' env' ∧ t.Outcome env edit result t' env' := by
  cases edit with
  | attach guard => exact attach_spec hw hs h
  | replace id guard =>
    obtain ⟨-, old, hmem, -⟩ := hwidens
    exact replace_spec hw hs (mem_guards.1 hmem).1 h
  | replaceAll guard => exact replaceAll_spec hw hs h

/-- Widening a chain for a value leaves the stubs alone, which then accepted it or there was a failure; or
it comes to an edit. The types are left as they are, or widen to all objects. -/
theorem refine_cases {heap : Heap} {types types' : TypeSet} {v : Value}
    (h : t.refine heap env types v = (t', types', env')) (hw : env.arena.WellLinked)
    (hs : t.chain.Sound env.arena) :
    (types' = types ∨ types' = types.markUnknownObject) ∧
      ((t' = t ∧ env.SameStubs env' ∧ (v ≠ .magic .optimizedOut →
          t.accepts heap env.arena v = true ∨ env.failures < env'.failures)) ∨
        v ≠ .magic .optimizedOut ∧ ∃ edit env₁,
          edit.Suits env.runtime.config.maxObjectGuards (t.guards env.arena) heap types' v ∧
          t.Edited env t' env₁ ∧ t.Done env t' env₁ edit ∧ env₁.SameStubs env') := by
  unfold refine at h
  by_cases hv : v = .magic .optimizedOut
  · rw [if_pos hv] at h
    cases h
    exact ⟨.inl rfl, .inl ⟨rfl, .refl env, fun hne => absurd hv hne⟩⟩
  · rw [if_neg hv] at h
    cases hr : t.widen heap env types v with
    | mk result r =>
    obtain ⟨t₁, types₁, env₁⟩ := r
    rw [hr] at h
    obtain ⟨htypes, ⟨rfl, rfl, rfl, haccepts⟩ | ⟨edit, r, hperform, rfl, hsuits⟩⟩ := widen_cases hr
    · cases h
      exact ⟨htypes, .inl ⟨rfl, .refl _, fun _ => .inl haccepts⟩⟩
    · obtain ⟨hedit, houtcome⟩ := perform_spec hw hs hsuits.widens hperform
      cases houtcome with
      | done hdone _ _ =>
        cases h
        refine ⟨htypes, .inr ⟨hv, edit, env₁, hsuits, hedit, hdone, ?_⟩⟩
        refine env₁.sameStubs_mapCounters ?_ ?_ ?_ <;> cases t'.role <;> rfl
      | @failed e _ hsame _ hfailures =>
        cases h
        have hsame' := hsame.trans (env₁.sameStubs_reportFailure e)
        exact ⟨htypes, .inl ⟨rfl, hsame', fun _ => .inr hfailures⟩⟩

private theorem refine_edited {heap : Heap} {types types' : TypeSet} {v : Value}
    (h : t.refine heap env types v = (t', types', env')) (hw : env.arena.WellLinked)
    (hs : t.chain.Sound env.arena) : t.Edited env t' env' := by
  rcases (refine_cases h hw hs).2 with ⟨rfl, hsame, -⟩ | ⟨-, edit, env₁, -, hedit, -, hsame⟩
  · exact edited_of_sameStubs hw hs hsame
  · exact hedit.trans (edited_of_sameStubs hedit.chain.arena.wellLinked hedit.chain.sound hsame)

/-- A write that is shown to a chain is accepted, or the layout implies it; or it is recorded, and the
chain widens for it. -/
theorem recordWrite_cases {heap heap' : Heap} {group : GroupId} {key : PropertyKey} {v : Value}
    {accepted : Bool} (h : t.recordWrite heap env group key v = (accepted, t', heap', env')) :
    (t' = t ∧ heap' = heap ∧ env.SameStubs env' ∧ (t.accepts heap env.arena v = true ∨
        ((heap.group group).fieldRepr? key).any (·.implicitlyCovers v) = true)) ∨
      ∃ env₁ types types', env.SameStubs env₁ ∧
        ((heap.addPropertyType group key v).group group).propertyTypes key = types ∧
        t.refine (heap.addPropertyType group key v) env₁ types v = (t', types', env') ∧
        (if types'.isUnknownObject && !types.isUnknownObject then
          (heap.addPropertyType group key v).modifyGroup group
            (·.widenProperty key (·.markUnknownObject))
        else heap.addPropertyType group key v) = heap' := by
  unfold recordWrite at h
  split at h
  · next haccepts =>
    cases h
    exact .inl ⟨rfl, rfl, .refl env, .inl haccepts⟩
  · have hcount : env.SameStubs (env.mapCounters fun c =>
        { c with updateFallbackHits := c.updateFallbackHits + 1 }) :=
      env.sameStubs_mapCounters rfl rfl rfl
    dsimp only at h
    split at h
    · next himplied =>
      cases h
      exact .inl ⟨rfl, rfl, hcount, .inr himplied⟩
    · cases hr : t.refine (heap.addPropertyType group key v) (env.mapCounters fun c =>
        { c with updateFallbackHits := c.updateFallbackHits + 1 })
        (((heap.addPropertyType group key v).group group).propertyTypes key) v with
      | mk t₁ r =>
      obtain ⟨types, env₁⟩ := r
      rw [hr] at h
      cases h
      exact .inr ⟨_, _, types, hcount, rfl, hr, rfl⟩

theorem recordWrite_edited {heap heap' : Heap} {group : GroupId} {key : PropertyKey} {v : Value}
    {accepted : Bool} (h : t.recordWrite heap env group key v = (accepted, t', heap', env'))
    (hw : env.arena.WellLinked) (hs : t.chain.Sound env.arena) : t.Edited env t' env' := by
  rcases recordWrite_cases h with ⟨rfl, -, hsame, -⟩ | ⟨env₁, types, types', hsame, -, hrefine, -⟩
  · exact edited_of_sameStubs hw hs hsame
  · have hfirst := edited_of_sameStubs hw hs hsame
    exact hfirst.trans (refine_edited hrefine hfirst.chain.arena.wellLinked hfirst.chain.sound)

theorem create_spec {a a' : Arena} (hw : a.WellLinked) {role : TypeChainRole}
    (h : create a role = (t, a')) :
    a.EditedAt a.size a' ∧ t.chain.Sound a' ∧ t.chain.stubIds a' = [] ∧
      t.chain.fallback = a.size ∧ a'.size = a.size + 1 := by
  cases role with
  | monitor =>
    cases h
    exact Chain.create_spec hw rfl rfl
  | update =>
    cases h
    exact Chain.create_spec hw rfl rfl

end InlineCache.TypeChain

namespace InlineCache.Monitor

/-- A result that is shown to a watch is counted and seen, and the chain widens for it. -/
theorem refine_of_record {m m' : Monitor} {env env' : AttachEnv} {heap : Heap} {v : Value}
    (h : m.record heap env v = (m', env')) :
    m.chain.refine heap
        (env.mapCounters fun c => { c with monitorFallbackHits := c.monitorFallbackHits + 1 })
        (m.types.addValue heap.objectKey v) v = (m'.chain, m'.types, env') := by
  cases h
  rfl

theorem record_cases {m m' : Monitor} {env env' : AttachEnv} {heap : Heap} {v : Value}
    (h : m.record heap env v = (m', env')) : ∃ env₁, env.SameStubs env₁ ∧
      m.chain.refine heap env₁ (m.types.addValue heap.objectKey v) v =
        (m'.chain, m'.types, env') :=
  ⟨_, env.sameStubs_mapCounters rfl rfl rfl, refine_of_record h⟩

theorem record_edited {m m' : Monitor} {env env' : AttachEnv} {heap : Heap} {v : Value}
    (h : m.record heap env v = (m', env')) (hw : env.arena.WellLinked)
    (hs : m.chain.chain.Sound env.arena) : m.chain.Edited env m'.chain env' := by
  obtain ⟨env₁, hsame, hrefine⟩ := record_cases h
  have hfirst := TypeChain.edited_of_sameStubs hw hs hsame
  exact hfirst.trans
    (TypeChain.refine_edited hrefine hfirst.chain.arena.wellLinked hfirst.chain.sound)

end InlineCache.Monitor
