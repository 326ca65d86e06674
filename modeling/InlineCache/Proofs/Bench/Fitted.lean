import InlineCache.Proofs.Stub.Rules

namespace InlineCache

/-- The stubs after a move were there before, or one was built from a recipe that may be linked. -/
theorem Entry.Move.stubs_cases {recipes : Recipe → Prop} {e e' : Entry} {env env' : AttachEnv}
    (hkind : ∀ recipe, recipes recipe → recipe.kind.isFallback = false)
    (hw : env.arena.WellLinked) (hs : e.chain.Sound env.arena) (h : Move recipes e env e' env')
    {stub : Stub} (hstub : stub ∈ e'.chain.stubs env'.arena) :
    stub ∈ e.chain.stubs env.arena ∨ ∃ recipe code, recipes recipe ∧ stub = recipe.toStub code ∧
      (env.runtime.codeCache.Honest → code.signature = recipe.signature) := by
  cases h with
  | note _ _ henv =>
    rw [henv.arena] at hstub
    exact .inl hstub
  | start _ => exact .inl hstub
  | giveUp _ _ _ => exact .inl hstub
  | @link _ recipe code id chain _ hrecipe hcode hinsert _ _ _ =>
    have hfallback : (recipe.toStub code).isFallback = false := hkind recipe hrecipe
    rw [Chain.stubs_insert hw hs hfallback hinsert] at hstub
    rcases List.mem_cons.1 hstub with rfl | hold
    · exact .inr ⟨recipe, code, hrecipe, rfl, hcode⟩
    · exact .inl hold
  | remove hunlink _ _ _ =>
    rw [Chain.stubs_unlinkMatching hw hs hunlink] at hstub
    exact .inl (List.mem_filter.1 hstub).1

/-- Whether a stub fits an entry: the entry is one of an operation, and the stub fits that. -/
def EntrySite.Fits (classed : Prop) (h : Heap) (site : EntrySite) (stub : Stub) : Prop :=
  ∃ op, site.role = .operation op ∧ ∀ code, stub.code = some code →
    StubFits classed h op code.signature stub.payload

theorem EntrySite.Fits.grows {classed : Prop} {h h' : Heap} {site : EntrySite} {stub : Stub}
    (hfits : site.Fits classed h stub) (hg : h.Grows h') : site.Fits classed h' stub := by
  obtain ⟨op, hrole, hcode⟩ := hfits
  exact ⟨op, hrole, fun code heq => (hcode code heq).grows hg⟩

namespace Bench

/-- Caches whose stubs fit, on a heap that is well formed. -/
structure Fitted (classed : Prop) (b : Bench) : Prop where
  honest : b.runtime.codeCache.Honest
  heap : b.heap.WellFormed classed
  stub : ∀ index < b.cache.entries.size,
    ∀ stub ∈ (b.cache.entry index).chain.stubs b.cache.arena,
      (b.cache.site index).Fits classed b.heap stub

variable {classed : Prop} {resets turns : Prop} {b b' : Bench}

/-- The stubs of an entry after a move were there before, or one was built from a recipe that may be linked
there. -/
theorem Move.stubs_cases {R : Rules} (hl : b.cache.Linked) (h : Move R resets turns b b') {index : Nat}
    (hin : index < b.cache.entries.size) {stub : Stub}
    (hmem : stub ∈ (b'.cache.entry index).chain.stubs b'.cache.arena) :
    stub ∈ (b.cache.entry index).chain.stubs b.cache.arena ∨
      ∃ op recipe code, (b.cache.site index).role = .operation op ∧ R.fits b.heap op recipe ∧
        stub = recipe.toStub code ∧
        (b.runtime.codeCache.Honest → code.signature = recipe.signature) := by
  -- work on another chain, or on none, leaves the stubs of an entry as they are
  have hsame (hchain : (b'.cache.entry index).chain.stubs b'.cache.arena =
      (b.cache.entry index).chain.stubs b.cache.arena) :
      stub ∈ (b.cache.entry index).chain.stubs b.cache.arena := hchain ▸ hmem
  cases h with
  | @entry other e' env' hother hmove =>
    have hkind : ∀ recipe, (∃ op, (b.cache.site other).role = .operation op ∧
        R.fits b.heap op recipe) → recipe.kind.isFallback = false :=
      fun recipe ⟨_, _, hfits⟩ => R.fits_kind hfits
    have hsound := hl.sound (UnitCache.chain?_main hother)
    by_cases hne : index = other
    · subst hne
      have heq : (b.setEntry index e' env').cache.entry index = e' :=
        UnitCache.entry_setEntry_self (c := (b.setEnv env').cache) hin e'
      rw [heq] at hmem
      rcases hmove.stubs_cases hkind hl.arena hsound hmem with
        hold | ⟨recipe, code, ⟨op, hrole, hfits⟩, hstub, hcode⟩
      · exact .inl hold
      · exact .inr ⟨op, recipe, code, hrole, hfits, hstub, hcode⟩
    · obtain ⟨hedit, hmonitor⟩ := hmove.editedTo hkind hl.arena hsound
      have heq : (b.setEntry other e' env').cache.entry index = b.cache.entry index :=
        UnitCache.entry_setEntry_of_ne (c := (b.setEnv env').cache) e' hne
      refine .inl (hsame ?_)
      rw [heq]
      exact (editedAt_main hother hedit hmonitor).stubs_eq hl (q := .main index) (by simpa using hne)
        (UnitCache.chain?_main hin)
  | tally hother hchain _ _ _ henv =>
    refine .inl (hsame ?_)
    rw [entry_setEntry_congr Entry.chain hother hchain]
    exact congrArg _ henv.arena
  | count henv => exact .inl (hsame (congrArg _ henv.arena))
  | @monitor other m m' env' _ _ hother hold hedit _ =>
    have hchain : ({ b.cache.entry other with monitor := some m' } : Entry).chain =
        (b.cache.entry other).chain := rfl
    refine .inl (hsame ?_)
    rw [entry_setEntry_congr Entry.chain hother hchain]
    exact (editedAt_monitor hother hold hedit.chain).stubs_eq hl (q := .main index) (by simp)
      (UnitCache.chain?_main hin)
  | update _ hold hedit _ =>
    exact .inl (hsame ((editedAt_update hold hedit.chain).stubs_eq hl (q := .main index) (by simp)
      (UnitCache.chain?_main hin)))
  | newUpdate _ hnone hcreate =>
    exact .inl (hsame ((editedAt_newUpdate hl.arena hnone hcreate).stubs_eq hl (q := .main index)
      (by simp) (UnitCache.chain?_main hin)))
  | heap _ => exact .inl hmem
  | @reset other _ hother _ =>
    have hchain : ({ b.cache.entry other with state := .initial } : Entry).chain =
        (b.cache.entry other).chain := rfl
    refine .inl (hsame ?_)
    rw [entry_setEntry_congr Entry.chain hother hchain]
    rfl

theorem Move.site_eq {R : Rules} (h : Move R resets turns b b') (index : Nat) :
    b'.cache.site index = b.cache.site index := by
  rw [UnitCache.site, UnitCache.site, h.same.2.1]

private theorem Move.evolves (h : Move (.fitting classed) resets turns b b') :
    b.heap.Evolves classed b'.heap := by
  cases h with
  | heap hallows => exact hallows
  | update _ _ _ hrecord => exact Heap.evolves_of_seen (TypeChain.seen_recordWrite hrecord)
  | _ => exact .refl classed b.heap

/-- Where only stubs that fit are linked, all of them fit. -/
theorem Move.fitted (hl : b.cache.Linked) (hb : b.Fitted classed)
    (h : Move (.fitting classed) resets turns b b') : b'.Fitted classed := by
  obtain ⟨hgrows, hheap⟩ := h.evolves hb.heap
  refine ⟨h.follows.honest hb.honest, hheap, fun index hin stub hmem => ?_⟩
  rw [h.same.2.2] at hin
  rw [h.site_eq]
  rcases h.stubs_cases hl hin hmem with hold | ⟨op, recipe, code, hrole, ⟨hfits, -⟩, rfl, hcode⟩
  · exact (hb.stub index hin stub hold).grows hgrows
  · refine EntrySite.Fits.grows ⟨op, hrole, fun code' heq => ?_⟩ hgrows
    cases heq
    rw [hcode hb.honest]
    exact hfits

theorem Moves.fitted (hl : b.cache.Linked) (hb : b.Fitted classed)
    (h : Moves (.fitting classed) resets turns b b') :
    b'.Fitted classed ∧ b.heap.Grows b'.heap := by
  induction h with
  | refl => exact ⟨hb, .refl b.heap⟩
  | tail hmoves hmove ih =>
    obtain ⟨hfitted, hgrows⟩ := ih
    exact ⟨hmove.fitted (hmoves.linked hl).1 hfitted, hgrows.trans (hmove.evolves hfitted.heap).1⟩

end Bench

end InlineCache
