import InlineCache.Cache.Attach
import InlineCache.Proofs.Runtime.Supply
import InlineCache.Proofs.TypeChain.Edit

namespace InlineCache

namespace TypeChain

variable {t : TypeChain} {heap : Heap} {env env' : AttachEnv} {types : TypeSet} {v : Value}

private theorem matched_recipe (t : TypeChain) (guard : TypeGuard) : (t.recipe guard).Matched := by
  unfold recipe
  cases t.role <;> rfl

/-- A new chain adds its end. -/
theorem suppliedBy_create (c : CodeCache) (a : Arena) (role : TypeChainRole) :
    Arena.SuppliedBy c a (create a role).2 := by
  cases role <;> exact Arena.suppliedBy_push (.ending rfl rfl) a none

private theorem supplies_perform (t : TypeChain) (env : AttachEnv) (edit : GuardEdit) :
    env.Supplies (t.perform env edit).2.2 := by
  have hbuilt {guard : TypeGuard} {result : Except CacheError Stub} {env₁ : AttachEnv}
      (h : env.build (t.recipe guard) = (result, env₁)) := AttachEnv.supplies_build (t.matched_recipe guard) h
  cases edit with
  | attach guard =>
    simp only [perform, attach]
    split
    · next hbuild => exact (hbuilt hbuild).1
    · next stub env₁ hbuild =>
      obtain ⟨hfirst, hstub⟩ := hbuilt hbuild
      exact hfirst.trans (AttachEnv.supplies_insert (hstub stub rfl) t.chain)
  | replace id guard =>
    simp only [perform, replace]
    split
    · next hbuild => exact (hbuilt hbuild).1
    · next stub env₁ hbuild =>
      obtain ⟨hfirst, hstub⟩ := hbuilt hbuild
      exact hfirst.trans ⟨.refl _, Arena.suppliedBy_replace (hstub stub rfl) _ _⟩
  | replaceAll guard =>
    simp only [perform, replaceAll]
    split
    · next hbuild => exact (hbuilt hbuild).1
    · next stub env₁ hbuild =>
      obtain ⟨hfirst, hstub⟩ := hbuilt hbuild
      split
      · exact hfirst
      · have hemptied := hfirst.trans (env₁.supplies_discardAll t.chain)
        have hkept : (env₁.discardAll t.chain).2.2.runtime.codeCache.Supplies stub := hstub stub rfl
        exact hemptied.trans (AttachEnv.supplies_insert hkept _)

private theorem supplies_widen (t : TypeChain) (heap : Heap) (env : AttachEnv) (types : TypeSet)
    (v : Value) : env.Supplies (t.widen heap env types v).2.2.2 := by
  cases hwiden : t.widen heap env types v with
  | mk result rest =>
  obtain ⟨t', types', env'⟩ := rest
  obtain ⟨-, ⟨-, -, rfl, -⟩ | ⟨edit, r, hperform, -, -⟩⟩ := widen_cases hwiden
  · exact .refl _
  · have hedited := t.supplies_perform env edit
    rw [hperform] at hedited
    exact hedited

private theorem supplies_refine (t : TypeChain) (heap : Heap) (env : AttachEnv) (types : TypeSet)
    (v : Value) : env.Supplies (t.refine heap env types v).2.2 := by
  have hwidened := t.supplies_widen heap env types v
  unfold refine
  split
  · exact .refl env
  · split
    · next hwiden =>
      rw [hwiden] at hwidened
      exact hwidened.trans (.of_eq rfl rfl)
    · next hwiden =>
      rw [hwiden] at hwidened
      exact hwidened
    · next e _ _ env₁ hwiden =>
      rw [hwiden] at hwidened
      exact hwidened.trans (env₁.supplies_reportFailure e)

theorem supplies_recordWrite (t : TypeChain) (heap : Heap) (env : AttachEnv) (group : GroupId)
    (key : PropertyKey) (v : Value) : env.Supplies (t.recordWrite heap env group key v).2.2.2 := by
  have hcounted : env.Supplies
      (env.mapCounters fun c => { c with updateFallbackHits := c.updateFallbackHits + 1 }) := .of_eq rfl rfl
  unfold recordWrite
  split
  · exact .refl env
  · dsimp only
    split
    · exact hcounted
    · exact hcounted.trans (t.supplies_refine _ _ _ v)

end TypeChain

theorem Monitor.supplies_record (m : Monitor) (heap : Heap) (env : AttachEnv) (v : Value) :
    env.Supplies (m.record heap env v).2 := by
  have hcounted : env.Supplies
      (env.mapCounters fun c => { c with monitorFallbackHits := c.monitorFallbackHits + 1 }) := .of_eq rfl rfl
  exact hcounted.trans (m.chain.supplies_refine heap _ _ v)

namespace Entry

variable {e : Entry} {env : AttachEnv} {decision : Decision}

private theorem supplies_link {recipe : Recipe} (hmatched : recipe.Matched) (e : Entry)
    (env : AttachEnv) : env.Supplies (e.link env recipe).2.2 := by
  unfold link
  split
  · next err env₁ hbuild =>
    obtain ⟨hbuilt, -⟩ := AttachEnv.supplies_build hmatched hbuild
    exact hbuilt.trans (env₁.supplies_reportFailure err)
  · next stub env₁ hbuild =>
    obtain ⟨hbuilt, hstub⟩ := AttachEnv.supplies_build hmatched hbuild
    have hinserted := AttachEnv.supplies_insert (hstub stub rfl) e.chain
    split
    · next err _ env₂ hinsert =>
      rw [hinsert] at hinserted
      exact (hbuilt.trans hinserted).trans (env₂.supplies_reportFailure err)
    · next hinsert =>
      rw [hinsert] at hinserted
      exact (hbuilt.trans hinserted).trans (.of_eq rfl rfl)

private theorem supplies_discard (e : Entry) (env : AttachEnv) : env.Supplies (e.discard env).2 :=
  (env.supplies_discardAll e.chain).trans (.of_eq rfl rfl)

theorem supplies_purge (e : Entry) (env : AttachEnv) : env.Supplies (e.purge env).2 := e.supplies_discard env

theorem supplies_unlinkSignature (e : Entry) (env : AttachEnv) (signature : Signature) :
    env.Supplies (e.unlinkSignature env signature).2.2 :=
  .of_eq (Chain.stubs_unlinkFrom rfl) rfl

private theorem supplies_transition (e : Entry) (env : AttachEnv) :
    env.Supplies (e.transition env).2 := by
  unfold transition
  split
  · exact .refl env
  · exact (supplies_discard _ env).trans (.of_eq rfl rfl)

private theorem supplies_tryAttach
    (hmatched : ∀ recipe, decision.recipe? = some recipe → recipe.Matched)
    (e : Entry) (env : AttachEnv) : env.Supplies (e.tryAttach env decision).2.2 := by
  unfold tryAttach
  split
  · exact .refl env
  · cases decision with
    | attach recipe => exact supplies_link (hmatched recipe rfl) _ env
    | _ => exact .of_eq rfl rfl

theorem supplies_attempt (hmatched : ∀ recipe, decision.recipe? = some recipe → recipe.Matched)
    (e : Entry) (env : AttachEnv) : env.Supplies (e.attempt env decision).2.2 :=
  (e.supplies_transition env).trans (supplies_tryAttach hmatched _ _)

theorem supplies_settle (hmatched : ∀ recipe, decision.recipe? = some recipe → recipe.Matched)
    (e : Entry) (env : AttachEnv) : env.Supplies (e.settle env decision).2 := by
  unfold settle
  split
  · next recipe hrecipe =>
    have hlinked := supplies_link (hmatched recipe (Option.filter_eq_some_iff.1 hrecipe).1) e env
    split
    · next e₁ env₁ hlink =>
      rw [hlink] at hlinked
      exact hlinked.trans (.of_eq rfl rfl)
    · next e₁ env₁ hlink =>
      rw [hlink] at hlinked
      exact hlinked
  · exact .refl env

end Entry

end InlineCache
