import InlineCache.Proofs.Bench.Move
import InlineCache.Proofs.UnitCache.Reports

namespace InlineCache

/-- The stubs of an entry are no type guards, and none makes way for another. -/
theorem Entry.Move.turnover {recipes : Recipe → Prop} {e e' : Entry} {env env' : AttachEnv}
    (hkind : ∀ recipe, recipes recipe → recipe.kind.isFallback = false)
    (hguard : ∀ recipe, recipes recipe → recipe.kind.typeGuard? = none)
    (hw : env.arena.WellLinked) (hs : e.chain.Sound env.arena) (h : Move recipes e env e' env') :
    Turnover env env' (e.chain.held env.arena) (e'.chain.held env'.arena) := by
  obtain ⟨hedit, -⟩ := h.editedTo hkind hw hs
  have hend := hedit.stub_fallback hw hs
  have hheld := Chain.held_eq hw hs
  have hheld' := Chain.held_eq hedit.arena.wellLinked hedit.sound
  cases h with
  | note _ _ henv => exact .of_eq _ _ (by rw [henv.arena])
  | start _ => exact .of_eq _ _ rfl
  | giveUp _ _ _ => exact .of_eq _ _ rfl
  | @link _ recipe code id chain hcan hrecipe hcode hinsert _ _ _ =>
    have hfallback : (recipe.toStub code).isFallback = false := hkind recipe hrecipe
    refine .of_cons (s := recipe.toStub code)
      (Stub.coded_of_typeGuard?_eq_none (hguard recipe hrecipe)) ?_
    rw [hheld, hheld', hend, Chain.stubs_insert hw hs hfallback hinsert, List.cons_append]
  | @remove _ p removed chain zone hunlink _ _ _ hzone =>
    obtain ⟨-, hmarked⟩ := Chain.unlinkMatching_barrier hunlink
    rw [hheld, hheld', hend, Chain.stubs_unlinkMatching hw hs hunlink]
    refine ⟨fun s hs => .inl ?_, fun s hs => ?_⟩
    · exact (List.mem_append.1 hs).elim (fun hs => List.mem_append_left _ (List.mem_filter.1 hs).1)
        (List.mem_append_right _)
    · rcases List.mem_append.1 hs with hs | hs
      · cases hp : p s with
        | true =>
          obtain ⟨x, hx, rfl⟩ := List.mem_map.1 hs
          rw [hzone]
          exact .inr (.inl fun hmarking => hmarked hmarking x hx hp)
        | false => exact .inl (List.mem_append_left _ (List.mem_filter.2 ⟨hs, by simp [hp]⟩))
      · exact .inl (List.mem_append_right _ hs)

namespace Bench

variable {resets turns cleared : Prop} {b b' : Bench}

/-- Work on one chain turns over its own stubs only. -/
theorem turnover_of_editedAt (b' : Bench) {p : ChainPlace} {chain : Chain} (hl : b.cache.Linked)
    (hedit : b.cache.EditedAt p b'.cache chain)
    (h : Turnover b.env b'.env (b.cache.held p) (chain.held b'.cache.arena)) (q : ChainPlace) :
    Turnover b.env b'.env (b.cache.held q) (b'.cache.held q) := by
  by_cases hq : q = p
  · subst hq
    rw [UnitCache.held_of_chain? hedit.here]
    exact h
  · exact .of_eq _ _ (hedit.held_eq hl hq)

private theorem Move.turnover (hl : b.cache.Linked) (h : Move .open resets turns b b')
    (p : ChainPlace) : Turnover b.env b'.env (b.cache.held p) (b'.cache.held p) := by
  cases h with
  | @entry index e' env' hin hmove =>
    have hkind : ∀ recipe, (∃ op, (b.cache.site index).role = .operation op ∧
        Rules.open.fits b.heap op recipe) → recipe.kind.isFallback = false :=
      fun recipe ⟨_, _, hfits⟩ => Rules.open.fits_kind hfits
    have hsound := hl.sound (UnitCache.chain?_main hin)
    obtain ⟨hedit, hmonitor⟩ := hmove.editedTo hkind hl.arena hsound
    refine turnover_of_editedAt _ hl (editedAt_main hin hedit hmonitor) ?_ p
    rw [UnitCache.held_of_chain? (UnitCache.chain?_main hin)]
    refine hmove.turnover hkind (fun recipe ⟨_, _, flavor, hfits⟩ => ?_) hl.arena hsound
    rw [hfits]
    rfl
  | tally hin hchain _ hmonitor _ henv =>
    exact .of_eq _ _ (UnitCache.held_of_eq (chain?_setEntry_of_same hin hchain hmonitor) henv.arena p)
  | @count env' henv =>
    have hsame : ∀ q, (b.setEnv env').cache.chain? q = b.cache.chain? q := fun _ => rfl
    exact .of_eq _ _ (UnitCache.held_of_eq hsame henv.arena p)
  | @monitor index m m' env' v _ hin hold hedit hrecord =>
    have hchain : b.cache.chain? (.monitor index) = some m.chain.chain := by
      rw [UnitCache.chain?_monitor hin, hold]
      rfl
    refine turnover_of_editedAt _ hl (editedAt_monitor hin hold hedit.chain) ?_ p
    rw [UnitCache.held_of_chain? hchain]
    exact Monitor.record_turnover hrecord hl.arena (hl.sound hchain)
  | @update group key t t' env' h' v accepted _ hold hedit hrecord =>
    have hchain : b.cache.chain? (.update group key) = some t.chain := by
      simp [UnitCache.chain?, hold]
    have hat := editedAt_update hold hedit.chain
    refine turnover_of_editedAt { b.setUpdate group key t' env' with heap := h' } hl hat ?_ p
    rw [UnitCache.held_of_chain? hchain]
    exact TypeChain.recordWrite_turnover hrecord hl.arena (hl.sound hchain)
  | @newUpdate group key t a _ hnone hcreate =>
    have hat : b.cache.EditedAt (.update group key)
        (b.setUpdate group key t { b.env with arena := a }).cache t.chain :=
      editedAt_newUpdate hl.arena hnone hcreate
    obtain ⟨-, -, hids, -, -⟩ := TypeChain.create_spec hl.arena hcreate
    refine turnover_of_editedAt _ hl hat ⟨fun s hs => .inr ?_, fun s hs => ?_⟩ p
    · rw [← UnitCache.held_of_chain? hat.here] at hs
      refine UnitCache.coded_of_stubIds_eq_nil (hl.edited hat) False _ (fun chain hchain => ?_) s hs
      rw [hat.here] at hchain
      cases hchain
      exact hids
    · rw [UnitCache.held_of_none (by simp [UnitCache.chain?, hnone])] at hs
      cases hs
  | heap _ => exact .of_eq _ _ rfl
  | @reset index _ hin _ =>
    have hsame : ∀ q, (b.setEntry index { b.cache.entry index with state := .initial }
        b.env).cache.chain? q = b.cache.chain? q := chain?_setEntry_of_same hin rfl rfl
    exact .of_eq _ _ (UnitCache.held_of_eq hsame rfl p)

private theorem Move.keyed (hb : b.cache.updates.Keyed) {R : Rules} (h : Move R resets turns b b') :
    b'.cache.updates.Keyed := by
  cases h with
  | update _ _ _ _ => exact hb.set _ _
  | newUpdate _ _ _ => exact hb.set _ _
  | _ => exact hb

/-- What work on caches makes of them, for the collector. -/
structure Spares (cleared : Prop) (b b' : Bench) : Prop where
  follows : b.env.Follows b'.env
  compiled : b.cache.Compiled cleared b.runtime.codeCache →
    b'.cache.Compiled cleared b'.runtime.codeCache
  keptAlive : b.cache.Compiled cleared b.runtime.codeCache → b.runtime.zone.marking = true →
    ∀ (p : ChainPlace) (e : Edge), KeptAlive cleared (b.cache.held p) b.runtime.zone e →
      KeptAlive cleared (b'.cache.held p) b'.runtime.zone e

theorem Spares.refl (cleared : Prop) (b : Bench) : b.Spares cleared b :=
  ⟨.refl _, id, fun _ _ _ _ he => he⟩

theorem Spares.trans {b'' : Bench} (h : b.Spares cleared b') (h' : b'.Spares cleared b'') :
    b.Spares cleared b'' where
  follows := h.follows.trans h'.follows
  compiled hb := h'.compiled (h.compiled hb)
  keptAlive hb hmarking p e he :=
    h'.keptAlive (h.compiled hb) (h.follows.zone.marking.trans hmarking) p e
      (h.keptAlive hb hmarking p e he)

private theorem Move.spares (hl : b.cache.Linked) (h : Move .open resets turns b b') :
    b.Spares cleared b' where
  follows := h.follows
  compiled hb := ⟨h.keyed hb.keyed, fun p => (h.turnover hl p).coded h.follows (hb.coded p)⟩
  keptAlive hb hmarking p _ he := (h.turnover hl p).keptAlive h.follows hmarking (hb.coded p) he

theorem Moves.spares (cleared : Prop) (hl : b.cache.Linked) (h : Moves .open resets turns b b') :
    b.Spares cleared b' :=
  h.rel (Spares.refl cleared) .trans (fun hl h => h.spares hl) hl

end Bench

end InlineCache
