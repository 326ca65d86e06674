import InlineCache.Proofs.Bench.Move

namespace InlineCache

namespace UnitCache

/-- `c'` is what became of `c` by work on the chains at some places, and on what belongs to them. To the
type guards over the results of an entry belongs all of the entry but its stubs and how far it is
specialized. What is left alone does not show in the chains themselves, since they share an arena: a
chain that nothing was done to has to lead through the same stubs afterwards. -/
structure Confined (touched : ChainPlace → Prop) (c c' : UnitCache) : Prop where
  chain?_eq : ∀ {p : ChainPlace}, ¬ touched p → c'.chain? p = c.chain? p
  stubIds_eq : ∀ {p : ChainPlace} {chain : Chain}, ¬ touched p → c.chain? p = some chain →
    chain.stubIds c'.arena = chain.stubIds c.arena
  stubs_eq : ∀ {p : ChainPlace} {chain : Chain}, ¬ touched p → c.chain? p = some chain →
    chain.stubs c'.arena = chain.stubs c.arena
  state_eq : ∀ {index : Nat}, ¬ touched (.main index) → (c'.entry index).state = (c.entry index).state
  entry_eq : ∀ {index : Nat}, ¬ touched (.main index) → ¬ touched (.monitor index) →
    c'.entry index = c.entry index
  update_eq : ∀ {group : GroupId} {key : PropertyKey}, ¬ touched (.update group key) →
    c'.updates.find? (group, key) = c.updates.find? (group, key)

variable {touched touched' : ChainPlace → Prop} {c c' c'' : UnitCache}

theorem Confined.refl (touched : ChainPlace → Prop) (c : UnitCache) : c.Confined touched c :=
  ⟨fun _ => rfl, fun _ _ => rfl, fun _ _ => rfl, fun _ => rfl, fun _ _ => rfl, fun _ => rfl⟩

theorem Confined.trans (h : c.Confined touched c') (h' : c'.Confined touched c'') :
    c.Confined touched c'' where
  chain?_eq hp := (h'.chain?_eq hp).trans (h.chain?_eq hp)
  stubIds_eq hp hchain :=
    (h'.stubIds_eq hp ((h.chain?_eq hp).trans hchain)).trans (h.stubIds_eq hp hchain)
  stubs_eq hp hchain := (h'.stubs_eq hp ((h.chain?_eq hp).trans hchain)).trans (h.stubs_eq hp hchain)
  state_eq hp := (h'.state_eq hp).trans (h.state_eq hp)
  entry_eq hp hq := (h'.entry_eq hp hq).trans (h.entry_eq hp hq)
  update_eq hp := (h'.update_eq hp).trans (h.update_eq hp)

theorem Confined.mono (h : c.Confined touched c') (htouched : ∀ p, touched p → touched' p) :
    c.Confined touched' c' where
  chain?_eq hp := h.chain?_eq (hp ∘ htouched _)
  stubIds_eq hp := h.stubIds_eq (hp ∘ htouched _)
  stubs_eq hp := h.stubs_eq (hp ∘ htouched _)
  state_eq hp := h.state_eq (hp ∘ htouched _)
  entry_eq hp hq := h.entry_eq (hp ∘ htouched _) (hq ∘ htouched _)
  update_eq hp := h.update_eq (hp ∘ htouched _)

/-- The stubs of an entry are the same when nothing was done to them. -/
theorem Confined.main_eq (h : c.Confined touched c') {index : Nat} (hmain : ¬ touched (.main index))
    (hin : index < c.entries.size) (hin' : index < c'.entries.size) :
    (c'.entry index).chain = (c.entry index).chain ∧
      (c'.entry index).chain.stubIds c'.arena = (c.entry index).chain.stubIds c.arena ∧
      (c'.entry index).chain.stubs c'.arena = (c.entry index).chain.stubs c.arena := by
  have hchain := h.chain?_eq hmain
  rw [chain?_main hin, chain?_main hin', Option.some_inj] at hchain
  rw [hchain]
  exact ⟨rfl, h.stubIds_eq hmain (chain?_main hin), h.stubs_eq hmain (chain?_main hin)⟩

/-- Work on the chain at one place is confined to it, as far as the chains go. -/
theorem EditedAt.confined {p : ChainPlace} {chain : Chain} (hc : c.Linked) (h : c.EditedAt p c' chain)
    (hstate : ∀ index, p ≠ .main index → (c'.entry index).state = (c.entry index).state)
    (hentry : ∀ index, p ≠ .main index → p ≠ .monitor index → c'.entry index = c.entry index)
    (hupdate : ∀ group key, p ≠ .update group key →
      c'.updates.find? (group, key) = c.updates.find? (group, key)) : c.Confined (· = p) c' where
  chain?_eq hq := h.others _ hq
  stubIds_eq hq hchain := h.stubIds_eq hc hq hchain
  stubs_eq hq hchain := h.stubs_eq hc hq hchain
  state_eq hmain := hstate _ (Ne.symm hmain)
  entry_eq hmain hmonitor := hentry _ (Ne.symm hmain) (Ne.symm hmonitor)
  update_eq hplace := hupdate _ _ (Ne.symm hplace)

end UnitCache

namespace Bench

variable {b : Bench} {index : Nat} {e' : Entry} {env' : AttachEnv}

private theorem entry_setEntry_of_ne {other : Nat} (hne : other ≠ index) :
    (b.setEntry index e' env').cache.entry other = b.cache.entry other :=
  UnitCache.entry_setEntry_of_ne (c := (b.setEnv env').cache) e' hne

/-- Work on the stubs of an entry. -/
theorem confined_main (hb : b.cache.Linked) (hin : index < b.cache.entries.size)
    (hedit : (b.cache.entry index).chain.EditedTo b.cache.arena e'.chain env'.arena)
    (hmonitor : e'.monitor = (b.cache.entry index).monitor) :
    b.cache.Confined (· = .main index) (b.setEntry index e' env').cache := by
  refine (editedAt_main hin hedit hmonitor).confined hb (fun other hne => ?_) (fun other hne _ => ?_)
    fun _ _ _ => rfl
  · rw [entry_setEntry_of_ne fun heq => hne (by rw [heq])]
  · rw [entry_setEntry_of_ne fun heq => hne (by rw [heq])]

/-- Work on the type guards over the results of an entry. -/
theorem confined_monitor (hb : b.cache.Linked) (hin : index < b.cache.entries.size) {m m' : Monitor}
    (hold : (b.cache.entry index).monitor = some m)
    (hedit : m.chain.chain.EditedTo b.cache.arena m'.chain.chain env'.arena) :
    b.cache.Confined (· = .monitor index)
      (b.setEntry index { b.cache.entry index with monitor := some m' } env').cache := by
  have hstate : Entry.state { b.cache.entry index with monitor := some m' } = (b.cache.entry index).state := rfl
  refine (editedAt_monitor hin hold hedit).confined hb (fun other _ => ?_) (fun other _ hne => ?_)
    fun _ _ _ => rfl
  · exact entry_setEntry_congr Entry.state hin hstate other
  · rw [entry_setEntry_of_ne fun heq => hne (by rw [heq])]

/-- What is noted at an entry changes neither its chains nor how far it is specialized. -/
theorem confined_tally (hin : index < b.cache.entries.size)
    (hchain : e'.chain = (b.cache.entry index).chain) (hstate : e'.state = (b.cache.entry index).state)
    (hmonitor : e'.monitor = (b.cache.entry index).monitor) (harena : env'.arena = b.cache.arena) :
    b.cache.Confined (· = .monitor index) (b.setEntry index e' env').cache where
  chain?_eq _ := chain?_setEntry_of_same hin hchain hmonitor _
  stubIds_eq {_ chain} _ _ := congrArg chain.stubIds harena
  stubs_eq {_ chain} _ _ := congrArg chain.stubs harena
  state_eq _ := entry_setEntry_congr Entry.state hin hstate _
  entry_eq _ hne := entry_setEntry_of_ne fun heq => hne (by rw [heq])
  update_eq _ := rfl

/-- What is counted for the unit is no matter of any chain. -/
theorem confined_count (harena : env'.arena = b.cache.arena) :
    b.cache.Confined (fun _ => False) (b.setEnv env').cache where
  chain?_eq _ := rfl
  stubIds_eq {_ chain} _ _ := congrArg chain.stubIds harena
  stubs_eq {_ chain} _ _ := congrArg chain.stubs harena
  state_eq _ := rfl
  entry_eq _ _ := rfl
  update_eq _ := rfl

/-- Work on the type guards over the writes to a property, which may be new. -/
theorem confined_update (hb : b.cache.Linked) {group : GroupId} {key : PropertyKey} {t' : TypeChain}
    (hedit : b.cache.EditedAt (.update group key) (b.setUpdate group key t' env').cache t'.chain) :
    b.cache.Confined (· = .update group key) (b.setUpdate group key t' env').cache := by
  refine hedit.confined hb (fun _ _ => rfl) (fun _ _ _ => rfl) fun group' key' hne => ?_
  exact Assoc.find?_set_of_ne _ _ fun heq => hne (by cases heq; rfl)

end Bench

end InlineCache
