import InlineCache.Proofs.Bench.Guarded
import InlineCache.Proofs.UnitCache.Ordered

namespace InlineCache.Bench

variable {resets turns : Prop} {b b' : Bench} {cap : Nat}

private theorem Move.orderedAt (hl : b.cache.Linked) (hb : b.cache.Ordered cap b.heap)
    (hcap : b.runtime.config.maxObjectGuards = cap) (h : Move .recording resets turns b b') {p : Watch}
    (hp : p.Valid) : b'.cache.OrderedAt cap p := by
  have hold := hb.ordered p hp
  cases h with
  | @entry index e' env' hin hmove =>
    obtain ⟨hedit, hmonitor⟩ := hmove.editedTo (fun recipe ⟨_, _, hfits⟩ => Rules.recording.fits_kind hfits)
      hl.arena (hl.sound (UnitCache.chain?_main hin))
    exact (editedAt_main hin hedit hmonitor).orderedAt hl hold
      fun hplace => absurd hplace (p.place_ne_main index)
  | tally hin hchain _ hmonitor _ henv =>
    exact hold.of_eq (chain?_setEntry_of_same hin hchain hmonitor) henv.arena
  | count henv => exact hold.of_eq (fun _ => rfl) henv.arena
  | @monitor index m m' env' v _ hin hmonitor hedit hrecord =>
    refine (editedAt_monitor hin hmonitor hedit.chain).orderedAt hl hold fun hplace => ?_
    have hchain : b.cache.chain? p.place = some m.chain.chain := by
      rw [hplace, UnitCache.chain?_monitor hin, hmonitor]
      rfl
    exact Monitor.record_ordered hrecord hl.arena (hl.sound hchain) hcap (hold _ hchain)
  | @update group key t t' env' h' v accepted _ hfind hedit hrecord =>
    refine (editedAt_update hfind hedit.chain).orderedAt hl hold fun hplace => ?_
    have hchain : b.cache.chain? p.place = some t.chain := by
      rw [hplace]
      simp [UnitCache.chain?, hfind]
    have hpos : 0 < group := by
      rw [Watch.place_eq_update hplace] at hp
      exact hp
    exact TypeChain.recordWrite_ordered hrecord hl.arena (hl.sound hchain) hcap hpos (hb.group_le hfind)
      (hold _ hchain)
  | newUpdate _ hnone hcreate =>
    refine (editedAt_newUpdate hl.arena hnone hcreate).orderedAt hl hold fun _ => ?_
    obtain ⟨-, -, hids, -⟩ := TypeChain.create_spec hl.arena hcreate
    exact .of_stubIds_eq_nil cap hids
  | heap _ => exact hold
  | reset _ hin _ => exact hold.of_eq (chain?_setEntry_of_same hin rfl rfl) rfl

/-- Guards in order stay in order. -/
theorem Move.ordered (hl : b.cache.Linked) (hb : b.cache.Ordered cap b.heap)
    (hcap : b.runtime.config.maxObjectGuards = cap) (h : Move .recording resets turns b b') :
    b'.cache.Ordered cap b'.heap :=
  ⟨h.guarded hl hb.toGuarded, fun _ hp => h.orderedAt hl hb hcap hp⟩

end InlineCache.Bench
