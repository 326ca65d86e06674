import Mathlib.Algebra.Ring.Nat
import InlineCache.Proofs.Bench.Move
import InlineCache.Proofs.Entry.Counted

namespace InlineCache

namespace UnitCache

/-- How many stubs the entries of a unit count. -/
def stubCount (c : UnitCache) : Nat := (c.entries.toList.map (·.state.stubs.toNat)).sum

/-- Each entry counts its own stubs, and together they are the stubs that were attached and not
discarded again. -/
structure Counted (cap : Nat) (c : UnitCache) : Prop where
  entry : ∀ index, index < c.entries.size → (c.entry index).Counted cap c.arena
  total : c.stubCount + c.counters.stubsDiscarded = c.counters.stubsAttached

private theorem sum_map_set (f : Entry → Nat) (e : Entry) {l : List Entry} :
    ∀ {index : Nat} {old : Entry}, l[index]? = some old →
      ((l.set index e).map f).sum + f old = (l.map f).sum + f e := by
  induction l with
  | nil =>
    intro index old h
    cases h
  | cons x l ih =>
    intro index old h
    cases index with
    | zero =>
      cases h
      simp only [List.set_cons_zero, List.map_cons, List.sum_cons]
      omega
    | succ index =>
      have htail := @ih index old h
      simp only [List.set_cons_succ, List.map_cons, List.sum_cons]
      omega

private theorem stubCount_setEntry {c : UnitCache} {index : Nat} (hin : index < c.entries.size)
    (e : Entry) : (c.setEntry index e).stubCount + (c.entry index).state.stubs.toNat =
      c.stubCount + e.state.stubs.toNat := by
  have hold : c.entries.toList[index]? = some (c.entry index) := by simp [entry, hin]
  have hsum := sum_map_set (·.state.stubs.toNat) e hold
  simpa only [stubCount, setEntry, Array.toList_setIfInBounds] using hsum

theorem counted_create {unit : CodeUnit} {config : CacheConfig} {c : UnitCache} (cap : Nat)
    (h : create unit config = .ok c) : c.Counted cap := by
  obtain ⟨hentry, hcounters⟩ := create_entries h
  constructor
  · intro index hin
    obtain ⟨hstate, hnone⟩ := hentry index hin
    exact ⟨by rw [hstate, hnone]; rfl, by rw [hnone]; exact Nat.zero_le cap, fun _ => hnone⟩
  · have hzero : c.entries.toList.map (·.state.stubs.toNat) = c.entries.toList.map fun _ => 0 := by
      refine List.map_congr_left fun e he => ?_
      obtain ⟨index, hin, heq⟩ := List.getElem_of_mem he
      have hstate := (hentry index (by simpa using hin)).1
      rw [entry, Array.getElem?_eq_getElem (by simpa using hin), Option.getD_some] at hstate
      rw [← heq, Array.getElem_toList, hstate]
      rfl
    rw [stubCount, hzero, hcounters]
    simp [Counters.zero]

end UnitCache

namespace Bench

variable {R : Rules} {resets turns : Prop} {b b' : Bench} {cap : Nat}

/-- The counts after one entry changed, and perhaps one chain. -/
private theorem counted_setEntry (hcounted : b.cache.Counted cap) {index : Nat}
    (hin : index < b.cache.entries.size) {e' : Entry} {env' : AttachEnv}
    (hframe : ∀ other, other ≠ index → other < b.cache.entries.size →
      (b.cache.entry other).chain.stubIds env'.arena =
        (b.cache.entry other).chain.stubIds b.cache.arena)
    (hentry : e'.Counted cap env'.arena)
    (hbalance : e'.state.stubs.toNat + env'.counters.stubsDiscarded + b.cache.counters.stubsAttached =
      (b.cache.entry index).state.stubs.toNat + b.cache.counters.stubsDiscarded +
        env'.counters.stubsAttached) :
    (b.setEntry index e' env').cache.Counted cap where
  entry := by
    intro other hother
    have hother' : other < b.cache.entries.size := by simpa [setEntry, setEnv] using hother
    by_cases hne : other = index
    · subst hne
      have heq : (b.setEntry other e' env').cache.entry other = e' :=
        UnitCache.entry_setEntry_self (c := (b.setEnv env').cache) hin e'
      rw [heq]
      exact hentry
    · have heq : (b.setEntry index e' env').cache.entry other = b.cache.entry other :=
        UnitCache.entry_setEntry_of_ne (c := (b.setEnv env').cache) e' hne
      rw [heq]
      exact (hcounted.entry other hother').of_eq rfl (hframe other hne hother')
  total := by
    have hsum := UnitCache.stubCount_setEntry (c := (b.setEnv env').cache) hin e'
    have hold := hcounted.total
    change (b.setEntry index e' env').cache.stubCount + env'.counters.stubsDiscarded =
      env'.counters.stubsAttached
    change (b.setEntry index e' env').cache.stubCount + (b.cache.entry index).state.stubs.toNat =
      b.cache.stubCount + e'.state.stubs.toNat at hsum
    omega

/-- The counts after work on a chain that is no entry's. -/
private theorem counted_of_entries_eq (hl : b.cache.Linked) (hcounted : b.cache.Counted cap)
    {p : ChainPlace} {chain : Chain} (hedit : b.cache.EditedAt p b'.cache chain)
    (hp : ∀ index, p ≠ .main index) (hentries : b'.cache.entries = b.cache.entries)
    (htally : b.env.SameTally b'.env) : b'.cache.Counted cap where
  entry := by
    intro index hin
    have heq : b'.cache.entry index = b.cache.entry index := by
      rw [UnitCache.entry, UnitCache.entry, hentries]
    rw [hentries] at hin
    rw [heq]
    exact (hcounted.entry index hin).of_eq rfl
      (hedit.stubIds_eq hl (hp index).symm (UnitCache.chain?_main hin))
  total := by
    have hattached : b'.cache.counters.stubsAttached = b.cache.counters.stubsAttached :=
      htally.attached
    have hdiscarded : b'.cache.counters.stubsDiscarded = b.cache.counters.stubsDiscarded :=
      htally.discarded
    rw [UnitCache.stubCount, hentries, hattached, hdiscarded]
    exact hcounted.total

private theorem Move.counted (hl : b.cache.Linked) (hcap : b.runtime.config.maxStubs ≤ 255)
    (hcounted : b.cache.Counted b.runtime.config.maxStubs) (h : Move R resets turns b b') :
    b'.cache.Counted b'.runtime.config.maxStubs := by
  have hconfig : b'.runtime.config = b.runtime.config := h.follows.config
  rw [hconfig]
  cases h with
  | @entry index e' env' hin hmove =>
    have hkind : ∀ recipe, (∃ op, (b.cache.site index).role = .operation op ∧
        R.fits b.heap op recipe) → recipe.kind.isFallback = false :=
      fun recipe ⟨_, _, hfits⟩ => R.fits_kind hfits
    have hsound := hl.sound (UnitCache.chain?_main hin)
    obtain ⟨hedit, hmonitor⟩ := hmove.editedTo hkind hl.arena hsound
    obtain ⟨hentry, hbalance⟩ := hmove.counted hkind hl.arena hsound hcap (hcounted.entry index hin)
    rw [hmove.follows.config] at hentry
    refine counted_setEntry hcounted hin (fun other hne hother => ?_) hentry hbalance
    exact (editedAt_main hin hedit hmonitor).stubIds_eq hl (q := .main other) (by simpa using hne)
      (UnitCache.chain?_main hother)
  | @tally index e' env' hin hchain hstate _ _ henv =>
    refine counted_setEntry hcounted hin (fun other _ _ => by rw [henv.arena]; rfl) ?_ ?_
    · exact (hcounted.entry index hin).of_eq hstate (by rw [hchain, henv.arena]; rfl)
    · rw [hstate, henv.attached, henv.discarded]
      rfl
  | @count env' henv =>
    refine ⟨fun index hin => ?_, ?_⟩
    · exact (hcounted.entry index hin).of_eq rfl (congrArg _ henv.arena)
    · change b.cache.stubCount + env'.counters.stubsDiscarded = env'.counters.stubsAttached
      rw [henv.attached, henv.discarded]
      exact hcounted.total
  | @monitor index m m' env' _ _ hin hold hedit _ =>
    have hplace := editedAt_monitor hin hold hedit.chain
    have hframe (other : Nat) (hother : other < b.cache.entries.size) :
        (b.cache.entry other).chain.stubIds env'.arena =
          (b.cache.entry other).chain.stubIds b.cache.arena :=
      hplace.stubIds_eq hl (q := .main other) (by simp) (UnitCache.chain?_main hother)
    refine counted_setEntry hcounted hin (fun other _ hother => hframe other hother) ?_ ?_
    · exact (hcounted.entry index hin).of_eq rfl (hframe index hin)
    · rw [hedit.tally.attached, hedit.tally.discarded]
      rfl
  | update _ hold hedit _ =>
    exact counted_of_entries_eq hl hcounted (editedAt_update hold hedit.chain) (by simp) rfl hedit.tally
  | newUpdate _ hnone hcreate =>
    exact counted_of_entries_eq hl hcounted (editedAt_newUpdate hl.arena hnone hcreate) (by simp) rfl
      ⟨.of_runtime rfl rfl, rfl, rfl⟩
  | heap _ => exact hcounted
  | @reset index _ hin hnone =>
    have hold := (hcounted.entry index hin).stubs_eq
    rw [hnone] at hold
    refine counted_setEntry hcounted hin (fun _ _ _ => rfl) ⟨?_, ?_, fun _ => hnone⟩ ?_
    · exact (congrArg List.length hnone).symm
    · exact Nat.le_trans (Nat.le_of_eq (congrArg List.length hnone)) (Nat.zero_le _)
    · rw [hold]
      rfl

theorem Moves.counted (hl : b.cache.Linked) (hcap : b.runtime.config.maxStubs ≤ 255)
    (hcounted : b.cache.Counted b.runtime.config.maxStubs) (h : Moves R resets turns b b') :
    b'.cache.Counted b'.runtime.config.maxStubs ∧ b'.runtime.config = b.runtime.config := by
  induction h with
  | refl => exact ⟨hcounted, rfl⟩
  | tail hmoves hmove ih =>
    obtain ⟨hcounted', hconfig⟩ := ih
    refine ⟨hmove.counted (hmoves.linked hl).1 (by rw [hconfig]; exact hcap) hcounted', ?_⟩
    exact hmove.follows.config.trans hconfig

/-- Only starting anew takes an entry back. -/
theorem Move.rank_le (hresets : ¬ resets) (h : Move R resets turns b b') {index : Nat}
    (hin : index < b.cache.entries.size) :
    (b.cache.entry index).state.mode.rank ≤ (b'.cache.entry index).state.mode.rank := by
  have hset {i : Nat} {e' : Entry} {env' : AttachEnv} (hi : i < b.cache.entries.size)
      (hle : (b.cache.entry i).state.mode.rank ≤ e'.state.mode.rank) :
      (b.cache.entry index).state.mode.rank ≤
        ((b.setEntry i e' env').cache.entry index).state.mode.rank := by
    by_cases hne : index = i
    · subst hne
      have heq : (b.setEntry index e' env').cache.entry index = e' :=
        UnitCache.entry_setEntry_self (c := (b.setEnv env').cache) hin e'
      rw [heq]
      exact hle
    · have heq : (b.setEntry i e' env').cache.entry index = b.cache.entry index :=
        UnitCache.entry_setEntry_of_ne (c := (b.setEnv env').cache) e' hne
      exact Nat.le_of_eq (by rw [heq])
  cases h with
  | entry hi hmove => exact hset hi hmove.rank_le
  | tally hi _ hstate _ _ _ => exact hset hi (Nat.le_of_eq (by rw [hstate]))
  | monitor _ hi _ _ _ => exact hset hi (Nat.le_refl _)
  | reset hr _ _ => exact absurd hr hresets
  | _ => exact Nat.le_refl _

theorem Moves.rank_le (hresets : ¬ resets) (h : Moves R resets turns b b') {index : Nat}
    (hin : index < b.cache.entries.size) :
    (b.cache.entry index).state.mode.rank ≤ (b'.cache.entry index).state.mode.rank := by
  have hsize : ∀ {b' : Bench}, Moves R resets turns b b' →
      b'.cache.entries.size = b.cache.entries.size := by
    intro b' h
    induction h with
    | refl => rfl
    | tail _ hmove ih => rw [hmove.same.2.2, ih]
  induction h with
  | refl => exact Nat.le_refl _
  | tail hmoves hmove ih =>
    exact Nat.le_trans ih (hmove.rank_le hresets (by rw [hsize hmoves]; exact hin))

end Bench

end InlineCache
