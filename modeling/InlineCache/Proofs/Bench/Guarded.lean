import InlineCache.Proofs.Bench.Fitted
import InlineCache.Proofs.Stub.Recording
import InlineCache.Proofs.UnitCache.Guards

namespace InlineCache.Bench

/-- What a move comes to for the guards that watch something: nothing, or they are shown a value. -/
inductive Shown (R : Rules) (b b' : Bench) : Watch → Prop where
  | same {p : Watch} (hguards : b'.cache.guards p = b.cache.guards p)
      (hmonitor : ∀ index, p = .result index →
        (b'.cache.entry index).monitor = (b.cache.entry index).monitor) : Shown R b b' p
  | result {index : Nat} {m m' : Monitor} {env' : AttachEnv} {v : Value}
      (hshows : R.shows (.result index))
      (hsound : m.chain.chain.Sound b.cache.arena) (hrecord : m.record b.heap b.env v = (m', env'))
      (hheap : b'.heap = b.heap) (hguards : b.cache.guards (.result index) = m.chain.guards b.cache.arena)
      (hguards' : b'.cache.guards (.result index) = m'.chain.guards env'.arena)
      (htypes : ∀ h, b.cache.types h (.result index) = m.types)
      (htypes' : ∀ h, b'.cache.types h (.result index) = m'.types) : Shown R b b' (.result index)
  | write {group : GroupId} {key : PropertyKey} {t t' : TypeChain} {env' : AttachEnv} {v : Value}
      {accepted : Bool} (hshows : R.shows (.write group key)) (hsound : t.chain.Sound b.cache.arena)
      (hrecord : t.recordWrite b.heap b.env group key v = (accepted, t', b'.heap, env'))
      (hfind : b.cache.updates.find? (group, key) = some t)
      (hguards' : b'.cache.guards (.write group key) = t'.guards env'.arena) :
      Shown R b b' (.write group key)

variable {R : Rules} {resets turns : Prop} {b b' : Bench}

private theorem Move.shown (hl : b.cache.Linked) (h : Move R resets turns b b') (p : Watch) :
    Shown R b b' p := by
  cases h with
  | @entry index e' env' hin hmove =>
    obtain ⟨hedit, hmonitor⟩ := hmove.editedTo (fun recipe ⟨_, _, hfits⟩ => R.fits_kind hfits)
      hl.arena (hl.sound (UnitCache.chain?_main hin))
    exact .same ((editedAt_main hin hedit hmonitor).guards_eq hl (p.place_ne_main index))
      fun other _ => entry_setEntry_congr Entry.monitor hin hmonitor other
  | tally hin hchain _ hmonitor _ henv =>
    exact .same (UnitCache.guards_of_eq (chain?_setEntry_of_same hin hchain hmonitor) henv.arena p)
      fun other _ => entry_setEntry_congr Entry.monitor hin hmonitor other
  | @count env' henv =>
    have hsame : ∀ q, (b.setEnv env').cache.chain? q = b.cache.chain? q := fun _ => rfl
    exact .same (UnitCache.guards_of_eq hsame henv.arena p) fun _ _ => rfl
  | @monitor index m m' env' v hshows hin hold hedit hrecord =>
    by_cases hp : p = .result index
    · subst hp
      have hentry := UnitCache.entry_setEntry_self (c := (b.setEnv env').cache) hin
        { b.cache.entry index with monitor := some m' }
      have hnew : ((b.setEntry index { b.cache.entry index with monitor := some m' } env').cache.entry
          index).monitor = some m' := congrArg Entry.monitor hentry
      have hin' : index < (b.setEntry index
          { b.cache.entry index with monitor := some m' } env').cache.entries.size := by
        simpa [setEntry, setEnv] using hin
      have hsound := hl.sound (p := .monitor index) (by rw [UnitCache.chain?_monitor hin, hold]; rfl)
      exact .result hshows hsound hrecord rfl (UnitCache.guards_result hold hin)
        (UnitCache.guards_result hnew hin')
        (fun _ => UnitCache.types_result hold) fun _ => UnitCache.types_result hnew
    · refine .same ((editedAt_monitor hin hold hedit.chain).guards_eq hl
        (mt Watch.place_eq_monitor hp)) fun other hother => ?_
      have hne : other ≠ index := fun heq => hp (by rw [hother, heq])
      exact congrArg Entry.monitor
        (UnitCache.entry_setEntry_of_ne (c := (b.setEnv env').cache) _ hne)
  | @update group key t t' env' h' v accepted hshows hold hedit hrecord =>
    by_cases hp : p = .write group key
    · subst hp
      have hnew : (b.setUpdate group key t' env').cache.updates.find? (group, key) = some t' := by
        simp [setUpdate]
      exact .write hshows (hl.sound (p := .update group key) (by simp [UnitCache.chain?, hold])) hrecord
        hold (UnitCache.guards_write hnew)
    · exact .same ((editedAt_update hold hedit.chain).guards_eq hl (mt Watch.place_eq_update hp))
        fun _ _ => rfl
  | @newUpdate group key t a hwrites hnone hcreate =>
    refine .same ?_ fun _ _ => rfl
    by_cases hp : p = .write group key
    · subst hp
      obtain ⟨-, -, hids, -⟩ := TypeChain.create_spec hl.arena hcreate
      have hnew : (b.setUpdate group key t { b.env with arena := a }).cache.updates.find? (group, key) =
          some t := by simp [setUpdate]
      rw [UnitCache.guards_write hnew,
        UnitCache.guards_of_none (by simp [Watch.place, UnitCache.chain?, hnone])]
      exact Chain.guards_of_stubIds_eq_nil hids
    · exact (editedAt_newUpdate hl.arena hnone hcreate).guards_eq hl (mt Watch.place_eq_update hp)
  | heap _ => exact .same rfl fun _ _ => rfl
  | @reset index _ hin _ =>
    have hchain : ({ b.cache.entry index with state := .initial } : Entry).chain =
        (b.cache.entry index).chain := rfl
    have hmonitor : ({ b.cache.entry index with state := .initial } : Entry).monitor =
        (b.cache.entry index).monitor := rfl
    refine .same ?_ fun other _ => entry_setEntry_congr Entry.monitor hin hmonitor other
    exact UnitCache.guards_of_eq (chain?_setEntry_of_same hin hchain hmonitor) rfl p

/-- Guards only widen. -/
theorem Move.widens_guards (hl : b.cache.Linked) (h : Move R resets turns b b') (p : Watch) :
    (b.cache.guards p).Widens (b'.cache.guards p) := by
  cases h.shown hl p with
  | same hguards _ =>
    rw [hguards]
    exact .refl _
  | result _ hsound hrecord _ hguards hguards' _ _ =>
    rw [hguards, hguards']
    exact (Monitor.record_widened hrecord hl.arena hsound).1
  | write _ hsound hrecord hfind hguards' =>
    rw [UnitCache.guards_write hfind, hguards']
    exact (TypeChain.recordWrite_widened hrecord hl.arena hsound).1

/-- Guards that nothing is shown to stay as they are. -/
theorem Move.guards_eq (hl : b.cache.Linked) (h : Move R resets turns b b') {p : Watch}
    (hp : ¬ R.shows p) : b'.cache.guards p = b.cache.guards p := by
  cases h.shown hl p with
  | same hguards _ => exact hguards
  | result hshows _ _ _ _ _ _ _ => exact absurd hshows hp
  | write hshows _ _ _ _ => exact absurd hshows hp

/-- The entries that are watched go on to be. -/
theorem Move.isSome_monitor (h : Move R resets turns b b') (index : Nat) :
    (b'.cache.entry index).monitor.isSome = (b.cache.entry index).monitor.isSome := by
  have hset {other : Nat} {e' : Entry} {env' : AttachEnv} (hin : other < b.cache.entries.size)
      (hsome : e'.monitor.isSome = (b.cache.entry other).monitor.isSome) :
      ((b.setEntry other e' env').cache.entry index).monitor.isSome =
        (b.cache.entry index).monitor.isSome :=
    entry_setEntry_congr (·.monitor.isSome) hin hsome index
  cases h with
  | entry hin hmove => exact hset hin (by cases hmove <;> rfl)
  | tally hin _ _ hmonitor _ _ => exact hset hin (by rw [hmonitor])
  | monitor _ hin hold _ _ => exact hset hin (by rw [hold]; rfl)
  | reset _ hin _ => exact hset hin rfl
  | _ => rfl

/-- What all work on caches keeps: guards only widen, entries go on to be watched, and failures are not
forgotten. -/
structure Widens (b b' : Bench) : Prop where
  guards : ∀ p, GuardList.Widens (b.cache.guards p) (b'.cache.guards p)
  monitor : ∀ index, (b'.cache.entry index).monitor.isSome = (b.cache.entry index).monitor.isSome
  failures : b.env.failures ≤ b'.env.failures

theorem Widens.refl (b : Bench) : b.Widens b := ⟨fun _ => .refl _, fun _ => rfl, Int.le_refl _⟩

theorem Widens.trans {b'' : Bench} (h : b.Widens b') (h' : b'.Widens b'') : b.Widens b'' :=
  ⟨fun p => (h.guards p).trans (h'.guards p), fun index => (h'.monitor index).trans (h.monitor index),
    Int.le_trans h.failures h'.failures⟩

private theorem Move.widens (hl : b.cache.Linked) (h : Move R resets turns b b') : b.Widens b' :=
  ⟨h.widens_guards hl, h.isSome_monitor, h.follows.failures⟩

theorem Moves.widens (hl : b.cache.Linked) (h : Moves R resets turns b b') : b.Widens b' :=
  h.rel .refl .trans (fun hl h => h.widens hl) hl

theorem Moves.guards_eq (hl : b.cache.Linked) (h : Moves R resets turns b b') {p : Watch}
    (hp : ¬ R.shows p) : b'.cache.guards p = b.cache.guards p :=
  h.rel (K := fun b b' => b'.cache.guards p = b.cache.guards p) (fun _ => rfl)
    (fun h h' => h'.trans h) (fun hl h => h.guards_eq hl hp) hl

theorem Move.watched {classed : Prop} (hl : b.cache.Linked) (hb : b.cache.Watched)
    (h : Move (.fitting classed) resets turns b b') : b'.cache.Watched where
  one p := (h.widens_guards hl p (hb.one p)).1
  monitored index hin := by
    rw [h.same.2.2] at hin
    rw [h.isSome_monitor, h.site_eq, hb.monitored index hin]
  flavored index hin stub hmem := by
    rw [h.same.2.2] at hin
    rw [h.site_eq]
    rcases h.stubs_cases hl hin hmem with hold | ⟨op, recipe, code, hrole, ⟨-, hkind⟩, rfl, -⟩
    · exact hb.flavored index hin stub hold
    · exact ⟨op, hrole, by rw [Recipe.toStub, hkind]; rfl⟩

/-- What the rules ask of the heap, recording a write keeps as well. -/
theorem Move.records (hl : b.cache.Linked) (h : Move .recording resets turns b b') :
    b.heap.Records b'.heap := by
  cases h with
  | heap hallows => exact hallows.2
  | @update group key t _ _ _ _ _ _ hold _ hrecord =>
    have hsound : t.chain.Sound b.cache.arena :=
      hl.sound (p := .update group key) (by simp [UnitCache.chain?, hold])
    exact (TypeChain.recordWrite_widened hrecord hl.arena hsound).2.1
  | _ => exact .refl b.heap

/-- The guards stay within the types that are known, where a chain is made only for groups that are
there. -/
theorem Move.guarded (hl : b.cache.Linked) (hb : b.cache.Guarded b.heap)
    (h : Move .recording resets turns b b') : b'.cache.Guarded b'.heap := by
  have hrecords := h.records hl
  have hwatched := (h.mono Rules.recording_tightens id id).watched hl hb.toWatched
  refine ⟨hwatched, fun {group key t} hfind => ?_, fun p hp => ?_⟩
  · have hle (hchain : b.cache.updates.find? (group, key) ≠ none) : group ≤ b'.heap.groups.size := by
      obtain ⟨t, ht⟩ := Option.ne_none_iff_exists'.1 hchain
      exact Nat.le_trans (hb.group_le ht) hrecords.groups_le
    cases h with
    | @update group' key' t₀ t' env' h' v accepted _ hold _ _ =>
      refine hle ?_
      by_cases heq : (group, key) = (group', key')
      · simp [heq, hold]
      · have hother : (b.cache.updates.set (group', key') t').find? (group, key) = some t := hfind
        rw [Assoc.find?_set_of_ne _ _ heq] at hother
        simp [hother]
    | @newUpdate group' key' t₀ a hwrites _ _ =>
      by_cases heq : (group, key) = (group', key')
      · cases heq
        exact hwrites
      · have hother : (b.cache.updates.set (group', key') t₀).find? (group, key) = some t := hfind
        rw [Assoc.find?_set_of_ne _ _ heq] at hother
        exact hle (by simp [hother])
    | _ =>
      have hold : b.cache.updates.find? (group, key) = some t := hfind
      exact hle (by simp [hold])
  · cases h.shown hl p with
    | same hguards hmonitor =>
      refine hb.within_records hrecords hguards (fun index hindex => ?_) hp
      rw [hindex, UnitCache.types, UnitCache.types, hmonitor index hindex]
    | @result index m m' env' v _ hsound hrecord hheap hguards hguards' htypes htypes' =>
      have hwithin := hb.within (.result index) trivial
      rw [hguards, htypes] at hwithin
      rw [hguards', htypes', hheap]
      exact (Monitor.record_widened hrecord hl.arena hsound).2.1 hwithin
    | @write group key t t' env' v accepted _ hsound hrecord hfind hguards' =>
      have hwithin := hb.within (.write group key) hp
      rw [UnitCache.guards_write hfind] at hwithin
      rw [hguards']
      obtain ⟨-, -, hspec⟩ := TypeChain.recordWrite_widened hrecord hl.arena hsound
      exact (hspec hp (hb.group_le hfind)).1 hwithin

end InlineCache.Bench
