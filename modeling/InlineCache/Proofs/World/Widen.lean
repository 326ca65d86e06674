import InlineCache.Proofs.Bench.Guarded
import InlineCache.Proofs.World.Parts

namespace InlineCache.World

variable {σ : Type} {R : Rules} {resets turns : Prop} {c : CacheId} {index : Nat} {w w' : World σ}

theorem Works.widens (hc : w.HasCache c) (hl : (w.cache c).Linked)
    (h : Works R resets turns c w w') : (w.bench c).Widens (w'.bench c) := by
  obtain ⟨b, hmoves, rfl⟩ := h
  rw [bench_putBench hc]
  exact hmoves.widens hl

/-- Guards that nothing is shown to stay as they are. -/
theorem Works.guards_eq (hc : w.HasCache c) (hl : (w.cache c).Linked)
    (h : Works R resets turns c w w') {p : Watch} (hp : ¬ R.shows p) :
    (w'.cache c).guards p = (w.cache c).guards p := by
  obtain ⟨b, hmoves, rfl⟩ := h
  rw [cache_eq_of_get? (get?_putBench_self hc b)]
  exact hmoves.guards_eq hl hp

/-- Showing a write changes the guards of its property, unless they accept it. -/
theorem guards_showWrite (hc : w.HasCache c) (hl : (w.cache c).Linked)
    (write : Option (GroupId × PropertyKey × Value)) (p : Watch) :
    ((w.showWrite c write).cache c).guards p = (w.cache c).guards p ∨
      ∃ group key v, p = .write group key ∧ write = some (group, key, v) ∧
        (w.cache c).updateAccepts w.heap group key v = false := by
  cases write with
  | none => exact .inl rfl
  | some written =>
    obtain ⟨group, key, v⟩ := written
    cases haccepts : (w.cache c).updateAccepts w.heap group key v with
    | true =>
      rw [showWrite, recordWrite_of_accepts haccepts]
      exact .inl rfl
    | false =>
      by_cases hp : p = .write group key
      · exact .inr ⟨group, key, v, hp, rfl, haccepts⟩
      · have hworks : Works (Rules.open.showing (· = .write group key)) False False c w
            (w.recordWrite c group key v).2 := works_recordWrite rfl hc hl trivial v
        exact .inl (hworks.guards_eq hc hl hp)

/-- Showing a result changes the guards of the entry, unless the ones that it has to pass accept it. -/
theorem guards_showResult (hat : w.At c index) (guards : List TypeGuard) (result : Option Value)
    (p : Watch) :
    ((w.showResult c index guards result).cache c).guards p = (w.cache c).guards p ∨
      ∃ v, p = .result index ∧ result = some v ∧ guards.any (·.accepts w.heap v) = false := by
  cases result with
  | none => exact .inl rfl
  | some v =>
    cases haccepts : guards.any (·.accepts w.heap v) with
    | true =>
      rw [showResult, recordResult, if_pos haccepts]
      exact .inl rfl
    | false =>
      by_cases hp : p = .result index
      · exact .inr ⟨v, hp, rfl, haccepts⟩
      · have hworks : Works (Rules.open.showing (· = .result index)) False False c w
            (w.recordResult c index guards v) := works_recordResult rfl hat.lt hat.linked guards v
        exact .inl (hworks.guards_eq hat.hasCache hat.linked hp)

/-- A use changes only guards that it shows a value they did not accept at first. It shows the guards of
at most one property a value, and those of the entry at most one. -/
theorem Parts.guards_cases {s : Showing} (hc : w.HasCache s.cache) (hl : (w.cache s.cache).Linked)
    (h : Parts (R.showing fun _ => False) resets turns s w w') (p : Watch) :
    (w'.cache s.cache).guards p = (w.cache s.cache).guards p ∨
      (∃ group key v, p = .write group key ∧ s.write = some (group, key, v) ∧
        (w.cache s.cache).updateAccepts w.heap group key v = false) ∨
      ∃ v, p = .result s.index ∧ s.result = some v ∧ s.guards.any (·.accepts w'.heap v) = false := by
  cases h with
  | @mk w₁ w₂ hwrite hresult hbefore hheap hafter =>
    have hc₁ := hbefore.hasCache hc
    obtain ⟨hl₁, -⟩ := hbefore.linked hc hl
    have hwritten : Works .open False False s.cache w₁ (w₁.showWrite s.cache s.write) :=
      works_showWrite_open hc₁ hl₁ s.write
    have hcw := hwritten.hasCache hc₁
    obtain ⟨hlw, -⟩ := hwritten.linked hc₁ hl₁
    have hguards₁ (q : Watch) : (w₁.cache s.cache).guards q = (w.cache s.cache).guards q :=
      hbefore.guards_eq hc hl id
    have hguards₂ : (w₂.cache s.cache).guards p = ((w₁.showWrite s.cache s.write).cache s.cache).guards p :=
      hafter.guards_eq hcw hlw id
    have hend : ((w₂.showResult s.cache s.index s.guards s.result).cache s.cache).guards p =
        (w₂.cache s.cache).guards p ∨ ∃ v, p = .result s.index ∧ s.result = some v ∧
          s.guards.any (·.accepts w₂.heap v) = false := by
      cases hv : s.result with
      | none => exact .inl rfl
      | some v =>
        have hat : w.At s.cache s.index := ⟨hresult v hv, hl⟩
        exact guards_showResult (((hat.works hbefore).works hwritten).works hafter) s.guards _ p
    rcases hend with hend | hshown
    · rcases guards_showWrite hc₁ hl₁ s.write p with heq | ⟨group, key, v, hp, hv, haccepts⟩
      · exact .inl (by rw [hend, hguards₂, heq, hguards₁])
      · refine .inr (.inl ⟨group, key, v, hp, hv, ?_⟩)
        rw [UnitCache.updateAccepts_eq, UnitCache.accepts] at haccepts ⊢
        rw [← hguards₁, ← hheap]
        exact haccepts
    · rw [heap_showResult]
      exact .inr (.inr hshown)

/-- A result that is shown is accepted afterwards by the guards of the entry, or by the ones that it has to
pass, or there was a failure. -/
theorem accepts_recordResult (hat : w.At c index)
    (hmonitor : ((w.cache c).entry index).monitor.isSome = true) {v : Value}
    (hv : v ≠ .magic .optimizedOut) (guards : List TypeGuard) :
    guards.any (·.accepts w.heap v) = true ∨
      ((w.recordResult c index guards v).cache c).accepts w.heap (.result index) v = true ∨
      (w.attachEnv c).failures < ((w.recordResult c index guards v).attachEnv c).failures := by
  obtain ⟨haccepts | hnone, -⟩ | ⟨m, m', env, -, hm, hsound, hr, heq⟩ :=
    recordResult_cases hat.lt hat.linked guards v
  · exact .inl haccepts
  · rw [hnone] at hmonitor
    cases hmonitor
  · right
    have hc := hat.hasCache
    rw [heq]
    have hcache := cache_eq_of_get? (get?_putBench_self hc
      ((w.bench c).setEntry index { (w.cache c).entry index with monitor := some m' } env))
    have hentry := UnitCache.entry_setEntry_self (c := ((w.bench c).setEnv env).cache) hat.lt
      { (w.cache c).entry index with monitor := some m' }
    obtain ⟨-, -, haccepts⟩ := Monitor.record_widened hr hat.linked.arena hsound
    rcases haccepts hv with haccepts | hfailures
    · refine .inl ?_
      rw [hcache, ← UnitCache.monitorAccepts_eq, UnitCache.monitorAccepts]
      exact (congrArg (fun e => e.monitor.any fun m => m.accepts w.heap env.arena v) hentry).trans
        haccepts
    · have henv : ((w.putBench c ((w.bench c).setEntry index
          { (w.cache c).entry index with monitor := some m' } env)).attachEnv c) = env :=
        congrArg Bench.env (bench_putBench hc _)
      exact .inr (lt_of_lt_of_eq hfailures (congrArg AttachEnv.failures henv.symm))

/-- A result that a use of an entry shows is accepted by the guards of the entry from then on, unless there
was a failure. -/
theorem Parts.accepts {s : Showing} (hl : (w.cache s.cache).Linked)
    (hone : ((w.cache s.cache).guards (.result s.index)).OnePrimitives)
    (hmonitor : ((w.cache s.cache).entry s.index).monitor.isSome = true)
    (hcovered : ∀ h v, s.guards.any (·.accepts h v) = true →
      (w.cache s.cache).accepts h (.result s.index) v = true)
    (h : Parts R resets turns s w w') {v : Value} (hresult : s.result = some v)
    (hv : v ≠ .magic .optimizedOut) :
    (w'.cache s.cache).accepts w'.heap (.result s.index) v = true ∨
      (w.attachEnv s.cache).failures < (w'.attachEnv s.cache).failures := by
  cases h with
  | @mk w₁ w₂ hwrite hlt hbefore hheap hafter =>
    have hat : w.At s.cache s.index := ⟨hlt v hresult, hl⟩
    have hat₁ := hat.works hbefore
    have hwritten : Works .open False False s.cache w₁ (w₁.showWrite s.cache s.write) :=
      works_showWrite_open hat₁.hasCache hat₁.linked s.write
    have hatw := hat₁.works hwritten
    have hat₂ := hatw.works hafter
    have hwidens : (w.bench s.cache).Widens (w₂.bench s.cache) :=
      ((hbefore.widens hat.hasCache hl).trans (hwritten.widens hat₁.hasCache hat₁.linked)).trans
        (hafter.widens hatw.hasCache hatw.linked)
    have hmonitor₂ : ((w₂.cache s.cache).entry s.index).monitor.isSome = true :=
      (hwidens.monitor s.index).trans hmonitor
    have hshown : Works .open False False s.cache w₂ (w₂.recordResult s.cache s.index s.guards v) :=
      works_recordResult trivial hat₂.lt hat₂.linked s.guards v
    have hwidens' := hwidens.trans (hshown.widens hat₂.hasCache hat₂.linked)
    rw [hresult, showResult, heap_recordResult]
    rcases accepts_recordResult hat₂ hmonitor₂ hv s.guards with haccepts | haccepts | hfailures
    · refine .inl ?_
      obtain ⟨-, hcovers⟩ := hwidens'.guards (.result s.index) hone
      exact hcovers w₂.heap v (hcovered w₂.heap v haccepts)
    · exact .inl haccepts
    · exact .inr (Int.lt_of_le_of_lt hwidens.failures hfailures)

end InlineCache.World
