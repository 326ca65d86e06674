import InlineCache.Proofs.Entry.Budget
import InlineCache.Proofs.Machine.Counted
import InlineCache.Proofs.Machine.Sheds

namespace InlineCache

/-- What a use that gets to attach a stub for a request, or one that does not, makes of how far its entry is
specialized. What is decided is decided on a given heap. -/
inductive AttachState.Used (config : CacheConfig) (h : Heap) (s : AttachState) :
    Option Request → AttachState → Prop where
  | aside : Used config h s none s
  | attempt {r : Request} {outcome : Decision} {s₁ : AttachState}
      (htried : s.Attempted config (r.decision h) outcome s₁) (hdone : outcome ≠ .deferred) :
      Used config h s (some r) s₁
  /-- An attempt that had to wait is settled by a stub or by a failure. -/
  | settle {r : Request} {s₁ s₂ : AttachState}
      (htried : s.Attempted config (r.decision h) .deferred s₁)
      (hsettled : s₂ = s₁.countAttached ∨ s₂ = s₁.countFailure) : Used config h s (some r) s₂

namespace AttachState

variable {config : CacheConfig} {h : Heap} {s s' : AttachState} {request : Option Request}

/-- A use in which an entry asks for a decision is paid for, unless the decision is to wait for another
use. -/
theorem Used.allowance (hcap : config.maxStubs ≤ 64) (hs : s.Rested)
    (hused : s.Used config h request s') :
    s'.Rested ∧ s'.allowance config.maxStubs ≤ s.allowance config.maxStubs ∧
      ∀ r, request = some r → s.asks config = true → r.decision h ≠ .temporarilyUnoptimizable →
        s'.allowance config.maxStubs + 1 ≤ s.allowance config.maxStubs := by
  cases hused with
  | aside => exact ⟨hs, Nat.le_refl _, fun _ hr => by cases hr⟩
  | attempt htried hdone =>
    obtain ⟨hrested, hle, hpaid, -⟩ := htried.allowance hcap hs
    refine ⟨hrested, hle, ?_⟩
    rintro r hr hasks hne
    cases hr
    exact hpaid hasks hne hdone
  | @settle r s₁ _ htried hsettled =>
    obtain ⟨-, hle, -, hopen⟩ := htried.allowance hcap hs
    have hs₁ := hopen rfl
    have hpaid : s'.Rested ∧ s'.allowance config.maxStubs + 1 ≤ s₁.allowance config.maxStubs := by
      rcases hsettled with rfl | rfl
      · exact ⟨⟨nofun, nofun⟩, hs₁.allowance_countAttached hcap⟩
      · exact ⟨countFailure_rested (by rw [hs₁.mode]; exact nofun), hs₁.allowance_countFailure hcap⟩
    have hpays := Nat.le_trans hpaid.2 hle
    exact ⟨hpaid.1, Nat.le_of_succ_le hpays, fun _ _ _ _ => hpays⟩

/-- An entry that gave specialization up has one attempt less left after each. -/
theorem Used.patience (hterminal : s.mode.isTerminal = true) (hnone : s.stubs = 0)
    (hused : s.Used config h request s') :
    s'.mode.isTerminal = true ∧ s'.patience ≤ s.patience - request.toList.length := by
  cases hused with
  | aside => exact ⟨hterminal, Nat.le_refl _⟩
  | attempt htried _ =>
    obtain ⟨hterminal', hle, -⟩ := htried.patience hterminal hnone
    exact ⟨hterminal', hle⟩
  | settle htried _ =>
    obtain ⟨-, -, houtcome⟩ := htried.patience hterminal hnone
    cases houtcome

private theorem patience_eq_zero : s.patience = 0 ↔ s.mode = .generic := by
  unfold patience
  split
  · next hgeneric => simp [hgeneric]
  · next hne =>
    simp only [hne, iff_false]
    omega

private theorem Rested.patience_le (hs : s.Rested) (hmode : s.mode = .megamorphic) :
    s.patience ≤ 5 := by
  have hfailed := hs.failed hmode
  unfold patience
  split
  · exact Nat.zero_le 5
  · omega

end AttachState

namespace World

variable {σ : Type} {w w' : World σ} {c : CacheId} {index : Nat}

/-- Between two actions, every entry is at rest. -/
def Resting (w : World σ) : Prop := ∀ c index, index < (w.cache c).entries.size → (w.stateAt c index).Rested

private theorem Course.used {write : Option (GroupId × PropertyKey × Value)} {h : Heap}
    {request : Option Request} (hat : w.At c index) (hcourse : Course c index write h request w w') :
    (w.stateAt c index).Used w.runtime.config h request (w'.stateAt c index) := by
  cases hcourse with
  | aside hwithin =>
    rw [(hwithin.sameStubs_beside hat).state]
    exact .aside
  | @attempt r _ w₁ _ hbefore hdecided hdone hafter =>
    have hat₁ := hat.within hbefore
    obtain ⟨htried, -⟩ := attempt_spec hat₁ hdecided
    rw [(hbefore.sameStubs_beside hat).state, hbefore.works.config] at htried
    rw [(hafter.sameStubs_beside (hat₁.within (within_attempt hat₁ hdecided))).state]
    exact .attempt htried hdone
  | @settle r h₁ h₂ _ _ w₁ w₂ _ hbefore hdecided hwaits hperformed _ _ hsecond hafter =>
    have hat₁ := hat.within hbefore
    have hat₂ := hat₁.within (within_attempt hat₁ hdecided)
    have hat₃ := hat₂.within hperformed
    obtain ⟨htried, -⟩ := attempt_spec hat₁ hdecided
    rw [(hbefore.sameStubs_beside hat).state, hbefore.works.config, hwaits] at htried
    have hsettled := (settle_spec hat₃ hsecond).imp And.left And.left
    rw [(hperformed.sameStubs_beside hat₂).state] at hsettled
    rw [(hafter.sameStubs_beside (hat₃.within (within_settle hat₃ hsecond))).state]
    exact .settle htried hsettled

private theorem Sheds.rested (h : Sheds c index w w') (hw : (w.stateAt c index).Rested) :
    (w'.stateAt c index).Rested := by
  rcases h.state with ⟨hmode, hfailures⟩ | ⟨hmode, hfailures⟩
  · exact ⟨fun hfresh => by rw [hfailures]; exact hw.fresh (hmode ▸ hfresh),
      fun hfailed => by rw [hfailures]; exact hw.failed (hmode ▸ hfailed)⟩
  · refine ⟨fun _ => hfailures, fun hfailed => ?_⟩
    rw [hmode] at hfailed
    cases hfailed

end World

namespace Machine

variable {σ : Type} {m : Machine σ} {c : CacheId} {index : Nat}

/-- The request for which an action gets to attach a stub at an entry. -/
def attaching? (c : CacheId) (index : Nat) (m : Machine σ) : Action σ → Option Request
  | .use d id ops => if d = c ∧ id.index = index then World.attaching? c id ops m.world else none
  | _ => none

/-- Whether an action gets to attach a stub at an entry. -/
def attaches (c : CacheId) (index : Nat) (m : Machine σ) (a : Action σ) : Bool :=
  (attaching? c index m a).isSome

/-- Whether an action asks for a decision at an entry, and is not told to wait for another use. -/
def consults (c : CacheId) (index : Nat) (m : Machine σ) (a : Action σ) : Bool :=
  (attaching? c index m a).any fun r => (m.world.stateAt c index).asks m.world.runtime.config &&
    decide (r.decision m.world.heap ≠ .temporarilyUnoptimizable)

/-- How many actions of a run are of a kind as they are taken. -/
def tally (kind : Machine σ → Action σ → Bool) : Machine σ → List (Action σ) → Nat
  | _, [] => 0
  | m, a :: rest => (if kind m a then 1 else 0) + tally kind (m.step a) rest

/-- Whether an action takes stubs out of an entry as it is told to. -/
def TakesOut (c : CacheId) (index : Nat) : Action σ → Prop
  | .unlink d id _ => d = c ∧ id.index = index
  | .purge d => d = c
  | _ => False

/-- Whatever an action that does not take stubs out of an entry does to how far the entry is, it does as
a use of it. Uses of other entries, also those that a called function makes in the middle of a use,
leave it alone. -/
theorem step_used (hm : m.Linked) (hat : m.world.At c index) {a : Action σ}
    (ha : ¬ TakesOut c index a) :
    (m.world.stateAt c index).Used m.world.runtime.config m.world.heap (attaching? c index m a)
      ((m.step a).world.stateAt c index) := by
  by_cases habout : a.IsAbout c index
  · cases a with
    | use d id ops =>
      obtain ⟨rfl, rfl⟩ := habout
      have hcourse := World.course_begin hm.world d id ops
      rw [world_use, attaching?, if_pos ⟨rfl, rfl⟩]
      exact hcourse.used hat
    | unlink d id signature => exact absurd habout ha
    | purge d => exact absurd habout ha
    | _ => exact habout.elim
  · have hnone : attaching? c index m a = none := by
      cases a with
      | use d id ops => exact if_neg habout
      | _ => rfl
    rw [hnone, (step_sameStubs hm hat habout).state]
    exact .aside

private theorem step_resting (hm : m.Linked) (hcap : m.world.runtime.config.maxStubs ≤ 64)
    (hrest : m.world.Resting) (a : Action σ) : (m.step a).world.Resting := by
  intro c index hin
  by_cases hin₀ : index < (m.world.cache c).entries.size
  · have hat : m.world.At c index := ⟨hin₀, (hm.world.cache (World.hasCache_of_lt hin₀)).1⟩
    have hs := hrest c index hin₀
    by_cases ha : TakesOut c index a
    · refine (step_sheds hm hat fun id ops heq => ?_).rested hs
      rw [heq] at ha
      exact ha.elim
    · exact ((step_used hm hat ha).allowance hcap hs).1
  · obtain ⟨hinitial, -⟩ := ((step_change_open hm a).initial_of_new hm.world hin).resolve_left hin₀
    rw [hinitial]
    exact ⟨fun _ => rfl, nofun⟩

private theorem run_resting (hm : m.Linked) (hcap : m.world.runtime.config.maxStubs ≤ 64)
    (hrest : m.world.Resting) (actions : List (Action σ)) : (m.run actions).world.Resting := by
  refine (List.foldlRecOn (motive := fun m' => m'.Linked ∧
    m'.world.runtime.config.maxStubs ≤ 64 ∧ m'.world.Resting) actions step ⟨hm, hcap, hrest⟩ ?_).2.2
  rintro m' ⟨hm', hcap', hrest'⟩ a -
  have hconfig := (step_change_open hm' a).config
  exact ⟨(step_linked_open hm' a).1, by rw [hconfig]; exact hcap', step_resting hm' hcap' hrest' a⟩

/-- All decisions that an entry asks for in a run are paid for. -/
theorem tally_consults_le (hm : m.Linked) (hcap : m.world.runtime.config.maxStubs ≤ 64)
    (hrest : m.world.Resting) (hat : m.world.At c index) {actions : List (Action σ)}
    (hactions : ∀ a ∈ actions, ¬ TakesOut c index a) :
    tally (consults c index) m actions ≤
      (m.world.stateAt c index).allowance m.world.runtime.config.maxStubs := by
  induction actions generalizing m with
  | nil => exact Nat.zero_le _
  | cons a actions ih =>
    have hconfig := (step_change_open hm a).config
    have hrests := step_resting hm hcap hrest a
    have htail := ih (step_linked_open hm a).1 (by rw [hconfig]; exact hcap) hrests (at_step hm hat a)
      fun a' ha' => hactions a' (List.mem_cons_of_mem _ ha')
    rw [hconfig] at htail
    obtain ⟨-, hle, hpaid⟩ := (step_used hm hat (hactions a List.mem_cons_self)).allowance hcap
      (hrest c index hat.lt)
    rw [tally]
    split
    · next hconsults =>
      obtain ⟨r, hr, hasked⟩ := (Option.any_eq_true _ _).1 hconsults
      obtain ⟨hasks, hne⟩ := Bool.and_eq_true_iff.1 hasked
      have hpays := hpaid r hr hasks (of_decide_eq_true hne)
      omega
    · omega

/-- An entry that gave specialization up has no stubs. -/
theorem stubs_of_terminal (hcounted : m.world.Counted) (hat : m.world.At c index)
    (hterminal : (m.world.stateAt c index).mode.isTerminal = true) :
    (m.world.stateAt c index).stubs = 0 := by
  obtain ⟨cache, hget⟩ := hat.hasCache
  have hcache := World.cache_eq_of_get? hget
  have hin := hat.lt
  rw [World.stateAt, hcache] at hterminal ⊢
  rw [hcache] at hin
  have hentry := (hcounted.caches c cache hget).entry index hin
  have hzero := hentry.stubs_eq
  rw [hentry.terminal hterminal] at hzero
  exact UInt8.toNat_inj.1 hzero

/-- Every attempt to attach a stub brings an entry that gave specialization up nearer to its end. -/
theorem patience_run_le (hm : m.Linked) (hcounted : m.world.Counted) (hat : m.world.At c index)
    (hterminal : (m.world.stateAt c index).mode.isTerminal = true) {actions : List (Action σ)}
    (hactions : ∀ a ∈ actions, ¬ TakesOut c index a) :
    ((m.run actions).world.stateAt c index).patience ≤
      (m.world.stateAt c index).patience - tally (attaches c index) m actions := by
  induction actions generalizing m with
  | nil => exact Nat.le_refl _
  | cons a actions ih =>
    have hnone := stubs_of_terminal hcounted hat hterminal
    obtain ⟨hterminal', hle⟩ :=
      (step_used hm hat (hactions a List.mem_cons_self)).patience hterminal hnone
    have htail := ih (step_linked_open hm a).1 ((step_change_open hm a).counted hm.world hcounted).1
      (at_step hm hat a) hterminal' fun a' ha' => hactions a' (List.mem_cons_of_mem _ ha')
    have hone : (attaching? c index m a).toList.length = if attaches c index m a then 1 else 0 := by
      rw [attaches]
      cases attaching? c index m a <;> rfl
    rw [hone] at hle
    rw [tally]
    exact Nat.le_trans htail (by omega)

/-- As long as an entry is not told to take stubs out, the uses in which it asks for a decision and is not
told to wait for another use are bounded by the limit on stubs, whatever the operands are and however uses
are nested. And after five attempts of an entry that gave specialization up for too many stubs it is
generic. -/
theorem consultations_bounded {config : CacheConfig} (hcap : config.maxStubs ≤ 64) (compiler : Compiler)
    (host : σ) (actions : List (Action σ)) {later : List (Action σ)} :
    let m := (initial config compiler host).run actions
    index < (m.world.cache c).entries.size → (∀ a ∈ later, ¬ TakesOut c index a) →
    m.tally (consults c index) later ≤
        5 * config.maxStubs + 20 * config.maxStubs * (config.maxStubs - 1) ∧
      ((m.world.stateAt c index).mode = .megamorphic → 5 ≤ m.tally (attaches c index) later →
        ((m.run later).world.stateAt c index).mode = .generic) := by
  intro m hin hlater
  have hinitial := initial_linked config compiler host
  have hnone := initial_get? config compiler host
  have hcounted₀ : (initial config compiler host).world.Counted :=
    ⟨Nat.le_trans hcap (by decide), fun c cache hget => by rw [hnone c] at hget; cases hget⟩
  have hresting₀ : (initial config compiler host).world.Resting := fun c index hin => by
    obtain ⟨cache, hget⟩ := World.hasCache_of_lt hin
    rw [hnone c] at hget
    cases hget
  obtain ⟨hm, -⟩ := run_linked hinitial actions
  obtain ⟨hcounted, hconfig⟩ := run_counted hinitial hcounted₀ actions
  have hrest : m.world.Resting := run_resting hinitial hcap hresting₀ actions
  have hat : m.world.At c index := ⟨hin, (hm.world.cache (World.hasCache_of_lt hin)).1⟩
  have hmax : m.world.runtime.config.maxStubs = config.maxStubs := congrArg CacheConfig.maxStubs hconfig
  constructor
  · have hle := tally_consults_le hm (by rw [hmax]; exact hcap) hrest hat hlater
    rw [hmax] at hle
    exact Nat.le_trans hle (AttachState.allowance_le _ _)
  · intro hmegamorphic hmany
    have hle := patience_run_le (m := m) hm hcounted hat (by rw [hmegamorphic]; rfl) hlater
    have hfive := (hrest c index hin).patience_le hmegamorphic
    refine AttachState.patience_eq_zero.1 (Nat.eq_zero_of_le_zero (Nat.le_trans hle ?_))
    omega

/-- An entry with room for one stub, which saw operands of two types. -/
def gaveUp : Machine Unit := (initial (CacheConfig.standard.withMaxStubs 1) (fun _ _ => none) ()).run
  [.addCache ⟨1, "f", 0, false, 0, #[.typeOf], #[]⟩, .use 1 ⟨1, 0⟩ (.unary (.int32 5)),
    .use 1 ⟨1, 0⟩ (.unary .null)]

/-- After five more uses it is generic. -/
theorem given_up_entry_generic :
    let later : List (Action Unit) := List.replicate 5 (.use 1 ⟨1, 0⟩ (.unary .undefined))
    (gaveUp.world.stateAt 1 0).mode = .megamorphic ∧ gaveUp.tally (consults 1 0) later ≤ 5 ∧
      ((gaveUp.run later).world.stateAt 1 0).mode = .generic := by
  intro later
  have hmode : (gaveUp.world.stateAt 1 0).mode = .megamorphic := by decide +kernel
  have hin : 0 < (gaveUp.world.cache 1).entries.size := by decide +kernel
  have hattaches : gaveUp.tally (attaches 1 0)
      (List.replicate 5 (.use 1 ⟨1, 0⟩ (.unary .undefined))) = 5 := by decide +kernel
  have hlater : ∀ a ∈ later, ¬ TakesOut 1 0 a := by
    intro a ha
    rw [List.eq_of_mem_replicate ha]
    exact id
  have hcap : (CacheConfig.standard.withMaxStubs 1).maxStubs ≤ 64 := by decide
  obtain ⟨hbounded, hgeneric⟩ := consultations_bounded hcap (fun _ _ => none) () _ hin hlater
  exact ⟨hmode, hbounded, hgeneric hmode (Nat.le_of_eq hattaches.symm)⟩

end Machine

end InlineCache
