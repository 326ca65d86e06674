import InlineCache.Proofs.Entry.Attempt
import InlineCache.Proofs.Entry.Counted
import Mathlib.Tactic.Ring

namespace InlineCache

namespace AttachState

/-- The failures that are tolerated with fewer stubs than a number of them, all in all. -/
def toleratedBelow (stubs : Nat) : Nat := 5 * stubs + 20 * stubs * (stubs - 1)

/-- How many failures and attached stubs an entry has left. A failure takes one, and a stub that is
attached takes all that was left at the number of stubs before, so the allowance over all numbers of
stubs up to the limit pays for every attempt that asks for a decision. -/
def allowance (cap : Nat) (s : AttachState) : Nat :=
  if s.mode.isTerminal then 0
  else toleratedBelow cap - toleratedBelow s.stubs.toNat - s.failures.toNat

/-- How many attempts an entry that gave specialization up has left until it is generic. -/
def patience (s : AttachState) : Nat := if s.mode = .generic then 0 else 6 - min s.failures.toNat 5

/-- What holds of an entry between attempts: one that was never used has no failures, and one that gave up
for too many stubs had a failure right then. -/
structure Rested (s : AttachState) : Prop where
  fresh : s.mode = .uninitialized → s.failures = 0
  failed : s.mode = .megamorphic → 0 < s.failures.toNat

/-- What holds of an entry in the middle of an attempt that asked for a decision. -/
structure Open (cap : Nat) (s : AttachState) : Prop where
  mode : s.mode = .optimizable
  stubs_lt : s.stubs.toNat < cap
  failures_lt : s.failures.toNat < s.maxFailures

private theorem toleratedBelow_succ (n : Nat) :
    toleratedBelow (n + 1) = toleratedBelow n + (5 + 40 * n) := by
  cases n with
  | zero => rfl
  | succ n =>
    simp only [toleratedBelow, Nat.add_sub_cancel]
    ring

private theorem toleratedBelow_mono {n k : Nat} (hle : n ≤ k) :
    toleratedBelow n ≤ toleratedBelow k := by
  induction hle with
  | refl => exact Nat.le_refl _
  | step _ ih => exact Nat.le_trans ih (by rw [toleratedBelow_succ]; omega)

theorem allowance_le (cap : Nat) (s : AttachState) : s.allowance cap ≤ toleratedBelow cap := by
  unfold allowance
  split
  · exact Nat.zero_le _
  · omega

/-- One more failure, up to the greatest value of the count. -/
theorem failures_countFailure (s : AttachState) :
    s.countFailure.failures.toNat = min (s.failures.toNat + 1) 65535 := by
  have hlt := s.failures.toNat_lt
  unfold countFailure
  split
  · next hgreatest =>
    rw [hgreatest]
    decide
  · next hne =>
    have hne' : s.failures.toNat ≠ 65535 := fun heq => hne (UInt16.toNat_inj.1 heq)
    rw [UInt16.toNat_add]
    change (s.failures.toNat + 1) % 65536 = _
    omega

variable {config : CacheConfig} {cap : Nat} {s s' : AttachState}

private theorem Open.countAttempt (h : s.Open cap) : s.countAttempt.Open cap :=
    ⟨h.mode, h.stubs_lt, h.failures_lt⟩

private theorem allowance_of_optimizable (hmode : s.mode = .optimizable) :
    s.allowance cap = toleratedBelow cap - toleratedBelow s.stubs.toNat - s.failures.toNat := by
  rw [allowance, hmode]
  rfl

/-- While there is room for one more stub, all failures that are tolerated are allowed for. -/
theorem Open.tolerated_le (h : s.Open cap) :
    toleratedBelow s.stubs.toNat + s.maxFailures ≤ toleratedBelow cap := by
  have hmono := toleratedBelow_mono (Nat.succ_le_of_lt h.stubs_lt)
  rwa [toleratedBelow_succ] at hmono

/-- A failure is paid for. -/
theorem Open.allowance_countFailure (hcap : cap ≤ 64) (h : s.Open cap) :
    s.countFailure.allowance cap + 1 ≤ s.allowance cap := by
  have hle := h.tolerated_le
  have hlt := h.failures_lt
  have hstubs := h.stubs_lt
  have hmax : s.maxFailures = 5 + 40 * s.stubs.toNat := rfl
  have hone : s.countFailure.failures.toNat = s.failures.toNat + 1 := by
    rw [failures_countFailure]
    omega
  have hmode : s.countFailure.mode = .optimizable := h.mode
  have hsame : s.countFailure.stubs = s.stubs := rfl
  rw [allowance_of_optimizable hmode, allowance_of_optimizable h.mode, hone, hsame]
  omega

/-- A stub is paid for. -/
theorem Open.allowance_countAttached (hcap : cap ≤ 64) (h : s.Open cap) :
    s.countAttached.allowance cap + 1 ≤ s.allowance cap := by
  have hle := h.tolerated_le
  have hlt := h.failures_lt
  have hstubs := h.stubs_lt
  have hmax : s.maxFailures = 5 + 40 * s.stubs.toNat := rfl
  have hone : s.countAttached.stubs.toNat = s.stubs.toNat + 1 := Entry.stubs_countAttached (by omega)
  have hnone : s.countAttached.failures.toNat = 0 := rfl
  rw [allowance_of_optimizable (rfl : s.countAttached.mode = _), allowance_of_optimizable h.mode, hone,
    hnone, toleratedBelow_succ]
  omega

/-- An attempt that asks for a decision is made by an entry with room for stubs and failures, and the
change of mode before it costs nothing. -/
theorem Rested.open_of_asks (hs : s.Rested) (hasks : s.asks config = true) :
    (s.transition config.maxStubs).2.Open config.maxStubs ∧
      (s.transition config.maxStubs).2.allowance config.maxStubs = s.allowance config.maxStubs := by
  obtain ⟨-, hcan⟩ := Bool.and_eq_true_iff.1 hasks
  unfold transition at hcan ⊢
  cases hmode : s.mode with
  | uninitialized =>
    rw [hmode] at hcan
    obtain ⟨-, hlt⟩ := Bool.and_eq_true_iff.1 hcan
    refine ⟨⟨rfl, of_decide_eq_true hlt, ?_⟩, ?_⟩
    · change s.failures.toNat < s.maxFailures
      rw [hs.fresh hmode]
      exact Nat.lt_of_lt_of_le (by decide) (Nat.le_add_right 5 _)
    · rw [allowance, allowance, hmode]
      rfl
  | optimizable =>
    simp only [hmode] at hcan ⊢
    split
    · next hmany =>
      rw [if_pos hmany] at hcan
      cases hcan
    · next hfew =>
      rw [if_neg hfew] at hcan
      have hfailures : s.failures.toNat < s.maxFailures := by simpa [tooManyFailures] using hfew
      split
      · next hfull =>
        rw [if_pos hfull] at hcan
        cases hcan
      · next hroom => exact ⟨⟨hmode, Nat.lt_of_not_le hroom, hfailures⟩, rfl⟩
  | megamorphic =>
    simp only [hmode] at hcan
    split at hcan
    · cases hcan
    · simp [canAttach, hmode, Mode.isTerminal] at hcan
  | generic => simp [hmode, canAttach, Mode.isTerminal] at hcan

private theorem transition_ne_uninitialized (s : AttachState) (cap : Nat) :
    (s.transition cap).2.mode ≠ .uninitialized := by
  unfold transition
  cases hmode : s.mode with
  | uninitialized => simp
  | optimizable =>
    dsimp only
    split
    · simp
    · split <;> simp [hmode]
  | megamorphic =>
    dsimp only
    split <;> simp [hmode]
  | generic => simp [hmode]

theorem countFailure_rested (hmode : s.mode ≠ .uninitialized) : s.countFailure.Rested where
  fresh hfresh := absurd hfresh hmode
  failed _ := by
    rw [failures_countFailure]
    omega

private theorem allowance_countFailure_le (s : AttachState) (cap : Nat) :
    s.countFailure.allowance cap ≤ s.allowance cap := by
  have hfailures := failures_countFailure s
  have hlt := s.failures.toNat_lt
  have hmode : s.countFailure.mode = s.mode := rfl
  have hstubs : s.countFailure.stubs = s.stubs := rfl
  rw [allowance, allowance, hmode, hstubs]
  split
  · exact Nat.le_refl _
  · omega

/-- The change of mode before an attempt gives nothing back. -/
theorem allowance_le_of_transition {t : AttachState} (hmode : t.mode = (s.transition cap).2.mode)
    (hfailures : t.failures = s.failures) (hstubs : t.mode.isTerminal = true ∨ t.stubs = s.stubs) :
    t.allowance cap ≤ s.allowance cap := by
  rcases Bool.eq_false_or_eq_true t.mode.isTerminal with hterminal | hopen
  · rw [allowance, if_pos hterminal]
    exact Nat.zero_le _
  · have hs : s.mode.isTerminal = false := by
      rw [hmode] at hopen
      unfold transition at hopen
      cases hmode' : s.mode with
      | uninitialized | optimizable => rfl
      | megamorphic =>
        simp only [hmode'] at hopen
        split at hopen
        · cases hopen
        · rw [hmode'] at hopen
          cases hopen
      | generic =>
        simp only [hmode'] at hopen
        cases hopen
    rw [allowance, allowance, hopen, hs, hfailures,
      hstubs.resolve_left (by rw [hopen]; exact Bool.false_ne_true)]

/-- An attempt is paid for, unless it is put off. -/
theorem Attempted.allowance {d outcome : Decision} (hcap : config.maxStubs ≤ 64) (hs : s.Rested)
    (h : s.Attempted config d outcome s') :
    s'.Rested ∧ s'.allowance config.maxStubs ≤ s.allowance config.maxStubs ∧
      (s.asks config = true → d ≠ .temporarilyUnoptimizable → outcome ≠ .deferred →
        s'.allowance config.maxStubs + 1 ≤ s.allowance config.maxStubs) ∧
      (outcome = .deferred → s'.Open config.maxStubs) := by
  cases h with
  | @refused t hasks hmode hfailures hstubs =>
    have hle := allowance_le_of_transition hmode hfailures hstubs
    have hmode' : t.mode ≠ .uninitialized := by
      rw [hmode]
      exact transition_ne_uninitialized s _
    refine ⟨countFailure_rested hmode', Nat.le_trans (allowance_countFailure_le t _) hle, fun h => ?_,
      nofun⟩
    rw [hasks] at h
    cases h
  | failed hasks =>
    obtain ⟨hopen, hsame⟩ := hs.open_of_asks hasks
    have hle := hopen.countAttempt.allowance_countFailure hcap
    have hmode : (s.transition config.maxStubs).2.countAttempt.mode ≠ .uninitialized :=
      transition_ne_uninitialized s _
    rw [← hsame]
    exact ⟨countFailure_rested hmode, Nat.le_of_succ_le hle, fun _ _ _ => hle, nofun⟩
  | attached hasks hdecision =>
    obtain ⟨hopen, hsame⟩ := hs.open_of_asks hasks
    have hle := hopen.countAttempt.allowance_countAttached hcap
    rw [← hsame, hdecision]
    exact ⟨⟨nofun, nofun⟩, Nat.le_of_succ_le hle, fun _ _ _ => hle, nofun⟩
  | waits hasks hdecision =>
    obtain ⟨hopen, hsame⟩ := hs.open_of_asks hasks
    have hmode : (s.transition config.maxStubs).2.countAttempt.mode = .optimizable := hopen.mode
    rw [← hsame]
    refine ⟨⟨fun h => ?_, fun h => ?_⟩, Nat.le_refl _, fun _ htemporarily hdeferred => ?_,
      fun _ => hopen.countAttempt⟩
    · rw [hmode] at h
      cases h
    · rw [hmode] at h
      cases h
    · exact (hdecision.elim htemporarily hdeferred).elim

private theorem asks_of_terminal (hterminal : s.mode.isTerminal = true) : s.asks config = false := by
  unfold asks transition
  cases hmode : s.mode with
  | uninitialized | optimizable =>
    rw [hmode] at hterminal
    cases hterminal
  | megamorphic =>
    dsimp only
    split <;> simp [canAttach, hmode, Mode.isTerminal]
  | generic => simp [canAttach, hmode, Mode.isTerminal]

/-- An entry that gave specialization up has nothing attached, and its attempts are numbered. -/
theorem Attempted.patience {d outcome : Decision} (hterminal : s.mode.isTerminal = true)
    (hnone : s.stubs = 0) (h : s.Attempted config d outcome s') :
    s'.mode.isTerminal = true ∧ s'.patience ≤ s.patience - 1 ∧ outcome = .noAction := by
  have hasks : s.asks config = false := asks_of_terminal hterminal
  cases h with
  | @refused t _ hmode hfailures hstubs =>
    have hcount := failures_countFailure t
    have hmode' : t.countFailure.mode = t.mode := rfl
    have hmany : s.tooManyFailures = decide (5 ≤ s.failures.toNat) := by
      simp [tooManyFailures, maxFailures, hnone]
    unfold transition at hmode
    rw [hfailures] at hcount
    unfold AttachState.patience
    rw [hmode', hcount]
    cases hs : s.mode with
    | uninitialized | optimizable =>
      rw [hs] at hterminal
      cases hterminal
    | megamorphic =>
      simp only [hs, hmany, decide_eq_true_eq] at hmode
      split at hmode
      · simp [hmode, Mode.isTerminal]
      · rw [hs] at hmode
        simp only [hmode, Mode.isTerminal, reduceCtorEq, if_false, true_and, and_true]
        omega
    | generic =>
      simp only [hs] at hmode
      simp [hmode, Mode.isTerminal]
  | failed h | attached h _ | waits h _ =>
    rw [hasks] at h
    cases h

end AttachState

end InlineCache
