import InlineCache.Proofs.Entry.Move
import Mathlib.Data.List.Basic

namespace InlineCache

/-- How far an entry has come: it never goes back, except to its start. -/
def Mode.rank : Mode → Nat
  | .uninitialized => 0
  | .optimizable => 1
  | .megamorphic => 2
  | .generic => 3

theorem Mode.isTerminal_iff_rank (mode : Mode) : mode.isTerminal = true ↔ 2 ≤ mode.rank := by
  cases mode <;> decide

namespace Entry

/-- The count of an entry's stubs, which is kept apart from the chain that it counts, agrees with it. A
stub is linked only where more are allowed, so the count never sticks at its greatest value. -/
structure Counted (cap : Nat) (e : Entry) (a : Arena) : Prop where
  stubs_eq : e.state.stubs.toNat = (e.chain.stubIds a).length
  le_cap : (e.chain.stubIds a).length ≤ cap
  /-- An entry that gave specialization up has no stubs. -/
  terminal : e.state.mode.isTerminal = true → e.chain.stubIds a = []

variable {recipes : Recipe → Prop} {e e' : Entry} {env env' : AttachEnv} {cap : Nat}

theorem Counted.of_eq {a a' : Arena} (h : e.Counted cap a) (hstate : e'.state = e.state)
    (hids : e'.chain.stubIds a' = e.chain.stubIds a) : e'.Counted cap a' :=
  ⟨by rw [hstate, hids]; exact h.stubs_eq, by rw [hids]; exact h.le_cap,
    by rw [hstate, hids]; exact h.terminal⟩

private theorem canAttach_iff : e.canAttach env = true ↔
    e.state.mode.isTerminal = false ∧ e.state.stubs.toNat < env.runtime.config.maxStubs := by
  simp [canAttach, AttachState.canAttach]

/-- Below the greatest value of the count, one more is one more. -/
theorem stubs_countAttached {s : AttachState} (h : s.stubs.toNat < 255) :
    s.countAttached.stubs.toNat = s.stubs.toNat + 1 := by
  have hne : s.stubs ≠ 0xff := fun heq => by rw [heq] at h; exact absurd h (by decide)
  simp only [AttachState.countAttached, if_neg hne]
  rw [UInt8.toNat_add]
  change (s.stubs.toNat + 1) % 256 = _
  omega

private theorem stubs_countUnlinked (s : AttachState) (removed : Nat) :
    (s.countUnlinked removed).stubs.toNat = s.stubs.toNat - removed := by
  have hlt := s.stubs.toNat_lt
  simp only [AttachState.countUnlinked, UInt8.toNat_ofNat']
  omega

/-- A move keeps the count right, and counts what it adds and takes away. -/
theorem Move.counted (hkind : ∀ recipe, recipes recipe → recipe.kind.isFallback = false)
    (hw : env.arena.WellLinked) (hs : e.chain.Sound env.arena)
    (hcap : env.runtime.config.maxStubs ≤ 255) (hcounted : e.Counted env.runtime.config.maxStubs env.arena)
    (h : Move recipes e env e' env') :
    e'.Counted env'.runtime.config.maxStubs env'.arena ∧
      e'.state.stubs.toNat + env'.counters.stubsDiscarded + env.counters.stubsAttached =
        e.state.stubs.toNat + env.counters.stubsDiscarded + env'.counters.stubsAttached := by
  obtain ⟨hstubs, hle, hterminal⟩ := hcounted
  cases h with
  | @note _ state hmode hsame henv =>
    refine ⟨⟨?_, ?_, ?_⟩, ?_⟩
    · rw [henv.arena]
      exact (congrArg UInt8.toNat hsame).trans hstubs
    · rw [henv.config, henv.arena]
      exact hle
    · intro hm
      rw [henv.arena]
      exact hterminal (hmode ▸ hm)
    · change state.stubs.toNat + _ + _ = _
      rw [hsame, henv.attached, henv.discarded]
  | start hmode => exact ⟨⟨hstubs, hle, fun hm => by cases hm⟩, rfl⟩
  | giveUp hnone _ _ => exact ⟨⟨hstubs, hle, fun _ => hnone⟩, rfl⟩
  | @link _ recipe code id chain hcan hrecipe _ hinsert hattached hdiscarded henv =>
    have hstub : (recipe.toStub code).isFallback = false := hkind recipe hrecipe
    obtain ⟨-, -, hids, -, -⟩ := Chain.insert_spec hw hs hstub hinsert
    obtain ⟨-, hlt⟩ := canAttach_iff.1 hcan
    have hone := stubs_countAttached (s := e.state) (by omega)
    refine ⟨⟨?_, ?_, fun hm => by cases hm⟩, ?_⟩
    · change e.state.countAttached.stubs.toNat = (chain.stubIds env'.arena).length
      rw [hone, hids, List.length_cons, hstubs]
    · rw [henv.config]
      change (chain.stubIds env'.arena).length ≤ _
      rw [hids, List.length_cons]
      omega
    · change e.state.countAttached.stubs.toNat + _ + _ = _
      rw [hone, hattached, hdiscarded]
      omega
  | @remove _ p removed chain zone hunlink hattached hdiscarded henv =>
    obtain ⟨-, hids, -, hremoved⟩ := Chain.unlinkMatching_spec hw hs p hunlink
    -- what stays and what is taken out are the two parts of the old chain
    have hparts : (chain.stubIds env'.arena).length + removed = (e.chain.stubIds env.arena).length := by
      have hsplit := List.length_eq_length_filter_add (l := e.chain.stubIds env.arena)
        fun id => p (env.arena.stub id)
      rw [hids, hremoved, hsplit]
      omega
    have hcount := stubs_countUnlinked e.state removed
    refine ⟨⟨?_, ?_, fun hm => ?_⟩, ?_⟩
    · change (e.state.countUnlinked removed).stubs.toNat = (chain.stubIds env'.arena).length
      omega
    · rw [henv.config]
      change (chain.stubIds env'.arena).length ≤ _
      omega
    · change chain.stubIds env'.arena = []
      rw [hids, hterminal hm]
      rfl
    · change (e.state.countUnlinked removed).stubs.toNat + _ + _ = _
      rw [hattached, hdiscarded]
      omega

/-- No move takes an entry back. -/
theorem Move.rank_le (h : Move recipes e env e' env') : e.state.mode.rank ≤ e'.state.mode.rank := by
  cases h with
  | note hmode _ _ => exact Nat.le_of_eq (by rw [hmode])
  | start hmode => rw [hmode]; exact Nat.zero_le _
  | giveUp _ hmode hterminal =>
    rcases hmode with hmode | ⟨hmode, rfl⟩
    · rw [hmode]
      exact Nat.le_of_succ_le ((Mode.isTerminal_iff_rank _).1 hterminal)
    · rw [hmode]
      exact Nat.le_succ 2
  | link hcan _ _ _ _ _ _ =>
    obtain ⟨hmode, -⟩ := canAttach_iff.1 hcan
    have hlt : ¬ 2 ≤ e.state.mode.rank := fun hle => by
      rw [(Mode.isTerminal_iff_rank _).2 hle] at hmode
      cases hmode
    exact Nat.le_of_lt_succ (Nat.lt_of_not_le hlt)
  | remove _ _ _ _ => exact Nat.le_refl _

end Entry

end InlineCache
