namespace InlineCache

/-- The place at which the search of the window of `size` places from `base` on ends. The probe says of each
place whether it lies before what is sought (`lt`), behind it (`gt`) or is it (`eq`). Each turn keeps the
lower or the upper half of the window; as many turns as there are places are more than enough. -/
def searchEnd (probe : Nat → Ordering) : (turns base size : Nat) → Nat
  | 0, base, _ => base
  | turns + 1, base, size =>
    if 1 < size then
      let half := size / 2
      if probe (base + half) = .gt then searchEnd probe turns base (size - half)
      else searchEnd probe turns (base + half) (size - half)
    else base

/-- The place that is sought, if it is among the first `size` places. -/
def search? (probe : Nat → Ordering) (size : Nat) : Option Nat :=
  let place := searchEnd probe size 0 size
  if 0 < size ∧ probe place = .eq then some place else none

variable {probe : Nat → Ordering} {turns base size place : Nat}

/-- The search ends in its window. -/
theorem searchEnd_lt (hsize : 0 < size) : searchEnd probe turns base size < base + size := by
  fun_induction searchEnd probe turns base size with
  | case1 base size => omega
  | case2 turns base size hmore half hgt ih =>
    have hlt := ih (by omega)
    omega
  | case3 turns base size hmore half hle ih =>
    have hlt := ih (by omega)
    omega
  | case4 turns base size hone => omega

/-- In a sorted range the search ends at what is sought, if its window has it. -/
theorem searchEnd_eq {bound : Nat}
    (hsorted : ∀ low high, low < high → high < bound → probe high ≠ .gt → probe low = .lt)
    (hturns : size ≤ turns) (hbound : base + size ≤ bound) (hbase : base ≤ place)
    (hplace : place < base + size) (heq : probe place = .eq) :
    searchEnd probe turns base size = place := by
  fun_induction searchEnd probe turns base size with
  | case1 base size => omega
  | case2 turns base size hmore half hgt ih =>
    have hhalf : 0 < half ∧ half + half ≤ size := by omega
    have hne : base + half ≠ place := fun hat => by simp [hat, heq] at hgt
    have hnot : ¬ base + half < place := fun hbehind => by
      simp [hsorted (base + half) place hbehind (by omega) (by simp [heq])] at hgt
    exact ih (by omega) (by omega) hbase (by omega)
  | case3 turns base size hmore half hle ih =>
    have hhalf : 0 < half ∧ half + half ≤ size := by omega
    have hnot : ¬ place < base + half := fun hbefore => by
      simp [hsorted place (base + half) hbefore (by omega) hle] at heq
    exact ih (by omega) (by omega) (by omega) (by omega)
  | case4 turns base size hone => omega

/-- What is found is what was sought, in whatever order the places are. -/
theorem search?_spec (hfound : search? probe size = some place) : place < size ∧ probe place = .eq := by
  unfold search? at hfound
  obtain ⟨⟨hsize, heq⟩, hplace⟩ := Option.ite_none_right_eq_some.1 hfound
  have hlt : searchEnd probe size 0 size < 0 + size := searchEnd_lt hsize
  cases hplace
  exact ⟨by omega, heq⟩

/-- In a sorted range what is sought is found, wherever it is. -/
theorem search?_eq_some_iff
    (hsorted : ∀ low high, low < high → high < size → probe high ≠ .gt → probe low = .lt) :
    search? probe size = some place ↔ place < size ∧ probe place = .eq := by
  refine ⟨search?_spec, fun ⟨hlt, heq⟩ => ?_⟩
  have hend : searchEnd probe size 0 size = place :=
    searchEnd_eq hsorted (Nat.le_refl _) (by omega) (by omega) (by omega) heq
  unfold search?
  rw [hend, if_pos ⟨by omega, heq⟩]

end InlineCache
