import InlineCache.Proofs.Chain.Sound

namespace InlineCache.Chain

/-- Takes out the stubs with a property and counts them, along the links as they are at each step. `prev` is
the one that stayed before the stub that is looked at. -/
def sweepFrom (p : Stub → Bool) (prev : Option StubId) (id : StubId) (c : Chain) (a : Arena) (z : Zone) :
    Nat × Chain × Arena × Zone :=
  if id = c.fallback then (0, c, a, z)
  else
    let next := (a.next? id).getD c.fallback
    if next < id then
      if p (a.stub id) then
        let (c, a, z) := c.unlink a z prev id
        let (removed, c, a, z) := sweepFrom p prev next c a z
        (removed + 1, c, a, z)
      else sweepFrom p (some id) next c a z
    else (0, c, a, z)
termination_by id

/-- Takes out the first stub, and counts, until there is none. -/
def unlinkHeads (c : Chain) (a : Arena) (z : Zone) : Nat × Chain × Arena × Zone :=
  if c.isFallbackOnly then (0, c, a, z)
  else
    let rest := c.unlink a z none c.head
    if rest.1.head < c.head then
      let (removed, c, a, z) := unlinkHeads rest.1 rest.2.1 rest.2.2
      (removed + 1, c, a, z)
    else (0, c, a, z)
termination_by c.head

/-- What is left once the stubs with a property were taken out of a chain and counted. -/
structure Without (p : Stub → Bool) (c : Chain) (a : Arena) (removed : Nat) (c' : Chain) (a' : Arena) :
    Prop where
  stubIds_eq : c'.stubIds a' = (c.stubIds a).filter fun id => !p (a.stub id)
  removed_eq : removed = (c.stubIds a).countP fun id => p (a.stub id)
  last_eq : c'.last = (c'.stubIds a').getLast?
  fallback_eq : c'.fallback = c.fallback
  stubs_eq : a'.stubs = a.stubs
  wellLinked : a'.WellLinked
  sound : c'.Sound a'
  others : ∀ other : Chain, other.Sound a → other.fallback ≠ c.fallback →
    other.stubIds a' = other.stubIds a ∧ other.Sound a'

variable {c : Chain} {a : Arena} {p : Stub → Bool}

/-- A path that goes on from a stub stays as it is when a younger one is taken out. -/
theorem path_unlink {z : Zone} {prev : Option StubId} {id x last : StubId} {ids : List StubId}
    (h : a.Path x ids last) (hids : ∀ y, prev = some y → y ∉ ids ∧ y ≠ last) :
    (c.unlink a z prev id).2.1.Path x ids last := by
  cases prev with
  | none => exact h
  | some prev =>
    obtain ⟨hmem, hne⟩ := hids prev rfl
    exact h.setNext_of_notMem _ hmem hne

private theorem unlinkFrom_eq_sweepFrom {rest : List StubId} :
    ∀ {front : List StubId} {prev : Option StubId} {id : StubId} {c : Chain} {a : Arena} (z : Zone),
      a.WellLinked → a.Path c.head (front ++ rest) c.fallback → prev = front.getLast? →
      c.last = (front ++ rest).getLast? → a.Path id rest c.fallback →
      unlinkFrom p rest prev c a z = sweepFrom p prev id c a z := by
  induction rest with
  | nil =>
    intro front prev id c a z _ _ _ _ hid
    have hend : id = c.fallback := by
      generalize c.fallback = fallback at hid
      cases hid
      rfl
    rw [unlinkFrom, sweepFrom, if_pos hend]
  | cons id rest ih =>
    intro front prev x c a z hw hpath hprev hlast hid
    have hne : x ≠ c.fallback := fun heq => hid.last_notMem hw (by
      cases hid
      exact heq ▸ List.mem_cons_self)
    have hapart : ∀ y, prev = some y → y ∉ rest ∧ y ≠ c.fallback := by
      intro y hy
      have hfront : y ∈ front := List.mem_of_getLast? (hprev.symm.trans hy)
      refine ⟨fun hrest => ?_, fun heq => ?_⟩
      · obtain ⟨-, -, happart⟩ := List.nodup_append.1 (hpath.nodup hw)
        exact happart y hfront y (List.mem_cons_of_mem _ hrest) rfl
      · exact hpath.last_notMem hw (heq ▸ List.mem_append_left _ hfront)
    cases hid with
    | @step _ next _ _ hnext tail =>
    rw [unlinkFrom, sweepFrom, if_neg hne, hnext]
    simp only [Option.getD_some, if_pos (hw.next_lt hnext)]
    cases hp : p (a.stub id) with
    | false =>
      simp only [Bool.false_eq_true, if_false]
      have hsnoc : front ++ id :: rest = (front ++ [id]) ++ rest := by simp
      rw [hsnoc] at hpath hlast
      exact ih z hw hpath (by simp) hlast tail
    | true =>
      simp only [if_true]
      cases hu : c.unlink a z prev id with
      | mk c₁ r =>
      obtain ⟨a₁, z₁⟩ := r
      obtain ⟨he₁, hpath₁, hlast₁, hfallback₁, -⟩ := unlink_spec hw hpath hprev hlast hu
      have htail : a₁.Path next rest c₁.fallback := by
        have hkept : (c.unlink a z prev id).2.1.Path next rest c.fallback := path_unlink tail hapart
        rwa [hu, ← hfallback₁] at hkept
      rw [← hfallback₁] at hpath₁
      simp only [ih z₁ he₁.wellLinked hpath₁ hprev hlast₁ htail]

/-- To look at the stubs of a chain one by one, while they are taken out, comes to the same as to list
them first. What is taken out lies on the very links that are rewritten, so this takes a sound chain. -/
theorem unlinkMatching_eq_sweepFrom (hw : a.WellLinked) (hc : c.Sound a) (z : Zone) (p : Stub → Bool) :
    c.unlinkMatching a z p = sweepFrom p none c.head c a z :=
  @unlinkFrom_eq_sweepFrom p (c.stubIds a) [] none c.head c a z hw hc.path rfl hc.last_eq hc.path

private theorem unlinkFrom_eq_unlinkHeads {ids : List StubId} :
    ∀ {c : Chain} (z : Zone), a.WellLinked → a.Path c.head ids c.fallback →
      unlinkFrom (fun _ => true) ids none c a z = unlinkHeads c a z := by
  induction ids with
  | nil =>
    intro c z _ hpath
    have hnone : c.isFallbackOnly = true := by
      rw [isFallbackOnly, beq_iff_eq]
      generalize c.head = head, c.fallback = fallback at hpath
      cases hpath
      rfl
    rw [unlinkFrom, unlinkHeads, if_pos hnone]
  | cons id ids ih =>
    intro c z hw hpath
    have hnotMem := hpath.last_notMem hw
    generalize hhead : c.head = head at hpath
    cases hpath with
    | @step _ next _ _ hnext tail =>
    have hsome : c.isFallbackOnly = false := by
      rw [isFallbackOnly, beq_eq_false_iff_ne, hhead]
      exact fun heq => hnotMem (heq ▸ List.mem_cons_self)
    rw [unlinkFrom, unlinkHeads, hsome, hhead]
    simp only [if_true, Bool.false_eq_true, if_false, unlink, hnext, Option.getD_some,
      if_pos (hw.next_lt hnext)]
    rw [ih (c := { c with head := next, last := if c.last = some id then none else c.last }) _ hw tail]

theorem stubs_unlinkFrom {rest : List StubId} {prev : Option StubId} {c c' : Chain} {a a' : Arena}
    {z z' : Zone} {removed : Nat} (h : unlinkFrom p rest prev c a z = (removed, c', a', z')) :
    a'.stubs = a.stubs := by
  refine unlinkFrom_keeps (K := fun b _ => b.stubs = a.stubs) ?_ h rfl
  intro c b z prev id hold
  cases prev <;> exact hold

private theorem without_unlinkMatching (hw : a.WellLinked) (hc : c.Sound a) {z : Zone}
    {removed : Nat} {c' : Chain} {a' : Arena} {z' : Zone}
    (h : c.unlinkMatching a z p = (removed, c', a', z')) : Without p c a removed c' a' := by
  obtain ⟨he, hids, -, hcount⟩ := unlinkMatching_spec hw hc p h
  exact
    { stubIds_eq := hids
      removed_eq := by rw [hcount, List.countP_eq_length_filter]
      last_eq := he.sound.last_eq
      fallback_eq := he.fallback_eq
      stubs_eq := stubs_unlinkFrom h
      wellLinked := he.arena.wellLinked
      sound := he.sound
      others := fun _ hother hne => ⟨stubIds_frame hother he.arena hne, hother.frame he.arena hne⟩ }

/-- To take the stubs with a property out of a sound chain leaves exactly the others, in their old order, and
counts what was taken out; the last that is left is known, and neither the contents of stubs nor other chains
change. To take out all is the case of the property that every stub has. Neither hangs on whether the stubs
are listed first or found along the links that are being rewritten. -/
theorem unlinking_filters (hw : a.WellLinked) (hc : c.Sound a) (z : Zone) :
    (∀ p : Stub → Bool, c.unlinkMatching a z p = sweepFrom p none c.head c a z ∧
      ∃ removed c' a' z', c.unlinkMatching a z p = (removed, c', a', z') ∧
        Without p c a removed c' a') ∧
    c.discardAll a z = unlinkHeads c a z ∧
      ∃ removed c' a' z', c.discardAll a z = (removed, c', a', z') ∧
        Without (fun _ => true) c a removed c' a' ∧
        removed = c.size a ∧ c'.last = none ∧ c'.isFallbackOnly = true := by
  constructor
  · intro p
    exact ⟨unlinkMatching_eq_sweepFrom hw hc z p, _, _, _, _, rfl, without_unlinkMatching hw hc rfl⟩
  · refine ⟨unlinkFrom_eq_unlinkHeads z hw hc.path, ?_⟩
    obtain ⟨removed, c', a', z', h⟩ : ∃ removed c' a' z', c.discardAll a z = (removed, c', a', z') :=
      ⟨_, _, _, _, rfl⟩
    have hleft : Without (fun _ => true) c a removed c' a' := without_unlinkMatching hw hc h
    have hnone : c'.stubIds a' = [] := by
      rw [hleft.stubIds_eq]
      exact List.filter_eq_nil_iff.2 fun _ _ => by simp
    refine ⟨removed, c', a', z', h, hleft, ?_, ?_, ?_⟩
    · rw [hleft.removed_eq, size, List.countP_eq_length.2 fun _ _ => rfl]
    · rw [hleft.last_eq, hnone, List.getLast?_nil]
    · exact (isFallbackOnly_iff hleft.sound).2 hnone

/-- An arena with two chains: stubs 6, 5, 4 and 2 are in front of the end 0, and stub 3 in front of the
end 1. Only stub 4 guards no object. -/
def mixed : Arena where
  stubs := #[.ending .monitorFallback, .ending .updateFallback, ⟨.monitor (.object 1), .none, none⟩,
    ⟨.update (.object 1), .none, none⟩, ⟨.monitor (.primitives .empty), .none, none⟩,
    ⟨.monitor (.object 2), .none, none⟩, ⟨.monitor (.group 3), .none, none⟩]
  links := #[none, none, some 0, some 1, some 2, some 4, some 5]
  optimized := 5
  limit := none

private theorem wellLinked_mixed : mixed.WellLinked where
  size_links := rfl
  next_lt := by
    have holds : ∀ id < 7, (mixed.next? id).all (decide <| · < id) = true := by decide
    intro id next h
    by_cases hlt : id < 7
    · have hall := holds id hlt
      rw [h] at hall
      simpa using hall
    · rw [Arena.next?, Array.getElem?_eq_none (show mixed.links.size ≤ id from Nat.le_of_not_lt hlt)] at h
      cases h
  isFallback_iff := by
    have holds : ∀ id < 7, ((mixed.stub id).isFallback = true ↔ mixed.next? id = none) := by decide
    intro id hlt
    exact holds id hlt

private theorem path_mixed : mixed.Path 6 [6, 5, 4, 2] 0 := by
  repeat apply Arena.Path.step rfl
  exact .ending (by decide) rfl

private theorem sound_mixed : Sound ⟨6, 0, some 2⟩ mixed :=
  sound_of_path wellLinked_mixed path_mixed rfl

private theorem stubIds_mixed : stubIds ⟨6, 0, some 2⟩ mixed = [6, 5, 4, 2] :=
  stubIds_eq_of_path wellLinked_mixed path_mixed

/-- Two stubs at the head and the one at the tail go, and stub 4 becomes head and last. -/
theorem unlinking_filters_mixed :
    mixed.WellLinked ∧ Sound ⟨6, 0, some 2⟩ mixed ∧
      ∃ c' a' z', (unlinkMatching ⟨6, 0, some 2⟩ mixed default fun s =>
          s.kind.typeGuard?.any TypeGuard.isObjectKind) = (3, c', a', z') ∧
        c'.stubIds a' = [4] ∧ c'.last = some 4 := by
  obtain ⟨-, removed, c', a', z', h, hleft⟩ := (unlinking_filters wellLinked_mixed sound_mixed default).1
    fun s => s.kind.typeGuard?.any TypeGuard.isObjectKind
  have hleftIds : c'.stubIds a' = [4] := by
    rw [hleft.stubIds_eq, stubIds_mixed]
    decide
  have hremoved : removed = 3 := by
    rw [hleft.removed_eq, stubIds_mixed]
    decide
  refine ⟨wellLinked_mixed, sound_mixed, c', a', z', hremoved ▸ h, hleftIds, ?_⟩
  rw [hleft.last_eq, hleftIds]
  rfl

end InlineCache.Chain
