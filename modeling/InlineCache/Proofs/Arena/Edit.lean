import InlineCache.Proofs.Arena.Path

namespace InlineCache.Arena

/-- The stubs that are no ends are counted, those that were taken out of their chains included, and there
are no more of them than the limit allows. -/
structure WithinLimit (limit : Option Nat) (a : Arena) : Prop where
  limit_eq : a.limit = limit
  optimized_eq : a.optimized = a.stubs.countP (!·.isFallback)
  optimized_le : ∀ n, limit = some n → a.optimized ≤ n

theorem withinLimit_empty (limit : Option Nat) : (empty limit).WithinLimit limit :=
  ⟨rfl, rfl, fun n _ => Nat.zero_le n⟩

/-- `b` is what became of `a` by work on the chain that ends at `last`. The chains of a unit share an
arena and are told apart by their ends alone: work on one chain moves no path to another end, and never
touches an end. -/
structure EditedAt (last : StubId) (a b : Arena) : Prop where
  wellLinked : b.WellLinked
  size_le : a.size ≤ b.size
  keeps : ∀ {id l : StubId} {ids : List StubId}, a.Path id ids l → ∃ ids', b.Path id ids' l
  frame : ∀ {id l : StubId} {ids : List StubId}, a.Path id ids l → l ≠ last → b.Path id ids l
  stub_eq : ∀ {id l : StubId} {ids : List StubId}, a.Path id ids l → l ≠ last →
    b.stub id = a.stub id
  fallback_eq : ∀ {id : StubId}, id < a.size → (a.stub id).isFallback = true → b.stub id = a.stub id
  withinLimit : ∀ {limit : Option Nat}, a.WithinLimit limit → b.WithinLimit limit

namespace EditedAt

variable {a b c : Arena} {last : StubId}

theorem refl (hw : a.WellLinked) : EditedAt last a a :=
  ⟨hw, Nat.le_refl _, fun h => ⟨_, h⟩, fun h _ => h, fun _ _ => rfl, fun _ _ => rfl, id⟩

theorem trans (h : EditedAt last a b) (h' : EditedAt last b c) : EditedAt last a c where
  wellLinked := h'.wellLinked
  size_le := Nat.le_trans h.size_le h'.size_le
  keeps hpath := by
    obtain ⟨ids, hb⟩ := h.keeps hpath
    exact h'.keeps hb
  frame hpath hne := h'.frame (h.frame hpath hne) hne
  stub_eq hpath hne := by rw [h'.stub_eq (h.frame hpath hne) hne, h.stub_eq hpath hne]
  fallback_eq hin hs := by
    have hb := h.fallback_eq hin hs
    rw [h'.fallback_eq (Nat.lt_of_lt_of_le hin h.size_le) (by rw [hb, hs]), hb]
  withinLimit ha := h'.withinLimit (h.withinLimit ha)

end EditedAt

/-- A path hangs on no count. -/
theorem Path.recount {a : Arena} {id last : StubId} {ids : List StubId} (h : a.Path id ids last) (n : Nat) :
    Path { a with optimized := n } id ids last := by
  induction h with
  | ending hin hnext => exact .ending hin hnext
  | step hnext _ ih => exact .step hnext ih

/-- A new stub is on no path that was there before, so it may belong to any chain. -/
theorem editedAt_push {a : Arena} (hw : a.WellLinked) (last : StubId) (s : Stub) (next : Option StubId)
    (hnext : ∀ n, next = some n → n < a.size) (hs : s.isFallback = true ↔ next = none) {n : Nat}
    (hwithin : ∀ {limit : Option Nat}, a.WithinLimit limit →
      WithinLimit limit { (a.push s next).2 with optimized := n }) :
    EditedAt last a { (a.push s next).2 with optimized := n } where
  wellLinked :=
    have hpush := wellLinked_push hw s next hnext hs
    ⟨hpush.size_links, hpush.next_lt, hpush.isFallback_iff⟩
  size_le := Nat.le_trans (Nat.le_succ _) (Nat.le_of_eq (size_push a s next).symm)
  keeps h := ⟨_, (h.push hw s next).recount n⟩
  frame h _ := (h.push hw s next).recount n
  stub_eq h _ := stub_push_of_ne a s next (Nat.ne_of_lt (h.lt_size hw))
  fallback_eq hin _ := stub_push_of_ne a s next (Nat.ne_of_lt hin)
  withinLimit := hwithin

/-- Ends are exempt from the limit. -/
theorem WithinLimit.addFallback {limit : Option Nat} {a : Arena} (ha : a.WithinLimit limit) {s : Stub}
    (hs : s.isFallback = true) : (a.addFallback s).2.WithinLimit limit :=
  ⟨ha.limit_eq, by simp [Arena.addFallback, push, ha.optimized_eq, hs], ha.optimized_le⟩

theorem editedAt_addFallback {a : Arena} (hw : a.WellLinked) (last : StubId) {s : Stub}
    (hs : s.isFallback = true) : EditedAt last a (a.addFallback s).2 :=
  editedAt_push hw last s none (by simp) (by simp [hs]) fun ha => ha.addFallback hs

/-- Whether there is room is asked before anything else, so a stub that is turned down leaves the arena. -/
theorem of_add_eq_error {a b : Arena} {s : Stub} {next : StubId} {e : CacheError}
    (h : a.add s next = (.error e, b)) : b = a ∧ e.isOutOfMemory = true := by
  unfold Arena.add at h
  split at h
  · cases h
    exact ⟨rfl, rfl⟩
  · cases h

/-- A stub is added where there is room for it, and is counted. -/
theorem WithinLimit.add {limit : Option Nat} {a b : Arena} (ha : a.WithinLimit limit) {s : Stub}
    (hs : s.isFallback = false) {next id : StubId} (h : a.add s next = (.ok id, b)) :
    b.WithinLimit limit := by
  unfold Arena.add at h
  split at h
  · cases h
  · next hroom =>
    cases h
    refine ⟨ha.limit_eq, by simp [ha.optimized_eq, hs], fun n hn => ?_⟩
    simp only [isFull, remaining, ha.limit_eq, hn, Option.map_some, beq_iff_eq, Option.some.injEq] at hroom
    change a.optimized + 1 ≤ n
    omega

theorem editedAt_add {a b : Arena} (hw : a.WellLinked) (last : StubId) {s : Stub}
    (hs : s.isFallback = false) {next id : StubId} (hnext : next < a.size)
    (h : a.add s next = (.ok id, b)) : EditedAt last a b ∧ id = a.size ∧
      b = { (a.push s (some next)).2 with optimized := a.optimized + 1 } := by
  have hwithin {limit : Option Nat} (ha : a.WithinLimit limit) := ha.add hs h
  unfold add at h
  split at h
  · cases h
  · cases h
    have hbound : ∀ n, some next = some n → n < a.size := by
      intro n hn
      cases hn
      exact hnext
    exact ⟨editedAt_push hw last s (some next) hbound (by simp [hs]) hwithin, rfl, rfl⟩

theorem editedAt_setNext {a : Arena} (hw : a.WellLinked) {prev id next last : StubId}
    (hprev : a.next? prev = some id) (hid : a.next? id = some next) {ids : List StubId}
    (h : a.Path prev ids last) : EditedAt last a (a.setNext prev (some next)) where
  wellLinked := wellLinked_setNext hw hprev hid
  size_le := Nat.le_refl _
  keeps h := h.setNext hw hprev hid
  frame hpath hne := by
    refine hpath.setNext_of_notMem _ (fun hmem => ?_) (fun heq => ?_)
    · obtain ⟨rest, hother⟩ := hpath.of_mem hmem
      exact hne (hother.unique h).2
    · rw [heq, hpath.next?_last] at hprev
      cases hprev
  stub_eq _ _ := rfl
  fallback_eq _ _ := rfl
  withinLimit ha := ⟨ha.limit_eq, ha.optimized_eq, ha.optimized_le⟩

theorem editedAt_replace {a : Arena} (hw : a.WellLinked) {id last : StubId} {s : Stub}
    (hold : (a.stub id).isFallback = false) (hnew : s.isFallback = false) {ids : List StubId}
    (h : a.Path id ids last) : EditedAt last a (a.replace id s) where
  wellLinked := wellLinked_replace hw hold hnew
  size_le := Nat.le_of_eq (size_replace ..).symm
  keeps h := ⟨_, h.replace id s⟩
  frame h _ := h.replace id s
  stub_eq hpath hne := by
    refine stub_replace_of_ne a s (fun heq => ?_)
    subst heq
    exact hne (hpath.unique h).2
  fallback_eq _ hs := stub_replace_of_ne a s fun heq => by
    rw [heq, hold] at hs
    cases hs
  withinLimit ha := by
    have hin : id < a.stubs.size := h.lt_size hw
    have hstub : a.stubs[id].isFallback = false := by simpa [stub, hin] using hold
    have hpos : 0 < a.stubs.countP (!·.isFallback) :=
      Array.countP_pos_iff.2 ⟨_, Array.getElem_mem hin, by rw [hstub]; rfl⟩
    refine ⟨ha.limit_eq, ha.optimized_eq.trans ?_, ha.optimized_le⟩
    simp only [replace, Array.setIfInBounds, hin, dif_pos, Array.countP_set, hstub, hnew, Bool.not_false,
      if_true]
    omega

end InlineCache.Arena
