import InlineCache.Cache.Arena

namespace InlineCache.Arena

/-- Going on from a stub meets `ids`, the stub itself first, and then ends at `last`. This says more
than a walk, which gives up where the order of age is broken. -/
inductive Path (a : Arena) : StubId → List StubId → StubId → Prop where
  | ending {id : StubId} (hin : id < a.size) (hnext : a.next? id = none) : Path a id [] id
  | step {id next last : StubId} {ids : List StubId} (hnext : a.next? id = some next)
      (tail : Path a next ids last) : Path a id (id :: ids) last

/-- Every stub has a place for its link, is followed by an older one, and is the end of its path exactly
if it is a fallback. So every path comes to an end, and none meets a stub twice. -/
structure WellLinked (a : Arena) : Prop where
  size_links : a.links.size = a.stubs.size
  next_lt : ∀ {id next : StubId}, a.next? id = some next → next < id
  isFallback_iff : ∀ {id : StubId}, id < a.size →
    ((a.stub id).isFallback = true ↔ a.next? id = none)

theorem wellLinked_empty (limit : Option Nat) : (empty limit).WellLinked :=
  ⟨rfl, by intro id next h; simp [next?, empty] at h, by intro id h; simp [size, empty] at h⟩

theorem lt_size_of_next? {a : Arena} (hw : a.WellLinked) {id next : StubId}
    (h : a.next? id = some next) : id < a.size := by
  by_cases hlt : id < a.links.size
  · rwa [hw.size_links] at hlt
  · rw [next?, Array.getElem?_eq_none (Nat.le_of_not_lt hlt)] at h
    cases h

namespace Path

variable {a : Arena} {id last : StubId} {ids : List StubId}

theorem next?_last (h : a.Path id ids last) : a.next? last = none := by
  induction h with
  | ending _ hnext => exact hnext
  | step _ _ ih => exact ih

theorem last_lt_size (h : a.Path id ids last) : last < a.size := by
  induction h with
  | ending hin _ => exact hin
  | step _ _ ih => exact ih

theorem lt_size (hw : a.WellLinked) (h : a.Path id ids last) : id < a.size := by
  cases h with
  | ending hin _ => exact hin
  | step hnext _ => exact lt_size_of_next? hw hnext

/-- There is one path from a stub. -/
theorem unique (h : a.Path id ids last) {ids' : List StubId} {last' : StubId}
    (h' : a.Path id ids' last') : ids = ids' ∧ last = last' := by
  induction h generalizing ids' with
  | ending _ hnext =>
    cases h' with
    | ending _ _ => exact ⟨rfl, rfl⟩
    | step hnext' _ => rw [hnext] at hnext'; cases hnext'
  | step hnext _ ih =>
    cases h' with
    | ending _ hnext' => rw [hnext] at hnext'; cases hnext'
    | step hnext' tail' =>
      rw [hnext] at hnext'
      cases hnext'
      obtain ⟨hids, hlast⟩ := ih tail'
      exact ⟨by rw [hids], hlast⟩

private theorem last_le (hw : a.WellLinked) (h : a.Path id ids last) : last ≤ id := by
  induction h with
  | ending _ _ => exact Nat.le_refl _
  | step hnext _ ih => exact Nat.le_trans ih (Nat.le_of_lt (hw.next_lt hnext))

/-- The stubs on a path get older from one to the next, and the end is the oldest. -/
theorem mem_bounds (hw : a.WellLinked) (h : a.Path id ids last) {x : StubId} (hx : x ∈ ids) :
    last < x ∧ x ≤ id := by
  induction h with
  | ending _ _ => cases hx
  | step hnext tail ih =>
    have hlt := hw.next_lt hnext
    rcases List.mem_cons.1 hx with rfl | hx
    · exact ⟨Nat.lt_of_le_of_lt (tail.last_le hw) hlt, Nat.le_refl _⟩
    · obtain ⟨hlast, hle⟩ := ih hx
      exact ⟨hlast, Nat.le_of_lt (Nat.lt_of_le_of_lt hle hlt)⟩

theorem last_notMem (hw : a.WellLinked) (h : a.Path id ids last) : last ∉ ids :=
  fun hx => Nat.lt_irrefl _ (h.mem_bounds hw hx).1

theorem nodup (hw : a.WellLinked) (h : a.Path id ids last) : ids.Nodup := by
  induction h with
  | ending _ _ => exact List.nodup_nil
  | step hnext tail ih =>
    refine List.nodup_cons.2 ⟨fun hx => ?_, ih⟩
    exact Nat.not_le_of_lt (hw.next_lt hnext) (tail.mem_bounds hw hx).2

/-- From any stub on a path one goes on to the same end. -/
theorem of_mem (h : a.Path id ids last) {x : StubId} (hx : x ∈ ids) :
    ∃ rest, a.Path x (x :: rest) last := by
  induction h with
  | ending _ _ => cases hx
  | @step id next last ids hnext tail ih =>
    rcases List.mem_cons.1 hx with rfl | hx
    · exact ⟨ids, .step hnext tail⟩
    · exact ih hx

/-- Only the end of a path is a fallback. -/
theorem isFallback_of_mem (hw : a.WellLinked) (h : a.Path id ids last) {x : StubId}
    (hx : x ∈ ids) : (a.stub x).isFallback = false := by
  obtain ⟨rest, hpath⟩ := h.of_mem hx
  cases hpath with
  | step hnext _ =>
    have hne : a.next? x ≠ none := by rw [hnext]; exact Option.some_ne_none _
    have := mt (hw.isFallback_iff (lt_size_of_next? hw hnext)).1 hne
    simpa using this

/-- What follows the last stub of a first part is where the other part begins. -/
theorem append_inv {front back : List StubId} (h : a.Path id (front ++ back) last) :
    ∃ x, a.Path x back last ∧ (∀ y, front.getLast? = some y → a.next? y = some x) ∧
      (front = [] → x = id) := by
  induction front generalizing id with
  | nil => exact ⟨id, h, by simp, fun _ => rfl⟩
  | cons y front ih =>
    cases h with
    | step hnext tail =>
      obtain ⟨x, hpath, hlast, hnil⟩ := ih tail
      refine ⟨x, hpath, fun z hz => ?_, by simp⟩
      cases front with
      | nil =>
        simp only [List.getLast?_singleton, Option.some.injEq] at hz
        rw [← hz, hnext, hnil rfl]
      | cons w front => exact hlast z (by simpa using hz)

end Path

/-- In a well linked arena a walk gives up nowhere: it visits the path and its end. -/
theorem walk_eq_of_path {a : Arena} (hw : a.WellLinked) {id last : StubId} {ids : List StubId}
    (h : a.Path id ids last) : a.walk id = ids ++ [last] := by
  induction h with
  | ending _ hnext => rw [walk]; simp [hnext]
  | step hnext _ ih => rw [walk]; simp [hnext, hw.next_lt hnext, ih]

private theorem next?_push_of_ne {a : Arena} (hw : a.WellLinked) (s : Stub) (next : Option StubId)
    {id : StubId} (h : id ≠ a.size) : (a.push s next).2.next? id = a.next? id := by
  have hne : id ≠ a.links.size := by rw [hw.size_links]; exact h
  simp [push, next?, Array.getElem?_push, hne]

theorem next?_push_self {a : Arena} (hw : a.WellLinked) (s : Stub) (next : Option StubId) :
    (a.push s next).2.next? a.size = next := by
  have hsize : a.size = a.links.size := hw.size_links.symm
  simp [push, next?, hsize]

theorem stub_push_of_ne (a : Arena) (s : Stub) (next : Option StubId) {id : StubId}
    (h : id ≠ a.size) : (a.push s next).2.stub id = a.stub id := by
  have hne : id ≠ a.stubs.size := h
  simp [push, stub, Array.getElem?_push, hne]

theorem stub_push_self (a : Arena) (s : Stub) (next : Option StubId) :
    (a.push s next).2.stub a.size = s := by
  simp [push, stub, size]

@[simp] theorem size_push (a : Arena) (s : Stub) (next : Option StubId) :
    (a.push s next).2.size = a.size + 1 := by simp [push, size]

theorem wellLinked_push {a : Arena} (hw : a.WellLinked) (s : Stub) (next : Option StubId)
    (hnext : ∀ n, next = some n → n < a.size) (hs : s.isFallback = true ↔ next = none) :
    (a.push s next).2.WellLinked where
  size_links := by simp [push, hw.size_links]
  next_lt := by
    intro id n h
    by_cases hid : id = a.size
    · subst hid
      rw [next?_push_self hw] at h
      exact hnext n h
    · rw [next?_push_of_ne hw s next hid] at h
      exact hw.next_lt h
  isFallback_iff := by
    intro id hin
    by_cases hid : id = a.size
    · subst hid
      rw [stub_push_self, next?_push_self hw]
      exact hs
    · rw [stub_push_of_ne a s next hid, next?_push_of_ne hw s next hid]
      rw [size_push] at hin
      exact hw.isFallback_iff (Nat.lt_of_le_of_ne (Nat.le_of_lt_succ hin) hid)

theorem Path.push {a : Arena} (hw : a.WellLinked) (s : Stub) (next : Option StubId)
    {id last : StubId} {ids : List StubId} (h : a.Path id ids last) :
    (a.push s next).2.Path id ids last := by
  induction h with
  | ending hin hnext =>
    refine .ending (by rw [size_push]; exact Nat.lt_succ_of_lt hin) ?_
    rw [next?_push_of_ne hw s next (Nat.ne_of_lt hin), hnext]
  | step hnext _ ih =>
    refine .step ?_ ih
    rw [next?_push_of_ne hw s next (Nat.ne_of_lt (lt_size_of_next? hw hnext)), hnext]

theorem next?_setNext_self {a : Arena} (hw : a.WellLinked) {id : StubId} (hin : id < a.size)
    (next : Option StubId) : (a.setNext id next).next? id = next := by
  have hlt : id < a.links.size := by rw [hw.size_links]; exact hin
  simp [setNext, next?, hlt]

theorem next?_setNext_of_ne (a : Arena) {id x : StubId} (next : Option StubId) (h : x ≠ id) :
    (a.setNext id next).next? x = a.next? x := by
  simp [setNext, next?, Array.getElem?_setIfInBounds_ne h.symm]

@[simp] theorem stub_setNext (a : Arena) (id : StubId) (next : Option StubId) (x : StubId) :
    (a.setNext id next).stub x = a.stub x := rfl

/-- A path that does not pass a stub is the same whatever follows that stub. -/
theorem Path.setNext_of_notMem {a : Arena} {prev id last : StubId} {ids : List StubId}
    (next : Option StubId) (h : a.Path id ids last) (hids : prev ∉ ids) (hlast : prev ≠ last) :
    (a.setNext prev next).Path id ids last := by
  induction h with
  | ending hin hnext => exact .ending hin (by rw [next?_setNext_of_ne a next hlast.symm, hnext])
  | @step id _ _ _ hnext _ ih =>
    have hne : id ≠ prev := fun heq => hids (heq ▸ List.mem_cons_self)
    refine .step (by rw [next?_setNext_of_ne a next hne, hnext]) ?_
    exact ih (fun hx => hids (List.mem_cons_of_mem _ hx)) hlast

/-- The arena after what follows a stub was left out: the stub is followed by what came second. -/
theorem wellLinked_setNext {a : Arena} (hw : a.WellLinked) {prev id next : StubId}
    (hprev : a.next? prev = some id) (hid : a.next? id = some next) :
    (a.setNext prev (some next)).WellLinked where
  size_links := by simp [setNext, hw.size_links]
  next_lt := by
    intro x n h
    by_cases hx : x = prev
    · subst hx
      rw [next?_setNext_self hw (lt_size_of_next? hw hprev)] at h
      cases h
      exact Nat.lt_trans (hw.next_lt hid) (hw.next_lt hprev)
    · rw [next?_setNext_of_ne a _ hx] at h
      exact hw.next_lt h
  isFallback_iff := by
    intro x hin
    rw [stub_setNext]
    by_cases hx : x = prev
    · subst hx
      rw [next?_setNext_self hw (lt_size_of_next? hw hprev), hw.isFallback_iff hin, hprev]
      simp
    · rw [next?_setNext_of_ne a _ hx]
      exact hw.isFallback_iff hin

/-- Leaving a stub out of the way changes where no path ends. -/
theorem Path.setNext {a : Arena} (hw : a.WellLinked) {prev id next : StubId}
    (hprev : a.next? prev = some id) (hid : a.next? id = some next) {x last : StubId}
    {ids : List StubId} (h : a.Path x ids last) :
    ∃ ids', (a.setNext prev (some next)).Path x ids' last := by
  induction h with
  | @ending x hin hnext =>
    have hne : x ≠ prev := fun heq => by rw [heq, hprev] at hnext; cases hnext
    exact ⟨[], .ending hin (by rw [next?_setNext_of_ne a _ hne, hnext])⟩
  | @step x n last ids hnext tail ih =>
    by_cases hx : x = prev
    · subst hx
      rw [hprev] at hnext
      cases hnext
      cases tail with
      | ending _ hend => rw [hid] at hend; cases hend
      | step hid' rest =>
        rw [hid] at hid'
        cases hid'
        have hlt := Nat.lt_trans (hw.next_lt hid) (hw.next_lt hprev)
        have hids := fun hx => Nat.not_le_of_lt hlt (rest.mem_bounds hw hx).2
        have hlast := Nat.ne_of_gt (Nat.lt_of_le_of_lt (rest.last_le hw) hlt)
        refine ⟨x :: _, .step ?_ (rest.setNext_of_notMem _ hids hlast)⟩
        rw [next?_setNext_self hw (lt_size_of_next? hw hprev)]
    · obtain ⟨ids', hpath⟩ := ih
      exact ⟨x :: ids', .step (by rw [next?_setNext_of_ne a _ hx, hnext]) hpath⟩

@[simp] theorem next?_replace (a : Arena) (id : StubId) (s : Stub) (x : StubId) :
    (a.replace id s).next? x = a.next? x := rfl

@[simp] theorem size_replace (a : Arena) (id : StubId) (s : Stub) :
    (a.replace id s).size = a.size := by simp [replace, size]

theorem stub_replace_of_ne (a : Arena) {id x : StubId} (s : Stub) (h : x ≠ id) :
    (a.replace id s).stub x = a.stub x := by
  simp [replace, stub, Array.getElem?_setIfInBounds_ne h.symm]

theorem stub_replace_self (a : Arena) {id : StubId} (s : Stub) (h : id < a.size) :
    (a.replace id s).stub id = s := by
  have hlt : id < a.stubs.size := h
  simp [replace, stub, hlt]

theorem wellLinked_replace {a : Arena} (hw : a.WellLinked) {id : StubId} {s : Stub}
    (hold : (a.stub id).isFallback = false) (hnew : s.isFallback = false) :
    (a.replace id s).WellLinked where
  size_links := by simp [replace, hw.size_links]
  next_lt := hw.next_lt
  isFallback_iff := by
    intro x hin
    rw [size_replace] at hin
    rw [next?_replace, ← hw.isFallback_iff hin]
    by_cases hx : x = id
    · subst hx
      rw [stub_replace_self a s hin, hold, hnew]
    · rw [stub_replace_of_ne a s hx]

theorem Path.replace {a : Arena} (id : StubId) (s : Stub) {x last : StubId} {ids : List StubId}
    (h : a.Path x ids last) : (a.replace id s).Path x ids last := by
  induction h with
  | ending hin hnext => exact .ending (by rw [size_replace]; exact hin) hnext
  | step hnext _ ih => exact .step hnext ih

end InlineCache.Arena
