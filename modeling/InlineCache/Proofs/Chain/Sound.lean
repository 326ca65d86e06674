import InlineCache.Cache.Chain
import InlineCache.Proofs.Arena.Edit

namespace InlineCache.Chain

/-- The stubs of a chain lie on the path from its head, the path ends at the chain's own fallback, and
the chain knows the last of its stubs. -/
structure Sound (c : Chain) (a : Arena) : Prop where
  path : a.Path c.head (c.stubIds a) c.fallback
  last_eq : c.last = (c.stubIds a).getLast?

/-- The stubs of a chain are those on the path from its head to its fallback. -/
theorem stubIds_eq_of_path {c : Chain} {a : Arena} (hw : a.WellLinked) {ids : List StubId}
    (h : a.Path c.head ids c.fallback) : c.stubIds a = ids := by
  have hnot := h.last_notMem hw
  rw [stubIds, Arena.walk_eq_of_path hw h, List.takeWhile_append_of_pos]
  · simp
  · intro x hx
    have hne : x ≠ c.fallback := fun heq => hnot (heq ▸ hx)
    simpa using hne

theorem sound_of_path {c : Chain} {a : Arena} (hw : a.WellLinked) {ids : List StubId}
    (h : a.Path c.head ids c.fallback) (hlast : c.last = ids.getLast?) : c.Sound a := by
  have hids := stubIds_eq_of_path hw h
  exact ⟨by rw [hids]; exact h, by rw [hids]; exact hlast⟩

/-- A chain whose end lies elsewhere does not notice work on another chain. -/
theorem stubIds_frame {c : Chain} {a b : Arena} {last : StubId} (hs : c.Sound a)
    (he : a.EditedAt last b) (hne : c.fallback ≠ last) : c.stubIds b = c.stubIds a :=
  stubIds_eq_of_path he.wellLinked (he.frame hs.path hne)

theorem Sound.frame {c : Chain} {a b : Arena} {last : StubId} (hs : c.Sound a)
    (he : a.EditedAt last b) (hne : c.fallback ≠ last) : c.Sound b :=
  sound_of_path he.wellLinked (he.frame hs.path hne) hs.last_eq

private theorem stub_eq_of_mem {c : Chain} {a b : Arena} {last : StubId} (hs : c.Sound a)
    (he : a.EditedAt last b) (hne : c.fallback ≠ last) {id : StubId} (hid : id ∈ c.stubIds a) :
    b.stub id = a.stub id := by
  obtain ⟨rest, hpath⟩ := hs.path.of_mem hid
  exact he.stub_eq hpath hne

theorem stubs_frame {c : Chain} {a b : Arena} {last : StubId} (hs : c.Sound a)
    (he : a.EditedAt last b) (hne : c.fallback ≠ last) : c.stubs b = c.stubs a := by
  rw [stubs, stubs, stubIds_frame hs he hne]
  exact List.map_congr_left fun id hid => stub_eq_of_mem hs he hne hid

/-- A chain has no stubs exactly if it begins at its fallback. -/
theorem isFallbackOnly_iff {c : Chain} {a : Arena} (hs : c.Sound a) :
    c.isFallbackOnly = true ↔ c.stubIds a = [] := by
  have hpath := hs.path
  rw [isFallbackOnly, beq_iff_eq]
  constructor
  · intro heq
    have hend : a.Path c.fallback [] c.fallback := .ending hpath.last_lt_size hpath.next?_last
    rw [heq] at hpath
    exact (hpath.unique hend).1
  · intro hnil
    rw [hnil] at hpath
    generalize c.head = head, c.fallback = fallback at hpath
    cases hpath
    rfl

theorem create_spec {a a' : Arena} (hw : a.WellLinked) {s : Stub} {c : Chain}
    (hs : s.isFallback = true) (h : create a s = (c, a')) :
    a.EditedAt a.size a' ∧ c.Sound a' ∧ c.stubIds a' = [] ∧ c.fallback = a.size ∧
      a'.size = a.size + 1 := by
  cases h
  have he : a.EditedAt a.size (a.push s none).2 := Arena.editedAt_addFallback hw a.size hs
  have hpath : (a.push s none).2.Path a.size [] a.size :=
    .ending (by simp) (Arena.next?_push_self hw s none)
  refine ⟨he, sound_of_path he.wellLinked hpath rfl, ?_, rfl, Arena.size_push _ _ _⟩
  exact stubIds_eq_of_path he.wellLinked hpath

/-- A chain and its arena after work on that chain: it is still sound, with the same end. -/
structure EditedTo (c : Chain) (a : Arena) (c' : Chain) (a' : Arena) : Prop where
  arena : a.EditedAt c.fallback a'
  sound : c'.Sound a'
  fallback_eq : c'.fallback = c.fallback

theorem EditedTo.refl {c : Chain} {a : Arena} (hw : a.WellLinked) (hc : c.Sound a) :
    c.EditedTo a c a :=
  ⟨.refl hw, hc, rfl⟩

theorem EditedTo.trans {c c' c'' : Chain} {a a' a'' : Arena} (h : c.EditedTo a c' a')
    (h' : c'.EditedTo a' c'' a'') : c.EditedTo a c'' a'' := by
  have harena := h'.arena
  rw [h.fallback_eq] at harena
  exact ⟨h.arena.trans harena, h'.sound, h'.fallback_eq.trans h.fallback_eq⟩

/-- The stubs of a chain, its end included. -/
def held (c : Chain) (a : Arena) : List Stub := (a.walk c.head).map a.stub

theorem held_eq {c : Chain} {a : Arena} (hw : a.WellLinked) (hc : c.Sound a) :
    c.held a = c.stubs a ++ [a.stub c.fallback] := by
  rw [held, Arena.walk_eq_of_path hw hc.path, List.map_append]
  rfl

theorem edges_eq (c : Chain) (a : Arena) : c.edges a = (c.held a).flatMap Stub.edges := by
  rw [edges, held, List.flatMap_map]

theorem Sound.isFallback_fallback {c : Chain} {a : Arena} (hc : c.Sound a) (hw : a.WellLinked) :
    (a.stub c.fallback).isFallback = true :=
  (hw.isFallback_iff hc.path.last_lt_size).2 hc.path.next?_last

theorem EditedTo.stub_fallback {c c' : Chain} {a a' : Arena} (hw : a.WellLinked) (hc : c.Sound a)
    (h : c.EditedTo a c' a') : a'.stub c'.fallback = a.stub c.fallback := by
  rw [h.fallback_eq]
  exact h.arena.fallback_eq hc.path.last_lt_size (hc.isFallback_fallback hw)

theorem held_frame {c : Chain} {a b : Arena} {last : StubId} (hw : a.WellLinked) (hs : c.Sound a)
    (he : a.EditedAt last b) (hne : c.fallback ≠ last) : c.held b = c.held a := by
  rw [held_eq he.wellLinked (hs.frame he hne), held_eq hw hs, stubs_frame hs he hne,
    he.fallback_eq hs.path.last_lt_size (hs.isFallback_fallback hw)]

/-- A stub that there is no room for leaves the chain and the arena. -/
theorem of_insert_eq_error {c c' : Chain} {a a' : Arena} {s : Stub} {e : CacheError}
    (h : c.insert a s = (.error e, c', a')) : c' = c ∧ a' = a ∧ e.isOutOfMemory = true := by
  unfold insert at h
  split at h
  · next hadd =>
    cases h
    exact ⟨rfl, Arena.of_add_eq_error hadd⟩
  · cases h

theorem insert_spec {c c' : Chain} {a a' : Arena} (hw : a.WellLinked) (hc : c.Sound a) {s : Stub}
    (hs : s.isFallback = false) {id : StubId} (h : c.insert a s = (.ok id, c', a')) :
    c.EditedTo a c' a' ∧ id = a.size ∧ c'.stubIds a' = id :: c.stubIds a ∧ a'.stub id = s ∧
      ∀ x, x ≠ id → a'.stub x = a.stub x := by
  unfold insert at h
  split at h
  · cases h
  · next added b hadd =>
    obtain ⟨he, rfl, rfl⟩ := Arena.editedAt_add hw c.fallback hs (hc.path.lt_size hw) hadd
    cases h
    have hpush : (a.push s (some c.head)).2.Path a.size (a.size :: c.stubIds a) c.fallback :=
      .step (Arena.next?_push_self hw s _) (hc.path.push hw s _)
    have hpath := hpush.recount (a.optimized + 1)
    have hids := stubIds_eq_of_path
      (c := { c with head := a.size, last := if c.isFallbackOnly then some a.size else c.last })
      he.wellLinked hpath
    refine ⟨⟨he, sound_of_path he.wellLinked hpath ?_, rfl⟩, rfl, hids, ?_, ?_⟩
    · change (if c.isFallbackOnly then some a.size else c.last) = _
      by_cases hnil : c.stubIds a = []
      · rw [if_pos ((isFallbackOnly_iff hc).2 hnil), hnil, List.getLast?_singleton]
      · rw [if_neg (mt (isFallbackOnly_iff hc).1 hnil), hc.last_eq, List.getLast?_cons]
        rw [List.getLast?_eq_some_getLast hnil, Option.getD_some]
    · exact Arena.stub_push_self a s (some c.head)
    · intro x hx
      exact Arena.stub_push_of_ne a s (some c.head) hx

/-- A stub is added before all others. -/
theorem stubs_insert {c c' : Chain} {a a' : Arena} (hw : a.WellLinked) (hc : c.Sound a) {s : Stub}
    (hs : s.isFallback = false) {id : StubId} (h : c.insert a s = (.ok id, c', a')) :
    c'.stubs a' = s :: c.stubs a := by
  obtain ⟨-, hid, hids, hnew, hothers⟩ := insert_spec hw hc hs h
  have hold : ∀ x ∈ c.stubIds a, a'.stub x = a.stub x := by
    intro x hx
    obtain ⟨_, hpath⟩ := hc.path.of_mem hx
    exact hothers x (by rw [hid]; exact Nat.ne_of_lt (hpath.lt_size hw))
  rw [stubs, stubs, hids, List.map_cons, hnew, List.map_congr_left hold]

private theorem path_leave_out {a : Arena} (hw : a.WellLinked) {head prev id next last : StubId}
    {front back : List StubId} (h : a.Path head (front ++ id :: back) last)
    (hprev : front.getLast? = some prev) (hid : a.next? id = some next) :
    (a.setNext prev (some next)).Path head (front ++ back) last := by
  induction front generalizing head with
  | nil => simp at hprev
  | cons x front ih =>
    have hnodup := h.nodup hw
    cases h with
    | step hnext tail =>
      cases front with
      | nil =>
        simp only [List.getLast?_singleton, Option.some.injEq] at hprev
        subst hprev
        cases tail with
        | step hid' rest =>
          rw [hid] at hid'
          cases hid'
          have hnot : x ∉ back := fun hx => by simp [hx] at hnodup
          have hne : x ≠ last := fun heq => by rw [heq, rest.next?_last] at hnext; cases hnext
          refine .step (Arena.next?_setNext_self hw (Arena.lt_size_of_next? hw hnext) _) ?_
          exact rest.setNext_of_notMem _ hnot hne
      | cons y front =>
        have hne : x ≠ prev := fun heq => by
          have hmem := List.mem_of_getLast? (l := y :: front) (by simpa using hprev)
          rw [← heq] at hmem
          rw [List.cons_append] at hnodup
          exact (List.nodup_cons.1 hnodup).1 (List.mem_append_left _ hmem)
        refine .step (by rw [Arena.next?_setNext_of_ne a _ hne]; exact hnext) ?_
        exact ih tail (by simpa using hprev)

theorem unlink_spec {c c' : Chain} {a a' : Arena} {z z' : Zone} (hw : a.WellLinked)
    {prev : Option StubId} {id : StubId} {front back : List StubId}
    (hpath : a.Path c.head (front ++ id :: back) c.fallback) (hprev : prev = front.getLast?)
    (hlast : c.last = (front ++ id :: back).getLast?) (h : c.unlink a z prev id = (c', a', z')) :
    a.EditedAt c.fallback a' ∧ a'.Path c'.head (front ++ back) c.fallback ∧
      c'.last = (front ++ back).getLast? ∧ c'.fallback = c.fallback ∧
      ∀ x, a'.stub x = a.stub x := by
  have hnewLast : (if c.last = some id then prev else c.last) = (front ++ back).getLast? := by
    rw [hlast]
    cases back with
    | nil => simp [hprev]
    | cons y back =>
      have hnil : y :: back ≠ [] := List.cons_ne_nil y back
      have hne : (y :: back).getLast hnil ≠ id := fun heq => by
        have hnodup := (hpath.nodup hw).sublist (List.sublist_append_right front _)
        exact (List.nodup_cons.1 hnodup).1 (heq ▸ List.getLast_mem hnil)
      rw [List.getLast?_append, List.getLast?_append, List.getLast?_cons_cons,
        List.getLast?_eq_some_getLast hnil, Option.some_or,
        if_neg (by simpa using hne)]
  obtain ⟨x, htail, hbefore, hnil⟩ := hpath.append_inv
  cases htail with
  | @step _ next _ _ hid rest =>
    cases hp : front.getLast? with
    | none =>
      have hfront : front = [] := List.getLast?_eq_none_iff.1 hp
      subst hfront
      rw [hprev, hp] at h hnewLast
      simp only [unlink, hid, Option.getD_some] at h
      cases h
      exact ⟨.refl hw, rest, hnewLast, rfl, fun _ => rfl⟩
    | some p =>
      rw [hprev, hp] at h hnewLast
      simp only [unlink, hid] at h
      cases h
      have hpid := hbefore p hp
      obtain ⟨ids, hpathP⟩ := hpath.of_mem (List.mem_append_left _ (List.mem_of_getLast? hp))
      exact ⟨Arena.editedAt_setNext hw hpid hid hpathP, path_leave_out hw hpath hp hid, hnewLast, rfl,
        fun _ => rfl⟩

/-- Taking stubs out of the rest of a chain, when `front` was looked at before and stayed. -/
theorem unlinkFrom_spec (p : Stub → Bool) {rest : List StubId} :
    ∀ {front : List StubId} {prev : Option StubId} {c c' : Chain} {a a' : Arena} {z z' : Zone}
      {removed : Nat}, a.WellLinked → a.Path c.head (front ++ rest) c.fallback →
      prev = front.getLast? → c.last = (front ++ rest).getLast? →
      unlinkFrom p rest prev c a z = (removed, c', a', z') →
      a.EditedAt c.fallback a' ∧
        a'.Path c'.head (front ++ rest.filter fun id => !p (a.stub id)) c.fallback ∧
        c'.last = (front ++ rest.filter fun id => !p (a.stub id)).getLast? ∧
        c'.fallback = c.fallback ∧ (∀ x, a'.stub x = a.stub x) ∧
        removed = (rest.filter fun id => p (a.stub id)).length := by
  induction rest with
  | nil =>
    intro front prev c c' a a' z z' removed hw hpath _ hlast h
    cases h
    exact ⟨.refl hw, hpath, hlast, rfl, fun _ => rfl, rfl⟩
  | cons id rest ih =>
    intro front prev c c' a a' z z' removed hw hpath hprev hlast h
    rw [unlinkFrom] at h
    cases hp : p (a.stub id) with
    | false =>
      rw [if_neg (by simp [hp])] at h
      have hsnoc : front ++ id :: rest = (front ++ [id]) ++ rest := by simp
      rw [hsnoc] at hpath hlast
      obtain ⟨he, hpath', hlast', hfallback, hstub, hcount⟩ := ih hw hpath (by simp) hlast h
      have hsplit : front ++ (id :: rest).filter (fun id => !p (a.stub id)) =
          (front ++ [id]) ++ rest.filter fun id => !p (a.stub id) := by simp [hp]
      rw [hsplit]
      exact ⟨he, hpath', hlast', hfallback, hstub, by simp [hp, hcount]⟩
    | true =>
      rw [if_pos hp] at h
      cases hu : c.unlink a z prev id with
      | mk c₁ r =>
      obtain ⟨a₁, z₁⟩ := r
      rw [hu] at h
      obtain ⟨he₁, hpath₁, hlast₁, hfallback₁, hstub₁⟩ := unlink_spec hw hpath hprev hlast hu
      cases hr : unlinkFrom p rest prev c₁ a₁ z₁ with
      | mk n r =>
      obtain ⟨c₂, a₂, z₂⟩ := r
      simp only [hr] at h
      cases h
      rw [← hfallback₁] at hpath₁
      obtain ⟨he, hpath', hlast', hfallback, hstub, hcount⟩ :=
        ih he₁.wellLinked hpath₁ hprev hlast₁ hr
      simp only [hstub₁] at hpath' hlast' hcount
      rw [hfallback₁] at he hpath' hfallback
      refine ⟨he₁.trans he, by simpa [hp] using hpath', by simpa [hp] using hlast', hfallback, ?_,
        by simp [hp, hcount]⟩
      intro x
      rw [hstub, hstub₁]

/-- The stubs that stay are those without the property, in their old order, and their number and that
of the stubs taken out is the old one. -/
theorem unlinkMatching_spec {c c' : Chain} {a a' : Arena} {z z' : Zone} (hw : a.WellLinked)
    (hc : c.Sound a) (p : Stub → Bool) {removed : Nat}
    (h : c.unlinkMatching a z p = (removed, c', a', z')) :
    c.EditedTo a c' a' ∧ c'.stubIds a' = ((c.stubIds a).filter fun id => !p (a.stub id)) ∧
      (∀ x, a'.stub x = a.stub x) ∧
      removed = ((c.stubIds a).filter fun id => p (a.stub id)).length := by
  have hfront : (none : Option StubId) = ([] : List StubId).getLast? := rfl
  obtain ⟨he, hpath, hlast, hfallback, hstub, hcount⟩ :=
    unlinkFrom_spec p hw hc.path hfront hc.last_eq h
  rw [List.nil_append] at hpath hlast
  have hpath' : a'.Path c'.head ((c.stubIds a).filter fun id => !p (a.stub id)) c'.fallback := by
    rw [hfallback]
    exact hpath
  exact ⟨⟨he, sound_of_path he.wellLinked hpath' hlast, hfallback⟩,
    stubIds_eq_of_path he.wellLinked hpath', hstub, hcount⟩

/-- The stubs that stay keep their order. -/
theorem stubs_unlinkMatching {c c' : Chain} {a a' : Arena} {z z' : Zone} (hw : a.WellLinked)
    (hc : c.Sound a) {p : Stub → Bool} {removed : Nat}
    (h : c.unlinkMatching a z p = (removed, c', a', z')) :
    c'.stubs a' = (c.stubs a).filter fun s => !p s := by
  obtain ⟨-, hids, hstub, -⟩ := unlinkMatching_spec hw hc p h
  rw [stubs, stubs, hids, funext hstub, List.filter_map]
  rfl

theorem discardAll_spec {c c' : Chain} {a a' : Arena} {z z' : Zone} (hw : a.WellLinked)
    (hc : c.Sound a) {removed : Nat} (h : c.discardAll a z = (removed, c', a', z')) :
    c.EditedTo a c' a' ∧ c'.stubIds a' = [] ∧ (∀ x, a'.stub x = a.stub x) ∧
      removed = (c.stubIds a).length := by
  obtain ⟨he, hids, hstub, hcount⟩ := unlinkMatching_spec hw hc (fun _ => true) h
  refine ⟨he, ?_, hstub, ?_⟩
  · rw [hids]
    exact List.filter_eq_nil_iff.2 fun _ _ => by simp
  · rw [hcount, List.filter_eq_self.2 fun _ _ => rfl]

/-- What stays as it is when one stub is taken out, in the arena and in the zone, stays so when several
are. -/
theorem unlinkFrom_keeps {K : Arena → Zone → Prop}
    (hunlink : ∀ {c : Chain} {a : Arena} {z : Zone} {prev : Option StubId} {id : StubId}, K a z →
      K (c.unlink a z prev id).2.1 (c.unlink a z prev id).2.2) {p : Stub → Bool} {rest : List StubId} :
    ∀ {prev : Option StubId} {c c' : Chain} {a a' : Arena} {z z' : Zone} {removed : Nat},
      unlinkFrom p rest prev c a z = (removed, c', a', z') → K a z → K a' z' := by
  induction rest with
  | nil =>
    intro prev c c' a a' z z' removed h hold
    cases h
    exact hold
  | cons id rest ih =>
    intro prev c c' a a' z z' removed h hold
    rw [unlinkFrom] at h
    split at h
    · cases hr : unlinkFrom p rest prev (c.unlink a z prev id).1 (c.unlink a z prev id).2.1
        (c.unlink a z prev id).2.2 with
      | mk n r =>
      simp only [hr] at h
      cases h
      exact ih hr (hunlink hold)
    · exact ih h hold

/-- Taking stubs out makes no room, since the places of stubs are never used again. -/
theorem isFull_unlinkFrom {p : Stub → Bool} {rest : List StubId} {prev : Option StubId} {c c' : Chain}
    {a a' : Arena} {z z' : Zone} {removed : Nat}
    (h : unlinkFrom p rest prev c a z = (removed, c', a', z')) : a'.isFull = a.isFull := by
  refine unlinkFrom_keeps (K := fun b _ => b.isFull = a.isFull) ?_ h rfl
  intro c b z prev id hold
  cases prev <;> exact hold

/-- There is room for a stub unless the arena is full. -/
theorem insert_of_not_full {a : Arena} (h : a.isFull = false) (c : Chain) (s : Stub) :
    ∃ id c' a', c.insert a s = (.ok id, c', a') := by
  simp [insert, Arena.add, h]

theorem replace_spec {c : Chain} {a : Arena} (hw : a.WellLinked) (hc : c.Sound a) {id : StubId}
    (hid : id ∈ c.stubIds a) {s : Stub} (hs : s.isFallback = false) :
    c.EditedTo a c (a.replace id s) ∧ c.stubIds (a.replace id s) = c.stubIds a ∧
      (a.replace id s).stub id = s ∧ ∀ x, x ≠ id → (a.replace id s).stub x = a.stub x := by
  obtain ⟨rest, hpath⟩ := hc.path.of_mem hid
  have he := Arena.editedAt_replace hw (hc.path.isFallback_of_mem hw hid) hs hpath
  have hpath' := hc.path.replace id s
  exact ⟨⟨he, sound_of_path he.wellLinked hpath' hc.last_eq, rfl⟩,
    stubIds_eq_of_path he.wellLinked hpath', Arena.stub_replace_self a s (hpath.lt_size hw),
    fun _ hx => Arena.stub_replace_of_ne a s hx⟩

end InlineCache.Chain
