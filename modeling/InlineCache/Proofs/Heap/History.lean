import InlineCache.Proofs.Heap.Forest

namespace InlineCache

/-- A call for a shape: for a root of its own, or for the shape that adds a name to one that was given
before. -/
inductive ShapeCall where
  | root
  | transition (id : ShapeId) (key : PropertyKey)

namespace Heap

def giveShape (h : Heap) : ShapeCall → ShapeId × Heap
  | .root => h.addRoot
  | .transition id key => h.transition id key

end Heap

/-- A heap with the calls that were made for its shapes and what they gave, the last call first. -/
structure ShapeHistory where
  heap : Heap
  given : List (ShapeCall × ShapeId)

namespace ShapeHistory

def step (s : ShapeHistory) (c : ShapeCall) : ShapeHistory :=
  ⟨(s.heap.giveShape c).2, (c, (s.heap.giveShape c).1) :: s.given⟩

def run (s : ShapeHistory) (calls : List ShapeCall) : ShapeHistory := calls.foldl step s

/-- At the start there is a root. -/
def start : ShapeHistory := ⟨.initial, [(.root, Heap.rootShape)]⟩

/-- Whether a shape that a call names was given before. -/
def Allows (s : ShapeHistory) : ShapeCall → Prop
  | .root => True
  | .transition id _ => ∃ c, (c, id) ∈ s.given

def Obeys : ShapeHistory → List ShapeCall → Prop
  | _, [] => True
  | s, c :: rest => s.Allows c ∧ Obeys (s.step c) rest

/-- By the calls that were made, a shape comes from a root by the addition of names, in their order. -/
inductive ComesFrom (given : List (ShapeCall × ShapeId)) (root : ShapeId) :
    List PropertyKey → ShapeId → Prop where
  | root (hgiven : (.root, root) ∈ given) : ComesFrom given root [] root
  | add {names : List PropertyKey} {id next : ShapeId} {key : PropertyKey}
      (h : ComesFrom given root names id) (hgiven : (.transition id key, next) ∈ given) :
      ComesFrom given root (names ++ [key]) next

theorem ComesFrom.mono {given given' : List (ShapeCall × ShapeId)} {root id : ShapeId}
    {names : List PropertyKey} (h : ComesFrom given root names id) (hsub : ∀ p ∈ given, p ∈ given') :
    ComesFrom given' root names id := by
  induction h with
  | root hgiven => exact .root (hsub _ hgiven)
  | add _ hgiven ih => exact .add ih (hsub _ hgiven)

/-- What the calls that were made say of the shapes of a heap. It is the lineage of each, so a shape is
given again for the same names and never for other ones. -/
structure Sound (s : ShapeHistory) : Prop where
  wellFormed : s.heap.WellFormed False
  forest : s.heap.Forest
  there : ∀ c id, (c, id) ∈ s.given → 0 < id ∧ id ≤ s.heap.shapes.size
  rooted : ∀ id, (.root, id) ∈ s.given → s.heap.lineage id = ⟨id, []⟩
  added : ∀ parent key id, (.transition parent key, id) ∈ s.given →
    parent ≤ s.heap.shapes.size ∧ s.heap.lineage id = (s.heap.lineage parent).extend key
  comes : ∀ c id, (c, id) ∈ s.given → ∃ root names, ComesFrom s.given root names id
  /-- A new root was not given before. -/
  fresh : s.given.Pairwise fun newer older => newer.1 = .root → newer.2 ≠ older.2

theorem start_sound : start.Sound where
  wellFormed := Heap.initial_wellFormed False
  forest := Heap.initial_forest
  there c id hgiven := by
    cases List.mem_singleton.1 hgiven
    exact ⟨by decide, by decide⟩
  rooted id hgiven := by
    cases List.mem_singleton.1 hgiven
    exact Heap.Forest.lineage_of_root rfl
  added parent key id hgiven := by cases List.mem_singleton.1 hgiven
  comes c id hgiven := by
    cases List.mem_singleton.1 hgiven
    exact ⟨_, [], .root (List.mem_singleton.2 rfl)⟩
  fresh := List.pairwise_singleton _ _

variable {s : ShapeHistory}

/-- What was said of shapes stays, whatever shapes are made after. -/
theorem Sound.of_grows (hs : s.Sound) {h' : Heap} (hgrows : s.heap.Grows h')
    (hw' : h'.WellFormed False) (hf' : h'.Forest) : Sound ⟨h', s.given⟩ where
  wellFormed := hw'
  forest := hf'
  there c id hgiven := (hs.there c id hgiven).imp_right fun hle => Nat.le_trans hle hgrows.shapes_le
  rooted id hgiven := by
    have hle := (hs.there _ id hgiven).2
    exact (hs.forest.lineage_of_grows hf' hgrows hle).trans (hs.rooted id hgiven)
  added parent key id hgiven := by
    have hle := (hs.there _ id hgiven).2
    obtain ⟨hparent, hlineage⟩ := hs.added parent key id hgiven
    refine ⟨Nat.le_trans hparent hgrows.shapes_le, ?_⟩
    dsimp only
    rw [hs.forest.lineage_of_grows hf' hgrows hle, hs.forest.lineage_of_grows hf' hgrows hparent]
    exact hlineage
  comes := hs.comes
  fresh := hs.fresh

/-- One call more, which gave a root or added a name. -/
theorem Sound.note (hs : s.Sound) {c : ShapeCall} {id : ShapeId} (hpos : 0 < id)
    (hle : id ≤ s.heap.shapes.size)
    (hrooted : c = .root → s.heap.lineage id = ⟨id, []⟩ ∧ ∀ older ∈ s.given, id ≠ older.2)
    (hadded : ∀ parent key, c = .transition parent key →
      (∃ c', (c', parent) ∈ s.given) ∧ s.heap.lineage id = (s.heap.lineage parent).extend key) :
    Sound ⟨s.heap, (c, id) :: s.given⟩ where
  wellFormed := hs.wellFormed
  forest := hs.forest
  there c' id' hgiven := by
    rcases List.mem_cons.1 hgiven with heq | hold
    · cases heq
      exact ⟨hpos, hle⟩
    · exact hs.there c' id' hold
  rooted id' hgiven := by
    rcases List.mem_cons.1 hgiven with heq | hold
    · cases heq
      exact (hrooted rfl).1
    · exact hs.rooted id' hold
  added parent key id' hgiven := by
    rcases List.mem_cons.1 hgiven with heq | hold
    · cases heq
      obtain ⟨⟨c', hparent⟩, hlineage⟩ := hadded parent key rfl
      exact ⟨(hs.there c' parent hparent).2, hlineage⟩
    · exact hs.added parent key id' hold
  comes c' id' hgiven := by
    have hsub (p : ShapeCall × ShapeId) (hp : p ∈ s.given) : p ∈ (c, id) :: s.given :=
      List.mem_cons_of_mem _ hp
    rcases List.mem_cons.1 hgiven with heq | hold
    · cases heq
      cases c with
      | root => exact ⟨id, [], .root (List.mem_cons_self ..)⟩
      | transition parent key =>
        obtain ⟨⟨c', hparent⟩, -⟩ := hadded parent key rfl
        obtain ⟨root, names, hcomes⟩ := hs.comes c' parent hparent
        exact ⟨root, names ++ [key], .add (hcomes.mono hsub) (List.mem_cons_self ..)⟩
    · obtain ⟨root, names, hcomes⟩ := hs.comes c' id' hold
      exact ⟨root, names, hcomes.mono hsub⟩
  fresh := List.pairwise_cons.2 ⟨fun older holder hroot => (hrooted hroot).2 older holder, hs.fresh⟩

private theorem Sound.step (hs : s.Sound) {c : ShapeCall} (hc : s.Allows c) : (s.step c).Sound := by
  cases c with
  | root =>
    obtain ⟨hgrows, hw'⟩ := Heap.evolves_addRoot False s.heap hs.wellFormed
    have hkept := hs.of_grows hgrows hw' (Heap.forest_addRoot hs.forest)
    refine hkept.note (Nat.succ_pos _) (Nat.le_of_eq (Table.size_add _ _).symm) (fun _ => ?_) nofun
    constructor
    · exact Heap.Forest.lineage_of_root (congrArg Shape.parent (Table.get_add_next s.heap.shapes .root))
    · exact fun older holder => Nat.ne_of_gt (Nat.lt_succ_of_le (hs.there _ _ holder).2)
  | transition parent key =>
    obtain ⟨c', hparent⟩ := hc
    obtain ⟨hpos, hle⟩ := hs.there c' parent hparent
    obtain ⟨hgrows, hw'⟩ := Heap.evolves_transition hpos hle key hs.wellFormed
    have hf' := Heap.forest_transition hs.forest hpos hle key
    have hkept := hs.of_grows hgrows hw' hf'
    have hthere : 0 < (s.heap.transition parent key).1 ∧
        (s.heap.transition parent key).1 ≤ (s.heap.transition parent key).2.shapes.size :=
      Heap.transition_le key hs.wellFormed
    refine hkept.note hthere.1 hthere.2 nofun fun parent' key' heq => ?_
    cases heq
    exact ⟨⟨c', hparent⟩, hf'.lineage_of_transition (Heap.find?_transition hpos hle key)⟩

theorem Sound.run (hs : s.Sound) {calls : List ShapeCall} (hobeys : s.Obeys calls) :
    (s.run calls).Sound := by
  induction calls generalizing s with
  | nil => exact hs
  | cons c rest ih => exact ih (hs.step hobeys.1) hobeys.2

/-- The lineage of a shape is what the calls say of it. -/
theorem Sound.lineage_of_comesFrom (hs : s.Sound) {root id : ShapeId} {names : List PropertyKey}
    (h : ComesFrom s.given root names id) : s.heap.lineage id = ⟨root, names.reverse⟩ := by
  induction h with
  | root hgiven => exact hs.rooted root hgiven
  | @add names _ next key _ hgiven ih =>
    rw [(hs.added _ key next hgiven).2, ih, List.reverse_concat]
    rfl

/-- Whether shapes are told apart by where they come from. -/
structure Identified (s : ShapeHistory) : Prop where
  comes : ∀ c id, (c, id) ∈ s.given → ∃ root names, ComesFrom s.given root names id
  fresh : s.given.Pairwise fun newer older => newer.1 = .root → newer.2 ≠ older.2
  eq_iff : ∀ root root' names names' id id', ComesFrom s.given root names id →
    ComesFrom s.given root' names' id' → (id = id' ↔ root = root' ∧ names = names')

theorem Sound.identified (hs : s.Sound) : s.Identified where
  comes := hs.comes
  fresh := hs.fresh
  eq_iff root root' names names' id id' h h' := by
    have hlineage := hs.lineage_of_comesFrom h
    have hlineage' := hs.lineage_of_comesFrom h'
    constructor
    · rintro rfl
      obtain ⟨hroot, hnames⟩ := Lineage.mk.inj (hlineage.symm.trans hlineage')
      exact ⟨hroot, List.reverse_inj.1 hnames⟩
    · rintro ⟨rfl, rfl⟩
      exact hs.forest.eq_of_lineage_eq (hlineage.trans hlineage'.symm)

end ShapeHistory

end InlineCache
