import InlineCache.Proofs.Collector.Barrier

namespace InlineCache

namespace Color

/-- One action of a mark leaves a color, or makes it the next one. -/
inductive Moves : Color → Color → Prop where
  | stay (c : Color) : Moves c c
  | reach : Moves white gray
  | scan : Moves gray black

/-- The place of a color in the order in which a mark gives them. -/
def rank : Color → Nat
  | white => 0
  | gray => 1
  | black => 2

private theorem Moves.rank_le {c c' : Color} (h : Moves c c') : c.rank ≤ c'.rank := by
  cases h with
  | stay => exact Nat.le_refl _
  | reach => exact Nat.zero_le _
  | scan => exact Nat.le_succ _

end Color

namespace Thing

private theorem le_trans {a b c : Thing} (hab : a.le b = true) (hbc : b.le c = true) :
    a.le c = true := by
  simp only [le, Bool.or_eq_true, Bool.and_eq_true, decide_eq_true_eq, beq_iff_eq] at hab hbc ⊢
  omega

private theorem le_total (a b : Thing) : (a.le b || b.le a) = true := by
  simp only [le, Bool.or_eq_true, Bool.and_eq_true, decide_eq_true_eq, beq_iff_eq]
  omega

private theorem pairwise_le_sorted (things : List Thing) :
    (sorted things).Pairwise fun a b => a.le b = true :=
  @List.pairwise_mergeSort Thing le (fun _ _ _ => le_trans) le_total things

private theorem nodup_sorted {things : List Thing} : (sorted things).Nodup ↔ things.Nodup :=
  (List.mergeSort_perm things le).nodup_iff

private theorem mem_sorted {things : List Thing} {t : Thing} : t ∈ sorted things ↔ t ∈ things :=
  (List.mergeSort_perm things le).mem_iff

end Thing

namespace Barrier

variable {b : Barrier} {t u : Thing}

/-- The queue lists the gray things, each once, and things of which nothing is known are the white ones.
Both are kept apart and say the same. -/
structure Sound (b : Barrier) : Prop where
  keyed : b.marks.Keyed
  nodup : b.queue.Nodup
  mem_queue_iff : ∀ t, t ∈ b.queue ↔ b.color t = .gray
  known : ∀ t, b.marks.find? t ≠ some .white

private theorem empty_sound : empty.Sound where
  keyed := Assoc.keyed_empty
  nodup := .nil
  mem_queue_iff _ := ⟨fun h => (List.not_mem_nil h).elim, nofun⟩
  known _ := nofun

private theorem color_set (b : Barrier) (queue : List Thing) (t u : Thing) (c : Color) :
    (⟨b.marks.set t c, queue⟩ : Barrier).color u = if u = t then c else b.color u := by
  by_cases hu : u = t
  · simp [color, hu]
  · simp [color, hu, Assoc.find?_set_of_ne _ _ hu]

private theorem known_set {marks : Assoc Thing Color} (h : ∀ t, marks.find? t ≠ some .white) {c : Color}
    (hc : c ≠ .white) (t u : Thing) : (marks.set t c).find? u ≠ some .white := by
  by_cases hu : u = t
  · rw [hu, Assoc.find?_set_self]
    exact fun heq => hc (Option.some.inj heq)
  · rw [Assoc.find?_set_of_ne _ _ hu]
    exact h u

/-- The keys of the marks are the things that were reached. -/
theorem Sound.mem_keys_iff (h : b.Sound) :
    t ∈ b.marks.entries.map (·.1) ↔ b.isMarked t = true := by
  rw [Assoc.mem_keys_iff]
  have hknown := h.known t
  cases hfind : b.marks.find? t with
  | none => simp [isMarked, color, hfind]
  | some c =>
    have hc : c ≠ .white := fun heq => hknown (by rw [hfind, heq])
    simp [isMarked, color, hfind, hc]

/-- Handing a thing over colors it if it is white, and no other thing. -/
theorem color_shade (b : Barrier) (t u : Thing) :
    (b.shade t).color u = if u = t ∧ b.color t = .white then .gray else b.color u := by
  unfold shade
  by_cases ht : b.color t = .white
  · rw [if_pos ht, color_set]
    simp only [ht, and_true]
  · rw [if_neg ht, if_neg (fun h => ht h.2)]

/-- Only a white thing joins the queue, and no white thing waits there. -/
theorem Sound.shade (h : b.Sound) (t : Thing) : (b.shade t).Sound := by
  by_cases ht : b.color t = .white
  · have hnot : t ∉ b.queue := fun hmem => by
      have hgray := (h.mem_queue_iff t).1 hmem
      rw [ht] at hgray
      cases hgray
    have hmem (u : Thing) : u ∈ b.queue ++ [t] ↔ (b.shade t).color u = .gray := by
      rw [List.mem_append, List.mem_singleton, h.mem_queue_iff, color_shade]
      by_cases hu : u = t
      · simp [hu, ht]
      · simp [hu]
    rw [Barrier.shade, if_pos ht] at hmem ⊢
    refine
      { keyed := h.keyed.set t .gray
        nodup := List.nodup_append.2 ⟨h.nodup, List.pairwise_singleton _ t, fun u hu v hv heq => ?_⟩
        mem_queue_iff := hmem
        known := known_set h.known (fun heq => by cases heq) t }
    rw [heq, List.mem_singleton.1 hv] at hu
    exact hnot hu
  · rw [Barrier.shade, if_neg ht]
    exact h

private theorem Sound.shadeAll {edges : List Edge} :
    ∀ {b : Barrier}, b.Sound → (b.shadeAll edges).Sound := by
  induction edges with
  | nil => exact fun h => h
  | cons e edges ih => exact fun h => ih (h.shade e.thing)

/-- Handing over all that edges lead to colors what is white of it, once. -/
theorem color_shadeAll {edges : List Edge} (u : Thing) : ∀ (b : Barrier),
    (b.shadeAll edges).color u =
      if u ∈ edges.map (·.thing) ∧ b.color u = .white then .gray else b.color u := by
  induction edges with
  | nil => simp [shadeAll]
  | cons e edges ih =>
    intro b
    refine (ih (b.shade e.thing)).trans ?_
    rw [color_shade]
    by_cases hu : u = e.thing
    · subst hu
      by_cases hwhite : b.color e.thing = .white <;> simp [hwhite]
    · simp [hu]

private theorem isMarked_shadeAll_iff {edges : List Edge} :
    (b.shadeAll edges).isMarked t = true ↔ b.isMarked t = true ∨ t ∈ edges.map (·.thing) := by
  simp only [isMarked, bne_iff_ne, color_shadeAll]
  by_cases ht : b.color t = .white <;> simp [ht]

private theorem find?_blacken (u : Thing) {things : List Thing} : ∀ marks : Assoc Thing Color,
    (things.foldl (fun marks t => marks.set t .black) marks).find? u =
      if u ∈ things then some .black else marks.find? u := by
  induction things with
  | nil => exact fun marks => (if_neg List.not_mem_nil).symm
  | cons t things ih =>
    intro marks
    refine (ih (marks.set t .black)).trans ?_
    by_cases hu : u = t
    · simp [hu]
    · simp [hu, Assoc.find?_set_of_ne _ _ hu]

private theorem keyed_blacken {things : List Thing} : ∀ {marks : Assoc Thing Color}, marks.Keyed →
    (things.foldl (fun marks t => marks.set t .black) marks).Keyed := by
  induction things with
  | nil => exact fun h => h
  | cons t things ih => exact fun h => ih (h.set t .black)

/-- Handing out the gray things turns them black, and changes no other color. -/
theorem color_drain (b : Barrier) (u : Thing) :
    b.drain.2.color u = if u ∈ b.queue then .black else b.color u := by
  simp only [drain, color, find?_blacken]
  split <;> rfl

private theorem Sound.drain (h : b.Sound) : b.drain.2.Sound where
  keyed := keyed_blacken h.keyed
  nodup := .nil
  mem_queue_iff t := by
    refine ⟨fun hmem => (List.not_mem_nil hmem).elim, fun hgray => ?_⟩
    rw [color_drain] at hgray
    split at hgray
    · cases hgray
    · next hnot => exact absurd ((h.mem_queue_iff t).2 hgray) hnot
  known t := by
    simp only [Barrier.drain, find?_blacken]
    split
    · exact fun heq => by cases heq
    · exact h.known t

/-- Scanning colors nothing that was not reached before. -/
theorem Sound.isMarked_drain_iff (h : b.Sound) :
    b.drain.2.isMarked t = true ↔ b.isMarked t = true := by
  simp only [isMarked, bne_iff_ne, color_drain]
  split
  · next hmem => simp [(h.mem_queue_iff t).1 hmem]
  · rfl

/-- Handing things over moves their colors from white to gray. -/
theorem moves_shadeAll (b : Barrier) (edges : List Edge) (t : Thing) :
    (b.color t).Moves ((b.shadeAll edges).color t) := by
  rw [color_shadeAll]
  split
  · next h =>
    rw [h.2]
    exact .reach
  · exact .stay _

/-- Scanning moves the colors of what waits from gray to black. -/
theorem Sound.moves_drain (h : b.Sound) (t : Thing) : (b.color t).Moves (b.drain.2.color t) := by
  rw [color_drain]
  split
  · next hmem =>
    rw [(h.mem_queue_iff t).1 hmem]
    exact .scan
  · exact .stay _

end Barrier

/-- What is done with the barrier of a zone. -/
inductive MarkAction where
  | beginMark
  | preBarrier (edges : List Edge)
  | drain
  | finishMark

namespace MarkAction

/-- Whether an action leaves the zone in the same mark, or outside any. -/
def IsInner : MarkAction → Prop
  | beginMark | finishMark => False
  | preBarrier _ | drain => True

/-- What was handed over since the latest mark began, if that one has not ended. Outside a mark there is
nothing to hand over to. -/
def handOver : Option (List Thing) → MarkAction → Option (List Thing)
  | _, beginMark => some []
  | reached, preBarrier edges => reached.map (· ++ edges.map (·.thing))
  | reached, drain => reached
  | _, finishMark => none

/-- What was handed over in the mark that runs after some actions, if one runs. -/
def handedOver (actions : List MarkAction) : Option (List Thing) := actions.foldl handOver none

end MarkAction

namespace Zone

variable {z : Zone} {reached : Option (List Thing)}

def act (z : Zone) : MarkAction → Zone
  | .beginMark => z.beginMark
  | .preBarrier edges => z.preBarrier edges
  | .drain => z.drain.2
  | .finishMark => z.finishMark.2

def run (z : Zone) (actions : List MarkAction) : Zone := actions.foldl act z

/-- The books of a zone are in order, and what it knows is what was handed over. -/
structure Tracks (z : Zone) (reached : Option (List Thing)) : Prop where
  marking : z.marking = reached.isSome
  barrier : z.barrier.Sound
  isMarked_iff : ∀ t, z.isMarked t = true ↔ t ∈ reached.getD []

private theorem initial_tracks : initial.Tracks none where
  marking := rfl
  barrier := Barrier.empty_sound
  isMarked_iff _ := ⟨nofun, fun h => (List.not_mem_nil h).elim⟩

/-- Outside a mark nothing is handed over. -/
theorem preBarrier_of_not_marking (h : z.marking = false) (edges : List Edge) :
    z.preBarrier edges = z := by
  rw [preBarrier, h]
  rfl

private theorem Tracks.preBarrier (h : z.Tracks reached) (edges : List Edge) :
    (z.preBarrier edges).Tracks (MarkAction.handOver reached (.preBarrier edges)) := by
  cases reached with
  | none =>
    rw [preBarrier_of_not_marking h.marking]
    exact h
  | some things =>
    have hmarking : z.marking = true := h.marking
    rw [Zone.preBarrier, if_pos hmarking]
    refine ⟨hmarking, h.barrier.shadeAll, fun t => ?_⟩
    exact (Barrier.isMarked_shadeAll_iff.trans (or_congr_left (h.isMarked_iff t))).trans
      List.mem_append.symm

private theorem Tracks.act (h : z.Tracks reached) (a : MarkAction) :
    (z.act a).Tracks (MarkAction.handOver reached a) := by
  cases a with
  | beginMark => exact ⟨rfl, Barrier.empty_sound, initial_tracks.isMarked_iff⟩
  | preBarrier edges => exact h.preBarrier edges
  | drain =>
    exact ⟨h.marking, h.barrier.drain, fun t => h.barrier.isMarked_drain_iff.trans (h.isMarked_iff t)⟩
  | finishMark => exact ⟨rfl, Barrier.empty_sound, initial_tracks.isMarked_iff⟩

private theorem Tracks.run (h : z.Tracks reached) (actions : List MarkAction) :
    (z.run actions).Tracks (actions.foldl MarkAction.handOver reached) := by
  induction actions generalizing z reached with
  | nil => exact h
  | cons a rest ih => exact ih (h.act a)

/-- Within a mark one action moves every color by one step at most. -/
theorem Tracks.moves (h : z.Tracks reached) {a : MarkAction} (ha : a.IsInner) (t : Thing) :
    (z.barrier.color t).Moves ((z.act a).barrier.color t) := by
  cases a with
  | beginMark => exact ha.elim
  | preBarrier edges =>
    simp only [Zone.act, Zone.preBarrier]
    split
    · exact Barrier.moves_shadeAll _ edges t
    · exact .stay _
  | drain => exact h.barrier.moves_drain t
  | finishMark => exact ha.elim

/-- Within a mark no color ever goes back. -/
theorem Tracks.rank_le (h : z.Tracks reached) {inner : List MarkAction}
    (hinner : ∀ a ∈ inner, a.IsInner) (t : Thing) :
    (z.barrier.color t).rank ≤ ((z.run inner).barrier.color t).rank := by
  induction inner generalizing z reached with
  | nil => exact Nat.le_refl _
  | cons a inner ih =>
    obtain ⟨ha, hinner⟩ := List.forall_mem_cons.1 hinner
    exact Nat.le_trans (h.moves ha t).rank_le (ih (h.act a) hinner)

/-- The things that the end of a mark hands out: these things, each once and in ascending order, and all is
white again. -/
structure Ends (things : List Thing) (ending : List Thing × Zone) : Prop where
  mem_iff : ∀ t, t ∈ ending.1 ↔ t ∈ things
  nodup : ending.1.Nodup
  ascending : ending.1.Pairwise fun a b => a.le b = true
  marking : ending.2.marking = false
  white : ∀ t, ending.2.barrier.color t = .white

private theorem Tracks.ends (h : z.Tracks reached) : Ends (reached.getD []) z.finishMark where
  mem_iff t := (Thing.mem_sorted.trans h.barrier.mem_keys_iff).trans (h.isMarked_iff t)
  nodup := Thing.nodup_sorted.2 h.barrier.keyed
  ascending := Thing.pairwise_le_sorted _
  marking := rfl
  white _ := rfl

/-- What holds of a zone after some actions on its barrier. -/
structure InStep (actions : List MarkAction) (z : Zone) : Prop where
  /-- The queue lists the gray things, each once. -/
  nodup : z.barrier.queue.Nodup
  mem_queue_iff : ∀ t, t ∈ z.barrier.queue ↔ z.barrier.color t = .gray
  /-- Within a mark an action moves a color by one step at most, and no color ever goes back. -/
  moves : ∀ a : MarkAction, a.IsInner → ∀ t, (z.barrier.color t).Moves ((z.act a).barrier.color t)
  onward : ∀ inner : List MarkAction, (∀ a ∈ inner, a.IsInner) →
    ∀ t, (z.barrier.color t).rank ≤ ((z.run inner).barrier.color t).rank
  /-- Outside a mark nothing is known, and nothing is recorded. -/
  outside : MarkAction.handedOver actions = none →
    (∀ t, z.barrier.color t = .white) ∧ ∀ edges, z.preBarrier edges = z
  /-- The end of a mark hands out what was handed over since that mark began. -/
  ends : ∀ things, MarkAction.handedOver actions = some things → Ends things z.finishMark

/-- However marks begin and end, things are handed over and waiting ones are scanned, the queue and the
colors of the barrier stay in step, and each mark ends with exactly what was handed over in it. A mark that
begins before another one has ended starts anew. -/
theorem barrier_in_step (actions : List MarkAction) : (initial.run actions).InStep actions := by
  have h : (initial.run actions).Tracks (MarkAction.handedOver actions) := initial_tracks.run actions
  refine
    { nodup := h.barrier.nodup
      mem_queue_iff := h.barrier.mem_queue_iff
      moves := fun a ha t => h.moves ha t
      onward := fun inner hinner t => h.rank_le hinner t
      outside := fun hnone => ?_
      ends := fun things hthings => ?_ }
  · rw [hnone] at h
    refine ⟨fun t => ?_, fun edges => preBarrier_of_not_marking h.marking edges⟩
    have hnot : (initial.run actions).isMarked t ≠ true := fun hmarked =>
      List.not_mem_nil ((h.isMarked_iff t).1 hmarked)
    simpa only [isMarked, Barrier.isMarked, ne_eq, bne_iff_ne, Decidable.not_not] using hnot
  · rw [hthings] at h
    exact h.ends

/-- A thing that was scanned does not wait again when it is handed over once more. -/
example : (initial.run [.beginMark, .preBarrier [⟨.ofShape 9, "shape"⟩], .drain,
    .preBarrier [⟨.ofShape 9, "shape"⟩]]).barrier.queue = [] := rfl

end Zone

end InlineCache
