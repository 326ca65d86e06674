import InlineCache.Collector.Zone

namespace InlineCache

namespace Barrier

variable {b : Barrier} {t u : Thing}

private theorem isMarked_shade_self (b : Barrier) (t : Thing) : (b.shade t).isMarked t = true := by
  unfold shade
  split
  · simp [isMarked, color]
  · next hcolor => simpa [isMarked] using hcolor

private theorem isMarked_shade (u : Thing) (h : b.isMarked t = true) :
    (b.shade u).isMarked t = true := by
  by_cases ht : t = u
  · rw [ht]
    exact isMarked_shade_self b u
  · unfold shade
    split
    · simpa only [isMarked, color, Assoc.find?_set_of_ne _ _ ht] using h
    · exact h

private theorem isMarked_shadeAll {edges : List Edge} :
    ∀ {b : Barrier}, b.isMarked t = true → (b.shadeAll edges).isMarked t = true := by
  induction edges with
  | nil => exact fun h => h
  | cons e edges ih => exact fun h => ih (isMarked_shade e.thing h)

/-- Everything that edges lead to is reached once they are handed over. -/
theorem isMarked_shadeAll_of_mem {edges : List Edge} {e : Edge} (he : e ∈ edges) :
    ∀ b : Barrier, (b.shadeAll edges).isMarked e.thing = true := by
  induction edges with
  | nil => cases he
  | cons e' edges ih =>
    intro b
    rcases List.mem_cons.1 he with rfl | he
    · exact isMarked_shadeAll (b := b.shade e.thing) (isMarked_shade_self b e.thing)
    · exact ih he _

end Barrier

namespace Zone

/-- Whether a mark has reached a thing. -/
def isMarked (z : Zone) (t : Thing) : Bool := z.barrier.isMarked t

/-- A mark neither begins nor ends, and what it has reached stays reached. -/
structure Keeps (z z' : Zone) : Prop where
  marking : z'.marking = z.marking
  marked : ∀ t, z.isMarked t = true → z'.isMarked t = true

theorem Keeps.refl (z : Zone) : z.Keeps z := ⟨rfl, fun _ h => h⟩

theorem Keeps.trans {z z' z'' : Zone} (h : z.Keeps z') (h' : z'.Keeps z'') : z.Keeps z'' :=
  ⟨h'.marking.trans h.marking, fun t ht => h'.marked t (h.marked t ht)⟩

theorem keeps_preBarrier (z : Zone) (edges : List Edge) : z.Keeps (z.preBarrier edges) := by
  unfold preBarrier
  split
  · exact ⟨rfl, fun _ h => Barrier.isMarked_shadeAll h⟩
  · exact .refl z

/-- While a mark runs, the barrier reaches all that it is handed. -/
theorem isMarked_preBarrier {z : Zone} (hmarking : z.marking = true) {edges : List Edge} {e : Edge}
    (he : e ∈ edges) : (z.preBarrier edges).isMarked e.thing = true := by
  rw [preBarrier, if_pos hmarking]
  exact Barrier.isMarked_shadeAll_of_mem he z.barrier

theorem keeps_reportOom (z : Zone) : z.Keeps z.reportOom := ⟨rfl, fun _ h => h⟩

private theorem isMarked_drainFold {t : Thing} {queue : List Thing} :
    ∀ {b : Barrier}, b.isMarked t = true →
      (⟨queue.foldl (fun marks u => marks.set u .black) b.marks, []⟩ : Barrier).isMarked t = true := by
  induction queue with
  | nil => exact fun h => h
  | cons u queue ih =>
    intro b h
    refine @ih ⟨b.marks.set u .black, []⟩ ?_
    by_cases ht : t = u
    · simp [Barrier.isMarked, Barrier.color, ht]
    · simpa only [Barrier.isMarked, Barrier.color, Assoc.find?_set_of_ne _ _ ht] using h

/-- Handing out what waits leaves it reached. -/
theorem keeps_drain (z : Zone) : z.Keeps z.drain.2 := ⟨rfl, fun _ h => isMarked_drainFold h⟩

end Zone

end InlineCache
