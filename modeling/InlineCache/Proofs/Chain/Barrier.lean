import InlineCache.Proofs.Chain.Sound
import InlineCache.Proofs.Collector.Barrier

namespace InlineCache.Chain

private theorem stub_unlink (c : Chain) (a : Arena) (z : Zone) (prev : Option StubId) (id x : StubId) :
    (c.unlink a z prev id).2.1.stub x = a.stub x := by
  cases prev <;> rfl

private theorem zone_unlink (c : Chain) (a : Arena) (z : Zone) (prev : Option StubId) (id : StubId) :
    (c.unlink a z prev id).2.2 = z.preBarrier (a.stub id).edges := by
  cases prev <;> rfl

/-- What the stubs that are taken out kept alive is reached, if a mark runs. -/
theorem unlinkFrom_barrier (p : Stub → Bool) {rest : List StubId} :
    ∀ {prev : Option StubId} {c c' : Chain} {a a' : Arena} {z z' : Zone} {removed : Nat},
      unlinkFrom p rest prev c a z = (removed, c', a', z') →
      z.Keeps z' ∧ (z.marking = true → ∀ id ∈ rest, p (a.stub id) = true →
        ∀ e ∈ (a.stub id).edges, z'.isMarked e.thing = true) := by
  induction rest with
  | nil =>
    intro prev c c' a a' z z' removed h
    cases h
    exact ⟨.refl z, fun _ id hid => by cases hid⟩
  | cons id rest ih =>
    intro prev c c' a a' z z' removed h
    rw [unlinkFrom] at h
    split at h
    · next hp =>
      cases hr : unlinkFrom p rest prev (c.unlink a z prev id).1 (c.unlink a z prev id).2.1
        (c.unlink a z prev id).2.2 with
      | mk n r =>
      obtain ⟨c₂, a₂, z₂⟩ := r
      simp only [hr] at h
      cases h
      obtain ⟨hkeeps, hmarked⟩ := ih hr
      simp only [stub_unlink, zone_unlink] at hkeeps hmarked
      have hfirst := z.keeps_preBarrier (a.stub id).edges
      refine ⟨hfirst.trans hkeeps, fun hmarking x hx hpx e he => ?_⟩
      rcases List.mem_cons.1 hx with rfl | hx
      · exact hkeeps.marked _ (Zone.isMarked_preBarrier hmarking he)
      · exact hmarked (hfirst.marking.trans hmarking) x hx hpx e he
    · next hp =>
      obtain ⟨hkeeps, hmarked⟩ := ih h
      refine ⟨hkeeps, fun hmarking x hx hpx e he => ?_⟩
      rcases List.mem_cons.1 hx with rfl | hx
      · exact absurd hpx hp
      · exact hmarked hmarking x hx hpx e he

private theorem oomCount_preBarrier (z : Zone) (edges : List Edge) :
    (z.preBarrier edges).oomCount = z.oomCount := by
  unfold Zone.preBarrier
  split <;> rfl

/-- To take stubs out asks for no memory. -/
theorem oomCount_unlinkFrom {p : Stub → Bool} {rest : List StubId} {prev : Option StubId} {c c' : Chain}
    {a a' : Arena} {z z' : Zone} {removed : Nat}
    (h : unlinkFrom p rest prev c a z = (removed, c', a', z')) : z'.oomCount = z.oomCount := by
  refine unlinkFrom_keeps (K := fun _ x => x.oomCount = z.oomCount) ?_ h rfl
  intro c b x prev id hold
  rw [zone_unlink, oomCount_preBarrier, hold]

theorem unlinkMatching_barrier {c c' : Chain} {a a' : Arena} {z z' : Zone} {p : Stub → Bool}
    {removed : Nat} (h : c.unlinkMatching a z p = (removed, c', a', z')) :
    z.Keeps z' ∧ (z.marking = true → ∀ id ∈ c.stubIds a, p (a.stub id) = true →
      ∀ e ∈ (a.stub id).edges, z'.isMarked e.thing = true) :=
  unlinkFrom_barrier p h

end InlineCache.Chain
