import InlineCache.Proofs.Machine.Work
import InlineCache.Proofs.Request.Kind
import InlineCache.Proofs.Stub.Fits

namespace InlineCache

/-- Heaps only grow, and a stub is linked only where it fits. The results of stubs are checked as those
of the operation are that they stand for. -/
def Rules.fitting (classed : Prop) : Rules where
  allows h h' := h.Evolves classed h'
  fits h op recipe := StubFits classed h op recipe.signature recipe.payload ∧
    recipe.kind = .specialized recipe.signature op.flavor
  fits_kind := by
    rintro _ _ recipe ⟨-, hkind⟩
    rw [hkind]
    rfl

theorem Rules.fitting_cover (classed : Prop) :
    (Rules.fitting classed).Cover (Heap.WellFormed classed) where
  valid_of_allows hw hallows := (hallows hw).2
  valid_of_seen hw hs := (Heap.evolves_of_seen hs hw).2
  allows_refl h := .refl classed h
  allows_enterCall h id := by
    refine Heap.evolves_of_keep id (fun o => ⟨rfl, rfl, ?_⟩) (fun _ => rfl) fun _ he => he
    simp [Object.isCallable]
  allows_leaveCall h id := by
    refine Heap.evolves_of_keep id (fun o => ⟨rfl, rfl, ?_⟩) (fun _ => rfl) fun _ he => he
    simp [Object.isCallable]
  writes_object _ _ := trivial
  allows_outcome _ houtcome := Request.evolves_outcome houtcome
  fits_decision hw hr hrecipe := by
    rw [(Request.eq_of_request? hr).1]
    exact ⟨Request.fits_decision hw hrecipe, (Request.specialized_decision _ _).recipe hrecipe⟩
  fits_secondLook hw hseen hr hdeferred houtcome hrecipe := by
    rw [(Request.eq_of_request? hr).1]
    exact ⟨Request.fits_secondLook hw hseen hdeferred houtcome hrecipe,
      (Request.specialized_secondLook _ _ _).recipe hrecipe⟩

end InlineCache
