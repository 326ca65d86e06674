import InlineCache.Proofs.Stub.Run

namespace InlineCache

/-- The rules under which stubs fit, where besides a heap keeps what it has recorded, and writes are
recorded only for groups that are there. -/
def Rules.recording : Rules :=
  { Rules.fitting False with
    allows := fun h h' => h.Evolves False h' ∧ h.Records h'
    writes := fun h group => group ≤ h.groups.size }

theorem Rules.recording_tightens : Rules.recording.Tightens (.fitting False) :=
  ⟨fun h => h.1, id, fun _ => trivial, id⟩

theorem Rules.recording_cover : Rules.recording.Cover (Heap.WellFormed False) :=
  { fitting_cover False with
    valid_of_allows := fun hw hallows => (hallows.1 hw).2
    allows_refl := fun h => ⟨.refl False h, .refl h⟩
    allows_enterCall := fun h id =>
      ⟨(fitting_cover False).allows_enterCall h id, World.records_enterCall h id⟩
    allows_leaveCall := fun h id =>
      ⟨(fitting_cover False).allows_leaveCall h id, World.records_leaveCall h id⟩
    writes_object := fun id hw => (hw.object id).group_le
    allows_outcome := fun _ houtcome => by
      refine ⟨Request.evolves_outcome houtcome, ?_⟩
      obtain rfl | hworking : _ = _ ∨ Heap.Working False _ _ := Request.working_outcome houtcome
      · exact .refl _
      · exact hworking.records }

end InlineCache
