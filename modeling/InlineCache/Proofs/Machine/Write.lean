import InlineCache.Proofs.Machine.Fitted
import InlineCache.Proofs.Stub.Write

namespace InlineCache

namespace Machine

/-- A stub that writes a property does what the write does in full, wherever the key is that of a named
property. Where it is the length of an array, or an index into it, the object is left the same only if
neither of the two changes it. -/
theorem write_stub_eq_iff {σ : Type} {m : Machine σ} (hm : m.Reached (.fitting False))
    {c : CacheId} {index : Nat} (hin : index < (m.world.cache c).entries.size) {key : PropertyKey}
    (hrole : ((m.world.cache c).site index).role = .operation (.setProp key)) {stub : Stub} {code : Code}
    (hmem : stub ∈ ((m.world.cache c).entry index).chain.stubs (m.world.cache c).arena)
    (hcode : stub.code = some code) (natives : Natives σ) {id : ObjectId} {v : Value}
    (hguard : Guard.holds m.world.heap code.signature stub (.binary (.object id) v) = true) :
    ((m.world.heap.object id).cls.Named key →
      Handler.run natives code.signature stub (.binary (.object id) v) m.world =
        (Request.setProp (.object id) key v).perform natives m.world) ∧
    (¬ (m.world.heap.object id).cls.Named key →
      (((Handler.run natives code.signature stub (.binary (.object id) v)
            m.world).2.heap.object id).SameProperties
          (((Request.setProp (.object id) key v).perform natives m.world).2.heap.object id) ↔
        code.signature = .setPropSlot ∧
          (Handler.run natives code.signature stub (.binary (.object id) v) m.world).2.heap.object id =
            m.world.heap.object id ∧
          ((Request.setProp (.object id) key v).perform natives m.world).2.heap.object id =
            m.world.heap.object id)) := by
  have hfitted := hm.sound.fitted.bench (World.hasCache_of_lt hin)
  obtain ⟨op, hop, hfits⟩ := hfitted.stub index hin stub hmem
  cases hrole.symm.trans hop
  have hstub := hfits code hcode
  exact ⟨hstub.run_write_of_named natives hguard, hstub.run_write_of_not_named natives hguard⟩

/-- A group with a plain object and an array, which share the root shape as well. -/
def sharedGroup : Heap :=
  let h := (Heap.initial.addGroup (.ofClass .plain)).2
  ((h.newObject 5).2.newArray 5 #[.int32 1, .int32 2, .int32 3]).2

theorem evolves_sharedGroup : Heap.initial.Evolves False sharedGroup := by
  have hgroup : Heap.Working False .initial (Heap.initial.addGroup (.ofClass .plain)).2 :=
    .addGroup _
  have hobject : Heap.Working False (Heap.initial.addGroup (.ofClass .plain)).2
      ((Heap.initial.addGroup (.ofClass .plain)).2.newObject 5).2 :=
    .newObject (by decide) False.elim
  have harray : Heap.Working False ((Heap.initial.addGroup (.ofClass .plain)).2.newObject 5).2
      sharedGroup := .newArray _ (by decide) False.elim
  exact (hgroup.evolves.trans hobject.evolves).trans harray.evolves

/-- A property named as the length of arrays is added to the plain object. -/
def writePlain : List (Action Unit) :=
  [.host sharedGroup .initial .empty 0 (), .addCache ⟨1, "f", 0, false, 0, #[.setProp 0], #["length"]⟩,
    .use 1 ⟨1, 0⟩ (.binary (.object 1) (.int32 7))]

/-- The machine when the plain object has the property. -/
def plainWritten : Machine Unit := (initial .standard (fun _ _ => none) ()).run writePlain

theorem plainWritten_reached : plainWritten.Reached (.fitting False) :=
  ⟨.standard, fun _ _ => none, (), writePlain, ⟨evolves_sharedGroup, trivial, trivial, trivial⟩, rfl⟩

/-- The stub for the plain object accepts the array, to which it adds a slot. -/
theorem exists_stub_plainWritten :
    ∃ stub ∈ ((plainWritten.world.cache 1).entry 0).chain.stubs (plainWritten.world.cache 1).arena,
      ∃ code, stub.code = some code ∧ code.signature = .addSlot ∧
        Guard.holds plainWritten.world.heap code.signature stub
          (.binary (.object 2) (.int32 1)) = true ∧
        ((Handler.run (fun _ _ _ w => (.ok .undefined, w)) code.signature stub
          (.binary (.object 2) (.int32 1)) plainWritten.world).2.heap.object 2).slots =
            #[.int32 1] := by
  have hstubs : (((plainWritten.world.cache 1).entry 0).chain.stubs
      (plainWritten.world.cache 1).arena).map (fun stub => (stub.code.map (·.signature),
        Guard.holds plainWritten.world.heap .addSlot stub (.binary (.object 2) (.int32 1)),
        ((Handler.run (fun _ _ _ w => (.ok .undefined, w)) .addSlot stub
          (.binary (.object 2) (.int32 1)) plainWritten.world).2.heap.object 2).slots)) =
      [(some .addSlot, true, #[.int32 1])] := by decide +kernel
  obtain ⟨stub, hstub, heq⟩ := List.map_eq_singleton_iff.1 hstubs
  obtain ⟨hcode, hrest⟩ := Prod.mk.inj heq
  obtain ⟨code, hcode, hsignature⟩ := Option.map_eq_some_iff.1 hcode
  obtain ⟨hguard, hslots⟩ := Prod.mk.inj hrest
  exact ⟨stub, by simp [hstub], code, hcode, hsignature, by rw [hsignature]; exact hguard,
    by rw [hsignature]; exact hslots⟩

/-- The array is not left as the write in full leaves it. -/
theorem array_written_as_plain :
    ∃ stub ∈ ((plainWritten.world.cache 1).entry 0).chain.stubs (plainWritten.world.cache 1).arena,
      ∃ code, stub.code = some code ∧
        Guard.holds plainWritten.world.heap code.signature stub
          (.binary (.object 2) (.int32 1)) = true ∧
        ¬ ((Handler.run (fun _ _ _ w => (.ok .undefined, w)) code.signature stub
              (.binary (.object 2) (.int32 1)) plainWritten.world).2.heap.object 2).SameProperties
            (((Request.setProp (.object 2) "length" (.int32 1)).perform
              (fun _ _ _ w => (.ok .undefined, w)) plainWritten.world).2.heap.object 2) := by
  obtain ⟨stub, hmem, code, hcode, hsignature, hguard, -⟩ := exists_stub_plainWritten
  have hsize : (plainWritten.world.cache 1).entries.size = 1 := by decide +kernel
  have hrole : ((plainWritten.world.cache 1).site 0).role = .operation (.setProp "length") := by
    decide +kernel
  have harray : (plainWritten.world.heap.object 2).cls = .array := by decide +kernel
  have hiff := (write_stub_eq_iff plainWritten_reached (by rw [hsize]; exact Nat.one_pos) hrole hmem
    hcode (fun _ _ _ w => (.ok .undefined, w)) hguard).2 fun hnamed => (hnamed harray).1 rfl
  refine ⟨stub, hmem, code, hcode, hguard, fun hsame => ?_⟩
  have hslot := hsignature.symm.trans (hiff.1 hsame).1
  cases hslot

/-- Not every stub that writes a property leaves every object that its guard accepts as the write in full
leaves it. -/
theorem write_stub_not_always_eq :
    ¬ ∀ (m : Machine Unit), m.Reached (.fitting False) →
      ∀ (c : CacheId) (index : Nat) (key : PropertyKey), index < (m.world.cache c).entries.size →
        ((m.world.cache c).site index).role = .operation (.setProp key) →
      ∀ stub ∈ ((m.world.cache c).entry index).chain.stubs (m.world.cache c).arena,
      ∀ code, stub.code = some code → ∀ (natives : Natives Unit) (id : ObjectId) (v : Value),
        Guard.holds m.world.heap code.signature stub (.binary (.object id) v) = true →
        ((Handler.run natives code.signature stub (.binary (.object id) v)
            m.world).2.heap.object id).SameProperties
          (((Request.setProp (.object id) key v).perform natives m.world).2.heap.object id) := by
  intro hall
  obtain ⟨stub, hmem, code, hcode, -, hguard, hslots⟩ := exists_stub_plainWritten
  have hsize : (plainWritten.world.cache 1).entries.size = 1 := by decide +kernel
  have hsame := hall plainWritten plainWritten_reached 1 0 "length" (by rw [hsize]; exact Nat.one_pos)
    (by decide +kernel) stub hmem code hcode (fun _ _ _ w => (.ok .undefined, w)) 2 (.int32 1) hguard
  have harray : (plainWritten.world.heap.object 2).cls = .array := by decide +kernel
  obtain ⟨elements, hfull⟩ := Request.object_setProp_of_not_named (fun _ _ _ w => (.ok .undefined, w))
    (.int32 1) fun hnamed => (hnamed harray).1 rfl
  have hempty : (plainWritten.world.heap.object 2).slots = #[] := by decide +kernel
  rw [hfull] at hsame
  cases hslots.symm.trans (hsame.slots.trans hempty)

end Machine

end InlineCache
