import InlineCache.Proofs.Machine.Recorded
import InlineCache.Proofs.World.Course

namespace InlineCache

namespace UnitCache.Confined

variable {touched : ChainPlace → Prop} {c c' : UnitCache}

/-- An entry that nothing was done to is the same, and so are its chains. -/
theorem entry_kept (h : c.Confined touched c') {index : Nat} (hin : index < c.entries.size)
    (hmain : ¬ touched (.main index)) (hmonitor : ¬ touched (.monitor index)) :
    c'.entry index = c.entry index ∧
      (c'.entry index).chain.stubIds c'.arena = (c.entry index).chain.stubIds c.arena ∧
      (c'.entry index).chain.stubs c'.arena = (c.entry index).chain.stubs c.arena ∧
      c'.monitorStubs index = c.monitorStubs index ∧ c'.monitorGuards index = c.monitorGuards index := by
  have hentry := h.entry_eq hmain hmonitor
  have hchain := chain?_main hin
  rw [monitorStubs, monitorStubs, monitorGuards, monitorGuards, hentry]
  refine ⟨rfl, h.stubIds_eq hmain hchain, h.stubs_eq hmain hchain, ?_⟩
  cases hm : (c.entry index).monitor with
  | none => exact ⟨rfl, rfl⟩
  | some m =>
    have hwatch : c.chain? (.monitor index) = some m.chain.chain := by
      rw [chain?_monitor hin, hm]
      rfl
    have hstubs := h.stubs_eq hmonitor hwatch
    have hguards : m.chain.guards c'.arena = m.chain.guards c.arena :=
      Chain.guards_congr (h.stubIds_eq hmonitor hwatch) hstubs
    simp only [Option.map_some, Option.getD_some, hstubs, hguards, and_self]

/-- The chain for a property that nothing was done to is the same. -/
theorem update_kept (h : c.Confined touched c') {group : GroupId} {key : PropertyKey}
    (hupdate : ¬ touched (.update group key)) :
    c'.updates.find? (group, key) = c.updates.find? (group, key) ∧
      c'.updateStubs group key = c.updateStubs group key ∧
      ∀ t, c.updates.find? (group, key) = some t → t.chain.stubIds c'.arena = t.chain.stubIds c.arena := by
  have hchain {t : TypeChain} (ht : c.updates.find? (group, key) = some t) :
      c.chain? (.update group key) = some t.chain := by simp [chain?, ht]
  have hfind := h.update_eq hupdate
  refine ⟨hfind, ?_, fun t ht => h.stubIds_eq hupdate (hchain ht)⟩
  rw [updateStubs, updateStubs, hfind]
  cases ht : c.updates.find? (group, key) with
  | none => rfl
  | some t => exact h.stubs_eq hupdate (hchain ht)

end UnitCache.Confined

/-- A use of an entry is done beside all that it does not work on. All chains of the unit lie in one
arena, so the frame is about the way that each of them leads there, not just about where it begins. -/
theorem World.confined_dispatch {σ : Type} {w : World σ} {c : CacheId} {id : EntryId} (hl : w.Linked)
    (hown : (w.cache c).owns id = true) {natives : Natives σ} {ops : Operands}
    (hbody : ∀ p w', World.begin c id ops w = .called p w' →
      (natives p.body p.this p.args w').2.caches.get? c = w'.caches.get? c) :
    (w.cache c).Confined (fun p => p = .main id.index ∨ Beside id.index (w.shownWrite? c id ops) p)
      ((World.dispatch natives c id ops w).2.cache c) := by
  have hat := hl.at_of_owns hown
  have hbegin := (course_begin hl c id ops).within hat
  rw [dispatch_eq_complete]
  cases hused : World.begin c id ops w with
  | answered result w' =>
    rw [hused] at hbegin
    exact hbegin.confined
  | called p w' =>
    rw [hused] at hbegin
    obtain ⟨w₁, hcall⟩ := callOf?_of_called hused
    obtain ⟨-, rfl, hindex, -⟩ := place_of_callOf? hcall
    -- the function leaves the unit as it was when it was called
    have hsame : (natives p.body p.this p.args w').2.cache p.cache = w'.cache p.cache := by
      rw [World.cache, World.cache, Table.get, Table.get, hbody p w' hused]
    have hat' : (natives p.body p.this p.args w').2.At p.cache p.index := by
      have hat₁ := hat.within hbegin
      exact ⟨by rw [hsame, hindex]; exact hat₁.lt, by rw [hsame]; exact hat₁.linked⟩
    have hfinish := (within_finish hat' (natives p.body p.this p.args w').1).confined
    rw [hsame, hindex] at hfinish
    exact hbegin.confined.trans (hfinish.mono fun _ hp => .inr (.inl hp))

namespace Machine

variable {σ : Type} {m : Machine σ}

/-- A use of an entry leaves all other entries of the unit as they are, and all type guards over writes but
those of the written property of the group of the written object, if what it calls leaves the unit alone. -/
theorem dispatch_leaves_rest (hm : m.Reached (.fitting False)) {natives : Natives σ} {c : CacheId}
    {id : EntryId} {ops : Operands}
    (hbody : ∀ p w, World.begin c id ops m.world = .called p w →
      (natives p.body p.this p.args w).2.caches.get? c = w.caches.get? c) :
    let before := m.world.cache c
    let after := (World.dispatch natives c id ops m.world).2.cache c
    (∀ other < before.entries.size, other ≠ id.index →
      -- how far the entry is specialized, what was counted and noted of it, and the types of its results
      after.entry other = before.entry other ∧
      (after.entry other).chain.stubIds after.arena = (before.entry other).chain.stubIds before.arena ∧
      (after.entry other).chain.stubs after.arena = (before.entry other).chain.stubs before.arena ∧
      after.monitorStubs other = before.monitorStubs other ∧
      after.monitorGuards other = before.monitorGuards other) ∧
    ∀ (group : GroupId) (key : PropertyKey),
      (∀ o v, m.Stores (.use c id ops) c o key v → (m.world.heap.object o).group ≠ group) →
      after.updates.find? (group, key) = before.updates.find? (group, key) ∧
      after.updateStubs group key = before.updateStubs group key ∧
      ∀ t, before.updates.find? (group, key) = some t →
        t.chain.stubIds after.arena = t.chain.stubIds before.arena := by
  intro before after
  have hwatched := hm.watched
  have hlinked := hwatched.sound.linked.world
  by_cases hown : before.owns id = true
  · have hconfined : before.Confined (fun p => p = .main id.index ∨
        World.Beside id.index (m.world.shownWrite? c id ops) p) after :=
      World.confined_dispatch hlinked hown hbody
    constructor
    · intro other hlt hne
      refine hconfined.entry_kept hlt ?_ ?_ <;> rintro (heq | heq | ⟨_, _, _, _, heq⟩) <;> cases heq
      · exact hne rfl
      · exact hne rfl
    · intro group key hnone
      refine hconfined.update_kept ?_
      rintro (heq | heq | ⟨_, _, v, hshown, heq⟩) <;> cases heq
      have hwrites : m.Writes (.use c id ops) c group key v := writes_of_showing hwatched hshown
      cases hwrites with
      | store hstores => exact hnone _ _ hstores rfl
  · have hsame : after = before := by
      simp only [after, before, World.dispatch, hown]
      rfl
    rw [hsame]
    exact ⟨fun _ _ _ => ⟨rfl, rfl, rfl, rfl, rfl⟩, fun _ _ _ => ⟨rfl, rfl, fun _ _ => rfl⟩⟩

/-- An object of a tracked group, in a unit that writes a property and has read it. -/
def propertyRead : Machine Unit := (initial .standard (fun _ _ => none) ()).run
  [.host trackedGroup .initial .empty 0 (),
    .addCache ⟨1, "f", 0, false, 0, #[.setProp 0, .getProp 0], #["x"]⟩,
    .use 1 ⟨1, 1⟩ (.unary (.object 1))]

private theorem propertyRead_reached : propertyRead.Reached (.fitting False) :=
  ⟨.standard, fun _ _ => none, (), _, by exact ⟨recording_trackedGroup.1, trivial, trivial, trivial⟩, rfl⟩

/-- The write leaves the stub of the read and the guards over its results as they are. -/
theorem read_kept_by_write :
    let after := (World.dispatch .absent 1 ⟨1, 0⟩ (.binary (.object 1) (.int32 7))
      propertyRead.world).2.cache 1
    ((after.entry 1).chain.stubs after.arena).length = 1 ∧
      after.monitorGuards 1 = [.primitives (PrimitiveSet.empty.insert .undefined)] := by
  intro after
  have hbody : ∀ p w, World.begin 1 ⟨1, 0⟩ (.binary (.object 1) (.int32 7)) propertyRead.world =
      .called p w → (Natives.absent p.body p.this p.args w).2.caches.get? 1 = w.caches.get? 1 :=
    fun _ _ _ => rfl
  have hframe := dispatch_leaves_rest propertyRead_reached hbody
  have hsize : (propertyRead.world.cache 1).entries.size = 2 := by decide +kernel
  obtain ⟨-, -, hstubs, -, hguards⟩ := hframe.1 1 (by rw [hsize]; decide) (by decide)
  have hone : (((propertyRead.world.cache 1).entry 1).chain.stubs
      (propertyRead.world.cache 1).arena).length = 1 := by decide +kernel
  have hundefined : (propertyRead.world.cache 1).monitorGuards 1 =
      [.primitives (PrimitiveSet.empty.insert .undefined)] := by decide +kernel
  exact ⟨by rw [hstubs, hone], by rw [hguards, hundefined]⟩

end Machine

end InlineCache
