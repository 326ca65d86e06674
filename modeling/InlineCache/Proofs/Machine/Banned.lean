import InlineCache.Proofs.Heap.Banned
import InlineCache.Proofs.Machine.Built
import InlineCache.Proofs.Operation.ElementKey

namespace InlineCache

namespace Machine

variable {σ : Type} {m : Machine σ}

/-- The host forbids new properties of an object. -/
def ban (m : Machine σ) (id : ObjectId) : Action σ :=
  .host (m.world.heap.preventExtensions id) m.world.runtime.zone m.world.bridges m.world.unitsMade
    m.world.host

private theorem heap_step_ban (m : Machine σ) (id : ObjectId) :
    (m.step (m.ban id)).world.heap = m.world.heap.preventExtensions id := rfl

private theorem Reached.ban (hm : m.Reached .building) (id : ObjectId) :
    (m.step (m.ban id)).Reached .building := by
  have hbuilt : m.world.heap.Built (m.world.heap.preventExtensions id) :=
    .working (.preventExtensions id) rfl
  have hobeys : m.Obeys .building [m.ban id] := ⟨hbuilt.builds, trivial⟩
  exact hm.run hobeys

/-- Once an object may not gain properties, it never may again, and it gains none that it lacks but elements,
if it is an array: it has a key that it lacked just if the key names one of the elements it has by then. -/
theorem banned_gains_elements_only (hm : m.Reached .building) {id : ObjectId}
    (hid : 0 < id ∧ id ≤ m.world.heap.objects.size) {later : List (Action σ)}
    (hlater : (m.step (m.ban id)).Obeys .building later) :
    (((m.step (m.ban id)).run later).world.heap.object id).extensible = false ∧
      ∀ key : PropertyKey,
        Operation.hasOwn (m.step (m.ban id)).world.heap (.string key) (.object id) = .ok false →
        Operation.hasOwn ((m.step (m.ban id)).run later).world.heap (.string key) (.object id) =
          .ok (decide ((m.world.heap.object id).cls = .array ∧
            Heap.IsElementKey (((m.step (m.ban id)).run later).world.heap.object id).elements.size key)) := by
  have hbuilds := (run_builds (hm.ban id).builds.1 hlater).2
  have hwellFormed := (hm.ban id).builds.1.fitted.heap
  have hobject : (m.step (m.ban id)).world.heap.object id =
      { m.world.heap.object id with extensible := false } :=
    Table.get_modify_self _ _ hid.1 hid.2
  have hbanned : ((m.step (m.ban id)).world.heap.object id).extensible = false := by rw [hobject]
  have hcls : ((m.step (m.ban id)).world.heap.object id).cls = (m.world.heap.object id).cls := by rw [hobject]
  have hle : id ≤ (m.step (m.ban id)).world.heap.objects.size := by
    rw [heap_step_ban, Heap.preventExtensions, Heap.modifyObject, Table.size_modify]
    exact hid.2
  refine ⟨(hbuilds.keepsBans hwellFormed id hle hbanned).1, fun key hlacks => ?_⟩
  rw [Operation.hasOwn_string_object] at hlacks ⊢
  have hiff := Heap.objectHasOwn_of_banned hbuilds hwellFormed hle hbanned (Except.ok.inj hlacks)
  rw [hcls] at hiff
  exact congrArg Except.ok (Bool.eq_iff_iff.2 (hiff.trans (decide_eq_true_iff ..).symm))

/-- A heap with an empty array. -/
def emptyArray : Heap := (Heap.initial.newArray Heap.arrayGroup #[]).2

private theorem built_emptyArray : Heap.initial.Built emptyArray :=
  .working (.newArray #[] (by decide) False.elim) rfl

/-- The machine whose heap has the array. -/
def withEmptyArray : Machine Unit :=
  (initial .standard (fun _ _ => none) ()).run [.host emptyArray .initial .empty 0 ()]

private theorem withEmptyArray_reached : withEmptyArray.Reached .building :=
  ⟨.standard, fun _ _ => none, (), [.host emptyArray .initial .empty 0 ()],
    ⟨built_emptyArray.builds, trivial⟩, rfl⟩

/-- A script writes the first element of the array. -/
def writeFirst : List (Action Unit) :=
  [.addCache ⟨1, "f", 0, false, 0, #[.setProp 0], #["0"]⟩,
    .use 1 ⟨1, 0⟩ (.binary (.object 1) (.int32 1))]

private theorem obeys_writeFirst :
    (withEmptyArray.step (withEmptyArray.ban 1)).Obeys .building writeFirst :=
  ⟨trivial, trivial, trivial⟩

/-- The array has no first element when it may gain no more properties. -/
theorem hasOwn_emptyArray :
    Operation.hasOwn (withEmptyArray.step (withEmptyArray.ban 1)).world.heap (.string "0") (.object 1) =
      .ok false := by
  decide +kernel

private theorem object_writeFirst :
    (((withEmptyArray.step (withEmptyArray.ban 1)).run writeFirst).world.heap.object 1).cls = .array ∧
      (((withEmptyArray.step (withEmptyArray.ban 1)).run writeFirst).world.heap.object 1).elements.size =
        1 := by
  constructor <;> decide +kernel

private theorem isElementKey_first : Heap.IsElementKey 1 "0" := ⟨0, by decide +kernel, Nat.one_pos⟩

/-- The array gains its first element all the same. -/
theorem banned_array_gains_element :
    Operation.hasOwn ((withEmptyArray.step (withEmptyArray.ban 1)).run writeFirst).world.heap (.string "0")
      (.object 1) = .ok true := by
  have hsize : withEmptyArray.world.heap.objects.size = 1 := by decide +kernel
  have harray : (withEmptyArray.world.heap.object 1).cls = .array := by decide +kernel
  rw [(banned_gains_elements_only withEmptyArray_reached ⟨Nat.one_pos, Nat.le_of_eq hsize.symm⟩
    obeys_writeFirst).2 "0" hasOwn_emptyArray, object_writeFirst.2,
    decide_eq_true ⟨harray, isElementKey_first⟩]

/-- An object that may not gain properties does not always lack the ones that it lacked. -/
theorem ban_not_always_kept :
    ¬ ∀ m : Machine Unit, m.Reached .building → ∀ id : ObjectId, 0 < id → id ≤ m.world.heap.objects.size →
      ∀ later : List (Action Unit), (m.step (m.ban id)).Obeys .building later → ∀ key : PropertyKey,
        Operation.hasOwn (m.step (m.ban id)).world.heap (.string key) (.object id) = .ok false →
        Operation.hasOwn ((m.step (m.ban id)).run later).world.heap (.string key) (.object id) =
          .ok false := by
  intro hall
  have hsize : withEmptyArray.world.heap.objects.size = 1 := by decide +kernel
  have hlacks := hall withEmptyArray withEmptyArray_reached 1 Nat.one_pos (Nat.le_of_eq hsize.symm) writeFirst
    obeys_writeFirst "0" hasOwn_emptyArray
  obtain ⟨harray, hfirst⟩ := object_writeFirst
  rw [Operation.hasOwn_string_object, (Heap.objectHasOwn_array_iff harray).2
    (.inr (.inl (by rw [hfirst]; exact isElementKey_first)))] at hlacks
  cases hlacks

end Machine

end InlineCache
