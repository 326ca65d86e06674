import InlineCache.Proofs.Heap.Layout
import Mathlib.Data.List.Perm.Basic

namespace InlineCache

/-- The root of the shape with which an action makes an object. -/
def HeapAction.root? : HeapAction → Option ShapeId
  | .create _ _ _ root _ _ => some root
  | _ => none

namespace Heap

/-- The names that an object has in a heap and did not have in the one before. -/
def gained (h h' : Heap) (id : ObjectId) : List PropertyKey :=
  ((h'.shapeOf id).offsets.entries.map (·.1)).filter fun key => !h.hasOwnNamed id key

/-- The names that an object gains in a run, the first one first. -/
def order (h : Heap) : List HeapAction → ObjectId → List PropertyKey
  | [], _ => []
  | a :: rest, id => h.gained (h.act a) id ++ order (h.act a) rest id

/-- The root with which an object is made in a run. -/
def madeWith (h : Heap) : List HeapAction → ObjectId → Option ShapeId
  | [], _ => none
  | a :: rest, id => (if id = h.objects.next then a.root? else none).or (madeWith (h.act a) rest id)

variable {h h' : Heap} {written : ObjectId → PropertyKey → Prop} {id : ObjectId} {root : ShapeId}

private theorem mem_gained_iff (hl : h.Laid) (hl' : h'.Laid) (id : ObjectId) (key : PropertyKey) :
    key ∈ h.gained h' id ↔ key ∈ h'.names id ∧ key ∉ h.names id := by
  rw [gained, List.mem_filter, Assoc.mem_keys_iff, hl'.mem_names_iff, hl.mem_names_iff]
  simp [hasOwnNamed, Shape.offsetOf?]

private theorem nodup_gained (hl' : h'.Laid) : (h.gained h' id).Nodup :=
  (hl'.forest.keyed _).filter _

/-- What an action leaves of the names of an object, and what the object gains. -/
theorem Stepped.names_eq (hl : h.Laid) (hs : Stepped h h' written) (id : ObjectId) :
    h'.names id = h.names id ++ h.gained h' id := by
  have hmem := mem_gained_iff hl (hl.stepped hs) id
  rcases hs.names_cases hl id with hsame | ⟨key, hnew, hmore⟩
  · have hnone : h.gained h' id = [] := List.eq_nil_iff_forall_not_mem.2 fun key hkey => by
      obtain ⟨hkey', hnot⟩ := (hmem key).1 hkey
      exact hnot (hsame ▸ hkey')
    rw [hnone, List.append_nil, hsame]
  · have hone : h.gained h' id = [key] := by
      refine List.perm_singleton.1 ((List.perm_ext_iff_of_nodup (nodup_gained (hl.stepped hs))
        (List.nodup_singleton key)).2 fun other => ?_)
      rw [hmem, hmore, List.mem_append, List.mem_singleton]
      constructor
      · rintro ⟨hold | heq, hnot⟩
        · exact absurd hold hnot
        · exact heq
      · rintro rfl
        exact ⟨.inr rfl, hnew⟩
    rw [hone, hmore]

private theorem names_run (hl : h.Laid) {actions : List HeapAction} (hobeys : h.Obeys actions)
    (id : ObjectId) : (h.run actions).names id = h.names id ++ h.order actions id := by
  induction actions generalizing h with
  | nil => exact (List.append_nil _).symm
  | cons a rest ih =>
    have hs := stepped_act hl hobeys.1
    have hrest := ih (hl.stepped hs) hobeys.2
    rw [hs.names_eq hl, List.append_assoc] at hrest
    exact hrest

/-- An object stays with its root. -/
theorem Stepped.rootOf_eq (hl : h.Laid) (hs : Stepped h h' written) (hid : id ≤ h.objects.size) :
    h'.rootOf (h'.object id).shape = h.rootOf (h.object id).shape := by
  cases hs.change id hid with
  | keep hshape _ | write _ _ hshape _ _ => exact congrArg Lineage.root (hs.lineage_of_keep hl hshape)
  | gain key v _ hstep _ _ => exact congrArg Lineage.root (hs.lineage_of_gain hl hstep)

private theorem rootOf_run (hl : h.Laid) {actions : List HeapAction} (hobeys : h.Obeys actions)
    (hid : id ≤ h.objects.size) :
    (h.run actions).rootOf ((h.run actions).object id).shape = h.rootOf (h.object id).shape := by
  induction actions generalizing h with
  | nil => rfl
  | cons a rest ih =>
    have hs := stepped_act hl hobeys.1
    have hid' := Nat.le_trans hid (hs.evolves hl.wellFormed).1.objects_le
    exact (ih (hl.stepped hs) hobeys.2 hid').trans (hs.rootOf_eq hl hid)

/-- An object that an action makes has the shape that is its root. -/
theorem Stepped.rootOf_created {a : HeapAction} (hs : Stepped h (h.act a) written)
    (ha : a.root? = some root) :
    h.objects.next ≤ (h.act a).objects.size ∧
      (h.act a).rootOf ((h.act a).object h.objects.next).shape = root := by
  cases a with
  | create cls group singleton root' elements function =>
    obtain rfl : root' = root := Option.some.inj ha
    have hsize : (h.act (.create cls group singleton root' elements function)).objects.size =
        h.objects.size + 1 := Table.size_add _ _
    have hle := Nat.le_of_eq hsize.symm
    have hroot := (hs.created h.objects.next (Nat.lt_succ_self _) hle).2
    rw [shapeOf, object_act_create] at hroot
    rw [object_act_create]
    exact ⟨hle, congrArg Lineage.root (Forest.lineage_of_root hroot)⟩
  | _ => cases ha

/-- An object that is made in a run has the root that it is made with. -/
theorem rootOf_of_madeWith (hl : h.Laid) {actions : List HeapAction} (hobeys : h.Obeys actions)
    (hmade : h.madeWith actions id = some root) :
    (h.run actions).rootOf ((h.run actions).object id).shape = root := by
  induction actions generalizing h with
  | nil => cases hmade
  | cons a rest ih =>
    have hs := stepped_act hl hobeys.1
    have hl' := hl.stepped hs
    rcases Option.or_eq_some_iff.1 hmade with hnow | ⟨-, hlater⟩
    · split at hnow
      · next hid =>
        subst hid
        obtain ⟨hle, hroot⟩ := hs.rootOf_created hnow
        exact (rootOf_run hl' hobeys.2 hle).trans hroot
      · cases hnow
    · exact ih hl' hobeys.2 hlater

/-- The shape of an object comes from the root that the object was made with by the names that it gained. -/
theorem lineage_of_madeWith {actions : List HeapAction} (hobeys : initial.Obeys actions)
    (hmade : initial.madeWith actions id = some root) :
    (initial.run actions).lineage ((initial.run actions).object id).shape =
      ⟨root, (initial.order actions id).reverse⟩ := by
  have hnames := names_run initial_laid hobeys id
  rw [names_initial, List.nil_append, names] at hnames
  refine Lineage.ext (rootOf_of_madeWith initial_laid hobeys hmade) ?_
  rw [← hnames, List.reverse_reverse]
  rfl

end Heap

end InlineCache
