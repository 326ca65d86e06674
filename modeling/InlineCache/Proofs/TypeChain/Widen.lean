import InlineCache.Proofs.Heap.Records
import InlineCache.Proofs.TypeChain.Edited
import Mathlib.Data.List.Basic

namespace InlineCache

namespace GuardList

/-- The guards have widened: all that was accepted still is, and there is one guard for primitives at
most. -/
def Widens (gs gs' : GuardList) : Prop := gs.OnePrimitives → gs'.OnePrimitives ∧ gs'.Covers gs

theorem Widens.refl (gs : GuardList) : gs.Widens gs := fun hone => ⟨hone, .refl gs⟩

theorem Widens.trans {gs gs' gs'' : GuardList} (h : gs.Widens gs') (h' : gs'.Widens gs'') :
    gs.Widens gs'' := by
  intro hone
  obtain ⟨hone', hcovers⟩ := h hone
  obtain ⟨hone'', hcovers'⟩ := h' hone'
  exact ⟨hone'', hcovers.trans hcovers'⟩

end GuardList

namespace GuardEdit

variable {gs : GuardList} {edit : GuardEdit} {h : Heap} {types : TypeSet} {v : Value}

/-- An edit that loses nothing widens the guards, if no two guards are at one place. -/
theorem Widens.apply (hw : edit.Widens gs) (hplaces : ∀ p ∈ gs, ∀ q ∈ gs, p.1 = q.1 → p = q)
    (id : StubId) : gs.Widens (edit.apply id gs) := by
  intro hone
  cases edit with
  | attach guard =>
    refine ⟨?_, fun heap v hv => ?_⟩
    · simp only [GuardEdit.apply, GuardList.OnePrimitives, List.countP_cons]
      split
      · next hprims => exact Nat.le_of_eq (congrArg (· + 1) (hw hprims))
      · exact hone
    · exact List.any_eq_true.2 (by
        obtain ⟨p, hp, haccepts⟩ := List.any_eq_true.1 hv
        exact ⟨p, List.mem_cons_of_mem _ hp, haccepts⟩)
  | replace place guard =>
    obtain ⟨hprims, old, hmem, holdPrims, hcovers⟩ := hw
    have hold {p : StubId × TypeGuard} (hp : p ∈ gs) (heq : p.1 = place) : p = (place, old) :=
      hplaces p hp _ hmem heq
    refine ⟨?_, fun heap v hv => ?_⟩
    · have hcount : (gs.map fun p => if p.1 = place then (place, guard) else p).countP
          (·.2.isPrimitives) = gs.countP (·.2.isPrimitives) := by
        rw [List.countP_map]
        refine List.countP_congr fun p hp => ?_
        by_cases heq : p.1 = place
        · simp [Function.comp, hprims, hold hp heq, holdPrims]
        · simp [Function.comp, heq]
      simp only [GuardEdit.apply, GuardList.OnePrimitives, hcount]
      exact hone
    · obtain ⟨p, hp, haccepts⟩ := List.any_eq_true.1 hv
      refine List.any_eq_true.2 ⟨_, List.mem_map_of_mem hp, ?_⟩
      by_cases heq : p.1 = place
      · rw [hold hp heq] at haccepts
        rw [if_pos heq]
        exact hcovers heap v haccepts
      · rw [if_neg heq]
        exact haccepts
  | replaceAll guard =>
    refine ⟨?_, fun heap v hv => ?_⟩
    · exact List.countP_le_length
    · obtain ⟨p, hp, haccepts⟩ := List.any_eq_true.1 hv
      exact List.any_eq_true.2 ⟨(id, guard), List.mem_singleton_self _, hw hone p hp heap v haccepts⟩

/-- What the new guard accepts is accepted after the edit. -/
theorem accepts_apply (hw : edit.Widens gs) (hv : edit.guard.accepts h v = true) (id : StubId) :
    (edit.apply id gs).accepts h v = true := by
  cases edit with
  | attach guard => exact List.any_eq_true.2 ⟨_, List.mem_cons_self, hv⟩
  | replace place guard =>
    obtain ⟨-, old, hmem, -⟩ := hw
    refine List.any_eq_true.2 ⟨_, List.mem_map_of_mem hmem, ?_⟩
    rw [if_pos rfl]
    exact hv
  | replaceAll guard => exact List.any_eq_true.2 ⟨_, List.mem_singleton_self _, hv⟩

private theorem within_apply (hgs : gs.Within h types) (hguard : edit.guard.Within h types)
    (id : StubId) : (edit.apply id gs).Within h types := by
  intro p hp
  cases edit with
  | attach guard =>
    rcases List.mem_cons.1 hp with rfl | hp
    · exact hguard
    · exact hgs p hp
  | replace place guard =>
    obtain ⟨q, hq, rfl⟩ := List.mem_map.1 hp
    by_cases heq : q.1 = place
    · rw [if_pos heq]
      exact hguard
    · rw [if_neg heq]
      exact hgs q hq
  | replaceAll guard =>
    rw [List.mem_singleton.1 hp]
    exact hguard

end GuardEdit

namespace TypeChain

variable {t t' : TypeChain} {env env' : AttachEnv} {heap heap' : Heap} {types types' : TypeSet}
  {v : Value}

/-- The guards after an edit was done. -/
theorem Done.guards {edit : GuardEdit} (hw : edit.Widens (t.guards env.arena))
    (h : t.Done env t' env' edit) :
    ∃ id, t'.guards env'.arena = edit.apply id (t.guards env.arena) := by
  cases h with
  | @attach guard id hnew hids hothers =>
    refine ⟨id, ?_⟩
    have hnewGuard := hnew.typeGuard?
    simp only [TypeChain.guards, hids, List.filterMap_cons, hnewGuard, Option.map_some, GuardEdit.apply]
    refine congrArg _ (List.filterMap_congr fun x hx => ?_)
    rw [hothers x hx]
  | @replace guard id hid hnew hids hothers =>
    refine ⟨id, ?_⟩
    obtain ⟨-, old, hmem, -⟩ := hw
    have hold := (mem_guards.1 hmem).2
    simp only [TypeChain.guards, hids, GuardEdit.apply, List.map_filterMap]
    refine List.filterMap_congr fun x _ => ?_
    by_cases hx : x = id
    · subst hx
      simp [hnew.typeGuard?, hold]
    · rw [hothers x hx]
      simp [Option.map_map, Function.comp_def, hx]
  | @replaceAll guard id hnew hids _ =>
    refine ⟨id, ?_⟩
    simp [TypeChain.guards, hids, hnew.typeGuard?, GuardEdit.apply]

/-- No two guards are at one place. -/
theorem eq_of_mem_guards {a : Arena} {p q : StubId × TypeGuard} (hp : p ∈ t.guards a)
    (hq : q ∈ t.guards a) (heq : p.1 = q.1) : p = q := by
  have hpg := (mem_guards.1 hp).2
  have hqg := (mem_guards.1 hq).2
  rw [heq, hqg] at hpg
  exact Prod.ext heq (Option.some.inj hpg).symm

/-- What became of the guards of a chain by widening it for a value, with the types known then. Nothing
that was accepted is lost, whether or not the widening fails halfway. -/
structure Widened (t : TypeChain) (heap : Heap) (env : AttachEnv) (types : TypeSet) (v : Value)
    (t' : TypeChain) (env' : AttachEnv) : Prop where
  widens : GuardList.Widens (t.guards env.arena) (t'.guards env'.arena)
  within : GuardList.Within (t.guards env.arena) heap types →
    (v ≠ .magic .optimizedOut → types.hasValue heap.objectKey v = true) →
    GuardList.Within (t'.guards env'.arena) heap types
  accepts : v ≠ .magic .optimizedOut → (v.isMagic = true → types.isUnknown = true) →
    t'.accepts heap env'.arena v = true ∨ env.failures < env'.failures

private theorem widened_of_guards_eq (hguards : t'.guards env'.arena = t.guards env.arena)
    (haccepts : v ≠ .magic .optimizedOut →
      t.accepts heap env.arena v = true ∨ env.failures < env'.failures) :
    t.Widened heap env types v t' env' := by
  refine ⟨?_, fun hwithin _ => ?_, fun hv _ => ?_⟩
  · rw [hguards]
    exact .refl _
  · rw [hguards]
    exact hwithin
  · rw [accepts, hguards]
    exact haccepts hv

/-- Widening a chain, with its failure noted or its success counted. The types are left as they are, or
widen to all objects. -/
theorem refine_widened (h : t.refine heap env types v = (t', types', env'))
    (hw : env.arena.WellLinked) (hs : t.chain.Sound env.arena) :
    (types' = types ∨ types' = types.markUnknownObject) ∧ t.Widened heap env types' v t' env' := by
  obtain ⟨htypes, ⟨rfl, hsame, haccepts⟩ | ⟨hv, edit, env₁, hsuits, -, hdone, hsame⟩⟩ :=
    refine_cases h hw hs
  · exact ⟨htypes, widened_of_guards_eq (by rw [hsame.arena]) haccepts⟩
  · obtain ⟨id, hguards⟩ := hdone.guards hsuits.widens
    rw [← hsame.arena] at hguards
    refine ⟨htypes, ?_, fun hwithin hseen => ?_, fun _ hmagic => .inl ?_⟩
    · rw [hguards]
      exact hsuits.widens.apply (fun p hp q hq => eq_of_mem_guards hp hq) id
    · rw [hguards]
      exact GuardEdit.within_apply hwithin (hsuits.within hwithin (hseen hv)) id
    · change GuardList.accepts (t'.guards env'.arena) heap v = true
      rw [hguards]
      exact GuardEdit.accepts_apply hsuits.widens (hsuits.accepts hmagic) id

theorem widens_of_refine (h : types' = types ∨ types' = types.markUnknownObject) :
    types.Widens types' := by
  rcases h with rfl | rfl
  · exact .refl _
  · exact TypeSet.widens_markUnknownObject _

/-- The types of a property follow those that a chain has widened to. -/
theorem follow_spec {group : GroupId} {key : PropertyKey}
    (htypes : types' = types ∨ types' = types.markUnknownObject)
    (hbefore : (heap.group group).propertyTypes key = types)
    (h : (if types'.isUnknownObject && !types.isUnknownObject then
      heap.modifyGroup group (·.widenProperty key (·.markUnknownObject)) else heap) = heap') :
    heap.Records heap' ∧ heap'.objectKey = heap.objectKey ∧
      (0 < group → group ≤ heap.groups.size → (heap'.group group).propertyTypes key = types') := by
  subst h
  refine ⟨?_, ?_, fun hpos hle => ?_⟩
  · split
    · exact Heap.records_modifyGroup heap group fun g => g.records_widenProperty key rfl
        TypeSet.widens_markUnknownObject
    · exact .refl _
  · split <;> rfl
  · rcases htypes with rfl | rfl
    · rw [if_neg (by simp), hbefore]
    · by_cases hunknown : types.isUnknownObject = true
      · rw [if_neg (by simp [hunknown]), hbefore, TypeSet.markUnknownObject, if_pos hunknown]
      · rw [if_pos (by simp [hunknown, TypeSet.isUnknownObject_markUnknownObject]),
          Heap.group_modifyGroup_self heap _ hpos hle,
          Group.propertyTypes_widenProperty_self _ key rfl, hbefore]

/-- Showing a chain of writes a value widens the guards and the types of the property. Afterwards the
chain has accepted the value, the layout implies it, or it is recorded. -/
theorem recordWrite_widened {group : GroupId} {key : PropertyKey} {accepted : Bool}
    (h : t.recordWrite heap env group key v = (accepted, t', heap', env'))
    (hw : env.arena.WellLinked) (hs : t.chain.Sound env.arena) :
    GuardList.Widens (t.guards env.arena) (t'.guards env'.arena) ∧ heap.Records heap' ∧
      (0 < group → group ≤ heap.groups.size →
        (GuardList.Within (t.guards env.arena) heap ((heap.group group).propertyTypes key) →
          GuardList.Within (t'.guards env'.arena) heap' ((heap'.group group).propertyTypes key)) ∧
        (v ≠ .magic .optimizedOut → t.accepts heap env.arena v = true ∨
          ((heap.group group).fieldRepr? key).any (·.implicitlyCovers v) = true ∨
          ((heap'.group group).propertyTypes key).hasValue heap'.objectKey v = true)) := by
  rcases recordWrite_cases h with
    ⟨rfl, rfl, hsame, haccepts⟩ | ⟨env₁, before, types, hsame, hbefore, hrefine, hheap⟩
  · rw [hsame.arena]
    exact ⟨.refl _, .refl _, fun _ _ => ⟨id, fun _ => haccepts.imp_right .inl⟩⟩
  have hrecords := Heap.records_addPropertyType heap group key v
  rw [← hsame.arena] at hw hs ⊢
  obtain ⟨htypes, hwidened⟩ := refine_widened hrefine hw hs
  obtain ⟨hfollows, hkey, hfinal⟩ := follow_spec htypes hbefore hheap
  refine ⟨hwidened.widens, hrecords.trans hfollows, fun hpos hle => ?_⟩
  have hwidens := widens_of_refine htypes
  have hvalue (hv : v ≠ .magic .optimizedOut) : types.hasValue heap.objectKey v = true := by
    refine hwidens.hasValue ?_
    rw [← hbefore, Heap.propertyTypes_addPropertyType heap key v hpos hle]
    exact TypeSet.hasValue_addValue hv
  have hfinal := hfinal hpos (Nat.le_trans hle hrecords.groups_le)
  refine ⟨fun hwithin p hp => ?_, fun hv => .inr (.inr ?_)⟩
  · have hold : GuardList.Within (t.guards env₁.arena) (heap.addPropertyType group key v) types := by
      intro p hp
      refine (((hwithin p hp).of_singleton fun _ => hrecords.singleton_of).widens ?_).widens hwidens
      rw [← hbefore]
      exact (hrecords.group group hle).types key
    rw [hfinal]
    exact (hwidened.within hold hvalue p hp).of_singleton fun _ => hfollows.singleton_of
  · rw [hfinal, hkey]
    exact hvalue hv

end TypeChain

namespace Monitor

variable {m m' : Monitor} {env env' : AttachEnv} {heap : Heap} {v : Value}

/-- Recording a result widens the guards and the types seen. -/
theorem record_widened (h : m.record heap env v = (m', env')) (hw : env.arena.WellLinked)
    (hs : m.chain.chain.Sound env.arena) :
    GuardList.Widens (m.chain.guards env.arena) (m'.chain.guards env'.arena) ∧
      (GuardList.Within (m.chain.guards env.arena) heap m.types →
        GuardList.Within (m'.chain.guards env'.arena) heap m'.types) ∧
      (v ≠ .magic .optimizedOut →
        m'.accepts heap env'.arena v = true ∨ env.failures < env'.failures) := by
  obtain ⟨env₁, hsame, hrefine⟩ := record_cases h
  rw [← hsame.arena] at hw hs ⊢
  obtain ⟨htypes, hwidened⟩ := TypeChain.refine_widened hrefine hw hs
  have hwidens := TypeChain.widens_of_refine htypes
  refine ⟨hwidened.widens, fun hwithin => ?_, fun hv =>
    (hwidened.accepts hv fun hmagic => ?_).imp_right (Int.lt_of_le_of_lt hsame.failures)⟩
  · refine hwidened.within (fun p hp => ?_) fun hv => hwidens.hasValue (TypeSet.hasValue_addValue hv)
    exact ((hwithin p hp).widens (TypeSet.widens_addValue _ _ _)).widens hwidens
  · refine hwidens.unknown ?_
    cases v with
    | magic kind =>
      cases kind with
      | uninitializedLexical => exact TypeSet.isUnknown_markUnknown _
      | optimizedOut => exact absurd rfl hv
    | _ => cases hmagic

end Monitor

end InlineCache
