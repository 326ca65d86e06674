import InlineCache.Proofs.UnitCache.Guards

namespace InlineCache

/-- A chain of nothing but type guards, which are in order. -/
structure Chain.Ordered (cap : Nat) (c : Chain) (a : Arena) : Prop where
  only : ∀ id ∈ c.stubIds a, (a.stub id).kind.typeGuard?.isSome = true
  orderly : TypeGuard.Orderly cap ((c.guards a).map (·.2))

namespace Chain.Ordered

variable {cap : Nat} {c : Chain} {a a' : Arena}

theorem of_stubIds_eq_nil (cap : Nat) (h : c.stubIds a = []) : c.Ordered cap a where
  only id hid := by
    rw [h] at hid
    cases hid
  orderly := by
    rw [guards_of_stubIds_eq_nil h]
    exact TypeGuard.orderly_nil cap

/-- The order hangs on the stubs of the chain alone. -/
theorem congr (h : c.Ordered cap a) (hids : c.stubIds a' = c.stubIds a)
    (hstubs : c.stubs a' = c.stubs a) : c.Ordered cap a' where
  only id hid := by
    rw [hids] at hid
    rw [stubs, stubs, hids] at hstubs
    rw [List.map_inj_left.1 hstubs id hid]
    exact h.only id hid
  orderly := by
    rw [guards_congr hids hstubs]
    exact h.orderly

/-- The guards are what the stubs are, one by one. -/
theorem map_typeGuard? (h : c.Ordered cap a) :
    (c.stubs a).map (·.kind.typeGuard?) = ((c.guards a).map (·.2)).map some := by
  have honly := h.only
  rw [guards, stubs]
  generalize c.stubIds a = ids at honly
  induction ids with
  | nil => rfl
  | cons id ids ih =>
    obtain ⟨guard, hguard⟩ := Option.isSome_iff_exists.1 (honly id List.mem_cons_self)
    rw [List.map_cons, List.map_cons, ih fun x hx => honly x (List.mem_cons_of_mem _ hx)]
    simp [hguard]

end Chain.Ordered

namespace TypeChain

variable {cap : Nat} {t t' : TypeChain} {env env' : AttachEnv} {heap heap' : Heap}
  {types types' : TypeSet} {v : Value}

/-- An edit brings nothing but a type guard. -/
theorem Done.only {edit : GuardEdit} (h : t.Done env t' env' edit)
    (honly : ∀ id ∈ t.chain.stubIds env.arena, (env.arena.stub id).kind.typeGuard?.isSome = true) :
    ∀ id ∈ t'.chain.stubIds env'.arena, (env'.arena.stub id).kind.typeGuard?.isSome = true := by
  intro x hx
  cases h with
  | attach hnew hids hothers =>
    rw [hids] at hx
    rcases List.mem_cons.1 hx with rfl | hx
    · rw [hnew.typeGuard?]
      rfl
    · rw [hothers x hx]
      exact honly x hx
  | @replace guard id hid hnew hids hothers =>
    rw [hids] at hx
    by_cases heq : x = id
    · rw [heq, hnew.typeGuard?]
      rfl
    · rw [hothers x heq]
      exact honly x hx
  | replaceAll hnew hids _ =>
    rw [hids] at hx
    rw [List.mem_singleton.1 hx, hnew.typeGuard?]
    rfl

/-- Widening keeps the guards in order, for a value that the types have. The edit that is picked is one
that keeps the order, and a failure leaves the stubs alone. -/
theorem refine_ordered (h : t.refine heap env types v = (t', types', env'))
    (hw : env.arena.WellLinked) (hs : t.chain.Sound env.arena)
    (hcap : env.runtime.config.maxObjectGuards = cap)
    (hvalue : v ≠ .magic .optimizedOut → types.hasValue heap.objectKey v = true)
    (ht : t.chain.Ordered cap env.arena) : t'.chain.Ordered cap env'.arena := by
  obtain ⟨htypes, ⟨rfl, hsame, -⟩ | ⟨hv, edit, env₁, hsuits, -, hdone, hsame⟩⟩ := refine_cases h hw hs
  · rw [hsame.arena]
    exact ht
  · have hunknown (hmagic : v.isMagic = true) : types'.isUnknown = true := by
      have hknown := (widens_of_refine htypes).hasValue (hvalue hv)
      cases v with
      | magic kind => exact hknown
      | _ => cases hmagic
    rw [hcap] at hsuits
    obtain ⟨id, hguards⟩ := hdone.guards hsuits.widens
    rw [hsame.arena]
    refine ⟨hdone.only ht.only, ?_⟩
    change TypeGuard.Orderly cap ((t'.guards env₁.arena).map (·.2))
    rw [hguards]
    exact hsuits.orders hunknown ht.orderly (fun p hp q hq => eq_of_mem_guards hp hq) id

/-- A write that is shown to a chain keeps the guards in order, if it is one to a group that is there. -/
theorem recordWrite_ordered {group : GroupId} {key : PropertyKey} {accepted : Bool}
    (h : t.recordWrite heap env group key v = (accepted, t', heap', env'))
    (hw : env.arena.WellLinked) (hs : t.chain.Sound env.arena)
    (hcap : env.runtime.config.maxObjectGuards = cap) (hpos : 0 < group)
    (hle : group ≤ heap.groups.size) (ht : t.chain.Ordered cap env.arena) :
    t'.chain.Ordered cap env'.arena := by
  rcases recordWrite_cases h with
    ⟨rfl, rfl, hsame, -⟩ | ⟨env₁, before, types, hsame, hbefore, hrefine, -⟩
  · rw [hsame.arena]
    exact ht
  · rw [← hsame.arena] at hw hs ht
    refine refine_ordered hrefine hw hs (by rw [hsame.config]; exact hcap) (fun hv => ?_) ht
    rw [← hbefore, Heap.propertyTypes_addPropertyType heap key v hpos hle]
    exact TypeSet.hasValue_addValue hv

end TypeChain

/-- Recording a result keeps the guards in order. -/
theorem Monitor.record_ordered {cap : Nat} {m m' : Monitor} {env env' : AttachEnv} {heap : Heap}
    {v : Value} (h : m.record heap env v = (m', env')) (hw : env.arena.WellLinked)
    (hs : m.chain.chain.Sound env.arena) (hcap : env.runtime.config.maxObjectGuards = cap)
    (hm : m.chain.chain.Ordered cap env.arena) : m'.chain.chain.Ordered cap env'.arena := by
  obtain ⟨env₁, hsame, hrefine⟩ := record_cases h
  rw [← hsame.arena] at hw hs hm
  exact TypeChain.refine_ordered hrefine hw hs (by rw [hsame.config]; exact hcap)
    TypeSet.hasValue_addValue hm

namespace UnitCache

variable {cap : Nat} {h : Heap} {c c' : UnitCache} {p : Watch}

/-- The chain of guards that watches something is in order, if there is one. -/
def OrderedAt (cap : Nat) (c : UnitCache) (p : Watch) : Prop :=
  ∀ chain, c.chain? p.place = some chain → chain.Ordered cap c.arena

theorem OrderedAt.of_eq (hc : c.OrderedAt cap p) (hchain : ∀ q, c'.chain? q = c.chain? q)
    (harena : c'.arena = c.arena) : c'.OrderedAt cap p := by
  intro chain hget
  rw [hchain] at hget
  rw [harena]
  exact hc chain hget

theorem EditedAt.orderedAt {q : ChainPlace} {chain : Chain} (hl : c.Linked)
    (hedit : c.EditedAt q c' chain) (hc : c.OrderedAt cap p)
    (hchain : p.place = q → chain.Ordered cap c'.arena) : c'.OrderedAt cap p := by
  intro chain' hget
  by_cases hp : p.place = q
  · rw [hp, hedit.here] at hget
    cases hget
    exact hchain hp
  · rw [hedit.others _ hp] at hget
    exact (hc chain' hget).congr (hedit.stubIds_eq hl hp hget) (hedit.stubs_eq hl hp hget)

/-- Caches whose guards are within the types that are known, and in order. -/
structure Ordered (cap : Nat) (h : Heap) (c : UnitCache) : Prop extends c.Guarded h where
  ordered : ∀ p : Watch, p.Valid → c.OrderedAt cap p

theorem ordered_create {unit : CodeUnit} {config : CacheConfig} (cap : Nat) (h : Heap)
    (hcreate : create unit config = .ok c) : c.Ordered cap h where
  toGuarded := guarded_create h hcreate
  ordered _ _ _ hchain := .of_stubIds_eq_nil cap (stubIds_create hcreate hchain)

theorem Ordered.records {h' : Heap} (hc : c.Ordered cap h) (hrecords : h.Records h') :
    c.Ordered cap h' :=
  ⟨hc.toGuarded.records hrecords, hc.ordered⟩

end UnitCache

end InlineCache
