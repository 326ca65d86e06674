import InlineCache.Proofs.Heap.Ancestry
import InlineCache.Proofs.Machine.Built
import InlineCache.Proofs.Stub.Sound

namespace InlineCache

/-- A function whose prototype is an object answers whether that is on the chain of a value. -/
theorem Operation.instanceOf_of_prototype {h : Heap} {ctor proto : ObjectId}
    (hcallable : (h.object ctor).isCallable = true)
    (hproto : h.getOwn? ctor "prototype" = some (.object proto)) (v : Value) :
    instanceOf h v (.object ctor) = .ok (inheritsFrom h v proto) := by
  have hfilter : (Value.object ctor).asObject?.filter (fun id => (h.object id).isCallable) = some ctor := by
    simp [Value.asObject?, hcallable]
  simp only [instanceOf, hfilter]
  cases v with
  | object id => simp only [Value.asObject?, Option.isNone_some, Bool.false_eq_true, if_false, hproto]
  | _ => rfl

/-- The stub for a constructor accepts it only, and answers as it does. -/
theorem StubFits.run_of_prototype {σ : Type} {classed : Prop} {w : World σ} {op : SiteOperation} {stub : Stub}
    (natives : Natives σ) (hfits : StubFits classed w.heap op .instanceOfFunction stub.payload) {v : Value}
    {ctor proto : ObjectId}
    (hguard : Guard.holds w.heap .instanceOfFunction stub (.binary v (.object ctor)) = true)
    (hproto : w.heap.getOwn? ctor "prototype" = some (.object proto)) :
    Handler.run natives .instanceOfFunction stub (.binary v (.object ctor)) w =
      (.ok (.boolean (Operation.inheritsFrom w.heap v proto)), w) := by
  obtain ⟨rfl, hcallable⟩ : op = .instanceOf ∧ (w.heap.object ctor).isCallable = true := by
    generalize hpayload : stub.payload = payload at hfits
    cases hfits with
    | instanceOfFunction _ hcallable _ _ =>
      simp only [Guard.holds, hpayload, Guard.constructor, Bool.and_eq_true, beq_iff_eq] at hguard
      rw [hguard.1]
      exact ⟨rfl, hcallable⟩
  rw [hfits.run_instanceOf natives hguard, Request.perform,
    Operation.instanceOf_of_prototype hcallable hproto]
  rfl

namespace Machine

variable {σ : Type} {m : Machine σ}

/-- Every walk along a chain of prototypes comes to its end, with the answer that is given. That is whether
the value is an object from which the chain leads to the other one, by a relation without circles. Stubs for a
constructor give the same answer for its present prototype. -/
theorem inheritance_exact (hm : m.Reached .building) :
    (∀ (v : Value) (proto : ObjectId) (found : Bool),
      m.world.heap.InheritanceWalk v proto found ↔ Operation.inheritsFrom m.world.heap v proto = found) ∧
    (∀ (v : Value) (proto : ObjectId),
      Operation.inheritsFrom m.world.heap v proto = true ↔ m.world.heap.ValueInherits v proto) ∧
    (∀ (v : Value) (proto proto' : ObjectId), m.world.heap.ValueInherits v proto →
      m.world.heap.ValueInherits (.object proto) proto' → m.world.heap.ValueInherits v proto') ∧
    (∀ id : ObjectId, ¬ m.world.heap.ValueInherits (.object id) id) ∧
    ∀ (c : CacheId) (index : Nat), index < (m.world.cache c).entries.size →
      ∀ stub ∈ ((m.world.cache c).entry index).chain.stubs (m.world.cache c).arena, ∀ code,
      stub.code = some code → code.signature = .instanceOfFunction →
      ∀ (natives : Natives σ) (v : Value) (ctor proto : ObjectId),
        Guard.holds m.world.heap code.signature stub (.binary v (.object ctor)) = true →
        m.world.heap.getOwn? ctor "prototype" = some (.object proto) →
        ∃ answer, Handler.run natives code.signature stub (.binary v (.object ctor)) m.world =
            (.ok (.boolean answer), m.world) ∧
          (answer = true ↔ m.world.heap.ValueInherits v proto) := by
  obtain ⟨hsound, hbuilds⟩ := hm.builds
  have hfounded := hbuilds.founded
  have hwalk (v : Value) (proto : ObjectId) :
      m.world.heap.InheritanceWalk v proto (Operation.inheritsFrom m.world.heap v proto) :=
    hfounded.inheritanceWalk (fun id => (hsound.fitted.heap.object id).group_le) v proto
  have hiff (v : Value) (proto : ObjectId) :
      Operation.inheritsFrom m.world.heap v proto = true ↔ m.world.heap.ValueInherits v proto := by
    rw [← Heap.inheritanceWalk_true_iff]
    exact ⟨fun heq => heq ▸ hwalk v proto, fun hwalk' => (hwalk v proto).unique hwalk'⟩
  refine ⟨fun v proto found => ⟨fun hwalk' => (hwalk v proto).unique hwalk', fun heq => heq ▸ hwalk v proto⟩,
    hiff, fun v proto proto' => Heap.ValueInherits.trans, fun id => hfounded.not_inherits_self id, ?_⟩
  intro c index hin stub hmem code hcode hsignature natives v ctor proto hguard hproto
  obtain ⟨op, -, hfits⟩ := (hsound.fitted.bench (World.hasCache_of_lt hin)).stub index hin stub hmem
  have hstub := hfits code hcode
  rw [hsignature] at hstub hguard ⊢
  exact ⟨_, hstub.run_of_prototype natives hguard hproto, hiff v proto⟩

/-- A new object of a new group with some prototype. -/
def heir (h : Heap) (proto : ObjectId) : Heap :=
  ((h.addGroup (.withProto .plain proto)).2.newObject h.groups.next).2

private theorem builds_heir {h : Heap} {proto : ObjectId}
    (hproto : 0 < proto ∧ proto ≤ h.objects.size) : h.Builds (heir h proto) := by
  have hgroup : h.Built (h.addGroup (.withProto .plain proto)).2 :=
    .addGroup _ fun id hid => by
      cases hid
      exact hproto
  have hobject : (h.addGroup (.withProto .plain proto)).2.Built (heir h proto) := by
    refine .working (.newObject ?_ False.elim) rfl
    rw [Heap.addGroup, Table.size_add]
    exact Nat.le_refl _
  exact hgroup.builds.trans hobject.builds

/-- An object and its heir, and a function whose prototype is the object. -/
def family : Heap :=
  (((heir (Heap.initial.newObject Heap.plainGroup).2 1).newFunction "Elder" 0).2.setNamed 3 "prototype"
    (.object 1)).2

/-- The heir has an heir as well. -/
def largerFamily : Heap := heir family 2

private theorem builds_largerFamily : Heap.initial.Builds largerFamily := by
  have helder : Heap.initial.Built (Heap.initial.newObject Heap.plainGroup).2 :=
    .working (.newObject (by decide) False.elim) rfl
  have hheir : (Heap.initial.newObject Heap.plainGroup).2.Builds (heir _ 1) := builds_heir (by decide)
  have hfunction (h : Heap) : h.Built (h.newFunction "Elder" 0).2 :=
    .working (.newFunction _ _ False.elim) rfl
  have hnamed (h : Heap) : h.Built (h.setNamed 3 "prototype" (.object 1)).2 :=
    .working (.setNamed _ _ _) (congrArg Table.size (Heap.groups_setNamed h _ _ _))
  have hfamily : Heap.initial.Builds family :=
    (helder.builds.trans hheir).trans ((hfunction _).builds.trans (hnamed _).builds)
  exact hfamily.trans (builds_heir (by decide))

/-- A script asks whether the heir of the heir inherits from the object. -/
def askFamily : List (Action Unit) :=
  [.host largerFamily .initial .empty 0 (), .addCache ⟨1, "f", 0, false, 0, #[.instanceOf], #[]⟩,
    .use 1 ⟨1, 0⟩ (.binary (.object 4) (.object 3))]

/-- The machine once the script has asked. -/
def familyAsked : Machine Unit := (initial .standard (fun _ _ => none) ()).run askFamily

private theorem familyAsked_reached : familyAsked.Reached .building :=
  ⟨.standard, fun _ _ => none, (), askFamily, ⟨builds_largerFamily, trivial, trivial, trivial⟩, rfl⟩

private theorem exists_stub_familyAsked :
    ∃ stub ∈ ((familyAsked.world.cache 1).entry 0).chain.stubs (familyAsked.world.cache 1).arena,
      ∃ code, stub.code = some code ∧ code.signature = .instanceOfFunction ∧
        Guard.holds familyAsked.world.heap code.signature stub (.binary (.object 4) (.object 3)) = true := by
  have hstubs : (((familyAsked.world.cache 1).entry 0).chain.stubs (familyAsked.world.cache 1).arena).map
      (fun stub => (stub.code.map (·.signature), Guard.holds familyAsked.world.heap .instanceOfFunction stub
        (.binary (.object 4) (.object 3)))) = [(some .instanceOfFunction, true)] := by decide +kernel
  obtain ⟨stub, hstub, heq⟩ := List.map_eq_singleton_iff.1 hstubs
  obtain ⟨hcode, hguard⟩ := Prod.mk.inj heq
  obtain ⟨code, hcode, hsignature⟩ := Option.map_eq_some_iff.1 hcode
  exact ⟨stub, by simp [hstub], code, hcode, hsignature, by rw [hsignature]; exact hguard⟩

/-- The heir of the heir inherits from the object, and the stub says so. -/
theorem grandchild_inherits :
    familyAsked.world.heap.ValueInherits (.object 4) 1 ∧
      ∃ stub ∈ ((familyAsked.world.cache 1).entry 0).chain.stubs (familyAsked.world.cache 1).arena,
        ∃ code, stub.code = some code ∧
          Handler.run (fun _ _ _ w => (.ok .undefined, w)) code.signature stub
            (.binary (.object 4) (.object 3)) familyAsked.world =
              (.ok (.boolean true), familyAsked.world) := by
  obtain ⟨-, hexact, -, -, hstubs⟩ := inheritance_exact familyAsked_reached
  have hinherits : familyAsked.world.heap.ValueInherits (.object 4) 1 :=
    (hexact _ _).1 (by decide +kernel)
  obtain ⟨stub, hmem, code, hcode, hsignature, hguard⟩ := exists_stub_familyAsked
  have hsize : (familyAsked.world.cache 1).entries.size = 1 := by decide +kernel
  obtain ⟨answer, hrun, hanswer⟩ := hstubs 1 0 (by rw [hsize]; exact Nat.one_pos) stub hmem code hcode
    hsignature (fun _ _ _ w => (.ok .undefined, w)) (.object 4) 3 1 hguard (by decide +kernel)
  rw [hanswer.2 hinherits] at hrun
  exact ⟨hinherits, stub, hmem, code, hcode, hrun⟩

end Machine

end InlineCache
