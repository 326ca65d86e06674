import InlineCache.Proofs.Machine.Recorded
import InlineCache.Proofs.Machine.Sheds

namespace InlineCache

/-- A guard goes by the payload of a stub, and by its type guard if it is one. -/
theorem Guard.holds_congr {s t : Stub} (hpayload : s.payload = t.payload)
    (hguard : s.kind.typeGuard? = t.kind.typeGuard?) (h : Heap) (signature : Signature) (ops : Operands) :
    Guard.holds h signature s ops = Guard.holds h signature t ops := by
  have haccepts : s.acceptsValue h = t.acceptsValue h := by
    funext v
    rw [Stub.acceptsValue, Stub.acceptsValue, hguard]
  cases signature <;> simp only [Guard.holds, Guard.typeGuard, hpayload, haccepts]

/-- A stub for operations, whose code is of its own signature. -/
def Stub.Specialized (s : Stub) : Prop :=
  ∃ signature flavor code, s.kind = .specialized signature flavor ∧ s.code = some code ∧
    code.signature = signature

/-- What a stub looks for. -/
def Stub.looksFor (s : Stub) : Option Signature × Payload := (s.kind.signature?, s.payload)

/-- What a stub is built by for a request: what is decided when the use begins, or, where that has to wait,
what is decided once the operation has run. -/
inductive Request.Proposes (h : Heap) (r : Request) (recipe : Recipe) : Prop where
  | decision (hrecipe : (r.decision h).recipe? = some recipe)
  | secondLook {h₁ h₂ : Heap} {v : Value} (hseen : h₁.seen = h.seen) (hdeferred : r.decision h = .deferred)
      (houtcome : r.outcome? h₁ = some (.ok (v, h₂)))
      (hrecipe : (r.secondLook h₁ h₂).recipe? = some recipe)

theorem Request.Proposes.accepts {h : Heap} {r : Request} {recipe : Recipe}
    (hproposes : r.Proposes h recipe) : recipe.Accepts h r.operands := by
  cases hproposes with
  | decision hrecipe => exact accepts_decision hrecipe
  | secondLook hseen hdeferred houtcome hrecipe => exact accepts_secondLook hseen hdeferred houtcome hrecipe

namespace World

variable {σ : Type} {w w' : World σ} {c : CacheId} {index : Nat}

/-- No stub that answers a use looks for the same as one that does not. -/
theorem looksFor_notMem_of_miss {h : Heap} {stubs : List Stub} {ops : Operands}
    (hnone : hit? h stubs ops = none) (hstubs : ∀ s ∈ stubs, s.Specialized) {t : Stub} {code : Code}
    {flavor : Flavor} (hkind : t.kind = .specialized code.signature flavor)
    (hholds : Guard.holds h code.signature t ops = true) : t.looksFor ∉ stubs.map Stub.looksFor := by
  intro hmem
  obtain ⟨s, hs, hsame⟩ := List.mem_map.1 hmem
  obtain ⟨signature, flavor', code', hkind', hcode', rfl⟩ := hstubs s hs
  obtain ⟨hsignature, hpayload⟩ := Prod.mk.inj hsame
  rw [hkind, hkind'] at hsignature
  have hmiss := List.findSome?_eq_none_iff.1 hnone s hs
  have hguard : s.kind.typeGuard? = t.kind.typeGuard? := by
    rw [hkind, hkind']
    rfl
  rw [hcode', Option.bind_some, Option.some.inj hsignature, Guard.holds_congr hpayload hguard, if_pos hholds]
    at hmiss
  cases hmiss

/-- A stub that was attached for a request: it accepts the operands on the heap on which it was decided. -/
structure Attached (h : Heap) (r : Request) (recipe : Recipe) (code : Code) : Prop where
  kind : recipe.kind = .specialized recipe.signature r.operation.flavor
  code_eq : code.signature = recipe.signature
  accepts : recipe.Accepts h r.operands

theorem attached_of_proposes {h : Heap} {r : Request} {recipe : Recipe} {code : Code}
    (hproposes : r.Proposes h recipe) (hcode : code.signature = recipe.signature) :
    Attached h r recipe code := by
  refine ⟨?_, hcode, hproposes.accepts⟩
  cases hproposes with
  | decision hrecipe => exact (Request.specialized_decision h r).recipe hrecipe
  | @secondLook h₁ h₂ _ _ _ _ hrecipe => exact (Request.specialized_secondLook h₁ h₂ r).recipe hrecipe

private theorem Within.honest {touched : ChainPlace → Prop} (hc : w.HasCache c)
    (h : Within c touched w w') (hhonest : w.runtime.codeCache.Honest) : w'.runtime.codeCache.Honest :=
  (h.works.follows hc).honest hhonest

/-- A use takes stubs out, or adds one that its request proposes. -/
theorem Course.proposes {write : Option (GroupId × PropertyKey × Value)} {h : Heap}
    {request : Option Request} (hat : w.At c index) (hhonest : w.runtime.codeCache.Honest)
    (hcourse : Course c index write h request w w') :
    (w'.stubsAt c index).Sublist (w.stubsAt c index) ∨
      ∃ r recipe code, request = some r ∧ r.Proposes h recipe ∧ code.signature = recipe.signature ∧
        w'.stubsAt c index = recipe.toStub code :: w.stubsAt c index := by
  cases hcourse with
  | aside hwithin => exact .inl (by rw [(hwithin.sameStubs_beside hat).stubs])
  | @attempt r _ w₁ _ hbefore hdecided hdone hafter =>
    have hat₁ := hat.within hbefore
    obtain ⟨-, hadds⟩ := attempt_spec hat₁ hdecided
    have hend := (hafter.sameStubs_beside (hat₁.within (within_attempt hat₁ hdecided))).stubs
    rw [← hend, (hbefore.sameStubs_beside hat).stubs] at hadds
    rcases hadds with hsame | ⟨-, hnone | ⟨recipe, code, hrecipe, hcode, hstubs⟩⟩
    · exact .inl (by rw [hsame])
    · exact .inl (by rw [hnone]; exact List.nil_sublist _)
    · exact .inr ⟨r, recipe, code, rfl, .decision hrecipe, hcode (hbefore.honest hat.hasCache hhonest),
        hstubs⟩
  | @settle r h₁ h₂ v _ w₁ w₂ _ hbefore hdecided hwaits hperformed hseen houtcome hsecond hafter =>
    have hat₁ := hat.within hbefore
    have hhonest₁ := hbefore.honest hat.hasCache hhonest
    have htried := within_attempt hat₁ hdecided
    have hat₂ := hat₁.within htried
    have hat₃ := hat₂.within hperformed
    have hdeferred := deferred_of_attempt hwaits
    -- an attempt that is deferred adds nothing and takes nothing out
    have hkept := (attempt_spec hat₁ hdecided).2.resolve_right fun hdone => hdone.1 hwaits
    have hhonest₃ := hperformed.honest hat₂.hasCache (htried.honest hat₁.hasCache hhonest₁)
    have hadds := (settle_spec hat₃ hsecond).imp And.right And.right
    have hend := (hafter.sameStubs_beside (hat₃.within (within_settle hat₃ hsecond))).stubs
    rw [← hend, (hperformed.sameStubs_beside hat₂).stubs, hkept,
      (hbefore.sameStubs_beside hat).stubs] at hadds
    rcases hadds with ⟨recipe, code, hrecipe, hcode, hstubs⟩ | hsame
    · exact .inr ⟨r, recipe, code, rfl, .secondLook hseen hdeferred houtcome hrecipe, hcode hhonest₃, hstubs⟩
    · exact .inl (by rw [hsame])

theorem Change.honest {R : Rules} {purged : CacheId → Prop} (h : Change R purged w w')
    (hhonest : w.runtime.codeCache.Honest) : w'.runtime.codeCache.Honest := by
  cases h with
  | work hc hworks => exact (hworks.follows hc).honest hhonest
  | outside _ _ _ hkeeps => exact hkeeps hhonest
  | addCache _ => exact hhonest

/-- A use gets to attach a stub only if none of the entry answers it. -/
theorem miss_of_attaching? {id : EntryId} {ops : Operands} {r : Request}
    (h : attaching? c id ops w = some r) :
    hit? w.heap (w.stubsAt c id.index) ops = none ∧ r.operands = ops := by
  unfold attaching? at h
  split at h
  · split at h
    · cases h
    · next hnone =>
      exact ⟨hnone, (Request.eq_of_request? (Option.filter_eq_some_iff.1 h).1).2.symm⟩
  · cases h

/-- The stubs of an entry are for operations, and no two of them look for the same. -/
structure StubsDistinct (stubs : List Stub) : Prop where
  specialized : ∀ s ∈ stubs, s.Specialized
  nodup : (stubs.map Stub.looksFor).Nodup

private theorem StubsDistinct.sublist {stubs stubs' : List Stub} (h : StubsDistinct stubs)
    (hsub : stubs'.Sublist stubs) : StubsDistinct stubs' :=
  ⟨fun s hs => h.specialized s (hsub.subset hs), h.nodup.sublist (hsub.map _)⟩

end World

namespace Machine

variable {σ : Type} {m : Machine σ} {c : CacheId} {index : Nat}

/-- An action takes stubs out of an entry, or it is a use that no stub of the entry answers and that
adds one that its request proposes. A stub is only attached where no stub of the entry accepts the
operands, and it accepts them itself. -/
theorem step_proposes (hm : m.Linked) (hhonest : m.world.runtime.codeCache.Honest)
    (hat : m.world.At c index) (a : Action σ) :
    ((m.step a).world.stubsAt c index).Sublist (m.world.stubsAt c index) ∨
      ∃ (id : EntryId) (ops : Operands) (r : Request) (recipe : Recipe) (code : Code),
        a = .use c id ops ∧ id.index = index ∧ r.operands = ops ∧
        World.hit? m.world.heap (m.world.stubsAt c index) ops = none ∧
        r.Proposes m.world.heap recipe ∧ code.signature = recipe.signature ∧
        (m.step a).world.stubsAt c index = recipe.toStub code :: m.world.stubsAt c index := by
  by_cases ha : ∃ id ops, a = .use c id ops ∧ id.index = index
  · obtain ⟨id, ops, rfl, rfl⟩ := ha
    rw [world_use]
    rcases (World.course_begin hm.world c id ops).proposes hat hhonest with
      hsub | ⟨r, recipe, code, hr, hproposes, hcode, hstubs⟩
    · exact .inl hsub
    · obtain ⟨hmiss, hops⟩ := World.miss_of_attaching? hr
      exact .inr ⟨id, ops, r, recipe, code, rfl, rfl, hops, hmiss, hproposes, hcode, hstubs⟩
  · exact .inl (step_sheds hm hat fun id ops heq hindex => ha ⟨id, ops, heq, hindex⟩).stubs

/-- What an action adds to an entry accepts the operands of the use that the action is. -/
theorem step_links (hm : m.Linked) (hhonest : m.world.runtime.codeCache.Honest)
    (hat : m.world.At c index) (a : Action σ) :
    ((m.step a).world.stubsAt c index).Sublist (m.world.stubsAt c index) ∨
      ∃ id ops r recipe code, a = .use c id ops ∧ id.index = index ∧ r.operands = ops ∧
        World.hit? m.world.heap (m.world.stubsAt c index) ops = none ∧
        World.Attached m.world.heap r recipe code ∧
        (m.step a).world.stubsAt c index = recipe.toStub code :: m.world.stubsAt c index := by
  rcases step_proposes hm hhonest hat a with
    hsub | ⟨id, ops, r, recipe, code, ha, hindex, hops, hmiss, hproposes, hcode, hstubs⟩
  · exact .inl hsub
  · exact .inr ⟨id, ops, r, recipe, code, ha, hindex, hops, hmiss,
      World.attached_of_proposes hproposes hcode, hstubs⟩

/-- The stubs of all entries differ in what they look for, and code is kept under its signature. -/
structure Distinct (m : Machine σ) : Prop where
  linked : m.Linked
  honest : m.world.runtime.codeCache.Honest
  stubs : ∀ c index, index < (m.world.cache c).entries.size →
    World.StubsDistinct (m.world.stubsAt c index)

private theorem step_distinct (hm : m.Distinct) (a : Action σ) : (m.step a).Distinct := by
  refine ⟨(step_linked_open hm.linked a).1, (step_change_open hm.linked a).honest hm.honest,
    fun c index hin => ?_⟩
  rcases (step_change_open hm.linked a).initial_of_new hm.linked.world hin with hin₀ | ⟨-, hnone⟩
  · have hat : m.world.At c index :=
      ⟨hin₀, (hm.linked.world.cache (World.hasCache_of_lt hin₀)).1⟩
    have hstubs := hm.stubs c index hin₀
    rcases step_links hm.linked hm.honest hat a with
      hsub | ⟨id, ops, r, recipe, code, -, -, rfl, hmiss, hattached, heq⟩
    · exact hstubs.sublist hsub
    · have hkind : (recipe.toStub code).kind = .specialized code.signature r.operation.flavor := by
        rw [hattached.code_eq]
        exact hattached.kind
      have hholds : Guard.holds m.world.heap code.signature (recipe.toStub code) r.operands = true := by
        rw [hattached.code_eq]
        exact hattached.accepts code
      have hnew := World.looksFor_notMem_of_miss hmiss hstubs.specialized hkind hholds
      rw [heq]
      refine ⟨fun s hs => ?_, List.nodup_cons.2 ⟨hnew, hstubs.nodup⟩⟩
      rcases List.mem_cons.1 hs with rfl | hold
      · exact ⟨code.signature, r.operation.flavor, code, hkind, rfl, rfl⟩
      · exact hstubs.specialized s hold
  · rw [hnone]
    exact ⟨fun _ hs => absurd hs List.not_mem_nil, List.nodup_nil⟩

private theorem run_distinct (hm : m.Distinct) (actions : List (Action σ)) : (m.run actions).Distinct :=
  List.foldlRecOn actions step hm fun _ hm a _ => step_distinct hm a

private theorem initial_distinct (config : CacheConfig) (compiler : Compiler) (host : σ) :
    (initial config compiler host).Distinct where
  linked := initial_linked config compiler host
  honest := CodeCache.honest_clear .empty
  stubs c index hin := by
    obtain ⟨cache, hget⟩ := World.hasCache_of_lt hin
    rw [initial_get?] at hget
    cases hget

/-- In every reachable state the stubs of an entry are for operations, and no two of them have the same
signature and the same payload. And whatever is done next takes stubs out of the entry or leaves it alone,
unless it is a use of the entry that adds one stub, whose guard holds for the operands on the heap on which
the use began. -/
theorem attached_stubs_accept_and_differ (config : CacheConfig) (compiler : Compiler) (host : σ)
    (actions : List (Action σ)) :
    let m := (initial config compiler host).run actions
    ∀ c index, index < (m.world.cache c).entries.size →
      ((m.world.stubsAt c index).map fun s => (s.kind.signature?, s.payload)).Nodup ∧
      ∀ a : Action σ, ((m.step a).world.stubsAt c index).Sublist (m.world.stubsAt c index) ∨
        ∃ id ops stub code, a = .use c id ops ∧ id.index = index ∧ stub.code = some code ∧
          Guard.holds m.world.heap code.signature stub ops = true ∧
          (m.step a).world.stubsAt c index = stub :: m.world.stubsAt c index := by
  intro m c index hin
  have hm : m.Distinct := run_distinct (initial_distinct config compiler host) actions
  have hat : m.world.At c index := ⟨hin, (hm.linked.world.cache (World.hasCache_of_lt hin)).1⟩
  refine ⟨(hm.stubs c index hin).nodup, fun a => ?_⟩
  rcases step_links hm.linked hm.honest hat a with
    hsub | ⟨id, ops, r, recipe, code, rfl, rfl, rfl, -, hattached, heq⟩
  · exact .inl hsub
  · refine .inr ⟨id, r.operands, recipe.toStub code, code, rfl, rfl, rfl, ?_, heq⟩
    rw [hattached.code_eq]
    exact hattached.accepts code

/-- An object without properties, and a unit that writes one. -/
def unwritten : Machine Unit := (initial .standard (fun _ _ => none) ()).run
  [.host trackedGroup .initial .empty 0 (), .addCache ⟨1, "f", 0, false, 0, #[.setProp 0], #["x"]⟩]

/-- The stub for the property that is added is attached after the write, and accepts the object as it was
before. -/
theorem added_property_accepted :
    ∃ stub code, (unwritten.step (.use 1 ⟨1, 0⟩ (.binary (.object 1) (.int32 7)))).world.stubsAt 1 0 =
        [stub] ∧ stub.code = some code ∧
      Guard.holds unwritten.world.heap code.signature stub (.binary (.object 1) (.int32 7)) = true := by
  have hin : 0 < (unwritten.world.cache 1).entries.size := by decide +kernel
  have hnone : unwritten.world.stubsAt 1 0 = [] := by decide +kernel
  have hone : ((unwritten.step (.use 1 ⟨1, 0⟩ (.binary (.object 1) (.int32 7)))).world.stubsAt 1
      0).length = 1 := by decide +kernel
  obtain ⟨-, hnext⟩ := attached_stubs_accept_and_differ .standard (fun _ _ => none) ()
    [.host trackedGroup .initial .empty 0 (), .addCache ⟨1, "f", 0, false, 0, #[.setProp 0], #["x"]⟩]
    1 0 hin
  rcases hnext (.use 1 ⟨1, 0⟩ (.binary (.object 1) (.int32 7))) with
    hsub | ⟨id, ops, stub, code, huse, -, hcode, hholds, hstubs⟩
  · have hle : ((unwritten.step (.use 1 ⟨1, 0⟩ (.binary (.object 1) (.int32 7)))).world.stubsAt 1
        0).length ≤ (unwritten.world.stubsAt 1 0).length := hsub.length_le
    rw [hone, hnone] at hle
    exact absurd hle (by decide)
  · cases huse
    have hstubs' : (unwritten.step (.use 1 ⟨1, 0⟩ (.binary (.object 1) (.int32 7)))).world.stubsAt 1 0 =
        stub :: unwritten.world.stubsAt 1 0 := hstubs
    rw [hnone] at hstubs'
    exact ⟨stub, code, hstubs', hcode, hholds⟩

end Machine

end InlineCache
