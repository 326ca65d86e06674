import InlineCache.Proofs.Chain.Unlinked
import InlineCache.Proofs.Runtime.Lookups

namespace InlineCache

/-- A stub has what its kind asks for: no code at the end of a chain, and elsewhere code that was given for the
signature of the stub. -/
inductive Stub.Supplied (gives : Signature → Code → Prop) (s : Stub) : Prop where
  | ending (hkey : s.kind.codeKey? = none) (hcode : s.code = none)
  | coded {key : Signature} {code : Code} (hkey : s.kind.codeKey? = some key) (hcode : s.code = some code)
      (hgives : gives key code)

/-- Stubs other than the ends of chains have a signature. -/
theorem StubKind.codeKey?_eq_none_iff (kind : StubKind) : kind.codeKey? = none ↔ kind.isFallback = true := by
  cases kind <;> simp [codeKey?, isFallback]

namespace Stub.Supplied

variable {gives gives' : Signature → Code → Prop} {s : Stub}

theorem mono (h : s.Supplied gives) (hgives : ∀ key code, gives key code → gives' key code) :
    s.Supplied gives' := by
  cases h with
  | ending hkey hcode => exact .ending hkey hcode
  | coded hkey hcode hgiven => exact .coded hkey hcode (hgives _ _ hgiven)

theorem of_code (h : s.Supplied gives) {code : Code} (hcode : s.code = some code) :
    ∃ key, s.kind.codeKey? = some key ∧ gives key code := by
  cases h with
  | ending _ hnone =>
    rw [hnone] at hcode
    cases hcode
  | @coded key _ hkey hcode' hgiven =>
    rw [hcode', Option.some.injEq] at hcode
    exact ⟨key, hkey, hcode ▸ hgiven⟩

/-- Only the end of a chain has no code. -/
theorem exists_code (h : s.Supplied gives) (hs : s.isFallback = false) : ∃ code, s.code = some code := by
  cases h with
  | ending hkey _ =>
    rw [StubKind.codeKey?_eq_none_iff] at hkey
    rw [Stub.isFallback, hkey] at hs
    cases hs
  | coded _ hcode _ => exact ⟨_, hcode⟩

end Stub.Supplied

/-- A stub is supplied by a cache if the cache has its code under the signature of the stub. -/
def CodeCache.Supplies (c : CodeCache) (s : Stub) : Prop := s.Supplied fun key code => c.get? key = some code

private theorem CodeCache.LooksUp.supplies {c c' : CodeCache} (h : c.LooksUp c') {s : Stub}
    (hs : c.Supplies s) : c'.Supplies s :=
  Stub.Supplied.mono hs fun _ _ hget => h.get? hget

/-- Recipes whose signature is that of the stub they are for. -/
def Recipe.Matched (r : Recipe) : Prop := r.kind.codeKey? = some r.signature

private theorem Recipe.Matched.supplies {r : Recipe} (h : r.Matched) {c : CodeCache} {code : Code}
    (hget : c.get? r.signature = some code) : c.Supplies (r.toStub code) :=
  .coded h rfl hget

namespace Arena

/-- Every stub of `b` is one of `a`, or is supplied by a cache of code. Stubs are only ever added, or
one put in the place of another; all else that work on stubs does to an arena is done to the links
between them. -/
def SuppliedBy (c : CodeCache) (a b : Arena) : Prop := ∀ s ∈ b.stubs, s ∈ a.stubs ∨ c.Supplies s

variable {c c' : CodeCache} {a a₁ b : Arena} {s : Stub}

theorem SuppliedBy.of_eq (c : CodeCache) (h : b.stubs = a.stubs) : SuppliedBy c a b :=
  fun _ hs => .inl (h ▸ hs)

theorem SuppliedBy.trans (h : SuppliedBy c a a₁) (hlooks : c.LooksUp c') (h' : SuppliedBy c' a₁ b) :
    SuppliedBy c' a b := by
  intro s hs
  rcases h' s hs with hbefore | hnew
  · exact (h s hbefore).imp_right hlooks.supplies
  · exact .inr hnew

theorem suppliedBy_push (hs : c.Supplies s) (a : Arena) (next : Option StubId) :
    SuppliedBy c a (a.push s next).2 := by
  intro x hx
  rcases Array.mem_push.1 hx with hold | rfl
  · exact .inl hold
  · exact .inr hs

private theorem suppliedBy_add (hs : c.Supplies s) (a : Arena) (next : StubId) :
    SuppliedBy c a (a.add s next).2 := by
  unfold add
  split
  · exact .of_eq c rfl
  · exact suppliedBy_push hs _ _

theorem suppliedBy_replace (hs : c.Supplies s) (a : Arena) (id : StubId) :
    SuppliedBy c a (a.replace id s) := by
  intro x hx
  rcases Array.mem_or_eq_of_mem_setIfInBounds hx with hold | rfl
  · exact .inl hold
  · exact .inr hs

end Arena

namespace AttachEnv

/-- What work on stubs leaves of the arena and of the cache of code: code is looked up, and every new stub has
its own from there. -/
structure Supplies (env env' : AttachEnv) : Prop where
  lookups : env.runtime.codeCache.LooksUp env'.runtime.codeCache
  stubs : Arena.SuppliedBy env'.runtime.codeCache env.arena env'.arena

variable {env env' env'' : AttachEnv}

/-- Where the stubs stay and no code is looked up. -/
theorem Supplies.of_eq (hstubs : env'.arena.stubs = env.arena.stubs)
    (hcode : env'.runtime.codeCache = env.runtime.codeCache) : env.Supplies env' :=
  ⟨hcode ▸ .refl _, .of_eq _ hstubs⟩

theorem Supplies.refl (env : AttachEnv) : env.Supplies env := .of_eq rfl rfl

theorem Supplies.trans (h : env.Supplies env') (h' : env'.Supplies env'') : env.Supplies env'' :=
  ⟨h.lookups.trans h'.lookups, h.stubs.trans h'.lookups h'.stubs⟩

theorem supplies_reportFailure (env : AttachEnv) (e : CacheError) : env.Supplies (env.reportFailure e) := by
  unfold reportFailure
  split
  · exact .of_eq rfl rfl
  · exact .refl env

theorem supplies_discardAll (env : AttachEnv) (c : Chain) : env.Supplies (env.discardAll c).2.2 :=
  .of_eq (Chain.stubs_unlinkFrom rfl) rfl

/-- What is built from a matched recipe is supplied, and no stub is added yet. -/
theorem supplies_build {recipe : Recipe} (hmatched : recipe.Matched) {result : Except CacheError Stub}
    (h : env.build recipe = (result, env')) :
    env.Supplies env' ∧ ∀ stub, result = .ok stub → env'.runtime.codeCache.Supplies stub := by
  obtain ⟨hsame, -, hresult⟩ := build_spec h
  have hcode : env'.runtime.codeCache = (env.runtime.codeCache.getOrCompile
      (env.runtime.compiler env.runtime.codeCache.misses) recipe.signature).2 := by
    cases h
    rfl
  refine ⟨⟨hcode ▸ .getOrCompile _ _ _, .of_eq _ (congrArg Arena.stubs hsame.arena)⟩, fun stub hstub => ?_⟩
  rcases hresult with ⟨code, rfl, hget, -⟩ | ⟨e, rfl, -⟩
  · cases hstub
    exact hmatched.supplies hget
  · cases hstub

theorem supplies_insert {s : Stub} (hs : env.runtime.codeCache.Supplies s) (c : Chain) :
    env.Supplies (env.insert c s).2.2 := by
  refine ⟨.refl _, ?_⟩
  have hadded := Arena.suppliedBy_add hs env.arena c.head
  simp only [insert, Chain.insert]
  split
  · next hadd =>
    rw [hadd] at hadded
    exact hadded
  · next hadd =>
    rw [hadd] at hadded
    exact hadded

end AttachEnv

end InlineCache
