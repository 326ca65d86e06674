import InlineCache.Proofs.TypeChain.Turnover
import InlineCache.Proofs.UnitCache.Guards

namespace InlineCache.UnitCache

/-- The stubs of the chain at a place, its end included. -/
def held (c : UnitCache) (p : ChainPlace) : List Stub :=
  ((c.chain? p).map (·.held c.arena)).getD []

variable {c c' : UnitCache} {p q : ChainPlace} {chain : Chain}

theorem held_of_chain? (h : c.chain? p = some chain) : c.held p = chain.held c.arena := by
  rw [held, h]
  rfl

theorem held_of_none (h : c.chain? p = none) : c.held p = [] := by
  rw [held, h]
  rfl

/-- What the chains hold hangs on the arena and the chains alone. -/
theorem held_of_eq (hchain : ∀ q, c'.chain? q = c.chain? q) (harena : c'.arena = c.arena)
    (p : ChainPlace) : c'.held p = c.held p := by
  rw [held, held, harena, hchain]

/-- Work on one chain leaves what the others hold alone. -/
theorem EditedAt.held_eq (hc : c.Linked) (hedit : c.EditedAt p c' chain) (hq : q ≠ p) :
    c'.held q = c.held q := by
  cases hchain : c.chain? q with
  | none => rw [held_of_none hchain, held_of_none (by rw [hedit.others q hq, hchain])]
  | some old =>
    rw [held_of_chain? hchain, held_of_chain? (by rw [hedit.others q hq, hchain])]
    exact Chain.held_frame hc.arena (hc.sound hchain) hedit.arena (hedit.fallback_ne hc hq hchain)

/-- A stub that a chain holds is one of those before its end, or the end. -/
theorem mem_held (hc : c.Linked) {s : Stub} (hs : s ∈ c.held p) :
    ∃ chain, c.chain? p = some chain ∧ (s ∈ chain.stubs c.arena ∨ s.kind.typeGuard? = none) := by
  cases hchain : c.chain? p with
  | none =>
    rw [held_of_none hchain] at hs
    cases hs
  | some chain =>
    refine ⟨chain, rfl, ?_⟩
    have hsound := hc.sound hchain
    rw [held_of_chain? hchain, Chain.held_eq hc.arena hsound] at hs
    refine (List.mem_append.1 hs).imp_right fun hend => ?_
    have hfallback := hsound.isFallback_fallback hc.arena
    rw [List.mem_singleton] at hend
    rw [← hend, Stub.isFallback] at hfallback
    cases hkind : s.kind with
    | monitor guard | update guard =>
      rw [hkind] at hfallback
      cases hfallback
    | _ => rfl

/-- The end of a chain is no type guard. -/
theorem coded_of_stubIds_eq_nil (hc : c.Linked) (cleared : Prop) (codes : CodeCache)
    (hnone : ∀ chain, c.chain? p = some chain → chain.stubIds c.arena = []) :
    ∀ s ∈ c.held p, s.Coded cleared codes := by
  intro s hs
  refine Stub.coded_of_typeGuard?_eq_none ?_
  obtain ⟨chain, hchain, hmem | hguard⟩ := mem_held hc hs
  · rw [Chain.stubs, hnone chain hchain] at hmem
    cases hmem
  · exact hguard

/-- What a unit reports is what the stubs of its chains keep alive. -/
theorem mem_edges (hkeyed : c.updates.Keyed) {e : Edge} :
    e ∈ c.edges ↔ ∃ p, ∃ s ∈ c.held p, e ∈ s.edges := by
  have hchain {p : ChainPlace} {chain : Chain} (hp : c.chain? p = some chain) :
      e ∈ chain.edges c.arena ↔ ∃ s ∈ c.held p, e ∈ s.edges := by
    rw [Chain.edges_eq, List.mem_flatMap, held_of_chain? hp]
  unfold edges
  rw [List.mem_append, List.mem_flatMap, List.mem_flatMap]
  constructor
  · rintro (⟨entry, hentry, he⟩ | ⟨⟨⟨group, key⟩, t⟩, ht, he⟩)
    · obtain ⟨index, hindex⟩ := Array.mem_iff_getElem?.1 (Array.mem_toList_iff.1 hentry)
      rcases List.mem_append.1 he with he | he
      · exact ⟨.main index, (hchain (by simp [chain?, hindex])).1 he⟩
      · cases hm : entry.monitor with
        | none =>
          rw [hm] at he
          cases he
        | some m =>
          rw [hm] at he
          exact ⟨.monitor index, (hchain (by simp [chain?, hindex, hm])).1 he⟩
    · exact ⟨.update group key, (hchain (by simp [chain?, hkeyed.mem_iff.1 ht])).1 he⟩
  · rintro ⟨p, s, hs, he⟩
    cases hp : c.chain? p with
    | none =>
      rw [held_of_none hp] at hs
      cases hs
    | some chain =>
      have he := (hchain hp).2 ⟨s, hs, he⟩
      cases p with
      | main index =>
        obtain ⟨entry, hentry, rfl⟩ := Option.map_eq_some_iff.1 hp
        exact .inl ⟨entry, Array.mem_toList_iff.2 (Array.mem_of_getElem? hentry),
          List.mem_append_left _ he⟩
      | monitor index =>
        obtain ⟨entry, hentry, hmonitor⟩ := Option.bind_eq_some_iff.1 hp
        obtain ⟨m, hm, rfl⟩ := Option.map_eq_some_iff.1 hmonitor
        refine .inl ⟨entry, Array.mem_toList_iff.2 (Array.mem_of_getElem? hentry),
          List.mem_append_right _ ?_⟩
        rw [hm]
        exact he
      | update group key =>
        obtain ⟨t, ht, rfl⟩ := Option.map_eq_some_iff.1 hp
        exact .inr ⟨((group, key), t), hkeyed.mem_iff.2 ht, he⟩

/-- The type guards of all chains have cached code, unless the cache of code was cleared. -/
structure Compiled (cleared : Prop) (codes : CodeCache) (c : UnitCache) : Prop where
  keyed : c.updates.Keyed
  coded : ∀ (p : ChainPlace), ∀ s ∈ c.held p, s.Coded cleared codes

theorem Compiled.of_codes {cleared cleared' : Prop} {codes codes' : CodeCache}
    (h : c.Compiled cleared codes) (hcleared : cleared → cleared')
    (hcodes : ¬ cleared' → ∀ signature code, codes.get? signature = some code →
      codes'.get? signature = some code) : c.Compiled cleared' codes' :=
  ⟨h.keyed, fun p s hs => (h.coded p s hs).of_codes hcleared hcodes⟩

/-- A new unit has no type guards. -/
theorem compiled_create {unit : CodeUnit} {config : CacheConfig} (cleared : Prop) (codes : CodeCache)
    (hcreate : create unit config = .ok c) : c.Compiled cleared codes where
  keyed := by
    rw [updates_create hcreate]
    exact Assoc.keyed_empty
  coded _ := coded_of_stubIds_eq_nil (create_linked hcreate).1 cleared codes
    fun _ hchain => stubIds_create hcreate hchain

end InlineCache.UnitCache
