import InlineCache.Proofs.World.Use

namespace InlineCache

/-- What a use of an entry shows to type guards. -/
structure Showing where
  /-- The unit whose entry is used. -/
  cache : CacheId
  /-- The entry. -/
  index : Nat
  /-- The type guards that the entry had when the use began. What they accept is shown to no others. -/
  guards : List TypeGuard
  write : Option (GroupId × PropertyKey × Value)
  result : Option Value

/-- Showing nothing. -/
def Showing.nothing (c : CacheId) : Showing := ⟨c, 0, [], none, none⟩

namespace World

variable {σ : Type} {R : Rules} {resets turns : Prop} {c : CacheId} {index : Nat} {w w' : World σ}

/-- Shows the type guards of a property a write, if there is one. -/
def showWrite (w : World σ) (c : CacheId) : Option (GroupId × PropertyKey × Value) → World σ
  | some (group, key, v) => (w.recordWrite c group key v).2
  | none => w

/-- Shows the type guards of an entry a result, if there is one. -/
def showResult (w : World σ) (c : CacheId) (index : Nat) (guards : List TypeGuard) :
    Option Value → World σ
  | some v => w.recordResult c index guards v
  | none => w

/-- An entry of a linked unit that stays an entry of it. -/
structure At (w : World σ) (c : CacheId) (index : Nat) : Prop where
  lt : index < (w.cache c).entries.size
  linked : (w.cache c).Linked

theorem At.hasCache (h : w.At c index) : w.HasCache c := hasCache_of_lt h.lt

theorem At.works (h : w.At c index) (hw : Works R resets turns c w w') : w'.At c index := by
  obtain ⟨hlinked, hcontinues⟩ := hw.linked h.hasCache h.linked
  exact ⟨by rw [hcontinues.size_entries]; exact h.lt, hlinked⟩

theorem Works.site_eq (h : w.At c index) (hw : Works R resets turns c w w') (i : Nat) :
    (w'.cache c).site i = (w.cache c).site i := by
  obtain ⟨-, hcontinues⟩ := hw.linked h.hasCache h.linked
  rw [UnitCache.site, UnitCache.site, hcontinues.sites_eq]

theorem Linkable.works {op : SiteOperation} {recipe : Recipe} (h : w.At c index)
    (hrole : ((w.cache c).site index).role = .operation op)
    (hw : Works R resets turns c w w') (hfits : R.fits w'.heap op recipe) :
    w'.Linkable R c index recipe :=
  ⟨op, by rw [hw.site_eq h, hrole], hfits⟩

theorem seen_showWrite (w : World σ) (c : CacheId)
    (write : Option (GroupId × PropertyKey × Value)) : (w.showWrite c write).heap.seen = w.heap.seen := by
  cases write with
  | none => rfl
  | some written => exact seen_recordWrite w c _ _ _

private theorem works_showWrite {write : Option (GroupId × PropertyKey × Value)}
    (hshows : ∀ group key v, write = some (group, key, v) → R.shows (.write group key))
    (hc : w.HasCache c) (hl : (w.cache c).Linked)
    (hwrites : ∀ group key v, write = some (group, key, v) → R.writes w.heap group) :
    Works R resets turns c w (w.showWrite c write) := by
  cases write with
  | none => exact .refl w c
  | some written => exact works_recordWrite (hshows _ _ _ rfl) hc hl (hwrites _ _ _ rfl) _

/-- Whatever is shown, the unit stays what it is. -/
theorem works_showWrite_open (hc : w.HasCache c) (hl : (w.cache c).Linked)
    (write : Option (GroupId × PropertyKey × Value)) :
    Works .open False False c w (w.showWrite c write) :=
  works_showWrite (fun _ _ _ _ => trivial) hc hl fun _ _ _ _ => trivial

theorem At.showWrite (h : w.At c index) (write : Option (GroupId × PropertyKey × Value)) :
    (w.showWrite c write).At c index :=
  h.works (works_showWrite_open h.hasCache h.linked write)

@[simp] theorem heap_recordResult (w : World σ) (c : CacheId) (index : Nat) (guards : List TypeGuard)
    (v : Value) : (w.recordResult c index guards v).heap = w.heap := by
  unfold recordResult
  split <;> rfl

@[simp] theorem heap_showResult (w : World σ) (c : CacheId) (index : Nat) (guards : List TypeGuard)
    (result : Option Value) : (w.showResult c index guards result).heap = w.heap := by
  cases result with
  | none => rfl
  | some v => exact heap_recordResult w c index guards v

theorem showResult_ite (w : World σ) (c : CacheId) (index : Nat) (guards : List TypeGuard) (v : Value)
    (b : Prop) [Decidable b] : w.showResult c index guards (if b then some v else none) =
      if b then w.recordResult c index guards v else w := by
  split <;> rfl

/-- `w'` is what became of `w` by a use of an entry, or by part of one. A write is shown before the
operation runs, and a result at the end. -/
inductive Parts (R : Rules) (resets turns : Prop) (s : Showing) (w : World σ) : World σ → Prop where
  | mk {w₁ w₂ : World σ}
      (hwrite : ∀ group key v, s.write = some (group, key, v) → R.writes w.heap group)
      (hresult : ∀ v, s.result = some v → s.index < (w.cache s.cache).entries.size)
      (hbefore : Works R resets turns s.cache w w₁) (hheap : w₁.heap = w.heap)
      (hafter : Works R resets turns s.cache (w₁.showWrite s.cache s.write) w₂) :
      Parts R resets turns s w (w₂.showResult s.cache s.index s.guards s.result)

/-- Work on its own shows nothing. -/
theorem Parts.of_works (h : Works R resets turns c w w') (index : Nat) (guards : List TypeGuard) :
    Parts R resets turns ⟨c, index, guards, none, none⟩ w w' :=
  .mk (s := ⟨c, index, guards, none, none⟩) (fun _ _ _ h => by cases h) (fun _ h => by cases h)
    (.refl w c) rfl h

theorem Parts.refl (w : World σ) (c : CacheId) (index : Nat) (guards : List TypeGuard) :
    Parts R resets turns ⟨c, index, guards, none, none⟩ w w :=
  .of_works (.refl w c) index guards

/-- Work whose result is shown. -/
theorem Parts.result (hat : w.At c index) (h : Works R resets turns c w w') (guards : List TypeGuard)
    (result : Option Value) :
    Parts R resets turns ⟨c, index, guards, none, result⟩ w (w'.showResult c index guards result) :=
  .mk (s := ⟨c, index, guards, none, result⟩) (fun _ _ _ h => by cases h) (fun _ _ => hat.lt)
    (.refl w c) rfl h

/-- Work that leaves the heap alone, and then the showing of a write, may come before parts that show no
write. -/
theorem Parts.after {w₁ : World σ} {guards : List TypeGuard}
    {write : Option (GroupId × PropertyKey × Value)} {result : Option Value} (hat : w.At c index)
    (hwrite : ∀ group key v, write = some (group, key, v) → R.writes w.heap group)
    (hbefore : Works R resets turns c w w₁) (hheap : w₁.heap = w.heap)
    (h : Parts R resets turns ⟨c, index, guards, none, result⟩ (w₁.showWrite c write) w') :
    Parts R resets turns ⟨c, index, guards, write, result⟩ w w' := by
  generalize hs : (⟨c, index, guards, none, result⟩ : Showing) = s at h
  cases h with
  | mk _ _ hbefore' hheap' hafter =>
    subst hs
    exact .mk (s := ⟨c, index, guards, write, result⟩) hwrite (fun _ _ => hat.lt) hbefore hheap
      (hbefore'.trans ((hat.works hbefore).showWrite write).hasCache hafter)

/-- Parts of a use are work, where values may be shown to all type guards. -/
theorem Parts.works {s : Showing} (hshows : ∀ p, R.shows p) (hc : w.HasCache s.cache)
    (hl : (w.cache s.cache).Linked) (h : Parts R resets turns s w w') :
    Works R resets turns s.cache w w' := by
  cases h with
  | @mk w₁ w₂ hwrite hresult hbefore hheap hafter =>
    have hc₁ := hbefore.hasCache hc
    obtain ⟨hl₁, -⟩ := hbefore.linked hc hl
    have hwritten : Works R resets turns s.cache w₁ (w₁.showWrite s.cache s.write) :=
      works_showWrite (fun _ _ _ _ => hshows _) hc₁ hl₁ (by rw [hheap]; exact hwrite)
    have hshown : Works R resets turns s.cache w w₂ := (hbefore.trans hc hwritten).trans hc hafter
    cases hv : s.result with
    | none => exact hshown
    | some v =>
      have hat : w₂.At s.cache s.index := At.works ⟨hresult v hv, hl⟩ hshown
      exact hshown.trans hc (works_recordResult (hshows _) hat.lt hat.linked _ _)

end World

end InlineCache
