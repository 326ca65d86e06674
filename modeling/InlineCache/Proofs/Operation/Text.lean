import Mathlib.Logic.Relation
import Mathlib.Order.Interval.Finset.Nat
import InlineCache.Operation.Property
import InlineCache.Proofs.Heap.Built

namespace InlineCache

namespace Operation

variable {h : Heap} {v : Value}

mutual

/-- What the conversion of a value ends with, however deep its arrays are nested. An array is converted
element by element, so a conversion is a recursion along the heap. -/
inductive Converts (h : Heap) : Value → Except VmError String → Prop where
  | simple {v : Value} (hsimple : ∀ id, v = .object id → (h.object id).cls ≠ .array) :
      Converts h v (textWithin h 0 v)
  | array {id : ObjectId} {result : Except VmError (List String)} (harray : (h.object id).cls = .array)
      (hparts : PartsConvert h (h.object id).elements.toList result) :
      Converts h (.object id) (result.map (",".intercalate ·))

/-- What the conversion of some elements of an array ends with, one after the other up to an error. -/
inductive PartsConvert (h : Heap) : List Value → Except VmError (List String) → Prop where
  | nil : PartsConvert h [] (.ok [])
  | blank {v : Value} {rest : List Value} {result : Except VmError (List String)}
      (hblank : isNothing v = true) (hrest : PartsConvert h rest result) :
      PartsConvert h (v :: rest) (result.map ("" :: ·))
  | fail {v : Value} {rest : List Value} {e : VmError} (hpart : isNothing v = false)
      (hv : Converts h v (.error e)) : PartsConvert h (v :: rest) (.error e)
  | part {v : Value} {rest : List Value} {text : String} {result : Except VmError (List String)}
      (hpart : isNothing v = false) (hv : Converts h v (.ok text)) (hrest : PartsConvert h rest result) :
      PartsConvert h (v :: rest) (result.map (text :: ·))

end

/-- The conversion of the first value comes to that of the second one: it is an element of an array, and those
before it have texts. -/
def Needs (h : Heap) (a b : Value) : Prop :=
  ∃ id pre post, a = .object id ∧ (h.object id).cls = .array ∧
    (h.object id).elements.toList = pre ++ b :: post ∧ isNothing b = false ∧
      ∀ p ∈ pre, isNothing p = true ∨ ∃ text, Converts h p (.ok text)

/-- The text of an element. -/
def partWithin (h : Heap) (depth : Nat) (element : Value) : Except VmError String :=
  if isNothing element then .ok "" else textWithin h depth element

private theorem textWithin_array {id : ObjectId} (harray : (h.object id).cls = .array) (depth : Nat) :
    textWithin h (depth + 1) (.object id) =
      ((h.object id).elements.toList.mapM (partWithin h depth)).map (",".intercalate ·) := by
  rw [textWithin, harray]
  refine congrArg (Except.map (",".intercalate ·)) (congrArg (List.mapM · _) (funext fun element => ?_))
  cases element <;> rfl

private theorem textWithin_array_zero {id : ObjectId} (harray : (h.object id).cls = .array) :
    textWithin h 0 (.object id) = .error .endlessText := by
  simp only [textWithin, harray]

/-- What is no array has a text at any depth, or none for a reason of its own. -/
theorem textWithin_simple (hsimple : ∀ id, v = .object id → (h.object id).cls ≠ .array) (depth : Nat) :
    textWithin h depth v = textWithin h 0 v ∧ textWithin h depth v ≠ .error .endlessText := by
  cases v with
  | object id =>
    cases hcls : (h.object id).cls with
    | array => exact absurd hcls (hsimple id rfl)
    | _ => cases depth <;> simp [textWithin, hcls]
  | _ => simp [textWithin]

/-- Elements are converted one after the other. -/
theorem mapM_cons_eq {f : Value → Except VmError String} (v : Value) (rest : List Value) :
    (v :: rest).mapM f =
      match f v with
      | .error e => .error e
      | .ok text => (rest.mapM f).map (text :: ·) := by
  rw [List.mapM_cons]
  cases f v with
  | error e => rfl
  | ok text => cases rest.mapM f <;> rfl

private theorem simple_or_array (h : Heap) (v : Value) :
    (∀ id, v = .object id → (h.object id).cls ≠ .array) ∨
      ∃ id, v = .object id ∧ (h.object id).cls = .array := by
  by_cases harray : ∃ id, v = .object id ∧ (h.object id).cls = .array
  · exact .inr harray
  · exact .inl fun id heq hcls => harray ⟨id, heq, hcls⟩

private theorem map_ne_endless {α β : Type} {f : α → β} {result : Except VmError α}
    (hne : result.map f ≠ .error .endlessText) : result ≠ .error .endlessText := by
  rintro rfl
  exact hne rfl

private theorem map_ne_endless_of {α β : Type} {f : α → β} {result : Except VmError α}
    (hne : result ≠ .error .endlessText) : result.map f ≠ .error .endlessText := by
  cases result with
  | error e => exact fun heq => hne (by cases heq; rfl)
  | ok a => exact fun heq => by cases heq

private theorem partsConvert_of_mapM {depth : Nat}
    (htext : ∀ v, textWithin h depth v ≠ .error .endlessText → Converts h v (textWithin h depth v))
    {elements : List Value} (hne : elements.mapM (partWithin h depth) ≠ .error .endlessText) :
    PartsConvert h elements (elements.mapM (partWithin h depth)) := by
  induction elements with
  | nil => exact .nil
  | cons v rest ih =>
    rw [mapM_cons_eq] at hne ⊢
    by_cases hnothing : isNothing v = true
    · simp only [partWithin, hnothing, if_true] at hne ⊢
      exact .blank hnothing (ih (map_ne_endless hne))
    · have hv := htext v
      simp only [partWithin, hnothing] at hne ⊢
      rw [Bool.not_eq_true] at hnothing
      cases hresult : textWithin h depth v with
      | error e =>
        simp only [hresult] at hne hv ⊢
        exact .fail hnothing (hv (by simpa using hne))
      | ok text =>
        simp only [hresult] at hne hv ⊢
        exact .part hnothing (hv (by simp)) (ih (map_ne_endless hne))

/-- What is found without meeting the bound is what the conversion ends with. -/
theorem converts_of_textWithin {depth : Nat} (hne : textWithin h depth v ≠ .error .endlessText) :
    Converts h v (textWithin h depth v) := by
  induction depth generalizing v with
  | zero =>
    rcases simple_or_array h v with hsimple | ⟨id, rfl, harray⟩
    · exact .simple hsimple
    · exact absurd (textWithin_array_zero harray) hne
  | succ depth ih =>
    rcases simple_or_array h v with hsimple | ⟨id, rfl, harray⟩
    · rw [(textWithin_simple hsimple _).1]
      exact .simple hsimple
    · rw [textWithin_array harray] at hne ⊢
      exact .array harray (partsConvert_of_mapM (fun _ => ih) (map_ne_endless hne))

mutual

/-- What a conversion ends with is found within every bound from some one on. -/
theorem Converts.textWithin_eq {v : Value} {result : Except VmError String} (hv : Converts h v result) :
    result ≠ .error .endlessText ∧ ∃ least, ∀ depth, least ≤ depth → textWithin h depth v = result :=
  match hv with
  | .simple hsimple =>
    ⟨(textWithin_simple hsimple 0).2, 0, fun depth _ => (textWithin_simple hsimple depth).1⟩
  | .array harray hparts => by
    obtain ⟨hne, least, hleast⟩ := hparts.mapM_eq
    refine ⟨map_ne_endless_of hne, least + 1, fun depth hdepth => ?_⟩
    cases depth with
    | zero => cases hdepth
    | succ depth => rw [textWithin_array harray, hleast depth (Nat.le_of_succ_le_succ hdepth)]

theorem PartsConvert.mapM_eq {elements : List Value} {result : Except VmError (List String)}
    (hparts : PartsConvert h elements result) :
    result ≠ .error .endlessText ∧
      ∃ least, ∀ depth, least ≤ depth → elements.mapM (partWithin h depth) = result :=
  match hparts with
  | .nil => ⟨by simp, 0, fun _ _ => rfl⟩
  | .blank hblank hrest => by
    obtain ⟨hne, least, hleast⟩ := hrest.mapM_eq
    refine ⟨map_ne_endless_of hne, least, fun depth hdepth => ?_⟩
    rw [mapM_cons_eq, hleast depth hdepth]
    simp [partWithin, hblank]
  | .fail hpart hv => by
    obtain ⟨hne, least, hleast⟩ := hv.textWithin_eq
    refine ⟨fun heq => hne (by cases heq; rfl), least, fun depth hdepth => ?_⟩
    rw [mapM_cons_eq]
    simp [partWithin, hpart, hleast depth hdepth]
  | .part hpart hv hrest => by
    obtain ⟨-, least, hleast⟩ := hv.textWithin_eq
    obtain ⟨hne, least', hleast'⟩ := hrest.mapM_eq
    refine ⟨map_ne_endless_of hne, max least least', fun depth hdepth => ?_⟩
    rw [mapM_cons_eq, hleast' depth (Nat.le_trans (Nat.le_max_right _ _) hdepth)]
    simp [partWithin, hpart, hleast depth (Nat.le_trans (Nat.le_max_left _ _) hdepth)]

end

/-- There is one way in which a conversion ends. -/
theorem Converts.unique {result result' : Except VmError String} (hv : Converts h v result)
    (hv' : Converts h v result') : result = result' := by
  obtain ⟨-, least, hleast⟩ := hv.textWithin_eq
  obtain ⟨-, least', hleast'⟩ := hv'.textWithin_eq
  rw [← hleast _ (Nat.le_max_left least least'), hleast' _ (Nat.le_max_right least least')]

/-- An element that is needed has no text within a bound that is not enough for the whole. -/
theorem mapM_endless {depth : Nat} {pre post : List Value} {b : Value} (hpart : isNothing b = false)
    (hpre : ∀ p ∈ pre, isNothing p = true ∨ ∃ text, Converts h p (.ok text))
    (hb : textWithin h depth b = .error .endlessText) :
    (pre ++ b :: post).mapM (partWithin h depth) = .error .endlessText := by
  -- the elements before it do not fail in another way first, since they have texts
  induction pre with
  | nil =>
    rw [List.nil_append, mapM_cons_eq]
    simp [partWithin, hpart, hb]
  | cons p pre ih =>
    have hrest := ih fun q hq => hpre q (List.mem_cons_of_mem p hq)
    rw [List.cons_append, mapM_cons_eq, hrest]
    by_cases hnothing : isNothing p = true
    · simp [partWithin, hnothing, Except.map]
    · obtain ⟨text, hp⟩ := (hpre p List.mem_cons_self).resolve_left hnothing
      simp only [partWithin, hnothing]
      cases hresult : textWithin h depth p with
      | ok text => rfl
      | error e =>
        by_cases hendless : e = .endlessText
        · rw [hendless]
          rfl
        · have hne : textWithin h depth p ≠ .error .endlessText := by simp [hresult, hendless]
          cases hp.unique (hresult ▸ converts_of_textWithin hne)

/-- A bound that is enough for a value is enough, less one, for what its conversion comes to. -/
theorem Needs.descend {a b : Value} (hneeds : Needs h a b) {depth : Nat}
    (hne : textWithin h depth a ≠ .error .endlessText) :
    ∃ depth' < depth, textWithin h depth' b ≠ .error .endlessText := by
  obtain ⟨id, pre, post, rfl, harray, helements, hpart, hpre⟩ := hneeds
  cases depth with
  | zero => exact absurd (textWithin_array_zero harray) hne
  | succ depth =>
    refine ⟨depth, Nat.lt_succ_self depth, fun hb => hne ?_⟩
    rw [textWithin_array harray, helements, mapM_endless hpart hpre hb]
    rfl

private theorem descend_trans {a b : Value} (hneeds : Relation.TransGen (Needs h) a b) {depth : Nat}
    (hne : textWithin h depth a ≠ .error .endlessText) :
    ∃ depth' < depth, textWithin h depth' b ≠ .error .endlessText := by
  induction hneeds with
  | single hstep => exact hstep.descend hne
  | tail _ hstep ih =>
    obtain ⟨depth', hlt, hne'⟩ := ih
    obtain ⟨depth'', hlt', hne''⟩ := hstep.descend hne'
    exact ⟨depth'', Nat.lt_trans hlt' hlt, hne''⟩

/-- No bound is enough for what comes back to itself. -/
theorem textWithin_of_circle {a : Value} (hcircle : Relation.TransGen (Needs h) a a) (depth : Nat) :
    textWithin h depth a = .error .endlessText := by
  induction depth using Nat.strong_induction_on with
  | _ depth ih =>
    by_contra hne
    obtain ⟨depth', hlt, hne'⟩ := descend_trans hcircle hne
    exact hne' (ih depth' hlt)

/-- A value whose conversion comes to something that comes back to itself. -/
def Circles (h : Heap) (v : Value) : Prop :=
  ∃ a, Relation.ReflTransGen (Needs h) v a ∧ Relation.TransGen (Needs h) a a

private theorem Circles.textWithin_eq (hcircles : Circles h v) (depth : Nat) :
    textWithin h depth v = .error .endlessText := by
  obtain ⟨a, hneeds, hcircle⟩ := hcircles
  by_contra hne
  rcases Relation.reflTransGen_iff_eq_or_transGen.1 hneeds with rfl | hneeds
  · exact hne (textWithin_of_circle hcircle depth)
  · obtain ⟨depth', -, hne'⟩ := descend_trans hneeds hne
    exact hne' (textWithin_of_circle hcircle depth')

/-- Elements whose needed ones have texts have a text together. -/
theorem mapM_ne_endless {depth : Nat} (pre : List Value) {elements : List Value}
    (hpre : ∀ p ∈ pre, isNothing p = true ∨ ∃ text, Converts h p (.ok text))
    (hneeded : ∀ p b post, pre ++ elements = p ++ b :: post → isNothing b = false →
      (∀ q ∈ p, isNothing q = true ∨ ∃ text, Converts h q (.ok text)) →
      textWithin h depth b ≠ .error .endlessText) :
    elements.mapM (partWithin h depth) ≠ .error .endlessText := by
  induction elements generalizing pre with
  | nil => exact fun heq => by cases heq
  | cons v rest ih =>
    have hrest (hv : isNothing v = true ∨ ∃ text, Converts h v (.ok text)) :
        rest.mapM (partWithin h depth) ≠ .error .endlessText := by
      refine ih (pre ++ [v]) (fun p hp => ?_) fun p b post heq => hneeded p b post (by simpa using heq)
      rcases List.mem_append.1 hp with hp | hp
      · exact hpre p hp
      · cases List.mem_singleton.1 hp
        exact hv
    rw [mapM_cons_eq]
    by_cases hnothing : isNothing v = true
    · simp only [partWithin, hnothing, if_true]
      exact map_ne_endless_of (hrest (.inl hnothing))
    · have hv := hneeded pre v rest rfl (by simpa using hnothing) hpre
      simp only [partWithin, hnothing]
      cases hresult : textWithin h depth v with
      | error e => simpa [hresult] using hv
      | ok text => exact map_ne_endless_of (hrest (.inr ⟨text, hresult ▸ converts_of_textWithin hv⟩))

/-- A value that does not circle has a text within as many levels as it has arrays to come to. -/
theorem textWithin_ne_endless (hcircles : ¬ Circles h v) {arrays : Finset ObjectId}
    (harrays : ∀ id, Relation.ReflTransGen (Needs h) v (.object id) → (h.object id).cls = .array →
      id ∈ arrays) :
    textWithin h arrays.card v ≠ .error .endlessText := by
  -- the induction is on the number of arrays that are left to come to
  generalize hdepth : arrays.card = depth
  induction depth generalizing v arrays with
  | zero =>
    rcases simple_or_array h v with hsimple | ⟨id, rfl, harray⟩
    · exact (textWithin_simple hsimple 0).2
    · have hmem := harrays id .refl harray
      rw [Finset.card_eq_zero.1 hdepth] at hmem
      cases hmem
  | succ depth ih =>
    rcases simple_or_array h v with hsimple | ⟨id, rfl, harray⟩
    · exact (textWithin_simple hsimple _).2
    · have hmem := harrays id .refl harray
      rw [textWithin_array harray]
      refine map_ne_endless_of
        (mapM_ne_endless [] (fun p hp => by cases hp) fun pre b post heq hpart hpre => ?_)
      have hneeds : Needs h (.object id) b := ⟨id, pre, post, rfl, harray, heq, hpart, hpre⟩
      have hcircles' : ¬ Circles h b := by
        rintro ⟨a, hneeds', hcircle⟩
        exact hcircles ⟨a, .head hneeds hneeds', hcircle⟩
      -- the array itself is not come to again
      have harrays' (id' : ObjectId) (hb : Relation.ReflTransGen (Needs h) b (.object id'))
          (harray' : (h.object id').cls = .array) : id' ∈ arrays.erase id := by
        refine Finset.mem_erase.2 ⟨?_, harrays id' (.head hneeds hb) harray'⟩
        rintro rfl
        exact hcircles ⟨_, .refl, .head' hneeds hb⟩
      exact ih hcircles' harrays' (by rw [Finset.card_erase_of_mem hmem, hdepth]; rfl)

/-- The bound that is used is enough. -/
theorem toText_ne_endless (hcircles : ¬ Circles h v) : toText h v ≠ .error .endlessText := by
  have harrays (id : ObjectId) (harray : (h.object id).cls = .array) : id ∈ Finset.Icc 1 h.objects.size := by
    have hne : h.object id ≠ default := fun heq => by
      rw [heq] at harray
      cases harray
    obtain ⟨hpos, hle⟩ := Heap.there_of_ne_default hne
    exact Finset.mem_Icc.2 ⟨hpos, hle⟩
  have hne := textWithin_ne_endless hcircles fun id _ => harrays id
  rwa [Nat.card_Icc, Nat.add_sub_cancel] at hne

/-- An array is among the elements of another one. -/
def HoldsArray (h : Heap) (id id' : ObjectId) : Prop :=
  (h.object id).cls = .array ∧ (h.object id').cls = .array ∧ Value.object id' ∈ (h.object id).elements

private theorem holdsArray_of_needs {id id' : ObjectId}
    (hneeds : Relation.TransGen (Needs h) (.object id) (.object id')) (harray : (h.object id').cls = .array) :
    Relation.TransGen (HoldsArray h) id id' := by
  have hstep {id id' : ObjectId} (hneeds : Needs h (.object id) (.object id'))
      (harray : (h.object id').cls = .array) : HoldsArray h id id' := by
    obtain ⟨_, pre, post, heq, hcls, helements, -⟩ := hneeds
    cases heq
    exact ⟨hcls, harray, by rw [Array.mem_def, helements]; simp⟩
  generalize htarget : Value.object id' = b at hneeds
  induction hneeds generalizing id' with
  | single hneeds =>
    subst htarget
    exact .single (hstep hneeds harray)
  | tail _ hneeds ih =>
    subst htarget
    have hmid := hneeds
    obtain ⟨mid, -, -, rfl, hmid, -⟩ := hmid
    exact .tail (ih hmid rfl) (hstep hneeds harray)

/-- Only arrays that hold themselves, along others perhaps, make values circle. -/
theorem Circles.exists_holdsArray (hcircles : Circles h v) :
    ∃ id, Relation.TransGen (HoldsArray h) id id := by
  obtain ⟨a, -, hcircle⟩ := hcircles
  obtain ⟨b, ⟨id, pre, post, rfl, harray, -⟩, -⟩ := Relation.TransGen.head'_iff.1 hcircle
  exact ⟨id, holdsArray_of_needs hcircle harray⟩

/-- A value without a text is described by its representation. -/
theorem exists_describe_iff : (∃ text, describe h v = .ok text) ↔ toText h v ≠ .error .endlessText := by
  unfold describe
  split
  · simp [toText, textWithin]
  · split <;> simp_all

/-- The conversion of a value to a text comes to its end, with the text that is given or with an error, just
if it does not come to an array that it comes back to; and so does the description of the value for a message.
Where no array holds itself, along others perhaps, every conversion comes to its end. -/
theorem text_ends_iff (h : Heap) :
    (∀ v, (∃ result, Converts h v result) ↔ ¬ Circles h v) ∧
    (∀ v result, Converts h v result ↔ toText h v = result ∧ result ≠ .error .endlessText) ∧
    (∀ v key, Converts h v (.ok key) ↔ toPropertyKey h v = .ok key) ∧
    (∀ v, (∃ text, describe h v = .ok text) ↔ ∃ result, Converts h v result) ∧
    ((∀ id, ¬ Relation.TransGen (HoldsArray h) id id) → ∀ v, ∃ result, Converts h v result) := by
  have hends (v : Value) : (∃ result, Converts h v result) ↔ ¬ Circles h v := by
    constructor
    · rintro ⟨result, hv⟩ hcircles
      obtain ⟨hne, least, hleast⟩ := hv.textWithin_eq
      exact hne ((hleast least (Nat.le_refl _)).symm.trans (hcircles.textWithin_eq least))
    · exact fun hcircles => ⟨_, converts_of_textWithin (toText_ne_endless hcircles)⟩
  have hexact (v : Value) (result : Except VmError String) :
      Converts h v result ↔ toText h v = result ∧ result ≠ .error .endlessText := by
    constructor
    · intro hv
      have hne := toText_ne_endless ((hends v).1 ⟨result, hv⟩)
      exact ⟨(converts_of_textWithin hne).unique hv, hv.textWithin_eq.1⟩
    · rintro ⟨rfl, hne⟩
      exact converts_of_textWithin hne
  refine ⟨hends, hexact, fun v key => ?_, fun v => ?_, ?_⟩
  · exact (hexact v (.ok key)).trans ⟨And.left, fun heq => ⟨heq, by simp⟩⟩
  · rw [exists_describe_iff]
    constructor
    · exact fun hne => ⟨toText h v, (hexact v _).2 ⟨rfl, hne⟩⟩
    · rintro ⟨result, hv⟩
      obtain ⟨heq, hne⟩ := (hexact v result).1 hv
      rwa [heq]
  · intro hholds v
    refine (hends v).2 fun hcircles => ?_
    obtain ⟨id, hcircle⟩ := hcircles.exists_holdsArray
    exact hholds id hcircle

/-- A heap with an array whose first element is the array itself. -/
def selfArray : Heap := setArrayElement (Heap.initial.newArray Heap.arrayGroup #[]).2 1 0 (.object 1)

private theorem builds_selfArray : Heap.initial.Builds selfArray := by
  have harray : Heap.initial.Built (Heap.initial.newArray Heap.arrayGroup #[]).2 :=
    .working (.newArray #[] (by decide) False.elim) rfl
  have hset : setProperty (Heap.initial.newArray Heap.arrayGroup #[]).2 (.object 1) "0" (.object 1) =
      (.ok (), selfArray) := by rfl
  exact harray.builds.trans (builds_setProperty hset)

private theorem circles_selfArray : Circles selfArray (.object 1) := by
  have hneeds : Needs selfArray (.object 1) (.object 1) :=
    ⟨1, [], [], rfl, by decide +kernel, by decide +kernel, rfl, fun p hp => by cases hp⟩
  exact ⟨.object 1, .refl, .single hneeds⟩

/-- Not every conversion comes to its end, on a heap that operations have built. -/
theorem text_not_always_ending :
    ¬ ∀ h : Heap, Heap.initial.Builds h → ∀ v, ∃ result, Converts h v result := by
  intro hall
  obtain ⟨result, hv⟩ := hall selfArray builds_selfArray (.object 1)
  obtain ⟨hne, least, hleast⟩ := hv.textWithin_eq
  exact hne ((hleast least (Nat.le_refl _)).symm.trans (circles_selfArray.textWithin_eq least))

end Operation

end InlineCache
