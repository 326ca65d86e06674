import Mathlib.Data.List.Induction
import InlineCache.Proofs.Runtime.Follows

namespace InlineCache.CodeCache

/-- What may be done with a cache of code. -/
inductive Call where
  /-- Asks for the code of a signature, with a compiler that fails for some signatures. -/
  | lookup (failure : Signature → Option CompileError) (signature : Signature)
  | clear

def Call.isLookup : Call → Bool
  | lookup _ _ => true
  | clear => false

def step (c : CodeCache) : Call → CodeCache
  | .lookup failure signature => (c.getOrCompile failure signature).2
  | .clear => c.clear

def run (c : CodeCache) (calls : List Call) : CodeCache := calls.foldl step c

/-- What a lookup answers after some calls on a new cache. -/
def answer (before : List Call) (failure : Signature → Option CompileError) (signature : Signature) :
    Except CompileError Code :=
  ((empty.run before).getOrCompile failure signature).1

variable {c : CodeCache} {failure failure' : Signature → Option CompileError}
  {signature signature' key : Signature} {code code' : Code} {before between calls : List Call}

theorem run_append (c : CodeCache) (first rest : List Call) : c.run (first ++ rest) = (c.run first).run rest :=
  List.foldl_append

/-- All that a lookup can do: it finds code, fails to compile it, or compiles it under the next
identity. Identities are counted, so a new one is greater than all that were given out before. -/
inductive Looked (c : CodeCache) (failure : Signature → Option CompileError) (signature : Signature) :
    Except CompileError Code × CodeCache → Prop where
  | hit {code : Code} (hget : c.get? signature = some code) :
      Looked c failure signature (.ok code, { c with hits := c.hits + 1 })
  | failed {e : CompileError} (hget : c.get? signature = none) (hfails : failure signature = some e) :
      Looked c failure signature (.error e, { c with misses := c.misses + 1 })
  | compiled (hget : c.get? signature = none) (hcompiles : failure signature = none) :
      Looked c failure signature
        (.ok ⟨c.compiled + 1, signature⟩,
         { c with entries := c.entries.set signature ⟨c.compiled + 1, signature⟩,
                  compiled := c.compiled + 1, misses := c.misses + 1 })

private theorem looked (c : CodeCache) (failure : Signature → Option CompileError)
    (signature : Signature) : Looked c failure signature (c.getOrCompile failure signature) := by
  unfold getOrCompile
  split
  · next code hget => exact .hit hget
  · next hget =>
    split
    · next e hfails => exact .failed hget hfails
    · next hcompiles => exact .compiled hget hcompiles

/-- What is in the cache after a lookup was there before, or is its answer. -/
theorem get?_getOrCompile (hget : (c.getOrCompile failure signature).2.get? key = some code) :
    c.get? key = some code ∨ key = signature ∧ (c.getOrCompile failure signature).1 = .ok code := by
  have hlooked := c.looked failure signature
  generalize c.getOrCompile failure signature = ran at hlooked hget ⊢
  cases hlooked with
  | hit _ => exact .inl hget
  | failed _ _ => exact .inl hget
  | compiled _ _ =>
    change (c.entries.set signature _).find? key = some code at hget
    by_cases hkey : key = signature
    · subst hkey
      rw [Assoc.find?_set_self, Option.some.injEq] at hget
      exact .inr ⟨rfl, by rw [hget]⟩
    · rw [Assoc.find?_set_of_ne _ _ hkey] at hget
      exact .inl hget

/-- What was answered is in the cache. -/
theorem get?_of_ok (hok : (c.getOrCompile failure signature).1 = .ok code) :
    (c.getOrCompile failure signature).2.get? signature = some code := by
  obtain ⟨-, -, ⟨found, hfound, hget, -⟩ | ⟨e, herror, -⟩⟩ :=
    getOrCompile_spec (Prod.eta (c.getOrCompile failure signature)).symm
  · rw [hok, Except.ok.injEq] at hfound
    rw [hfound]
    exact hget
  · rw [hok] at herror
    cases herror

/-- What is in the cache is answered, whatever the compiler would say. -/
theorem ok_of_get? (hget : c.get? signature = some code) (failure : Signature → Option CompileError) :
    (c.getOrCompile failure signature).1 = .ok code := by
  simp only [getOrCompile, hget]

/-- Code stays in the cache until it is cleared. -/
theorem get?_run_of_get? (hget : c.get? key = some code) (hclear : Call.clear ∉ calls) :
    (c.run calls).get? key = some code := by
  induction calls generalizing c with
  | nil => exact hget
  | cons call calls ih =>
    obtain ⟨hcall, hrest⟩ := List.ne_and_not_mem_of_not_mem_cons hclear
    cases call with
    | lookup failure signature => exact ih ((getOrCompile_spec (Prod.eta _).symm).2.1 key code hget) hrest
    | clear => exact absurd rfl hcall

/-- An identity that was given out, and whose code is at most found under signatures that are allowed. -/
structure OnlyFor (id : CodeId) (allowed : Signature → Prop) (c : CodeCache) : Prop where
  given : id ≤ c.compiled
  only : ∀ signature code, c.get? signature = some code → code.id = id → allowed signature

namespace OnlyFor

variable {id : CodeId} {allowed : Signature → Prop}

/-- A lookup answers with the identity only for a signature that is allowed. -/
theorem lookup (h : OnlyFor id allowed c) (failure : Signature → Option CompileError) (signature : Signature) :
    OnlyFor id allowed (c.getOrCompile failure signature).2 ∧
      ∀ code, (c.getOrCompile failure signature).1 = .ok code → code.id = id → allowed signature := by
  have hanswer : ∀ code, (c.getOrCompile failure signature).1 = .ok code → code.id = id →
      allowed signature := by
    intro code hok hid
    have hlooked := c.looked failure signature
    generalize c.getOrCompile failure signature = ran at hlooked hok
    cases hlooked with
    | hit hget =>
      cases hok
      exact h.only signature code hget hid
    | failed _ _ => cases hok
    | compiled _ _ =>
      -- the next identity was not given out before
      cases hok
      have hgiven := h.given
      exact absurd hid (Nat.ne_of_gt (Nat.lt_succ_of_le hgiven))
  refine ⟨⟨?_, fun key code hget hid => ?_⟩, hanswer⟩
  · have hgiven := h.given
    have hlooked := c.looked failure signature
    generalize c.getOrCompile failure signature = ran at hlooked ⊢
    cases hlooked with
    | hit _ => exact hgiven
    | failed _ _ => exact hgiven
    | compiled _ _ => exact Nat.le_succ_of_le hgiven
  · rcases get?_getOrCompile hget with hbefore | ⟨rfl, hok⟩
    · exact h.only key code hbefore hid
    · exact hanswer code hok hid

/-- Once the cache is cleared, the identity is not found at all. -/
theorem clear (h : OnlyFor id allowed c) : OnlyFor id (fun _ => False) c.clear :=
  ⟨h.given, fun _ _ hget => by cases hget⟩

theorem mono {allowed' : Signature → Prop} (h : OnlyFor id allowed c)
    (hallowed : ∀ signature, allowed signature → allowed' signature) : OnlyFor id allowed' c :=
  ⟨h.given, fun signature code hget hid => hallowed signature (h.only signature code hget hid)⟩

private theorem run (h : OnlyFor id allowed c) (calls : List Call) :
    OnlyFor id allowed (c.run calls) := by
  induction calls generalizing c with
  | nil => exact h
  | cons call calls ih =>
    cases call with
    | lookup failure signature => exact ih (h.lookup failure signature).1
    | clear => exact ih (h.clear.mono fun _ => False.elim)

/-- Whatever comes after the cache was cleared, the identity does not come back. -/
theorem run_of_clear (h : OnlyFor id allowed c) (hclear : Call.clear ∈ calls) :
    OnlyFor id (fun _ => False) (c.run calls) := by
  obtain ⟨first, rest, rfl⟩ := List.append_of_mem hclear
  rw [run_append]
  exact ((h.run first).clear).run rest

end OnlyFor

/-- Code is found under the signature that it was compiled for, and each identity under one signature. -/
structure Numbered (c : CodeCache) : Prop where
  honest : c.Honest
  only : ∀ signature code, c.get? signature = some code → OnlyFor code.id (· = signature) c

private theorem numbered_empty : empty.Numbered where
  honest _ _ hget := by cases hget
  only _ _ hget := by cases hget

namespace Numbered

private theorem lookup (h : c.Numbered) (failure : Signature → Option CompileError)
    (signature : Signature) : (c.getOrCompile failure signature).2.Numbered := by
  refine ⟨(getOrCompile_spec (Prod.eta _).symm).1 h.honest, fun key code hget => ?_⟩
  rcases get?_getOrCompile hget with hbefore | ⟨rfl, hok⟩
  · exact ((h.only key code hbefore).lookup failure signature).1
  · have hlooked := c.looked failure key
    generalize c.getOrCompile failure key = ran at hlooked hok hget ⊢
    cases hlooked with
    | hit hbefore =>
      cases hok
      exact ⟨(h.only key code hbefore).given, (h.only key code hbefore).only⟩
    | failed _ _ => cases hok
    | compiled _ _ =>
      cases hok
      refine ⟨Nat.le_refl _, fun other found hfound hid => ?_⟩
      by_cases hother : other = key
      · exact hother
      · -- code of another signature was there before, so its identity is smaller
        change (c.entries.set key _).find? other = some found at hfound
        rw [Assoc.find?_set_of_ne _ _ hother] at hfound
        have hgiven := (h.only other found hfound).given
        exact absurd hid (Nat.ne_of_lt (Nat.lt_succ_of_le hgiven))

private theorem step (h : c.Numbered) (call : Call) : (c.step call).Numbered := by
  cases call with
  | lookup failure signature => exact h.lookup failure signature
  | clear => exact ⟨honest_clear c, fun _ _ hget => by cases hget⟩

private theorem run (h : c.Numbered) (calls : List Call) : (c.run calls).Numbered := by
  induction calls generalizing c with
  | nil => exact h
  | cons call calls ih => exact ih (h.step call)

end Numbered

private theorem run_append_lookup (c : CodeCache) (before : List Call)
    (failure : Signature → Option CompileError) (signature : Signature) (between : List Call) :
    c.run (before ++ .lookup failure signature :: between) =
      ((c.run before).getOrCompile failure signature).2.run between :=
  run_append c before (.lookup failure signature :: between)

/-- Code is compiled for the signature that is asked for. -/
theorem signature_eq_of_answer (hok : answer before failure signature = .ok code) :
    code.signature = signature :=
  ((numbered_empty.run before).lookup failure signature).honest signature code (get?_of_ok hok)

/-- Code that was answered is answered again until the cache is cleared, whatever the compiler would say. -/
theorem answer_again (hok : answer before failure signature = .ok code) (hclear : Call.clear ∉ between)
    (failure' : Signature → Option CompileError) :
    answer (before ++ .lookup failure signature :: between) failure' signature = .ok code := by
  refine ok_of_get? ?_ failure'
  rw [run_append_lookup]
  exact get?_run_of_get? (get?_of_ok hok) hclear

/-- An identity comes back only for the same signature, and only if the cache was not cleared. -/
theorem not_clear_of_id_eq (hok : answer before failure signature = .ok code)
    (hok' : answer (before ++ .lookup failure signature :: between) failure' signature' = .ok code')
    (hid : code'.id = code.id) : signature' = signature ∧ Call.clear ∉ between := by
  have honly : OnlyFor code.id (· = signature) ((empty.run before).getOrCompile failure signature).2 :=
    ((numbered_empty.run before).lookup failure signature).only signature code (get?_of_ok hok)
  rw [answer, run_append_lookup] at hok'
  refine ⟨((honly.run between).lookup failure' signature').2 code' hok' hid, fun hclear => ?_⟩
  exact ((honly.run_of_clear hclear).lookup failure' signature').2 code' hok' hid

/-- Two caches with the same code that give out the same identities next. -/
structure SameCodes (c c' : CodeCache) : Prop where
  entries : c.entries = c'.entries
  compiled : c.compiled = c'.compiled

namespace SameCodes

variable {c' : CodeCache}

private theorem lookup (h : c.SameCodes c') (failure : Signature → Option CompileError)
    (signature : Signature) :
    (c.getOrCompile failure signature).1 = (c'.getOrCompile failure signature).1 ∧
      (c.getOrCompile failure signature).2.SameCodes (c'.getOrCompile failure signature).2 := by
  obtain ⟨hentries, hcompiled⟩ := h
  have hget : c.get? signature = c'.get? signature := congrArg (·.find? signature) hentries
  unfold getOrCompile
  rw [hget, hentries, hcompiled]
  split
  · exact ⟨rfl, rfl, rfl⟩
  · split
    · exact ⟨rfl, rfl, rfl⟩
    · exact ⟨rfl, rfl, rfl⟩

private theorem run (h : c.SameCodes c') (calls : List Call) :
    (c.run calls).SameCodes (c'.run calls) := by
  induction calls generalizing c c' with
  | nil => exact h
  | cons call calls ih =>
    cases call with
    | lookup failure signature => exact ih (h.lookup failure signature).2
    | clear => exact ih ⟨rfl, h.compiled⟩

end SameCodes

/-- A lookup that fails changes no code and no identity that is given out later. -/
theorem sameCodes_of_error {e : CompileError} (herror : answer before failure signature = .error e)
    (after : List Call) :
    (empty.run (before ++ .lookup failure signature :: after)).SameCodes (empty.run (before ++ after)) := by
  rw [run_append_lookup, run_append]
  refine SameCodes.run ?_ after
  have hlooked := (empty.run before).looked failure signature
  rw [answer] at herror
  generalize (empty.run before).getOrCompile failure signature = ran at hlooked herror ⊢
  cases hlooked with
  | hit _ => cases herror
  | failed _ _ => exact ⟨rfl, rfl⟩
  | compiled _ _ => cases herror

/-- Every lookup is counted once, as a hit or as a miss. -/
theorem hits_add_misses (c : CodeCache) (calls : List Call) :
    (c.run calls).hits + (c.run calls).misses = c.hits + c.misses + calls.countP Call.isLookup := by
  induction calls generalizing c with
  | nil => rfl
  | cons call calls ih =>
    change ((c.step call).run calls).hits + ((c.step call).run calls).misses = _
    rw [ih]
    cases call with
    | clear => rfl
    | lookup failure signature =>
      have hcounted : (c.step (.lookup failure signature)).hits + (c.step (.lookup failure signature)).misses =
          c.hits + c.misses + 1 := by
        have hlooked := c.looked failure signature
        simp only [step]
        generalize c.getOrCompile failure signature = ran at hlooked ⊢
        cases hlooked <;> (dsimp only; omega)
      rw [hcounted, List.countP_cons_of_pos rfl]
      omega

/-- The laws of identities: about a lookup that was made after any calls on a new cache, and about what may
come after it. -/
structure LookupLaws (before : List Call) (failure : Signature → Option CompileError) (signature : Signature) :
    Prop where
  /-- Code is compiled for the signature that is asked for. -/
  signature_eq : ∀ code, answer before failure signature = .ok code → code.signature = signature
  /-- Code is answered again until the cache is cleared, whatever the compiler would say by then. -/
  again : ∀ code between failure', answer before failure signature = .ok code → Call.clear ∉ between →
    answer (before ++ .lookup failure signature :: between) failure' signature = .ok code
  /-- An identity comes back for the same signature and as long as the cache is not cleared, and never else. -/
  id_eq_iff : ∀ code between failure' signature' code', answer before failure signature = .ok code →
    answer (before ++ .lookup failure signature :: between) failure' signature' = .ok code' →
      (code'.id = code.id ↔ signature' = signature ∧ Call.clear ∉ between)
  /-- After a lookup that failed all is as without it, but for the count of lookups. -/
  failed : ∀ e after, answer before failure signature = .error e →
    (empty.run (before ++ .lookup failure signature :: after)).entries =
        (empty.run (before ++ after)).entries ∧
      ∀ failure' signature', answer (before ++ .lookup failure signature :: after) failure' signature' =
        answer (before ++ after) failure' signature'

theorem lookupLaws (before : List Call) (failure : Signature → Option CompileError) (signature : Signature) :
    LookupLaws before failure signature where
  signature_eq _ hok := signature_eq_of_answer hok
  again _ _ failure' hok hclear := answer_again hok hclear failure'
  id_eq_iff code between failure' signature' code' hok hok' := by
    refine ⟨not_clear_of_id_eq hok hok', fun ⟨hsignature, hclear⟩ => ?_⟩
    subst hsignature
    rw [answer_again hok hclear, Except.ok.injEq] at hok'
    rw [hok']
  failed e after herror :=
    have hsame := sameCodes_of_error herror after
    ⟨hsame.entries, fun failure' signature' => (hsame.lookup failure' signature').1⟩

/-- Among some calls on a new cache there is a lookup of a signature that answered with the code. -/
def GivenOut (calls : List Call) (key : Signature) (code : Code) : Prop :=
  ∃ before failure after, calls = before ++ .lookup failure key :: after ∧ answer before failure key = .ok code

namespace GivenOut

theorem append (h : GivenOut calls key code) (later : List Call) : GivenOut (calls ++ later) key code := by
  obtain ⟨before, failure, after, rfl, hok⟩ := h
  exact ⟨before, failure, after ++ later, by rw [List.append_assoc, List.cons_append], hok⟩

theorem signature_eq (h : GivenOut calls key code) : code.signature = key := by
  obtain ⟨_, _, _, -, hok⟩ := h
  exact signature_eq_of_answer hok

/-- Code with one identity is one code. -/
theorem eq_of_id_eq {key' : Signature} (h : GivenOut calls key code) (h' : GivenOut calls key' code')
    (hid : code.id = code'.id) : code = code' := by
  have hkey : key = key' := by
    obtain ⟨before, failure, after, rfl, hok⟩ := h
    obtain ⟨before', failure', after', heq, hok'⟩ := h'
    -- one of the two lookups is the first, or they are the same
    rcases List.append_eq_append_iff.1 heq with ⟨between, rfl, hrest⟩ | ⟨between, rfl, hrest⟩
    · cases between with
      | nil =>
        cases hrest
        rfl
      | cons call between =>
        cases hrest
        exact (not_clear_of_id_eq hok hok' hid.symm).1.symm
    · cases between with
      | nil =>
        cases hrest
        rfl
      | cons call between =>
        cases hrest
        exact (not_clear_of_id_eq hok' hok hid).1
  have hsignature : code.signature = code'.signature := by rw [h.signature_eq, h'.signature_eq, hkey]
  obtain ⟨id, signature⟩ := code
  obtain ⟨id', signature'⟩ := code'
  cases hid
  cases hsignature
  rfl

end GivenOut

/-- Code that is in the cache was given out. -/
theorem givenOut_of_get? (hget : (empty.run calls).get? key = some code) : GivenOut calls key code := by
  induction calls using List.reverseRecOn with
  | nil => cases hget
  | append_singleton calls call ih =>
    rw [run_append] at hget
    cases call with
    | clear => cases hget
    | lookup failure signature =>
      rcases get?_getOrCompile hget with hbefore | ⟨rfl, hok⟩
      · exact (ih hbefore).append _
      · exact ⟨calls, failure, [], rfl, hok⟩

/-- `c'` is what some lookups made of `c`. -/
def LooksUp (c c' : CodeCache) : Prop := ∃ calls, Call.clear ∉ calls ∧ c.run calls = c'

namespace LooksUp

variable {c' c'' : CodeCache}

theorem refl (c : CodeCache) : c.LooksUp c := ⟨[], List.not_mem_nil, rfl⟩

theorem trans (h : c.LooksUp c') (h' : c'.LooksUp c'') : c.LooksUp c'' := by
  obtain ⟨calls, hclear, rfl⟩ := h
  obtain ⟨calls', hclear', rfl⟩ := h'
  exact ⟨calls ++ calls', by simp [hclear, hclear'], run_append c calls calls'⟩

theorem getOrCompile (c : CodeCache) (failure : Signature → Option CompileError) (signature : Signature) :
    c.LooksUp (c.getOrCompile failure signature).2 :=
  ⟨[.lookup failure signature], by simp, rfl⟩

theorem get? (h : c.LooksUp c') (hget : c.get? key = some code) : c'.get? key = some code := by
  obtain ⟨calls, hclear, rfl⟩ := h
  exact get?_run_of_get? hget hclear

end LooksUp

end InlineCache.CodeCache
