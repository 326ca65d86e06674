import Mathlib.Algebra.Ring.Nat
import InlineCache.Proofs.Bytecode.Check
import InlineCache.Proofs.Bytecode.Encoding
import InlineCache.World

namespace InlineCache

namespace CodeUnit

variable {unit : CodeUnit}

/-- A unit is decoded under the identity that it is given. -/
theorem id_of_ofJson? {id : UnitId} {j : Json} (hunit : ofJson? id j = some unit) : unit.id = id := by
  unfold ofJson? at hunit
  split at hunit
  · simp only [Option.bind_eq_bind, Option.bind_eq_some_iff] at hunit
    obtain ⟨_, _, _, _, _, _, _, _, _, _, _, _, _, _, _, _, _, _, heq⟩ := hunit
    cases heq
    rfl
  · cases hunit

/-- Whether a unit is accepted is no matter of its identity. -/
theorem check_withId (hcheck : unit.check = .ok unit) (id : UnitId) :
    { unit with id := id }.check = .ok { unit with id := id } := by
  rw [check_eq_ok_iff] at hcheck ⊢
  intro opcode hmem
  obtain ⟨hname, hslot, htarget⟩ := hcheck opcode hmem
  exact ⟨hname, hslot, htarget⟩

theorem eq_of_check {unit' : CodeUnit} (hcheck : unit.check = .ok unit') : unit' = unit := by
  unfold check at hcheck
  split at hcheck
  · cases hcheck
  · exact (Except.ok.inj hcheck).symm

end CodeUnit

/-- What a unit is made from: a draft, or the text of a unit of before. -/
inductive UnitSource where
  | draft (d : CodeUnit.Draft)
  | text (s : String)

namespace World

variable {σ : Type}

def makeUnit (w : World σ) : UnitSource → Except BytecodeError CodeUnit × World σ
  | .draft d => w.buildUnit d
  | .text s => w.readUnit s

/-- Units are made one after the other. Those that are accepted are given. -/
def makeUnits (w : World σ) : List UnitSource → List CodeUnit × World σ
  | [] => ([], w)
  | source :: rest =>
    let (result, w) := w.makeUnit source
    let (units, w) := w.makeUnits rest
    (result.toOption.toList ++ units, w)

/-- A text that encodes a unit is answered with the check of the unit. -/
theorem readUnit_of_parse? (w : World σ) {text : String} {unit : CodeUnit}
    (hparse : CodeUnit.parse? w.freshUnit.1 text = some unit) :
    w.readUnit text = (unit.check, w.freshUnit.2) := by
  rw [readUnit]
  simp only [hparse]

/-- A unit that is accepted has passed the check, and has the next identity. -/
theorem makeUnit_spec (w : World σ) (source : UnitSource) :
    w.unitsMade ≤ (w.makeUnit source).2.unitsMade ∧ (w.makeUnit source).2.unitsMade ≤ w.unitsMade + 1 ∧
      ∀ unit, (w.makeUnit source).1 = .ok unit → unit.check = .ok unit ∧
        (w.makeUnit source).2.unitsMade = w.unitsMade + 1 ∧ unit.id = UInt32.ofNat (w.unitsMade + 1) := by
  cases source with
  | draft d =>
    refine ⟨Nat.le_succ _, Nat.le_refl _, fun unit hcheck => ?_⟩
    have hcheck' : (d.toUnit w.freshUnit.1).check = .ok unit := hcheck
    obtain rfl := CodeUnit.eq_of_check hcheck'
    exact ⟨hcheck', rfl, rfl⟩
  | text s =>
    have hread : w.makeUnit (.text s) = w.readUnit s := rfl
    cases hparse : CodeUnit.parse? w.freshUnit.1 s with
    | none =>
      have hnone : w.readUnit s = (.error .undecodable, w) := by
        rw [readUnit]
        simp only [hparse]
      rw [hread, hnone]
      exact ⟨Nat.le_refl _, Nat.le_succ _, fun unit hcheck => by cases hcheck⟩
    | some unit' =>
      rw [hread, w.readUnit_of_parse? hparse]
      refine ⟨Nat.le_succ _, Nat.le_refl _, fun unit hcheck => ?_⟩
      obtain rfl := CodeUnit.eq_of_check hcheck
      obtain ⟨j, -, hdecode⟩ := Option.bind_eq_some_iff.1 hparse
      exact ⟨hcheck, rfl, CodeUnit.id_of_ofJson? hdecode⟩

/-- The units that a run accepts have passed the check, and each has one of the identities that the run gave
out. -/
theorem makeUnits_spec (w : World σ) (sources : List UnitSource) :
    w.unitsMade ≤ (w.makeUnits sources).2.unitsMade ∧
      (w.makeUnits sources).2.unitsMade ≤ w.unitsMade + sources.length ∧
      ∀ unit ∈ (w.makeUnits sources).1, unit.check = .ok unit ∧
        ∃ made, w.unitsMade ≤ made ∧ made < (w.makeUnits sources).2.unitsMade ∧
          unit.id = UInt32.ofNat (made + 1) := by
  induction sources generalizing w with
  | nil => exact ⟨Nat.le_refl _, Nat.le_refl _, fun unit hmem => by cases hmem⟩
  | cons source rest ih =>
    obtain ⟨hle, hle', hunit⟩ := w.makeUnit_spec source
    obtain ⟨hmore, hmore', hunits⟩ := ih (w.makeUnit source).2
    have hmakes : w.makeUnits (source :: rest) =
        ((w.makeUnit source).1.toOption.toList ++ ((w.makeUnit source).2.makeUnits rest).1,
          ((w.makeUnit source).2.makeUnits rest).2) := rfl
    rw [hmakes, List.length_cons]
    dsimp only
    refine ⟨Nat.le_trans hle hmore, by omega, fun unit hmem => ?_⟩
    rcases List.mem_append.1 hmem with hfirst | hlater
    · have hresult : (w.makeUnit source).1 = .ok unit := by
        cases hresult : (w.makeUnit source).1 with
        | error e => simp [hresult, Except.toOption] at hfirst
        | ok unit' => simp_all [Except.toOption]
      obtain ⟨hcheck, hmade, hid⟩ := hunit unit hresult
      exact ⟨hcheck, w.unitsMade, Nat.le_refl _, by omega, hid⟩
    · obtain ⟨hcheck, made, hmade, hmade', hid⟩ := hunits unit hlater
      exact ⟨hcheck, made, Nat.le_trans hle hmade, hmade', hid⟩

/-- A unit that was accepted is accepted again from its text, under a fresh identity. -/
theorem readUnit_render (w : World σ) {unit : CodeUnit} (hcheck : unit.check = .ok unit) :
    w.readUnit unit.render = (.ok { unit with id := w.freshUnit.1 }, w.freshUnit.2) := by
  rw [w.readUnit_of_parse? (CodeUnit.parse?_render _ unit), CodeUnit.check_withId hcheck]

/-- Whatever units were built or read before, each that was accepted is read from its text again as it is,
under an identity that none of them has unless there are too many for the words that identities are. A text
that spells a unit is accepted just if all operands of the unit point into it, and the error reported
otherwise is that of the first instruction whose operand does not. -/
theorem units_reread (w : World σ) (sources : List UnitSource) :
    (∀ unit ∈ (w.makeUnits sources).1,
      (w.makeUnits sources).2.readUnit unit.render =
        (.ok { unit with id := (w.makeUnits sources).2.freshUnit.1 }, (w.makeUnits sources).2.freshUnit.2) ∧
      (∀ id, CodeUnit.ofJson? id unit.toJson = some { unit with id := id }) ∧
      (sources.length < 2 ^ 32 → (w.makeUnits sources).2.freshUnit.1 ≠ unit.id)) ∧
    ∀ (text : String) (j : Json) (unit : CodeUnit), Json.parse? text = some j →
      CodeUnit.ofJson? (w.makeUnits sources).2.freshUnit.1 j = some unit →
      (((w.makeUnits sources).2.readUnit text).1 = .ok unit ↔
        ∀ opcode ∈ unit.instructions, unit.Admits opcode) ∧
      (∀ e, ((w.makeUnits sources).2.readUnit text).1 = .error e ↔ unit.FirstFault e) ∧
      (unit.instructions.size < 2 ^ 32 → unit.instructionCount.toNat = unit.instructions.size) := by
  obtain ⟨-, hle, hunits⟩ := w.makeUnits_spec sources
  refine ⟨fun unit hmem => ?_, fun text j unit hj hunit => ?_⟩
  · obtain ⟨hcheck, made, hmade, hmade', hid⟩ := hunits unit hmem
    refine ⟨readUnit_render _ hcheck, fun id => CodeUnit.ofJson?_toJson id unit, fun hlength heq => ?_⟩
    rw [hid] at heq
    have hnat := congrArg UInt32.toNat heq
    simp only [freshUnit, UInt32.toNat_ofNat'] at hnat
    omega
  · have hparse : CodeUnit.parse? (w.makeUnits sources).2.freshUnit.1 text = some unit := by
      rw [CodeUnit.parse?, hj]
      exact hunit
    rw [readUnit_of_parse? _ hparse]
    exact ⟨CodeUnit.check_eq_ok_iff, fun e => CodeUnit.check_eq_error_iff, CodeUnit.instructionCount_toNat⟩

/-- The draft of a loop header and the read of a property. -/
def loopDraft : CodeUnit.Draft := (CodeUnit.Draft.empty.emit .loopEntry).getProp "y"

def loopUnit : CodeUnit := ⟨1, "<anonymous>", 0, false, 0, #[.loopEntry, .getProp 0], #["y"]⟩

/-- The state when the unit of the draft was made. -/
def loopMade : World Unit := ((create .standard (fun _ _ => none) ()).makeUnits [.draft loopDraft]).2

private theorem mem_loopUnit :
    loopUnit ∈ ((create .standard (fun _ _ => none) () : World Unit).makeUnits [.draft loopDraft]).1 := by
  have hunits : ((create .standard (fun _ _ => none) () : World Unit).makeUnits [.draft loopDraft]).1 =
      [loopUnit] := by
    decide +kernel
  rw [hunits]
  exact List.mem_singleton_self _

/-- The unit is read from its text under the second identity, and all its operands point into it. -/
theorem loopUnit_reread :
    loopMade.readUnit loopUnit.render = (.ok { loopUnit with id := 2 }, loopMade.freshUnit.2) ∧
      ({ loopUnit with id := 2 } : CodeUnit).id ≠ loopUnit.id ∧
      (∀ opcode ∈ loopUnit.instructions, { loopUnit with id := 2 }.Admits opcode) ∧
      { loopUnit with id := 2 }.instructionCount.toNat = 2 := by
  obtain ⟨haccepted, htext⟩ :=
    units_reread (create .standard (fun _ _ => none) () : World Unit) [.draft loopDraft]
  obtain ⟨hread, hdecode, hfresh⟩ := haccepted loopUnit mem_loopUnit
  obtain ⟨haccepts, -, hcount⟩ := htext loopUnit.render loopUnit.toJson { loopUnit with id := 2 }
    (Json.parse?_render (CodeUnit.plain_toJson _)) (hdecode 2)
  exact ⟨hread, hfresh (by decide), haccepts.1 (congrArg Prod.fst hread), hcount (by decide)⟩

end World

end InlineCache
