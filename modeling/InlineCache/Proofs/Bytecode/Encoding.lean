import InlineCache.Bytecode.Encoding
import InlineCache.Proofs.Json.Text

namespace InlineCache

namespace Json

private theorem below?_natural {limit n : Nat} (hn : n < limit) :
    (natural n).below? limit = some n := by
  simp [below?, natural, natural?, hn]

private theorem below?_word (n : UInt32) :
    ((natural n.toNat).below? 0x100000000).map UInt32.ofNat = some n := by
  rw [below?_natural n.toNat_lt, Option.map_some, UInt32.ofNat_toNat]

private theorem below?_slot (n : UInt16) :
    ((natural n.toNat).below? 0x10000).map UInt16.ofNat = some n := by
  rw [below?_natural n.toNat_lt, Option.map_some, UInt16.ofNat_toNat]

end Json

namespace Opcode

/-- A record of one member is an operation with an operand. -/
theorem ofJson?_record {name : String} {operand : Json} (hoperand : operand ≠ .null) :
    ofJson? (.record [(name, operand)]) = withOperand? name operand := by
  cases operand with
  | null => exact absurd rfl hoperand
  | _ => rfl

private theorem ofJson?_natural (name : String) (n : Nat) :
    ofJson? (.record [(name, .natural n)]) = withOperand? name (.natural n) := ofJson?_record nofun

/-- The encoding of an operation decodes to the operation. -/
theorem ofJson?_toJson (opcode : Opcode) : ofJson? opcode.toJson = some opcode := by
  cases opcode with
  | getLocal slot | setLocal slot | getAliasedVar slot =>
    exact (ofJson?_natural _ _).trans (congrArg (Option.map _) (Json.below?_slot slot))
  | jump word | jumpIfFalse word | getProp word | setProp word =>
    exact (ofJson?_natural _ _).trans (congrArg (Option.map _) (Json.below?_word word))
  | call argc =>
    have hargc : withOperand? "Call" (.natural argc.toNat) = some (call (UInt8.ofNat argc.toNat)) :=
      congrArg (Option.map _) (Json.below?_natural argc.toNat_lt)
    rw [UInt8.ofNat_toNat] at hargc
    exact (ofJson?_natural _ _).trans hargc
  | binary op => cases op <;> rfl
  | unary op => cases op <;> rfl
  | compare op => cases op <;> rfl
  | _ => rfl

end Opcode

namespace CodeUnit

private theorem instructionOfJson?_instructionJson (opcode : Opcode) :
    instructionOfJson? (instructionJson opcode) = some opcode := by
  rw [instructionOfJson?, show (instructionJson opcode).fields? ["opcode"] = some [opcode.toJson] from rfl]
  exact opcode.ofJson?_toJson

/-- What is encoded item by item is decoded item by item. -/
theorem mapM_decode {α : Type} (encode : α → Json) (decode? : Json → Option α)
    (hdecode : ∀ a, decode? (encode a) = some a) (items : List α) :
    (items.map encode).mapM decode? = some items := by
  induction items with
  | nil => rfl
  | cons a items ih =>
    rw [List.map_cons, List.mapM_cons, hdecode, ih]
    rfl

/-- The encoding of a unit decodes to the unit, but for its identity. -/
theorem ofJson?_toJson (id : UnitId) (unit : CodeUnit) :
    ofJson? id unit.toJson = some { unit with id := id } := by
  have hinstructions := mapM_decode _ _ instructionOfJson?_instructionJson unit.instructions.toList
  have hnames := mapM_decode Json.text Json.text? (fun _ => rfl) unit.names.toList
  have hfields : unit.toJson.fields? fieldNames = some [.natural unit.id.toNat, .text unit.name,
      .natural unit.argCount.toNat, .bool unit.isFunction, .natural unit.localCount.toNat,
      .array (unit.instructions.toList.map instructionJson), .array (unit.names.toList.map .text)] := rfl
  have harg := Json.below?_natural unit.argCount.toNat_lt
  have hlocal := Json.below?_natural unit.localCount.toNat_lt
  have hid := Json.below?_natural unit.id.toNat_lt
  simp [ofJson?, hfields, hid, harg, hlocal, hinstructions, hnames, Json.text, Json.text?, Json.bool?,
    Json.array?]

private theorem plain_instructionJson (opcode : Opcode) : (instructionJson opcode).Plain := by
  have hrecord {name : String} {operand : Json} (hoperand : operand.Plain) :
      (Json.record [(name, operand)]).Plain :=
    .record fun m hm => by
      rw [List.mem_singleton.1 hm]
      exact hoperand
  refine hrecord ?_
  unfold Opcode.toJson
  cases hoperand : opcode.operand? with
  | none => exact .text _
  | some operand =>
    refine hrecord ?_
    cases opcode <;> cases hoperand
    all_goals first | exact .integer _ | exact .text _

/-- An encoded unit is all texts and numbers. -/
theorem plain_toJson (unit : CodeUnit) : unit.toJson.Plain := by
  refine .record fun m hm => ?_
  simp only [fieldNames, List.zip_cons_cons, List.zip_nil_right, List.mem_cons, List.not_mem_nil,
    or_false] at hm
  rcases hm with rfl | rfl | rfl | rfl | rfl | rfl | rfl
  · exact .integer _
  · exact .text _
  · exact .integer _
  · exact .bool _
  · exact .integer _
  · refine .array fun j hj => ?_
    obtain ⟨opcode, -, rfl⟩ := List.mem_map.1 hj
    exact plain_instructionJson opcode
  · refine .array fun j hj => ?_
    obtain ⟨name, -, rfl⟩ := List.mem_map.1 hj
    exact .text name

/-- The text of a unit is read as the unit, but for its identity. -/
theorem parse?_render (id : UnitId) (unit : CodeUnit) :
    parse? id unit.render = some { unit with id := id } := by
  rw [parse?, render, Json.parse?_render unit.plain_toJson]
  exact ofJson?_toJson id unit

end CodeUnit

end InlineCache
