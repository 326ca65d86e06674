import InlineCache.Proofs.Machine.Call
import InlineCache.Proofs.Machine.Fitted
import InlineCache.Proofs.Stub.Sound

namespace InlineCache

/-- The word that bitwise operators take of a double: its whole part modulo `2 ^ 32`, of which the upper half
stands for negative numbers. -/
theorem Double.toInt_toInt32 (x : Double) :
    x.toInt32.toInt =
      if x.truncate % 0x100000000 < 0x80000000 then x.truncate % 0x100000000
      else x.truncate % 0x100000000 - 0x100000000 := by
  rw [toInt32, Int32.toInt_ofInt]
  rfl

namespace StubFits

variable {classed : Prop} {σ : Type} {w : World σ} {signature : Signature} {stub : Stub}
  {payload : Payload}

/-- A stub for arithmetic on two operands answers numbers as doubles. -/
theorem run_numbers (natives : Natives σ) {op : BinaryOp} {a b : Value} {x y : Double}
    (hfits : StubFits classed w.heap (.binaryArith op) signature payload) (ha : a.asNumber? = some x)
    (hb : b.asNumber? = some y) (hguard : Guard.holds w.heap signature stub (.binary a b) = true) :
    Handler.run natives signature stub (.binary a b) w = (.ok (Operation.doubleArith op x y), w) := by
  have hfits' : StubFits True w.heap (.binaryArith op) signature payload := by
    cases hfits <;> constructor
  rw [hfits'.run_binaryArith natives hguard, Request.perform,
    Operation.binaryArith_of_numbers w.heap op ha hb]

/-- A stub for arithmetic on one operand answers a number as a double. -/
theorem run_number (natives : Natives σ) {op : UnaryOp} {v : Value} {x : Double}
    (hfits : StubFits classed w.heap (.unaryArith op) signature payload) (hv : v.asNumber? = some x)
    (hguard : Guard.holds w.heap signature stub (.unary v) = true) :
    Handler.run natives signature stub (.unary v) w = (.ok (Operation.doubleUnary op x), w) := by
  have hfits' : StubFits True w.heap (.unaryArith op) signature payload := by
    cases hfits <;> constructor
  rw [hfits'.run_unaryArith natives hguard, Request.perform, Operation.unaryArith_of_number op hv]

end StubFits

/-- The operands of a request make that request of its operation. -/
theorem Request.request?_operands (r : Request) : r.operation.request? r.operands = some r := by
  cases r <;> rfl

namespace World

variable {σ : Type} {classed : Prop} {w : World σ} {natives : Natives σ} {c : CacheId} {id : EntryId}

/-- An entry answers a request for arithmetic with a value if its operation in full has this value and all
stubs that answer the request have it too. -/
theorem dispatch_of_attachesAfter (hw : w.Fitted classed) (hin : id.index < (w.cache c).entries.size)
    (hown : (w.cache c).owns id = true) {r : Request} {v : Value} (hafter : r.attachesAfter = true)
    (hrole : ((w.cache c).site id.index).role = .operation r.operation)
    (hperform : ∀ w' : World σ, r.perform natives w' = (.ok v, w'))
    (hstub : ∀ signature stub, StubFits classed w.heap r.operation signature stub.payload →
      Guard.holds w.heap signature stub r.operands = true →
      Handler.run natives signature stub r.operands w = (.ok v, w)) :
    (dispatch natives c id r.operands w).1 = .ok v := by
  have hkey : r.operation.key? = none := by cases r <;> first | rfl | cases hafter
  cases hhit : hit? w.heap (((w.cache c).entry id.index).chain.stubs (w.cache c).arena) r.operands with
  | some found =>
    obtain ⟨stub, signature⟩ := found
    obtain ⟨op, hop, hfits⟩ := hw.hit hin hhit
    cases hrole.symm.trans hop
    have hrun := hstub signature stub hfits (mem_of_hit? hhit).2.1
    rw [dispatch_of_hit natives hown hrole hhit]
    simp only [runStub, recordStubWrite, hkey, ite_self, hrun]
  | none =>
    rw [dispatch_of_no_hit natives hown hrole hhit]
    simp only [fallback, r.request?_operands, hafter, if_true, performThenAttach, hperform]

/-- Whichever stub answers two numbers, the answer is the one of their doubles. -/
theorem dispatch_numbers (hw : w.Fitted classed) (hin : id.index < (w.cache c).entries.size)
    (hown : (w.cache c).owns id = true) {op : BinaryOp} {a b : Value} {x y : Double}
    (hrole : ((w.cache c).site id.index).role = .operation (.binaryArith op))
    (ha : a.asNumber? = some x) (hb : b.asNumber? = some y) :
    (dispatch natives c id (.binary a b) w).1 = .ok (Operation.doubleArith op x y) :=
  dispatch_of_attachesAfter (r := .binaryArith op a b) hw hin hown rfl hrole
    (fun w' => by rw [Request.perform, Operation.binaryArith_of_numbers w'.heap op ha hb])
    fun _ _ hfits hguard => hfits.run_numbers natives ha hb hguard

/-- Whichever stub answers a number, the answer is the one of its double. -/
theorem dispatch_number (hw : w.Fitted classed) (hin : id.index < (w.cache c).entries.size)
    (hown : (w.cache c).owns id = true) {op : UnaryOp} {v : Value} {x : Double}
    (hrole : ((w.cache c).site id.index).role = .operation (.unaryArith op))
    (hv : v.asNumber? = some x) :
    (dispatch natives c id (.unary v) w).1 = .ok (Operation.doubleUnary op x) :=
  dispatch_of_attachesAfter (r := .unaryArith op v) hw hin hown rfl hrole
    (fun w' => by rw [Request.perform, Operation.unaryArith_of_number op hv])
    fun _ _ hfits hguard => hfits.run_number natives hv hguard

end World

namespace Machine

/-- On integers it makes no difference which path arithmetic takes: neither for the values, nor for the
stub that is tried first, nor for the entries of a machine, whatever stubs are linked there. So the stub
that an entry tries first, or that none of them answers, is nothing that its answer shows. -/
structure IntegersAsDoubles {σ : Type} (natives : Natives σ) : Prop where
  binary : ∀ (op : BinaryOp) (a b : Int32), Operation.int32Arith op a b =
    Operation.doubleArith op (Value.doubleOfInt32 a) (Value.doubleOfInt32 b)
  unary : ∀ (op : UnaryOp) (i : Int32), Operation.int32Unary op i =
    Operation.doubleUnary op (Value.doubleOfInt32 i)
  /-- The word of a double is its whole part modulo `2 ^ 32`. -/
  word : ∀ x : Double, x.toInt32.toInt =
    if x.truncate % 0x100000000 < 0x80000000 then x.truncate % 0x100000000
    else x.truncate % 0x100000000 - 0x100000000
  /-- A stub for integers and one for doubles both accept integers, and answer them alike. -/
  binaryStubs : ∀ (w : World σ) (stub stub' : Stub) (op : BinaryOp) (a b : Int32),
    Handler.invoke natives (.binaryInt32 op) stub (.binary (.int32 a) (.int32 b)) w =
        some (.ok (Operation.int32Arith op a b), w) ∧
      Handler.invoke natives (.binaryDouble op) stub' (.binary (.int32 a) (.int32 b)) w =
        some (.ok (Operation.int32Arith op a b), w)
  unaryStubs : ∀ (w : World σ) (stub stub' : Stub) (op : UnaryOp) (i : Int32),
    Handler.invoke natives (.unaryInt32 op) stub (.unary (.int32 i)) w =
        some (.ok (Operation.int32Unary op i), w) ∧
      Handler.invoke natives (.unaryDouble op) stub' (.unary (.int32 i)) w =
        some (.ok (Operation.int32Unary op i), w)
  /-- An entry answers integers in one way, whatever has happened at it before. -/
  binarySite : ∀ {classed : Prop} {m : Machine σ}, m.Reached (.fitting classed) →
    ∀ {c : CacheId} {id : EntryId}, (m.world.cache c).owns id = true → ∀ {op : BinaryOp},
      ((m.world.cache c).site id.index).role = .operation (.binaryArith op) → ∀ a b : Int32,
        (World.dispatch natives c id (.binary (.int32 a) (.int32 b)) m.world).1 =
          .ok (Operation.int32Arith op a b)
  unarySite : ∀ {classed : Prop} {m : Machine σ}, m.Reached (.fitting classed) →
    ∀ {c : CacheId} {id : EntryId}, (m.world.cache c).owns id = true → ∀ {op : UnaryOp},
      ((m.world.cache c).site id.index).role = .operation (.unaryArith op) → ∀ i : Int32,
        (World.dispatch natives c id (.unary (.int32 i)) m.world).1 = .ok (Operation.int32Unary op i)

theorem integers_as_doubles {σ : Type} (natives : Natives σ) : IntegersAsDoubles natives where
  binary := Operation.int32Arith_eq
  unary := Operation.int32Unary_eq
  word := Double.toInt_toInt32
  binaryStubs w stub stub' op a b := ⟨rfl, by rw [Operation.int32Arith_eq]; rfl⟩
  unaryStubs w stub stub' op i := ⟨rfl, by rw [Operation.int32Unary_eq]; rfl⟩
  binarySite hm _ _ hown _ hrole a b := by
    rw [Operation.int32Arith_eq]
    exact World.dispatch_numbers hm.sound.fitted (hm.sound.linked.world.at_of_owns hown).lt hown hrole
      rfl rfl
  unarySite hm _ _ hown _ hrole i := by
    rw [Operation.int32Unary_eq]
    exact World.dispatch_number hm.sound.fitted (hm.sound.linked.world.at_of_owns hown).lt hown hrole rfl

/-- An addition of two integers, and then of what is not an integer. -/
def addBoth : List (Action Unit) :=
  [.addCache ⟨1, "main", 0, false, 0, #[.binary .add], #[]⟩,
    .use 1 ⟨1, 0⟩ (.binary (.int32 1) (.int32 2)), .use 1 ⟨1, 0⟩ (.binary (.double .nan) (.int32 1))]

/-- The machine after both additions. -/
def addedBoth : Machine Unit := (initial .standard (fun _ _ => none) ()).run addBoth

private theorem addedBoth_reached : addedBoth.Reached (.fitting True) :=
  ⟨.standard, fun _ _ => none, (), addBoth, ⟨trivial, trivial, trivial, trivial⟩, rfl⟩

/-- The stub for doubles is tried first there, also for two integers whose sum is too large for one. -/
theorem sum_through_double_stub :
    (((addedBoth.world.cache 1).entry 0).chain.stubs (addedBoth.world.cache 1).arena).map
        (fun stub => stub.code.map (·.signature)) =
          [some (.binaryDouble .add), some (.binaryInt32 .add)] ∧
      (World.dispatch (fun _ _ _ w => (.ok .undefined, w)) 1 ⟨1, 0⟩
        (.binary (.int32 2147483647) (.int32 1)) addedBoth.world).1 =
          .ok (.double (Double.ofInt 2147483648)) := by
  have hown : (addedBoth.world.cache 1).owns ⟨1, 0⟩ = true := by decide +kernel
  have hrole : ((addedBoth.world.cache 1).site 0).role = .operation (.binaryArith .add) := by
    decide +kernel
  refine ⟨by decide +kernel, ?_⟩
  rw [(integers_as_doubles _).binarySite addedBoth_reached hown hrole]
  exact congrArg Except.ok (by decide +kernel)

end Machine

end InlineCache
