import InlineCache.Proofs.Machine.Basic

namespace InlineCache

/-- What the stubs of an operation are checked by: the types of what is read, or of what is written to a
named property. -/
def SiteOperation.flavor : SiteOperation → Flavor
  | getProp _ | getElem | call => .monitored
  | setProp _ => .updated
  | _ => .regular

/-- Decisions that attach nothing but specialized stubs of a flavor, with the signature of their code. -/
inductive Decision.Specialized (flavor : Flavor) : Decision → Prop where
  | attach (signature : Signature) (payload : Payload) :
      Specialized flavor (.attach (.specialized signature flavor payload))
  | noAction : Specialized flavor .noAction
  | temporarilyUnoptimizable : Specialized flavor .temporarilyUnoptimizable
  | deferred : Specialized flavor .deferred

theorem Decision.Specialized.recipe {flavor : Flavor} {d : Decision} (hd : d.Specialized flavor)
    {recipe : Recipe} (h : d.recipe? = some recipe) :
    recipe.kind = .specialized recipe.signature flavor := by
  cases hd <;> cases h
  rfl

namespace Specialize

private theorem specialized_getProp (h : Heap) (target : Value) (key : PropertyKey) :
    (getProp h target key).Specialized .monitored := by
  unfold getProp
  dsimp only
  repeat' split
  all_goals constructor

private theorem specialized_setProp (h : Heap) (target : Value) (key : PropertyKey) :
    (setProp h target key).Specialized .updated := by
  unfold setProp
  dsimp only
  repeat' split
  all_goals constructor

private theorem specialized_getElem (h : Heap) (target index : Value) :
    (getElem h target index).Specialized .monitored := by
  unfold getElem
  repeat' split
  all_goals constructor

private theorem specialized_setElem (h : Heap) (target index : Value) :
    (setElem h target index).Specialized .regular := by
  unfold setElem
  repeat' split
  all_goals constructor

private theorem specialized_hasProp (h : Heap) (key target : Value) :
    (hasProp h key target).Specialized .regular := by
  unfold hasProp
  repeat' split
  all_goals constructor

private theorem specialized_hasOwn (h : Heap) (key target : Value) :
    (hasOwn h key target).Specialized .regular := by
  unfold hasOwn
  repeat' split
  all_goals constructor

private theorem specialized_instanceOf (h : Heap) (ctor : Value) :
    (instanceOf h ctor).Specialized .regular := by
  unfold instanceOf
  dsimp only
  repeat' split
  all_goals constructor

private theorem specialized_call (h : Heap) (callee : Value) :
    (call h callee).Specialized .monitored := by
  unfold call
  dsimp only
  repeat' split
  all_goals constructor

private theorem specialized_toBool (v : Value) : (toBool v).Specialized .regular := by
  unfold toBool
  repeat' split
  all_goals constructor

private theorem specialized_typeOf (v : Value) : (typeOf v).Specialized .regular := by
  unfold typeOf
  repeat' split
  all_goals constructor

private theorem specialized_unaryArith (op : UnaryOp) (v : Value) :
    (unaryArith op v).Specialized .regular := by
  unfold unaryArith
  repeat' split
  all_goals constructor

private theorem specialized_binaryArith (op : BinaryOp) (lhs rhs : Value) :
    (binaryArith op lhs rhs).Specialized .regular := by
  unfold binaryArith
  repeat' split
  all_goals constructor

private theorem specialized_compare (op : CompareOp) (lhs rhs : Value) :
    (compare op lhs rhs).Specialized .regular := by
  unfold compare
  repeat' split
  all_goals constructor

private theorem specialized_getIterator (h : Heap) (v : Value) :
    (getIterator h v).Specialized .regular := by
  unfold getIterator
  repeat' split
  all_goals constructor

end Specialize

namespace Request

open Specialize

theorem specialized_decision (h : Heap) (r : Request) :
    (r.decision h).Specialized r.operation.flavor := by
  cases r with
  | toBool v => exact specialized_toBool v
  | unaryArith op v => exact specialized_unaryArith op v
  | binaryArith op lhs rhs => exact specialized_binaryArith op lhs rhs
  | compare op lhs rhs => exact specialized_compare op lhs rhs
  | getProp target key => exact specialized_getProp h target key
  | setProp target key v => exact specialized_setProp h target key
  | getElem target index => exact specialized_getElem h target index
  | setElem target index v => exact specialized_setElem h target index
  | hasProp key target => exact specialized_hasProp h key target
  | hasOwn key target => exact specialized_hasOwn h key target
  | instanceOf v ctor => exact specialized_instanceOf h ctor
  | call callee this args => exact specialized_call h callee
  | typeOf v => exact specialized_typeOf v
  | getIterator v => exact specialized_getIterator h v

theorem specialized_secondLook (before after : Heap) (r : Request) :
    (r.secondLook before after).Specialized r.operation.flavor := by
  unfold secondLook
  split
  · unfold addSlot
    dsimp only
    split <;> constructor
  · unfold setElemAppend
    repeat' split
    all_goals constructor
  · constructor

end Request

theorem Rules.open_cover : Rules.open.Cover fun _ => True where
  valid_of_allows _ _ := trivial
  valid_of_seen _ _ := trivial
  allows_refl _ := trivial
  allows_enterCall _ _ := trivial
  allows_leaveCall _ _ := trivial
  writes_object _ _ := trivial
  allows_outcome _ _ := trivial
  fits_decision _ _ hrecipe := ⟨_, (Request.specialized_decision _ _).recipe hrecipe⟩
  fits_secondLook _ _ _ _ _ hrecipe := ⟨_, (Request.specialized_secondLook _ _ _).recipe hrecipe⟩

namespace Machine

variable {σ : Type} {m : Machine σ}

/-- Every action is allowed where nothing is forbidden. -/
theorem allows_open (m : Machine σ) (a : Action σ) : m.Allows .open a := by
  cases a with
  | use c id ops => exact fun _ _ _ _ _ _ => trivial
  | host heap zone bridges unitsMade host => trivial
  | _ => trivial

end Machine

end InlineCache
