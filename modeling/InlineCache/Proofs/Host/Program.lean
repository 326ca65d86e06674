import InlineCache.Proofs.Machine.Quiet

namespace InlineCache

/-- What is the host's own of a state. -/
structure Estate (σ : Type) where
  heap : Heap
  zone : Zone
  bridges : Table Bridge
  unitsMade : Nat
  host : σ

/-- Scripts see the same of both. -/
structure Estate.Alike {σ : Type} (e e' : Estate σ) : Prop where
  heap : e'.heap.seen = e.heap.seen
  bridges : e'.bridges = e.bridges
  unitsMade : e'.unitsMade = e.unitsMade
  host : e'.host = e.host

namespace World

variable {σ : Type}

def estate (w : World σ) : Estate σ := ⟨w.heap, w.runtime.zone, w.bridges, w.unitsMade, w.host⟩

def setEstate (w : World σ) (e : Estate σ) : World σ :=
  { w with
    heap := e.heap
    runtime := { w.runtime with zone := e.zone }
    bridges := e.bridges
    unitsMade := e.unitsMade
    host := e.host }

end World

/-- Something that is read off a state and that scripts may see. -/
structure Reading (σ α : Type) where
  read : World σ → α
  alike : ∀ w w' : World σ, w.Alike w' → read w' = read w

/-- A change of what is the host's own. It keeps to the workings of the heap, and it goes by what scripts
see. -/
structure Edit (σ : Type) where
  apply : Estate σ → Estate σ
  evolves : ∀ e : Estate σ, e.heap.Evolves True (apply e).heap
  alike : ∀ e e' : Estate σ, e.Alike e' → (apply e).Alike (apply e')

/-- Work on units that gives no answer. The turns of a loop that were counted can be read off the state. -/
inductive Upkeep where
  | loopTurn (c : CacheId) (pc : Offset)
  | buildStub (recipe : Recipe)
  | recordWrite (c : CacheId) (group : GroupId) (key : PropertyKey) (v : Value)
  | unlink (c : CacheId) (id : EntryId) (signature : Signature)
  | purge (c : CacheId)
  | teardown

namespace Upkeep

variable {σ : Type}

def action : Upkeep → Action σ
  | loopTurn c pc => .loopTurn c pc
  | buildStub recipe => .buildStub recipe
  | recordWrite c group key v => .recordWrite c group key v
  | unlink c id signature => .unlink c id signature
  | purge c => .purge c
  | teardown => .teardown

def run (u : Upkeep) (w : World σ) : World σ := (Machine.step ⟨w, []⟩ u.action).world

private theorem step_action (u : Upkeep) (m : Machine σ) :
    m.step u.action = { m with world := u.run m.world } := by
  cases u with
  | recordWrite c group key v =>
    simp only [run, action, Machine.step]
    split <;> rfl
  | unlink c id signature =>
    simp only [run, action, Machine.step]
    split <;> rfl
  | _ => rfl

end Upkeep

/-- One thing that the body of a native function does, with the type of the answer. -/
inductive Effect (σ : Type) : Type → Type 1 where
  | look {α : Type} (reading : Reading σ α) : Effect σ α
  | edit (change : Edit σ) : Effect σ Unit
  | use (c : CacheId) (id : EntryId) (ops : Operands) : Effect σ (Except VmError Value)
  /-- An operation is performed in full, without an entry. -/
  | perform (r : Request) : Effect σ (Except VmError Value)
  | addCache (unit : CodeUnit) : Effect σ (Except CacheError CacheId)
  | upkeep (u : Upkeep) : Effect σ Unit

def Effect.run {σ : Type} (natives : Natives σ) {α : Type} (w : World σ) :
    Effect σ α → α × World σ
  | .look reading => (reading.read w, w)
  | .edit change => ((), w.setEstate (change.apply w.estate))
  | .use c id ops => World.dispatch natives c id ops w
  | .perform r => r.perform natives w
  | .addCache unit => w.addCache unit
  | .upkeep u => ((), u.run w)

/-- What the body of a native function does for one receiver and some arguments. It may use entries, run
operations in full, work on units and change what is the host's own, as often as it likes and depending
on all that it saw before. What it sees is what scripts see: it has no access to stubs, to type guards
or to what is counted about them. -/
inductive Program (σ : Type) where
  | done (result : Except VmError Value)
  | step {α : Type} (effect : Effect σ α) (next : α → Program σ)

def Program.run {σ : Type} (natives : Natives σ) :
    Program σ → World σ → Except VmError Value × World σ
  | .done result, w => (result, w)
  | .step effect next, w =>
    let (a, w) := effect.run natives w
    (next a).run natives w

/-- The bodies of all native functions. -/
abbrev Bodies (σ : Type) := BodyId → Value → List Value → Program σ

/-- The native functions with the given bodies, whose calls may be nested up to a depth. A call that is
nested deeper fails. -/
def Bodies.natives {σ : Type} (bodies : Bodies σ) : Nat → Natives σ
  | 0 => .absent
  | depth + 1 => fun body this args w => (bodies body this args).run (bodies.natives depth) w

variable {σ : Type} {natives : Natives σ}

theorem Effect.leads (hacts : natives.Acts (.fitting True)) {α : Type} (effect : Effect σ α)
    (m : Machine σ) : m.Leads (.fitting True) (effect.run natives m.world).2 := by
  cases effect with
  | look reading => exact .refl _ m
  | edit change =>
    let e := change.apply m.world.estate
    exact .of_step (a := .host e.heap e.zone e.bridges e.unitsMade e.host)
      (change.evolves m.world.estate) rfl
  | use c id ops => exact m.leads_dispatch hacts c id ops
  | perform r => exact m.leads_perform hacts r
  | addCache unit => exact .of_step (a := .addCache unit) trivial rfl
  | upkeep u =>
    refine .of_step (a := u.action) ?_ (u.step_action m)
    cases u <;> trivial

private theorem Program.leads (hacts : natives.Acts (.fitting True)) (program : Program σ)
    (m : Machine σ) : m.Leads (.fitting True) (program.run natives m.world).2 := by
  induction program generalizing m with
  | done result => exact .refl _ m
  | step effect next ih => exact (effect.leads hacts m).trans (ih _ _)

/-- Programs do nothing but act. -/
theorem Bodies.acts (bodies : Bodies σ) (depth : Nat) : (bodies.natives depth).Acts (.fitting True) := by
  induction depth with
  | zero => exact fun _ _ _ m => .refl _ m
  | succ depth ih => exact fun body this args m => (bodies body this args).leads ih m

end InlineCache
