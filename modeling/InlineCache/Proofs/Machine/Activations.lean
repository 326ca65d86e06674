import InlineCache.Proofs.Machine.Dispatch
import InlineCache.Proofs.Machine.Distinct
import InlineCache.Proofs.World.Calls

namespace InlineCache

/-- A stub for calls is proposed only for the call of its function, while that counts no running call. -/
theorem Request.Proposes.call {h : Heap} {r : Request} {recipe : Recipe} (hproposes : r.Proposes h recipe)
    (hsignature : recipe.signature = .callFunction) :
    ∃ f this args, r = .call (.object f) this args ∧ recipe.payload = .callee f ∧ h.calls f = 0 := by
  have haccepts := hproposes.accepts ⟨0, recipe.signature⟩
  rw [hsignature] at haccepts
  simp only [Guard.holds] at haccepts
  unfold Guard.callee at haccepts
  split at haccepts
  · next f id this args hpayload hops =>
    have hid : id = f := by simpa using haccepts
    subst hid
    cases r with
    | call callee this' args' =>
      cases hops
      refine ⟨id, this, args, rfl, hpayload, ?_⟩
      cases hproposes with
      | decision hrecipe =>
        simp only [Request.decision, Specialize.call] at hrecipe
        split at hrecipe
        · cases hrecipe
        · split at hrecipe
          · cases hrecipe
          · next hidle => exact Nat.eq_zero_of_not_pos hidle
      | secondLook hseen hdeferred houtcome hrecipe =>
        exact absurd hdeferred (World.call_decision_ne_deferred h (.object id))
    | _ => cases hops
  · cases haccepts

/-- A call that has not returned. -/
inductive Activation where
  /-- A call that was made by the use of an entry. -/
  | entry (p : Pending)
  /-- A call that was made without one. -/
  | direct (callee : ObjectId)

namespace Activation

def callee : Activation → ObjectId
  | entry p => p.callee
  | direct callee => callee

def pending? : Activation → Option Pending
  | entry p => some p
  | direct _ => none

/-- How many calls of a function are among some calls. -/
def running (activations : List Activation) (id : ObjectId) : Nat := activations.countP fun x => x.callee = id

private theorem running_cons (x : Activation) (rest : List Activation) (id : ObjectId) :
    running (x :: rest) id = running rest id + if x.callee = id then 1 else 0 := by
  simp only [running, List.countP_cons, decide_eq_true_eq]

end Activation

/-- A state together with all calls that have not returned, the last one first. -/
structure CallStack (σ : Type) where
  world : World σ
  activations : List Activation

namespace CallStack

variable {σ : Type}

/-- What can happen. A return is one of the last call, however it was made. The host can also call a
value by itself, in the middle of any call. -/
inductive Event (σ : Type) where
  | act (a : Action σ)
  /-- A value is called. What is no function is refused. -/
  | call (callee : Value)

def step (s : CallStack σ) : Event σ → CallStack σ
  | .act (.ret result) =>
    match s.activations with
    | [] => s
    | .entry p :: rest => ⟨(s.world.finish p result).2, rest⟩
    | .direct callee :: rest => ⟨s.world.mapHeap (World.leaveCall · callee), rest⟩
  | .act a =>
    let m := (Machine.mk s.world []).step a
    ⟨m.world, m.calls.map .entry ++ s.activations⟩
  | .call callee =>
    match callee.asObject?.filter fun id => (s.world.heap.object id).isCallable with
    | some id => ⟨s.world.mapHeap (World.enterCall · id), .direct id :: s.activations⟩
    | none => s

def run (s : CallStack σ) (events : List (Event σ)) : CallStack σ := events.foldl step s

def initial (config : CacheConfig) (compiler : Compiler) (host : σ) : CallStack σ :=
  ⟨.create config compiler host, []⟩

/-- Whether the host leaves the counts of running calls alone, which are no business of its own. -/
def HostObeys (s : CallStack σ) : Event σ → Prop
  | .act (.host heap _ _ _ _) => s.world.heap.SameCalls heap
  | _ => True

def Obeys : CallStack σ → List (Event σ) → Prop
  | _, [] => True
  | s, e :: rest => s.HostObeys e ∧ Obeys (s.step e) rest

private theorem run_append (s : CallStack σ) (first rest : List (Event σ)) :
    s.run (first ++ rest) = (s.run first).run rest :=
  List.foldl_append

private theorem obeys_append {s : CallStack σ} {first rest : List (Event σ)} (hfirst : s.Obeys first)
    (hrest : (s.run first).Obeys rest) : s.Obeys (first ++ rest) := by
  induction first generalizing s with
  | nil => exact hrest
  | cons e first ih => exact ⟨hfirst.1, ih hfirst.2 hrest⟩

/-- The machine that knows of no direct calls. -/
def machine (s : CallStack σ) : Machine σ := ⟨s.world, s.activations.filterMap Activation.pending?⟩

/-- An action in which the host changes nothing but the heap. -/
def setHeap (w : World σ) (h : Heap) : Action σ := .host h w.runtime.zone w.bridges w.unitsMade w.host

/-- What an event is for the machine beneath, for which a direct call is a change of the heap by the host. -/
def asAction (s : CallStack σ) : Event σ → Action σ
  | .act (.ret result) =>
    match s.activations with
    | .direct callee :: _ => setHeap s.world (World.leaveCall s.world.heap callee)
    | _ => .ret result
  | .act a => a
  | .call callee =>
    match callee.asObject?.filter fun id => (s.world.heap.object id).isCallable with
    | some id => setHeap s.world (World.enterCall s.world.heap id)
    | none => setHeap s.world s.world.heap

/-- What is done in the middle of calls does not depend on them, unless it is a return. -/
theorem step_middle (w : World σ) (calls : List Pending) {a : Action σ} (ha : ∀ result, a ≠ .ret result) :
    (Machine.mk w calls).step a =
      ⟨((Machine.mk w []).step a).world, ((Machine.mk w []).step a).calls ++ calls⟩ := by
  cases a with
  | ret result => exact absurd rfl (ha result)
  | use c id ops =>
    simp only [Machine.step]
    cases World.begin c id ops w <;> rfl
  | recordWrite c group key v =>
    simp only [Machine.step]
    split <;> rfl
  | unlink c id signature =>
    simp only [Machine.step]
    split <;> rfl
  | _ => rfl

/-- An event other than a return puts the calls that it makes in front. -/
theorem step_act (s : CallStack σ) {a : Action σ} (ha : ∀ result, a ≠ .ret result) :
    s.step (.act a) =
      ⟨((Machine.mk s.world []).step a).world,
        ((Machine.mk s.world []).step a).calls.map .entry ++ s.activations⟩ := by
  cases a with
  | ret result => exact absurd rfl (ha result)
  | _ => rfl

private theorem machine_act (s : CallStack σ) {a : Action σ} (ha : ∀ result, a ≠ .ret result) :
    (s.step (.act a)).machine = s.machine.step a := by
  rw [step_act s ha]
  refine Eq.trans (congrArg (Machine.mk _) ?_) (step_middle s.world _ ha).symm
  rw [List.filterMap_append, List.filterMap_map]
  exact congrArg (· ++ _) List.filterMap_some

/-- Each event is an action of the machine beneath, so all that holds of its runs holds here. -/
theorem machine_step (s : CallStack σ) (e : Event σ) :
    (s.step e).machine = s.machine.step (s.asAction e) := by
  cases e with
  | call callee =>
    unfold step asAction
    dsimp only
    split <;> rfl
  | act a =>
    by_cases ha : ∃ result, a = .ret result
    · obtain ⟨result, rfl⟩ := ha
      obtain ⟨w, activations⟩ := s
      cases activations with
      | nil => rfl
      | cons x rest => cases x <;> rfl
    · rw [machine_act s fun result heq => ha ⟨result, heq⟩]
      cases a with
      | ret result => exact absurd ⟨result, rfl⟩ ha
      | _ => rfl

/-- A use is one above as it is beneath. -/
theorem act_of_use {s : CallStack σ} {e : Event σ} {c : CacheId} {id : EntryId} {ops : Operands}
    (ha : s.asAction e = .use c id ops) : e = .act (.use c id ops) := by
  cases e with
  | call callee =>
    unfold asAction at ha
    dsimp only at ha
    split at ha
    · cases ha
    · cases ha
  | act a =>
    cases a with
    | ret result =>
      unfold asAction at ha
      dsimp only at ha
      split at ha
      · cases ha
      · cases ha
    | _ => exact congrArg Event.act ha

/-- An event other than a return begins at most one call, which is counted where it is made. -/
theorem calls_act {s : CallStack σ} {a : Action σ} (ha : ∀ result, a ≠ .ret result)
    (hobeys : s.HostObeys (.act a)) :
    (s.world.heap.SameCalls ((Machine.mk s.world []).step a).world.heap ∧
        ((Machine.mk s.world []).step a).calls = []) ∨
      ∃ p, (s.world.heap.object p.callee).isCallable = true ∧
        ((Machine.mk s.world []).step a).world.heap = World.enterCall s.world.heap p.callee ∧
        ((Machine.mk s.world []).step a).calls = [p] := by
  cases a with
  | ret result => exact absurd rfl (ha result)
  | host heap zone bridges unitsMade host => exact .inl ⟨hobeys, rfl⟩
  | use c id ops =>
    simp only [Machine.step]
    cases hbegin : World.begin c id ops s.world with
    | answered result w' => exact .inl ⟨World.sameCalls_begin_answered hbegin, rfl⟩
    | called p w' =>
      obtain ⟨hcallable, hheap⟩ := World.heap_begin_called hbegin
      exact .inr ⟨p, hcallable, hheap, rfl⟩
  | loopTurn c pc =>
    refine .inl ⟨?_, rfl⟩
    simp only [Machine.step]
    unfold World.loopEntry
    split
    · exact .refl _
    · exact .refl _
  | recordWrite c group key v =>
    simp only [Machine.step]
    split
    · exact .inl ⟨World.sameCalls_recordWrite s.world c group key v, rfl⟩
    · exact .inl ⟨.refl _, rfl⟩
  | unlink c id signature =>
    simp only [Machine.step]
    split
    · exact .inl ⟨.refl _, rfl⟩
    · exact .inl ⟨.refl _, rfl⟩
  | purge c =>
    refine .inl ⟨?_, rfl⟩
    simp only [Machine.step, World.heap_purge]
    exact .refl _
  | addCache unit =>
    refine .inl ⟨?_, rfl⟩
    simp only [Machine.step]
    unfold World.addCache
    split
    · exact .refl _
    · exact .refl _
  | buildStub recipe =>
    refine .inl ⟨?_, rfl⟩
    exact .refl s.world.heap
  | teardown =>
    refine .inl ⟨?_, rfl⟩
    exact .refl s.world.heap

/-- Every function counts the calls of it that have not returned. -/
structure Counted (s : CallStack σ) : Prop where
  linked : s.machine.Linked
  honest : s.world.runtime.codeCache.Honest
  calls_eq : ∀ id, s.world.heap.calls id = Activation.running s.activations id

private theorem initial_counted (config : CacheConfig) (compiler : Compiler) (host : σ) :
    (initial config compiler host).Counted where
  linked := Machine.initial_linked config compiler host
  honest := CodeCache.honest_clear .empty
  calls_eq id := congrArg Object.activeCalls (Heap.object_initial id)

/-- An event adds to the count of a function what it adds to the calls of it. -/
theorem calls_step {s : CallStack σ}
    (hs : ∀ id, s.world.heap.calls id = Activation.running s.activations id) {e : Event σ}
    (hobeys : s.HostObeys e) (id : ObjectId) :
    (s.step e).world.heap.calls id = Activation.running (s.step e).activations id := by
  cases e with
  | call callee =>
    unfold step
    dsimp only
    split
    · next f hf =>
      rw [Activation.running_cons, ← hs id]
      exact World.calls_enterCall (Option.filter_eq_some_iff.1 hf).2 id
    · exact hs id
  | act a =>
    by_cases ha : ∃ result, a = .ret result
    · obtain ⟨result, rfl⟩ := ha
      obtain ⟨w, activations⟩ := s
      cases activations with
      | nil => exact hs id
      | cons x rest =>
        -- the call that returns is the last one that was counted
        have hbefore := hs id
        rw [Activation.running_cons] at hbefore
        have hafter : ((CallStack.mk w (x :: rest)).step (.act (.ret result))).world.heap =
            World.leaveCall w.heap x.callee := by
          cases x with
          | entry p => exact World.heap_finish w p result
          | direct callee => rfl
        have hrest : ((CallStack.mk w (x :: rest)).step (.act (.ret result))).activations = rest := by
          cases x <;> rfl
        rw [hafter, hrest, World.calls_leaveCall, hbefore, Nat.add_sub_cancel]
    · rw [step_act s fun result heq => ha ⟨result, heq⟩]
      rcases calls_act (fun result heq => ha ⟨result, heq⟩) hobeys with
        ⟨hcalls, hnone⟩ | ⟨p, hcallable, hheap, hone⟩
      · rw [hnone]
        exact (hcalls id).trans (hs id)
      · rw [hone, hheap, World.calls_enterCall hcallable, hs id]
        exact (Activation.running_cons (.entry p) s.activations id).symm

private theorem step_counted {s : CallStack σ} (hs : s.Counted) {e : Event σ} (hobeys : s.HostObeys e) :
    (s.step e).Counted where
  linked := by
    rw [machine_step]
    exact (Machine.step_linked_open hs.linked (s.asAction e)).1
  honest := by
    have hhonest := (Machine.step_change_open hs.linked (s.asAction e)).honest hs.honest
    rw [← machine_step] at hhonest
    exact hhonest
  calls_eq := calls_step hs.calls_eq hobeys

private theorem run_counted {s : CallStack σ} (hs : s.Counted) {events : List (Event σ)}
    (hobeys : s.Obeys events) : (s.run events).Counted := by
  induction events generalizing s with
  | nil => exact hs
  | cons e events ih => exact ih (step_counted hs hobeys.1) hobeys.2

/-- An event takes stubs out of an entry, or it is a use that no stub of the entry answers and that adds one.
A stub for calls is added only if no call of its function is running. -/
theorem step_attaches {s : CallStack σ} (hs : s.Counted) (e : Event σ) {c : CacheId} {index : Nat}
    (hin : index < ((s.step e).world.cache c).entries.size) :
    ((s.step e).world.stubsAt c index).Sublist (s.world.stubsAt c index) ∨
      ∃ id ops stub code, e = .act (.use c id ops) ∧ id.index = index ∧
        World.hit? s.world.heap (s.world.stubsAt c index) ops = none ∧
        (s.step e).world.stubsAt c index = stub :: s.world.stubsAt c index ∧
        stub.code = some code ∧ stub.kind.signature? = some code.signature ∧
        (code.signature = .callFunction → ∃ f this args, stub.payload = .callee f ∧
          ops = .call (.object f) this args ∧ ∀ x ∈ s.activations, x.callee ≠ f) := by
  have hworld : (s.step e).world = (s.machine.step (s.asAction e)).world :=
    congrArg Machine.world (s.machine_step e)
  rw [hworld] at hin ⊢
  rcases (Machine.step_change_open hs.linked (s.asAction e)).initial_of_new hs.linked.world hin with
    hin₀ | ⟨-, hnone⟩
  · have hat : s.world.At c index := ⟨hin₀, (hs.linked.world.cache (World.hasCache_of_lt hin₀)).1⟩
    rcases Machine.step_proposes hs.linked hs.honest hat (s.asAction e) with
      hsub | ⟨id, ops, r, recipe, code, ha, hindex, rfl, hmiss, hproposes, hcode, hstubs⟩
    · exact .inl hsub
    · have hattached := World.attached_of_proposes hproposes hcode
      refine .inr ⟨id, r.operands, recipe.toStub code, code, act_of_use ha, hindex, hmiss, hstubs, rfl, ?_,
        ?_⟩
      · rw [hcode]
        exact congrArg StubKind.signature? hattached.kind
      · intro hsignature
        obtain ⟨f, this, args, rfl, hpayload, hidle⟩ := hproposes.call (hcode.symm.trans hsignature)
        refine ⟨f, this, args, hpayload, rfl, fun x hx hcallee => ?_⟩
        have hnone : Activation.running s.activations f = 0 := (hs.calls_eq f).symm.trans hidle
        exact List.countP_eq_zero.1 hnone x hx (decide_eq_true hcallee)
  · rw [hnone]
    exact .inl (List.nil_sublist _)

/-- A state that events come to, with the same calls running as before. -/
def Leads (s : CallStack σ) (w : World σ) : Prop :=
  ∃ events, s.Obeys events ∧ s.run events = { s with world := w }

/-- Once the calls are over that events made, every function counts as many as before. -/
theorem sameCalls_of_leads {s : CallStack σ} (hs : s.Counted) {w : World σ} (hleads : s.Leads w) :
    s.world.heap.SameCalls w.heap := by
  obtain ⟨events, hobeys, hrun⟩ := hleads
  have hcounted := run_counted hs hobeys
  intro id
  rw [hrun] at hcounted
  exact (hcounted.calls_eq id).trans (hs.calls_eq id).symm

end CallStack

/-- Native functions that do nothing but use entries, call values and act, to any depth, and whose own calls
are over when they return or fail. -/
def Natives.Nests {σ : Type} (natives : Natives σ) : Prop :=
  ∀ (body : BodyId) (this : Value) (args : List Value) (s : CallStack σ),
    s.Leads (natives body this args s.world).2

namespace CallStack

variable {σ : Type}

/-- A call that begins, its body, and its return. -/
theorem leads_of_body {natives : Natives σ} (hnests : natives.Nests) {s : CallStack σ} {e : Event σ}
    {x : Activation} {w w' : World σ} (hobeys : s.Obeys [e]) (hstep : s.step e = ⟨w, x :: s.activations⟩)
    {body : BodyId} {this : Value} {args : List Value} {result : Except VmError Value}
    (hreturn : (CallStack.mk (natives body this args w).2 (x :: s.activations)).step (.act (.ret result)) =
      { s with world := w' }) : s.Leads w' := by
  obtain ⟨events, hevents, hrun⟩ := hnests body this args ⟨w, x :: s.activations⟩
  refine ⟨e :: (events ++ [.act (.ret result)]), ⟨hobeys.1, ?_⟩, ?_⟩
  · rw [hstep]
    exact obeys_append hevents ⟨trivial, trivial⟩
  · have hfirst : s.run (e :: (events ++ [.act (.ret result)])) =
        (s.step e).run (events ++ [.act (.ret result)]) := rfl
    rw [hfirst, hstep, run_append, hrun]
    exact hreturn

/-- A use of an entry is over with all calls that are nested in it. -/
theorem leads_dispatch {natives : Natives σ} (hnests : natives.Nests) (s : CallStack σ) (c : CacheId)
    (id : EntryId) (ops : Operands) : s.Leads (World.dispatch natives c id ops s.world).2 := by
  rw [World.dispatch_eq_complete]
  cases hbegin : World.begin c id ops s.world with
  | answered result w =>
    refine ⟨[.act (.use c id ops)], ⟨trivial, trivial⟩, ?_⟩
    simp [run, step, Machine.step, hbegin, World.complete]
  | called p w =>
    have hstep : s.step (.act (.use c id ops)) = ⟨w, .entry p :: s.activations⟩ := by
      simp [step, Machine.step, hbegin]
    have hobeys : s.Obeys [.act (.use c id ops)] := ⟨trivial, trivial⟩
    exact leads_of_body hnests hobeys hstep rfl

/-- A call of a value is over with all calls that are nested in it. -/
theorem leads_callValue {natives : Natives σ} (hnests : natives.Nests) (s : CallStack σ)
    (callee this : Value) (args : List Value) :
    s.Leads (s.world.callValue natives callee this args).2 := by
  unfold World.callValue
  split
  · next f hf =>
    have hcallable := (Option.filter_eq_some_iff.1 hf).2
    obtain ⟨g, hg⟩ := Option.isSome_iff_exists.1 hcallable
    rw [World.callObject_of_function hg]
    have hstep : s.step (.call callee) =
        ⟨s.world.mapHeap (World.enterCall · f), .direct f :: s.activations⟩ := by
      simp only [step, hf]
    have hobeys : s.Obeys [.call callee] := ⟨trivial, trivial⟩
    have hreturn (w : World σ) :
        (CallStack.mk w (.direct f :: s.activations)).step (.act (.ret (.ok .undefined))) =
          { s with world := w.mapHeap (World.leaveCall · f) } := rfl
    exact leads_of_body hnests hobeys hstep (hreturn _)
  · split
    · exact ⟨[], trivial, rfl⟩
    · exact ⟨[], trivial, rfl⟩

/-- Whatever calls values, uses entries and returns or fails, and however deep in one another that happens:
every function counts just the calls of it that have not returned. So a use or a call that is over leaves
all counts as they were, whether it came to a result or to an error. And a stub for a function is attached
only by a use that no stub answers and that begins while no call of the function is running. -/
theorem running_callees_not_specialized (config : CacheConfig) (compiler : Compiler) (host : σ)
    {events : List (Event σ)} (hobeys : (initial config compiler host).Obeys events) :
    let s := (initial config compiler host).run events
    (∀ id, (s.world.heap.object id).activeCalls = s.activations.countP fun x => x.callee = id) ∧
    (∀ natives : Natives σ, natives.Nests → ∀ id,
      (∀ c entry ops, ((World.dispatch natives c entry ops s.world).2.heap.object id).activeCalls =
        (s.world.heap.object id).activeCalls) ∧
      ∀ callee this args, ((s.world.callValue natives callee this args).2.heap.object id).activeCalls =
        (s.world.heap.object id).activeCalls) ∧
    ∀ e c index, index < ((s.step e).world.cache c).entries.size →
      ((s.step e).world.stubsAt c index).Sublist (s.world.stubsAt c index) ∨
      ∃ id ops stub code, e = .act (.use c id ops) ∧ id.index = index ∧
        World.hit? s.world.heap (s.world.stubsAt c index) ops = none ∧
        (s.step e).world.stubsAt c index = stub :: s.world.stubsAt c index ∧
        stub.code = some code ∧ stub.kind.signature? = some code.signature ∧
        (code.signature = .callFunction → ∃ f this args, stub.payload = .callee f ∧
          ops = .call (.object f) this args ∧ ∀ x ∈ s.activations, x.callee ≠ f) := by
  intro s
  have hs : s.Counted := run_counted (initial_counted config compiler host) hobeys
  refine ⟨hs.calls_eq, fun natives hnests id => ⟨fun c entry ops => ?_, fun callee this args => ?_⟩,
    fun e c index hin => step_attaches hs e hin⟩
  · exact sameCalls_of_leads hs (leads_dispatch hnests s c entry ops) id
  · exact sameCalls_of_leads hs (leads_callValue hnests s callee this args) id

/-- A function is called by the host, and from within it through an entry. -/
def calledTwice : List (Event Unit) :=
  [.act (.host Machine.functionHeap .initial .empty 0 ()),
    .act (.addCache ⟨1, "main", 0, false, 0, #[.call 1], #[]⟩), .call (.object 1),
    .act (.use 1 ⟨1, 0⟩ (.call (.object 1) .undefined []))]

/-- A native function that calls the function again, which then fails. -/
def callOnceMore : Natives Unit := fun _ this args w => w.callValue .absent (.object 1) this args

private theorem nests_callOnceMore : callOnceMore.Nests :=
  fun _ this args s => leads_callValue (fun _ _ _ _ => ⟨[], trivial, rfl⟩) s (.object 1) this args

/-- It counts both calls of it, and no stub was attached for it. A third call, in which a fourth one fails,
leaves the count at two. -/
theorem called_twice_not_specialized :
    let s := (initial .standard (fun _ _ => none) ()).run calledTwice
    (s.world.heap.object 1).activeCalls = 2 ∧ s.world.stubsAt 1 0 = [] ∧
      ((s.world.callValue callOnceMore (.object 1) .undefined []).2.heap.object 1).activeCalls = 2 := by
  have hfunction : Heap.Working True .initial Machine.functionHeap := .newFunction "f" 1 fun _ => rfl
  have hobeys : (initial .standard (fun _ _ => none) ()).Obeys calledTwice :=
    ⟨hfunction.sameCalls, trivial, trivial, trivial, trivial⟩
  obtain ⟨hcalls, hrestored, -⟩ :=
    running_callees_not_specialized .standard (fun _ _ => none) () hobeys
  have htwo : (((initial .standard (fun _ _ => none) ()).run calledTwice).world.heap.object
      1).activeCalls = 2 := (hcalls 1).trans (by decide +kernel)
  refine ⟨htwo, by decide +kernel, ?_⟩
  exact ((hrestored callOnceMore nests_callOnceMore 1).2 (.object 1) .undefined []).trans htwo

end CallStack

end InlineCache
