import InlineCache.Osr.Transfer

namespace InlineCache

/-- Whether a state fits the frames of a unit: it has all locals, and its offset is inside the unit. -/
def FrameState.Fits (unit : CodeUnit) (s : FrameState) : Prop :=
  unit.localCount.toNat ≤ s.slots.size ∧ s.pc.toNat < unit.instructions.size

namespace Frame

variable {f g : Frame} {s : FrameState}

private theorem restore_of_fits (h : s.Fits f.unit) :
    f.restore s = .ok { f with pc := s.pc, slots := s.slots } := by
  have hlocals : ¬ s.slots.size < f.localCount := Nat.not_lt.2 h.1
  have hpc : ¬ (f.unit.instruction? s.pc).isNone = true := by
    rw [CodeUnit.instruction?, Option.isNone_iff_eq_none, Array.getElem?_eq_none_iff]
    exact Nat.not_le.2 h.2
  rw [restore, if_neg hlocals, if_neg hpc]

private theorem restore_of_not_fits (h : ¬ s.Fits f.unit) : ∃ e, f.restore s = .error e := by
  unfold restore
  by_cases hlocals : s.slots.size < f.localCount
  · exact ⟨_, if_pos hlocals⟩
  · have hpc : (f.unit.instruction? s.pc).isNone = true := by
      rw [CodeUnit.instruction?, Option.isNone_iff_eq_none, Array.getElem?_eq_none_iff]
      exact Nat.not_lt.1 fun hlt => h ⟨Nat.not_lt.1 hlocals, hlt⟩
    rw [if_neg hlocals, if_pos hpc]
    exact ⟨_, rfl⟩

/-- The restoration of a frame as it happens in place. A write that was made would stay made if a later check
failed. -/
def restoreInPlace (s : FrameState) : ExceptT OsrError (StateM Frame) Unit := do
  let f ← get
  if s.slots.size < f.localCount then
    throw (.invalidFrameState (.missingLocals s.slots.size f.localCount))
  else if (f.unit.instruction? s.pc).isNone then
    throw (.invalidFrameState (.outsideUnit s.pc))
  else
    modify fun f => { f with pc := s.pc }
    modify fun f => { f with slots := #[] }
    modify fun f => { f with slots := f.slots ++ s.slots }

/-- What a restoration in place answers, and the frame after it. -/
def putBack (f : Frame) (s : FrameState) : Except OsrError Unit × Frame := ((restoreInPlace s).run.run f).run

/-- In place or not, a restoration has the same outcome, and a frame is as it was after it failed. What
compiled code gives back may be anything, so all of it is checked before the first write. -/
theorem putBack_eq (f : Frame) (s : FrameState) :
    f.putBack s = ((f.restore s).map fun _ => (), (f.restore s).toOption.getD f) := by
  change Id.run (StateT.run (ExceptT.run (if s.slots.size < f.localCount then _ else
    if (f.unit.instruction? s.pc).isNone then _ else _)) f) = _
  unfold restore
  split
  · rfl
  · split
    · rfl
    · change (_, { f with pc := s.pc, slots := #[] ++ s.slots }) = _
      rw [Array.empty_append]
      rfl

private theorem putBack_of_fits (h : s.Fits f.unit) :
    f.putBack s = (.ok (), { f with pc := s.pc, slots := s.slots }) := by
  rw [putBack_eq, restore_of_fits h]
  rfl

private theorem putBack_of_not_fits (h : ¬ s.Fits f.unit) : ∃ e, f.putBack s = (.error e, f) := by
  obtain ⟨e, he⟩ := restore_of_not_fits h
  rw [putBack_eq, he]
  exact ⟨e, rfl⟩

/-- What an interpreter does with a frame. -/
inductive Action where
  | push (v : Value)
  | pop
  | setLocal (index : Nat) (v : Value)
  | setArg (index : Nat) (v : Value)
  | setPc (pc : Offset)
  | setDebuggee (debuggee : Bool)
  /-- A state is put into the frame, which may fail. -/
  | putBack (s : FrameState)

def act (f : Frame) : Action → Frame
  | .push v => f.push v
  | .pop => f.pop.2
  | .setLocal index v => f.setLocal index v
  | .setArg index v => f.setArg index v
  | .setPc pc => { f with pc := pc }
  | .setDebuggee debuggee => { f with debuggee := debuggee }
  | .putBack s => (f.putBack s).2

def run (f : Frame) (actions : List Action) : Frame := actions.foldl act f

/-- A frame of a unit that has a slot for each of its locals. -/
structure Held (unit : CodeUnit) (f : Frame) : Prop where
  unit_eq : f.unit = unit
  locals_le : unit.localCount.toNat ≤ f.slots.size

variable {unit : CodeUnit}

private theorem enter_held (unit : CodeUnit) (this : Value) (args : List Value) :
    (enter unit this args).Held unit where
  unit_eq := rfl
  locals_le := Nat.le_of_eq Array.size_replicate.symm

/-- Only a slot above the locals is ever popped. -/
theorem Held.pop (h : f.Held unit) : f.pop.2.Held unit := by
  unfold Frame.pop
  split
  · next hlt =>
    refine ⟨h.unit_eq, ?_⟩
    rw [localCount, h.unit_eq] at hlt
    rw [Array.size_pop]
    exact Nat.le_sub_one_of_lt hlt
  · exact h

/-- A state that is put back brings all locals with it. -/
theorem Held.putBack (h : f.Held unit) (s : FrameState) : (f.putBack s).2.Held unit := by
  by_cases hfits : s.Fits f.unit
  · rw [putBack_of_fits hfits]
    exact ⟨h.unit_eq, h.unit_eq ▸ hfits.1⟩
  · obtain ⟨e, he⟩ := putBack_of_not_fits hfits
    rw [he]
    exact h

private theorem Held.act (h : f.Held unit) (a : Action) : (f.act a).Held unit := by
  cases a with
  | push v =>
    refine ⟨h.unit_eq, Nat.le_trans h.locals_le ?_⟩
    rw [Frame.act, Frame.push, Array.size_push]
    exact Nat.le_succ _
  | pop => exact h.pop
  | setLocal index v =>
    refine ⟨h.unit_eq, Nat.le_trans h.locals_le ?_⟩
    exact Nat.le_of_eq Array.size_setIfInBounds.symm
  | setArg index v => exact ⟨h.unit_eq, h.locals_le⟩
  | setPc pc => exact ⟨h.unit_eq, h.locals_le⟩
  | setDebuggee debuggee => exact ⟨h.unit_eq, h.locals_le⟩
  | putBack s => exact h.putBack s

private theorem Held.run (h : f.Held unit) (actions : List Action) : (f.run actions).Held unit := by
  induction actions generalizing f with
  | nil => exact h
  | cons a rest ih => exact ih (h.act a)

/-- The state of a frame fits its unit if the frame stands at an instruction. -/
theorem Held.fits_capture (h : f.Held unit) (hpc : f.pc.toNat < unit.instructions.size) :
    f.capture.Fits unit := ⟨h.locals_le, hpc⟩

end Frame

namespace World

variable {σ : Type} {tier : Tier σ} {b : BridgeId} {f g : Frame} {outcome : OsrOutcome}

/-- A frame goes on as it was, or compiled code bailed out and its state was put into the frame. -/
def HandedBack (f : Frame) (outcome : OsrOutcome) (g : Frame) : Prop :=
  g = f ∨ ∃ reason s, outcome = .bailedOut reason ∧ f.restore s = .ok g

private theorem handedBack_leaveCompiled {w : World σ} {exit : Except VmError TierExit}
    (h : (w.leaveCompiled b f exit).1 = .ok (outcome, g)) : HandedBack f outcome g := by
  cases exit with
  | error e => cases h
  | ok exit =>
    cases exit with
    | returned v =>
      cases h
      exact .inl rfl
    | bailout reason s =>
      cases hrestore : f.restore s with
      | error e =>
        simp only [leaveCompiled, hrestore] at h
        cases h
      | ok f' =>
        simp only [leaveCompiled, hrestore] at h
        cases h
        exact .inr ⟨reason, s, rfl, hrestore⟩

private theorem handedBack_transferWith {code : OsrCode} {w : World σ}
    (h : (transferWith tier b code f w).1 = .ok (outcome, g)) : HandedBack f outcome g := by
  unfold transferWith at h
  split at h
  · cases h
  · split at h
    · cases h
    · dsimp only at h
      split at h
      · cases h
      · exact handedBack_leaveCompiled h

/-- An attempt that failed before the frame moved lets the frame go on as it was. -/
theorem handedBack_settleTransfer {result : Except OsrError (OsrOutcome × Frame)}
    (hresult : ∀ outcome g, result = .ok (outcome, g) → HandedBack f outcome g)
    (h : settleTransfer f result = .ok (outcome, g)) : HandedBack f outcome g := by
  cases result with
  | ok moved =>
    cases h
    exact hresult outcome g rfl
  | error e =>
    cases e with
    | pcMismatch expected actual | bailoutExpected | outOfMemory requested available =>
      cases h
      exact .inl rfl
    | noCompiledCode _ | compile _ | invalidFrameState _ | vm _ => cases h

private theorem handedBack_onLoopEntry {c : CacheId} {w : World σ}
    (h : (onLoopEntry tier b c f w).1 = .ok (outcome, g)) : HandedBack f outcome g := by
  unfold onLoopEntry at h
  split at h
  · cases h
  · dsimp only at h
    split at h
    · cases h
      exact .inl rfl
    · split at h
      · cases h
        exact .inl rfl
      · exact handedBack_settleTransfer (fun _ _ => handedBack_transferWith) h

end World

namespace Frame

/-- How states go into a frame of a unit and come out of it. -/
structure Restores (unit : CodeUnit) (f : Frame) : Prop where
  /-- There are slots for all locals. -/
  locals_le : unit.localCount.toNat ≤ f.slots.size
  /-- A state that fits becomes the offset and the slots of the frame, and nothing else is changed. -/
  succeeds : ∀ s : FrameState, s.Fits unit →
    f.restore s = .ok { f with pc := s.pc, slots := s.slots }
  /-- Any other state is refused. -/
  fails : ∀ s : FrameState, ¬ s.Fits unit → ∃ e, f.restore s = .error e
  /-- In place the outcome is the same, and the frame is as it was if its restoration failed. -/
  putBack_eq : ∀ s : FrameState,
    f.putBack s = ((f.restore s).map fun _ => (), (f.restore s).toOption.getD f)
  /-- The frame's own state makes any frame of the unit one that goes on from there. -/
  inverts : f.pc.toNat < unit.instructions.size → ∀ g : Frame, g.unit = unit →
    g.restore f.capture = .ok { g with pc := f.pc, slots := f.slots }
  /-- After a loop header the frame is as it was, or compiled code bailed out and it was restored. -/
  handedBack : ∀ {σ : Type} (tier : Tier σ) (b : BridgeId) (c : CacheId) (w : World σ)
    (outcome : OsrOutcome) (g : Frame),
    (World.onLoopEntry tier b c f w).1 = .ok (outcome, g) → World.HandedBack f outcome g

/-- A frame that was entered, and on which any pushes, pops, writes and restorations were made, holds all
locals of its unit. A state is put into it all or not at all, whatever state that is, and its own state can
be put into each frame of the unit while it stands at an instruction. -/
theorem entered_frame_restores (unit : CodeUnit) (this : Value) (args : List Value)
    (actions : List Action) : ((enter unit this args).run actions).Restores unit := by
  have h : ((enter unit this args).run actions).Held unit := (enter_held unit this args).run actions
  refine
    { locals_le := h.locals_le
      succeeds := fun s hs => restore_of_fits (h.unit_eq.symm ▸ hs)
      fails := fun s hs => restore_of_not_fits (h.unit_eq.symm ▸ hs)
      putBack_eq := putBack_eq _
      inverts := fun hpc g hg => restore_of_fits ?_
      handedBack := fun tier b c w outcome g => World.handedBack_onLoopEntry }
  rw [hg]
  exact h.fits_capture hpc

/-- Two states of a unit with two locals and two instructions, one with a slot too few. -/
example : let f := enter ⟨1, "f", 0, true, 2, #[.loopEntry, .ret], #[]⟩ .undefined []
    (f.putBack ⟨1, #[.null]⟩).2 = f ∧ (f.putBack ⟨1, #[.null, .null, .null]⟩).2.pc = 1 := by
  decide

end Frame

end InlineCache
