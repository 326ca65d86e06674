import InlineCache.Osr.Region

namespace InlineCache

namespace Lease

/-- Whether a byte of the region belongs to a lease. -/
def Covers (l : Lease) (byte : Nat) : Prop := l.start ≤ byte ∧ byte < l.start + l.size

/-- Two leases have no byte in common. -/
def Apart (l l' : Lease) : Prop := ∀ byte, l.Covers byte → ¬ l'.Covers byte

private theorem apart_of_le {l l' : Lease} (h : l'.start + l'.size ≤ l.start) : l.Apart l' :=
  fun _ hl hl' => absurd (Nat.lt_of_lt_of_le hl'.2 (Nat.le_trans h hl.1)) (Nat.lt_irrefl _)

end Lease

namespace Region

variable {r r' : Region} {bytes : Nat} {lease : Lease}

/-- A request for more than is available is turned down before anything is cut off. -/
theorem allocate_of_lt (h : r.available < bytes) :
    r.allocate bytes = (.error (.outOfMemory bytes r.available), r) := if_pos h

private theorem allocate_of_le (h : bytes ≤ r.available) :
    r.allocate bytes = (.ok ⟨r.offset, bytes⟩,
      { r with
        offset := r.offset + bytes
        live := r.live + 1
        highWater := max r.highWater (r.offset + bytes) }) := if_neg (Nat.not_lt.2 h)

/-- All there is to a lease that was granted. -/
theorem of_allocate_eq_ok (h : r.allocate bytes = (.ok lease, r')) :
    bytes ≤ r.available ∧ lease = ⟨r.offset, bytes⟩ ∧ r' =
      { r with
        offset := r.offset + bytes
        live := r.live + 1
        highWater := max r.highWater (r.offset + bytes) } := by
  rcases Nat.lt_or_ge r.available bytes with hlt | hle
  · rw [allocate_of_lt hlt] at h
    cases h
  · rw [allocate_of_le hle] at h
    cases h
    exact ⟨hle, rfl, rfl⟩

theorem of_allocate_eq_error {e : OsrError} (h : r.allocate bytes = (.error e, r')) :
    r.available < bytes ∧ e = .outOfMemory bytes r.available ∧ r' = r := by
  rcases Nat.lt_or_ge r.available bytes with hlt | hle
  · rw [allocate_of_lt hlt] at h
    cases h
    exact ⟨hlt, rfl, rfl⟩
  · rw [allocate_of_le hle] at h
    cases h

private theorem offset_release_le (r : Region) : r.release.offset ≤ r.offset := by
  simp only [release]
  split
  · exact Nat.zero_le _
  · exact Nat.le_refl _

end Region

/-- A region with the leases that were not dropped, the latest one first. -/
structure Tenancy where
  region : Region
  held : List Lease

inductive LeaseAction where
  | allocate (bytes : Nat)
  /-- The lease at a place among those that are held is dropped. -/
  | drop (place : Nat)

namespace Tenancy

def step (t : Tenancy) : LeaseAction → Tenancy
  | .allocate bytes =>
    match t.region.allocate bytes with
    | (.ok lease, region) => ⟨region, lease :: t.held⟩
    | (.error _, region) => ⟨region, t.held⟩
  | .drop place =>
    if place < t.held.length then ⟨t.region.release, t.held.eraseIdx place⟩ else t

def run (t : Tenancy) (actions : List LeaseAction) : Tenancy := actions.foldl step t

/-- A new region, of which nothing is leased. -/
def start (capacity : Nat) : Tenancy := ⟨.create capacity, []⟩

/-- The leases of a region lie below its offset, which is at the start when there are none. Leases are
dropped in any order, but the offset goes back only when the last of them is dropped; so those that are
held lie one after the other, those without a byte included. -/
structure Sound (capacity : Nat) (t : Tenancy) : Prop where
  capacity_eq : t.region.capacity = capacity
  offset_le : t.region.offset ≤ capacity
  live_eq : t.region.live = t.held.length
  below : ∀ l ∈ t.held, l.start + l.size ≤ t.region.offset
  apart : t.held.Pairwise Lease.Apart
  rewound : t.held = [] → t.region.offset = 0
  offset_le_highWater : t.region.offset ≤ t.region.highWater

variable {capacity : Nat} {t : Tenancy}

private theorem start_sound (capacity : Nat) : (start capacity).Sound capacity where
  capacity_eq := rfl
  offset_le := Nat.zero_le _
  live_eq := rfl
  below := fun _ h => (List.not_mem_nil h).elim
  apart := .nil
  rewound := fun _ => rfl
  offset_le_highWater := Nat.zero_le _

/-- What is available and what is leased make up the capacity. -/
theorem Sound.available_add_offset (h : t.Sound capacity) :
    t.region.available + t.region.offset = capacity := by
  rw [Region.available, h.capacity_eq]
  exact Nat.sub_add_cancel h.offset_le

/-- A new lease begins where all others have ended. -/
theorem Sound.allocate (h : t.Sound capacity) (bytes : Nat) : (t.step (.allocate bytes)).Sound capacity := by
  rcases Nat.lt_or_ge t.region.available bytes with hlt | hle
  · simp only [step, Region.allocate_of_lt hlt]
    exact h
  · simp only [step, Region.allocate_of_le hle]
    have htotal := h.available_add_offset
    refine
      { capacity_eq := h.capacity_eq
        offset_le := by dsimp only; omega
        live_eq := congrArg (· + 1) h.live_eq
        below := fun l hl => ?_
        apart := .cons (fun l hl => Lease.apart_of_le (h.below l hl)) h.apart
        rewound := nofun
        offset_le_highWater := Nat.le_max_right _ _ }
    rcases List.mem_cons.1 hl with rfl | hold
    · exact Nat.le_refl _
    · exact Nat.le_trans (h.below l hold) (Nat.le_add_right _ _)

/-- While a lease is held the offset stays, since another lease may lie anywhere below it. -/
theorem Sound.drop (h : t.Sound capacity) (place : Nat) : (t.step (.drop place)).Sound capacity := by
  simp only [step]
  split
  · next hplace =>
    have hlive : t.region.live - 1 = (t.held.eraseIdx place).length := by
      rw [h.live_eq, List.length_eraseIdx_of_lt hplace]
    have hoffset := t.region.offset_release_le
    refine
      { capacity_eq := h.capacity_eq
        offset_le := Nat.le_trans hoffset h.offset_le
        live_eq := hlive
        below := fun l hl => ?_
        apart := h.apart.sublist (List.eraseIdx_sublist _ _)
        rewound := fun hnil => ?_
        offset_le_highWater := Nat.le_trans hoffset h.offset_le_highWater }
    · have hpos : t.region.live - 1 ≠ 0 := by
        rw [hlive]
        exact Nat.ne_of_gt (List.length_pos_of_mem hl)
      simp only [Region.release, if_neg hpos]
      exact h.below l (List.mem_of_mem_eraseIdx hl)
    · have hzero : t.region.live - 1 = 0 := hlive.trans (congrArg List.length hnil)
      simp only [Region.release, if_pos hzero]
  · exact h

private theorem Sound.step (h : t.Sound capacity) (a : LeaseAction) : (t.step a).Sound capacity := by
  cases a with
  | allocate bytes => exact h.allocate bytes
  | drop place => exact h.drop place

private theorem Sound.run (h : t.Sound capacity) (actions : List LeaseAction) :
    (t.run actions).Sound capacity := by
  induction actions generalizing t with
  | nil => exact h
  | cons a rest ih => exact ih (h.step a)

/-- The high-water mark follows the offset upwards only. -/
theorem Sound.highWater_step (h : t.Sound capacity) (a : LeaseAction) :
    (t.step a).region.highWater = max t.region.highWater (t.step a).region.offset := by
  have hstays {t' : Tenancy} (hmark : t'.region.highWater = t.region.highWater)
      (hoffset : t'.region.offset ≤ t.region.offset) :
      t'.region.highWater = max t.region.highWater t'.region.offset := by
    rw [hmark]
    exact (Nat.max_eq_left (Nat.le_trans hoffset h.offset_le_highWater)).symm
  cases a with
  | allocate bytes =>
    rcases Nat.lt_or_ge t.region.available bytes with hlt | hle
    · simp only [Tenancy.step, Region.allocate_of_lt hlt]
      exact hstays rfl (Nat.le_refl _)
    · simp only [Tenancy.step, Region.allocate_of_le hle]
  | drop place =>
    simp only [Tenancy.step]
    split
    · exact hstays rfl t.region.offset_release_le
    · exact hstays rfl (Nat.le_refl _)

/-- The high-water mark after a run is the one of before, or the offset at some point of the run, and there
is no greater offset at any point. -/
theorem Sound.highWater_run (h : t.Sound capacity) (actions : List LeaseAction) :
    t.region.highWater ≤ (t.run actions).region.highWater ∧
      (∀ before, before <+: actions →
        (t.run before).region.offset ≤ (t.run actions).region.highWater) ∧
      ((t.run actions).region.highWater = t.region.highWater ∨
        ∃ before, before <+: actions ∧
          (t.run before).region.offset = (t.run actions).region.highWater) := by
  induction actions generalizing t with
  | nil =>
    refine ⟨Nat.le_refl _, fun before hbefore => ?_, .inl rfl⟩
    rw [List.prefix_nil.1 hbefore]
    exact h.offset_le_highWater
  | cons a rest ih =>
    obtain ⟨hle, hall, hsome⟩ := ih (h.step a)
    have hmark := h.highWater_step a
    have hstart : t.region.highWater ≤ (t.run (a :: rest)).region.highWater :=
      Nat.le_trans (by rw [hmark]; exact Nat.le_max_left _ _) hle
    refine ⟨hstart, fun before hbefore => ?_, ?_⟩
    · cases before with
      | nil => exact Nat.le_trans h.offset_le_highWater hstart
      | cons b before =>
        obtain ⟨rfl, hrest⟩ := List.cons_prefix_cons.1 hbefore
        exact hall before hrest
    · rcases hsome with heq | ⟨before, hbefore, heq⟩
      · rcases Nat.le_total (t.step a).region.offset t.region.highWater with hlow | hhigh
        · exact .inl (heq.trans (hmark.trans (Nat.max_eq_left hlow)))
        · refine .inr ⟨[a], List.cons_prefix_cons.2 ⟨rfl, List.nil_prefix⟩, ?_⟩
          exact ((heq.trans hmark).trans (Nat.max_eq_right hhigh)).symm
      · exact .inr ⟨a :: before, List.cons_prefix_cons.2 ⟨rfl, hbefore⟩, heq⟩

/-- What holds of a region after a run of leases that were taken and dropped in any order. -/
structure Safe (capacity : Nat) (actions : List LeaseAction) (t : Tenancy) : Prop where
  offset_le : t.region.offset ≤ capacity
  /-- Nothing is cut off when what is available is computed. -/
  available : t.region.available + t.region.offset = capacity
  inside : ∀ l ∈ t.held, l.start + l.size ≤ capacity
  apart : t.held.Pairwise Lease.Apart
  live : t.region.live = t.held.length
  /-- A request fails exactly if it is for more than is available, and then changes nothing. -/
  fails : ∀ bytes, t.region.available < bytes →
    t.region.allocate bytes = (.error (.outOfMemory bytes t.region.available), t.region) ∧
      t.step (.allocate bytes) = t
  grants : ∀ bytes, bytes ≤ t.region.available → ∃ region,
    t.region.allocate bytes = (.ok ⟨t.region.offset, bytes⟩, region) ∧
      t.step (.allocate bytes) = ⟨region, ⟨t.region.offset, bytes⟩ :: t.held⟩
  /-- The high-water mark is the greatest offset of the run. -/
  reached : ∃ before, before <+: actions ∧
    ((start capacity).run before).region.offset = t.region.highWater
  greatest : ∀ before, before <+: actions →
    ((start capacity).run before).region.offset ≤ t.region.highWater
  rewound : t.held = [] → t.region.available = capacity

/-- However leases are taken and dropped, those that are held have no byte in common and lie inside the
region, which is all there again when none is held. -/
theorem leases_safe (capacity : Nat) (actions : List LeaseAction) :
    ((start capacity).run actions).Safe capacity actions := by
  have hstart := start_sound capacity
  have hsound := hstart.run actions
  have htotal := hsound.available_add_offset
  obtain ⟨-, hall, hsome⟩ := hstart.highWater_run actions
  refine
    { offset_le := hsound.offset_le
      available := htotal
      inside := fun l hl => Nat.le_trans (hsound.below l hl) hsound.offset_le
      apart := hsound.apart
      live := hsound.live_eq
      fails := fun bytes hlt => ⟨Region.allocate_of_lt hlt, ?_⟩
      grants := fun bytes hle => ⟨_, Region.allocate_of_le hle, ?_⟩
      reached := ?_
      greatest := hall
      rewound := fun hnil => ?_ }
  · simp only [step, Region.allocate_of_lt hlt]
  · simp only [step, Region.allocate_of_le hle]
  · rcases hsome with heq | hreached
    · exact ⟨[], List.nil_prefix, heq.symm⟩
    · exact hreached
  · rw [hsound.rewound hnil] at htotal
    exact htotal

/-- Two leases, one without a byte between them, and the first one dropped: the offset stays. -/
example : ((start 8).run [.allocate 3, .allocate 0, .allocate 5, .drop 2]).region = ⟨8, 8, 2, 8⟩ := rfl

end Tenancy

end InlineCache
