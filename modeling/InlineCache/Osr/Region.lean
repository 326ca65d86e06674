import InlineCache.Osr.Error

namespace InlineCache

/-- A part of the region. -/
structure Lease where
  start : Nat
  size : Nat
deriving DecidableEq, Inhabited

/-- The region that holds snapshots of frames. Leases are cut off one after the other, and all room comes
back when the last of them is released. -/
structure Region where
  capacity : Nat
  /-- The first byte that is not leased. -/
  offset : Nat
  /-- The number of leases that were not released. -/
  live : Nat
  /-- The greatest offset there ever was. -/
  highWater : Nat
deriving DecidableEq, Inhabited

namespace Region

def create (capacity : Nat) : Region := ⟨capacity, 0, 0, 0⟩

def available (r : Region) : Nat := r.capacity - r.offset

/-- Leases some bytes, if there are as many. -/
def allocate (r : Region) (bytes : Nat) : Except OsrError Lease × Region :=
  if r.available < bytes then (.error (.outOfMemory bytes r.available), r)
  else
    let offset := r.offset + bytes
    (.ok ⟨r.offset, bytes⟩,
      { r with offset := offset, live := r.live + 1, highWater := max r.highWater offset })

/-- Gives a lease back. -/
def release (r : Region) : Region :=
  let live := r.live - 1
  { r with live := live, offset := if live = 0 then 0 else r.offset }

end Region

end InlineCache
