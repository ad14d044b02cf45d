import HttpServer.PoolReturns

/-!
# The limit of the memory pool

`AllocateBytesAligned` compares what the pool would take with `max_pool_size_`. Both sums, the
footprint of the request and the size of the pool with it, are computed in `size_t`, and nothing
says that they fit. A request that is large enough makes them small again: for `2^64 - 40` bytes
`operator new` is asked for nothing at all, and the caller gets a pointer.

`limitKept_iff` says for which requests, in a pool in any state, the limit is one.
-/

namespace DefaultMemoryPool

open BlockPool (IsAlignment toNat_alignedPointer)

variable {p : DefaultMemoryPool} {size alignment raw : UInt64}

/-- **The limit is kept by a request.** If it gets a pointer, the pool with its footprint stays
within the limit, it asks for no more than the limit, and its block is at least as large. -/
def LimitKept (p : DefaultMemoryPool) (size alignment raw : UInt64) : Prop :=
  (p.allocateBytesAligned size alignment raw).1 ≠ 0 →
    p.totalPoolBytes.toNat + footprint size alignment ≤ p.maxPoolSize.toNat
      ∧ size ≤ p.maxPoolSize ∧ size ≤ totalNeeded size alignment

instance (p : DefaultMemoryPool) (size alignment raw : UInt64) :
    Decidable (p.LimitKept size alignment raw) :=
  inferInstanceAs (Decidable (_ → _))

/-- The size of the pool with a request, as the source computes it. -/
theorem toNat_total_add (p : DefaultMemoryPool) (size alignment : UInt64) :
    (p.totalPoolBytes + totalNeeded size alignment).toNat
      = (p.totalPoolBytes.toNat + footprint size alignment) % 2 ^ 64 := by
  rw [totalNeeded, UInt64.toNat_add, UInt64.toNat_add, UInt64.toNat_add, footprint]
  show (_ + ((size.toNat + alignment.toNat) % 2 ^ 64 + 24) % 2 ^ 64) % 2 ^ 64 = _
  omega

/-- **What the limit compares**: the rest of the sum. -/
theorem exceedsLimit_iff (hmax : 0 < p.maxPoolSize) :
    p.ExceedsLimit size alignment ↔
      p.maxPoolSize.toNat < (p.totalPoolBytes.toNat + footprint size alignment) % 2 ^ 64 := by
  rw [ExceedsLimit, UInt64.lt_iff_toNat_lt, toNat_total_add]
  exact and_iff_left hmax

/-- **The pointer is null where rounding up goes round.** -/
theorem alignedPointer_eq_zero_iff (hal : IsAlignment alignment) :
    alignedPointer raw alignment = 0 ↔ 2 ^ 64 ≤ (raw.toNat + 23) % 2 ^ 64 + alignment.toNat := by
  obtain ⟨k, hk64, hk⟩ := hal
  have hpos : 0 < 2 ^ k := Nat.two_pow_pos k
  have hlt : 2 ^ k < 2 ^ 64 := hk ▸ alignment.toNat_lt
  rw [← UInt64.toNat_inj, UInt64.toNat_zero, toNat_alignedPointer hk, hk]
  have hrest := Nat.mod_lt ((raw.toNat + 24 + 2 ^ k - 1) % 2 ^ 64) hpos
  constructor
  · intro hzero
    omega
  · intro hround
    rw [Nat.mod_eq_of_lt (a := (raw.toNat + 24 + 2 ^ k - 1) % 2 ^ 64) (by omega), Nat.sub_self]

/-- When a request gets a pointer. -/
theorem allocateBytesAligned_ne_zero_iff (hal : IsAlignment alignment) :
    (p.allocateBytesAligned size alignment raw).1 ≠ 0 ↔
      size ≠ 0 ∧ ¬ p.ExceedsLimit size alignment
        ∧ (raw.toNat + 23) % 2 ^ 64 + alignment.toNat < 2 ^ 64 := by
  unfold allocateBytesAligned
  split
  · rename_i hsize
    exact iff_of_false (fun hne => hne rfl) fun h => h.1 hsize
  · rename_i hsize
    split
    · rename_i hexceeds
      exact iff_of_false (fun hne => hne rfl) fun h => h.2.1 hexceeds
    · rename_i hexceeds
      rw [Ne, alignedPointer_eq_zero_iff hal, Nat.not_le]
      exact ⟨fun hround => ⟨hsize, hexceeds, hround⟩, fun h => h.2.2⟩

/-- **When the limit is one.** In a pool in any state that has a limit, a request for a power of two
keeps it exactly if one of these is so: it asks for nothing; the size of the pool and the footprint
of the request stay within `size_t` together; they do not, but what is left of them is more than the
limit; or the pointer that would be returned is null by accident, since rounding up goes round. -/
theorem limitKept_iff (hal : IsAlignment alignment) (hmax : 0 < p.maxPoolSize) :
    p.LimitKept size alignment raw
      ↔ size = 0
        ∨ p.totalPoolBytes.toNat + footprint size alignment < 2 ^ 64
        ∨ p.maxPoolSize.toNat < (p.totalPoolBytes.toNat + footprint size alignment) % 2 ^ 64
        ∨ 2 ^ 64 ≤ (raw.toNat + 23) % 2 ^ 64 + alignment.toNat := by
  have hlimit : p.maxPoolSize.toNat < 2 ^ 64 := p.maxPoolSize.toNat_lt
  unfold LimitKept
  rw [allocateBytesAligned_ne_zero_iff hal, exceedsLimit_iff hmax]
  constructor
  · intro hkept
    by_contra hno
    push Not at hno
    obtain ⟨hsize, hsum, hrest, hround⟩ := hno
    have hover := (hkept ⟨hsize, Nat.not_lt.mpr hrest, hround⟩).1
    omega
  · rintro hcases ⟨hsize, hrest, hround⟩
    have hsum : p.totalPoolBytes.toNat + footprint size alignment < 2 ^ 64 := by
      rcases hcases with hzero | hsum | hover | hnull
      · exact absurd hzero hsize
      · exact hsum
      · exact absurd hover hrest
      · exact absurd hnull (Nat.not_le.mpr hround)
    rw [Nat.mod_eq_of_lt hsum] at hrest
    have hfoot : footprint size alignment < 2 ^ 64 := by omega
    have hsize : size.toNat ≤ footprint size alignment := by
      unfold footprint
      omega
    refine ⟨Nat.not_lt.mp hrest, UInt64.le_iff_toNat_le.mpr (by omega), ?_⟩
    rw [UInt64.le_iff_toNat_le, toNat_totalNeeded hfoot]
    exact hsize

/-- A request that the limit refuses. -/
theorem limitKept_iff_refused :
    let p : DefaultMemoryPool := { maxPoolSize := 100, totalPoolBytes := 50 }
    p.LimitKept 64 16 0x1000
      ↔ (64 : UInt64) = 0
        ∨ p.totalPoolBytes.toNat + footprint 64 16 < 2 ^ 64
        ∨ p.maxPoolSize.toNat < (p.totalPoolBytes.toNat + footprint 64 16) % 2 ^ 64
        ∨ 2 ^ 64 ≤ ((0x1000 : UInt64).toNat + 23) % 2 ^ 64 + (16 : UInt64).toNat :=
  limitKept_iff ⟨4, by decide, rfl⟩ (by decide)

/-- A new pool for a hundred bytes grants a request for all the memory but 40 bytes, and obtains a
block of no bytes for it. -/
theorem limit_not_kept :
    (({ maxPoolSize := 100 } : DefaultMemoryPool).allocateBytesAligned (2 ^ 64 - 40) 16 0x1000).1
        = 0x1020
      ∧ totalNeeded (2 ^ 64 - 40) 16 = 0
      ∧ ¬ ({ maxPoolSize := 100 } : DefaultMemoryPool).LimitKept (2 ^ 64 - 40) 16 0x1000 := by
  decide +kernel

end DefaultMemoryPool
