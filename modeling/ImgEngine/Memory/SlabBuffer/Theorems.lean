import ImgEngine.Memory.Slab.Theorems
import ImgEngine.Memory.SlabBuffer

namespace ImgEngine.Memory

open ImgEngine.Library.ByteMemory ImgEngine.Memory.ImgSlab

-- A pool whose free list holds blocks of its own, each of them once.
structure PoolReady (mem : Memory) (pool : ImgSlabPool) : Prop where
  geometry : Geometry pool
  list : ∃ free, Chain mem pool.freeList free ∧ free.Nodup ∧ ∀ block ∈ free, block ∈ blocks pool

theorem PoolReady.block_end {mem : Memory} {pool : ImgSlabPool} (h : PoolReady mem pool)
    (hfree : pool.freeList ≠ 0) : pool.freeList.toNat + pool.blockSize.toNat ≤ 2 ^ 64 := by
  obtain ⟨free, hchain, -, hblocks⟩ := h.list
  cases free with
  | nil => exact absurd hchain hfree
  | cons block rest =>
      rw [hchain.1]
      exact (h.geometry.inside (hblocks block List.mem_cons_self)).2.trans h.geometry.space

theorem PoolReady.next_ne {mem : Memory} {pool : ImgSlabPool} (h : PoolReady mem pool)
    (hfree : pool.freeList ≠ 0) : load64 mem pool.freeList ≠ pool.freeList := by
  obtain ⟨free, hchain, hnodup, -⟩ := h.list
  cases free with
  | nil => exact absurd hchain hfree
  | cons block rest =>
      obtain ⟨hfirst, hnull, hrest⟩ := hchain
      rw [hfirst]
      intro hsame
      cases rest with
      | nil => exact hnull (hsame.symm.trans hrest)
      | cons next rest =>
          have hnext : block = next := hsame.symm.trans hrest.1
          exact (List.nodup_cons.mp hnodup).1 (hnext ▸ List.mem_cons_self)

section Carve

variable {mem : Memory} {pool : ImgSlabPool} {w h ch : UInt32}

-- The bytes of the rows as the source computes them.
def carvedSize (w h ch : UInt32) : Nat := (w.toNat * ch.toNat % 2 ^ 32) * h.toNat

def Refused (pool : ImgSlabPool) (w h ch : UInt32) : Prop :=
  (w = 0 ∨ h = 0 ∨ ch = 0) ∨ pool.blockSize.toNat < 64 + carvedSize w h ch ∨ pool.freeList = 0

def carvedBuffer (pool : ImgSlabPool) (w h ch : UInt32) : SlabBuffer :=
  ⟨pool.freeList + 64, w, h, ch, w * ch⟩

theorem carvedSize_lt (w h ch : UInt32) : 64 + carvedSize w h ch < 2 ^ 64 := by
  have hmul : carvedSize w h ch ≤ (2 ^ 32 - 1) * (2 ^ 32 - 1) :=
    Nat.mul_le_mul (by omega) (Nat.le_sub_one_of_lt h.toNat_lt)
  omega

-- The tests for overflow never fail.
theorem toUInt64_le_sizeMax_div {x y : UInt32} (hy : y ≠ 0) :
    ¬x.toUInt64 > SIZE_MAX / y.toUInt64 := by
  have hy : 0 < y.toNat := Nat.pos_of_ne_zero fun hzero => hy (UInt32.toNat_inj.mp hzero)
  have hmul : x.toNat * y.toNat ≤ (2 ^ 32 - 1) * (2 ^ 32 - 1) :=
    Nat.mul_le_mul (Nat.le_sub_one_of_lt x.toNat_lt) (Nat.le_sub_one_of_lt y.toNat_lt)
  rw [gt_iff_lt, UInt64.not_lt, UInt64.le_iff_toNat_le, UInt64.toNat_div, UInt32.toNat_toUInt64,
    UInt32.toNat_toUInt64, Nat.le_div_iff_mul_le hy]
  exact hmul.trans (by decide)

theorem total_toNat (w h ch : UInt32) :
    (((sizeofHeader + 63) &&& ~~~63) + (w * ch).toUInt64 * h.toUInt64).toNat =
      64 + carvedSize w h ch := by
  have hlt := carvedSize_lt w h ch
  have hdata : ((w * ch).toUInt64 * h.toUInt64).toNat = carvedSize w h ch := by
    rw [UInt64.toNat_mul, UInt32.toNat_toUInt64, UInt32.toNat_toUInt64, UInt32.toNat_mul]
    exact Nat.mod_eq_of_lt (by rw [← carvedSize]; omega)
  rw [UInt64.toNat_add, hdata]
  exact Nat.mod_eq_of_lt hlt

theorem imgBufferFromSlab_refused (h' : Refused pool w h ch) :
    imgBufferFromSlab mem (some pool) w h ch = ⟨.zero, mem, some pool⟩ := by
  rw [imgBufferFromSlab]
  by_cases hzero : w = 0 ∨ h = 0 ∨ ch = 0
  · rw [if_pos hzero]
  rw [if_neg hzero, if_neg (toUInt64_le_sizeMax_div fun hch => hzero (.inr (.inr hch))),
    if_neg (toUInt64_le_sizeMax_div fun hh => hzero (.inr (.inl hh)))]
  simp only [gt_iff_lt, UInt64.lt_iff_toNat_lt, total_toNat]
  rcases h' with hdim | hblock | hfree
  · exact absurd hdim hzero
  · rw [if_pos hblock]
  · simp only [imgSlabAlloc_null mem hfree, if_true, ite_self]

theorem imgBufferFromSlab_taken (h' : ¬Refused pool w h ch) :
    imgBufferFromSlab mem (some pool) w h ch =
      ⟨carvedBuffer pool w h ch, storeHeader mem pool.freeList 1 0,
        some { pool with freeList := load64 mem pool.freeList }⟩ := by
  obtain ⟨hzero, hrest⟩ := not_or.mp h'
  obtain ⟨hblock, hfree⟩ := not_or.mp hrest
  rw [imgBufferFromSlab, if_neg hzero,
    if_neg (toUInt64_le_sizeMax_div fun hch => hzero (.inr (.inr hch))),
    if_neg (toUInt64_le_sizeMax_div fun hh => hzero (.inr (.inl hh)))]
  simp only [gt_iff_lt, UInt64.lt_iff_toNat_lt, total_toNat]
  rw [if_neg hblock, imgSlabAlloc_first mem hfree, if_neg hfree]
  simp only [carvedBuffer, UInt32.toUInt32_toUInt64]
  rfl

-- The buffer lies in the block that was taken for it.
structure InBlock (mem : Memory) (pool : ImgSlabPool) (w h ch : UInt32) (r : Carved) : Prop where
  size : 64 + w.toNat * ch.toNat * h.toNat ≤ pool.blockSize.toNat
  stride : r.buf.stride.toNat = w.toNat * ch.toNat
  taken : r.pool = some (imgSlabAlloc mem pool).2
  bytes : ∀ y < h.toNat, ∀ k < w.toNat * ch.toNat,
    (imgSlabAlloc mem pool).1.toNat ≤ r.buf.byteAddress y k ∧
      r.buf.byteAddress y k < (imgSlabAlloc mem pool).1.toNat + pool.blockSize.toNat

structure FitsBlock (mem : Memory) (pool : ImgSlabPool) (w h ch : UInt32) (r : Carved) : Prop where
  inside : r.buf.data ≠ 0 → InBlock mem pool w h ch r
  kept : r.buf.data = 0 → r.pool = some pool

theorem carvedBuffer_inBlock (hpool : PoolReady mem pool) (h' : ¬Refused pool w h ch)
    (hrow : w.toNat * ch.toNat < 2 ^ 32) :
    FitsBlock mem pool w h ch (imgBufferFromSlab mem (some pool) w h ch) := by
  obtain ⟨hzero, hrest⟩ := not_or.mp h'
  obtain ⟨hblock, hfree⟩ := not_or.mp hrest
  have hend := hpool.block_end hfree
  have hsize : carvedSize w h ch = w.toNat * ch.toNat * h.toNat := by
    rw [carvedSize, Nat.mod_eq_of_lt hrow]
  have hstride : (w * ch).toNat = w.toNat * ch.toNat := uint32_toNat_mul hrow
  have hpos : 0 < w.toNat * ch.toNat * h.toNat := by
    obtain ⟨hw, hh, hch⟩ : w ≠ 0 ∧ h ≠ 0 ∧ ch ≠ 0 := by tauto
    simp only [← UInt32.toNat_inj, UInt32.toNat_zero, ne_eq] at hw hh hch
    exact Nat.mul_pos (Nat.mul_pos (by omega) (by omega)) (by omega)
  have hdata : (pool.freeList + 64).toNat = pool.freeList.toNat + 64 := by
    rw [UInt64.toNat_add]
    exact Nat.mod_eq_of_lt (by change _ + 64 < _; omega)
  rw [imgBufferFromSlab_taken h']
  refine ⟨fun _ => ⟨by omega, hstride, ?_, fun y hy k hk => ?_⟩, fun hnull => ?_⟩
  · rw [imgSlabAlloc_first mem hfree]
  · rw [imgSlabAlloc_first mem hfree]
    simp only [SlabBuffer.byteAddress, carvedBuffer, hdata, hstride]
    have hrows := Nat.mul_le_mul_right (w.toNat * ch.toNat) hy
    rw [Nat.succ_mul, Nat.mul_comm h.toNat] at hrows
    omega
  · have hnull := congrArg UInt64.toNat hnull
    rw [carvedBuffer, hdata, UInt64.toNat_zero] at hnull
    omega

theorem fitsBlock_row (hpool : PoolReady mem pool) (h' : ¬Refused pool w h ch)
    (hfits : FitsBlock mem pool w h ch (imgBufferFromSlab mem (some pool) w h ch)) :
    w.toNat * ch.toNat < 2 ^ 32 := by
  obtain ⟨-, hrest⟩ := not_or.mp h'
  obtain ⟨-, hfree⟩ := not_or.mp hrest
  rw [imgBufferFromSlab_taken h'] at hfits
  by_cases hnull : (carvedBuffer pool w h ch).data = 0
  · -- the block ends where the addresses do, and it has been taken
    have hkept := hfits.kept hnull
    simp only [Option.some.injEq] at hkept
    exact absurd (congrArg ImgSlabPool.freeList hkept) (hpool.next_ne hfree)
  · have hstride := (hfits.inside hnull).stride
    exact hstride ▸ UInt32.toNat_lt _

-- The product w * ch may wrap around.
theorem imgBufferFromSlab_fits_iff (mem : Memory) (pool : ImgSlabPool) (w h ch : UInt32)
    (hpool : PoolReady mem pool) :
    FitsBlock mem pool w h ch (imgBufferFromSlab mem (some pool) w h ch) ↔
      w.toNat * ch.toNat < 2 ^ 32 ∨ h = 0 ∨ pool.freeList = 0 ∨
        pool.blockSize.toNat < 64 + (w.toNat * ch.toNat % 2 ^ 32) * h.toNat := by
  by_cases hrefused : Refused pool w h ch
  · refine iff_of_true ?_ ?_
    · rw [imgBufferFromSlab_refused hrefused]
      exact ⟨fun hdata => absurd rfl hdata, fun _ => rfl⟩
    · rcases hrefused with (rfl | hh | rfl) | hblock | hfree
      · exact .inl (by simp)
      · exact .inr (.inl hh)
      · exact .inl (by simp)
      · exact .inr (.inr (.inr hblock))
      · exact .inr (.inr (.inl hfree))
  · obtain ⟨hzero, hrest⟩ := not_or.mp hrefused
    obtain ⟨hblock, hfree⟩ := not_or.mp hrest
    have hh : h ≠ 0 := fun hh => hzero (.inr (.inl hh))
    rw [carvedSize] at hblock
    simp only [hh, hfree, hblock, or_false]
    exact ⟨fitsBlock_row hpool hrefused, carvedBuffer_inBlock hpool hrefused⟩

end Carve

-- A pool of one block of 4096 bytes.
def onePage : ImgSlabPool where
  freeList := 4096
  memory := 4096
  totalSize := 4096
  blockSize := 4096
  blockCount := 1

theorem onePage_ready : PoolReady (fun _ => 0) onePage where
  geometry := ⟨by decide, by decide, by decide, by decide⟩
  list := by
    refine ⟨[4096], ⟨rfl, by decide, show load64 (fun _ => 0) 4096 = 0 by decide⟩, by decide, ?_⟩
    intro block hblock
    obtain rfl := List.mem_singleton.mp hblock
    decide

theorem imgBufferFromSlab_fits_small :
    FitsBlock (fun _ => 0) onePage 16 16 3 (imgBufferFromSlab (fun _ => 0) (some onePage) 16 16 3) :=
  (imgBufferFromSlab_fits_iff (fun _ => 0) onePage 16 16 3 onePage_ready).mpr (by decide)

-- A row of 2^32 bytes has the stride 0.
theorem imgBufferFromSlab_wraps : PoolReady (fun _ => 0) onePage ∧
    ¬FitsBlock (fun _ => 0) onePage 65536 1 65536
      (imgBufferFromSlab (fun _ => 0) (some onePage) 65536 1 65536) := by
  refine ⟨onePage_ready, fun h => ?_⟩
  have hsize := (h.inside (by decide)).size
  exact absurd hsize (by decide)

end ImgEngine.Memory
