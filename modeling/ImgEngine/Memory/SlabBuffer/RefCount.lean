import ImgEngine.Memory.SlabBuffer.Theorems

namespace ImgEngine.Memory

open ImgEngine.Library.ByteMemory ImgEngine.Memory.ImgSlab

inductive RefCall where
  | acquire
  | release
deriving DecidableEq

def RefCall.run (buf : SlabBuffer) (mem : Memory) : RefCall → Memory
  | acquire => imgBufferAcquire mem (some buf)
  | release => (imgBufferRelease mem (some buf)).2

def runRefs (buf : SlabBuffer) (mem : Memory) (calls : List RefCall) : Memory :=
  calls.foldl (RefCall.run buf) mem

-- What the calls add to a count.
def refChange (calls : List RefCall) : UInt32 :=
  .ofNat (calls.count .acquire) - .ofNat (calls.count .release)

-- The count is kept in the header at the start of the block, and nothing else of the
-- block is changed.
structure RefCounted (pool : ImgSlabPool) (block : Ptr) (buf : SlabBuffer) (mem : Memory)
    (calls : List RefCall) : Prop where
  header : imgBufHdr buf = block
  count : ∀ n, load32 (runRefs buf mem (calls.take n)) block = 1 + refChange (calls.take n)
  last : ∀ n, calls[n]? = some .release →
    ((imgBufferRelease (runRefs buf mem (calls.take n)) (some buf)).1 = true ↔
      1 + refChange (calls.take (n + 1)) = 0)
  frame : ∀ addr, addr - block < pool.blockSize → ¬addr - block < sizeofHeader →
    runRefs buf mem calls addr = mem addr

section Calls

variable {buf : SlabBuffer} {mem : Memory} {calls : List RefCall}

theorem refChange_append (calls : List RefCall) (call : RefCall) :
    refChange (calls ++ [call]) = refChange calls + refChange [call] := by
  simp only [refChange, List.count_append, UInt32.ofNat_add]
  grind

-- What one call changes, and what all of them do.

theorem run_word (hdata : buf.data ≠ 0) (mem : Memory) (call : RefCall) :
    call.run buf mem = store32 mem (imgBufHdr buf) (load32 mem (imgBufHdr buf) + refChange [call]) := by
  cases call with
  | acquire =>
      simp only [RefCall.run, imgBufferAcquire, if_neg hdata]
      rfl
  | release =>
      simp only [RefCall.run, imgBufferRelease, if_neg hdata, UInt32.sub_eq_add_neg]
      rfl

theorem runRefs_append (call : RefCall) :
    runRefs buf mem (calls ++ [call]) = call.run buf (runRefs buf mem calls) := by
  rw [runRefs, List.foldl_append]
  rfl

theorem runRefs_count (hdata : buf.data ≠ 0) (mem : Memory) (calls : List RefCall) :
    load32 (runRefs buf mem calls) (imgBufHdr buf) =
      load32 mem (imgBufHdr buf) + refChange calls := by
  induction calls using List.reverseRecOn with
  | nil => exact (UInt32.add_zero _).symm
  | append_singleton calls call ih =>
      rw [runRefs_append, run_word hdata, load32_store32, ih, refChange_append, UInt32.add_assoc]

theorem runRefs_frame (hdata : buf.data ≠ 0) (mem : Memory) (calls : List RefCall) {addr : Ptr}
    (haddr : ¬addr - imgBufHdr buf < 4) : runRefs buf mem calls addr = mem addr := by
  induction calls using List.reverseRecOn with
  | nil => rfl
  | append_singleton calls call ih =>
      rw [runRefs_append, run_word hdata, store32, if_neg haddr, ih]

end Calls

-- Where the words lie to each other, whatever the address of the block is.

theorem add_sub_add_toNat (a x y : UInt64) :
    (a + x - (a + y)).toNat = (2 ^ 64 - y.toNat + x.toNat) % 2 ^ 64 := by
  have hsame : a + x - (a + y) = x - y := by grind
  rw [hsame, UInt64.toNat_sub]

theorem offset_toNat {i : Nat} (hi : i < 4) : (UInt64.ofNat i).toNat = i := by
  rw [UInt64.toNat_ofNat', Nat.mod_eq_of_lt (by omega)]

theorem storeHeader_of_outside {mem : Memory} {hdr addr : Ptr} (ref flags : UInt32)
    (haddr : ¬addr - hdr < sizeofHeader) : storeHeader mem hdr ref flags addr = mem addr := by
  have hflags : (addr - (hdr + 4)).toNat = (2 ^ 64 - 4 + (addr - hdr).toNat) % 2 ^ 64 := by
    have hsame : addr - (hdr + 4) = addr - hdr - 4 := by grind
    rw [hsame, UInt64.toNat_sub]
    rfl
  have hfar := (addr - hdr).toNat_lt
  rw [UInt64.lt_iff_toNat_lt] at haddr
  change ¬_ < 8 at haddr
  have hlow : ¬addr - hdr < 4 := by
    rw [UInt64.lt_iff_toNat_lt]
    change ¬_ < 4
    omega
  have hhigh : ¬addr - (hdr + 4) < 4 := by
    rw [UInt64.lt_iff_toNat_lt, hflags]
    change ¬_ < 4
    omega
  rw [storeHeader, store32, if_neg hhigh, store32, if_neg hlow]

theorem load32_storeHeader (mem : Memory) (hdr : Ptr) (ref flags : UInt32) :
    load32 (storeHeader mem hdr ref flags) hdr = ref := by
  refine (load32_congr fun i hi => if_neg ?_).trans (load32_store32 mem hdr ref)
  rw [UInt64.lt_iff_toNat_lt, add_sub_add_toNat, offset_toNat hi]
  change ¬(2 ^ 64 - 4 + i) % 2 ^ 64 < 4
  omega

section Carved

variable {mem : Memory} {pool : ImgSlabPool} {w h ch : UInt32}

theorem imgBufHdr_carved : imgBufHdr (carvedBuffer pool w h ch) = pool.freeList + 56 := by
  have hsame : pool.freeList + 64 - 8 = pool.freeList + 56 := by grind
  exact hsame

theorem carved_of_data (hdata : (imgBufferFromSlab mem (some pool) w h ch).buf.data ≠ 0) :
    pool.freeList ≠ 0 ∧ imgBufferFromSlab mem (some pool) w h ch =
      ⟨carvedBuffer pool w h ch, storeHeader mem pool.freeList 1 0,
        some { pool with freeList := load64 mem pool.freeList }⟩ := by
  by_cases hrefused : Refused pool w h ch
  · rw [imgBufferFromSlab_refused hrefused] at hdata
    exact absurd rfl hdata
  · have hfree : pool.freeList ≠ 0 := fun hfree => hrefused (.inr (.inr hfree))
    exact ⟨hfree, imgBufferFromSlab_taken hrefused⟩

-- The calls count in the word before the pixels. The header stays as it was written.
theorem imgBufferFromSlab_refs (calls : List RefCall)
    (hdata : (imgBufferFromSlab mem (some pool) w h ch).buf.data ≠ 0) :
    let r := imgBufferFromSlab mem (some pool) w h ch
    let block := (imgSlabAlloc mem pool).1
    load32 (runRefs r.buf r.mem calls) block = 1 ∧
      load32 (runRefs r.buf r.mem calls) (block + 56) =
        load32 mem (block + 56) + refChange calls ∧
      ∀ addr, ¬addr - block < sizeofHeader → ¬addr - (block + 56) < 4 →
        runRefs r.buf r.mem calls addr = mem addr := by
  obtain ⟨hfree, hcarved⟩ := carved_of_data hdata
  rw [hcarved] at hdata
  simp only [hcarved, imgSlabAlloc_first mem hfree]
  have hhdr : imgBufHdr (carvedBuffer pool w h ch) = pool.freeList + 56 := imgBufHdr_carved
  refine ⟨?_, ?_, fun addr haddr hword => ?_⟩
  · refine (load32_congr fun i hi => runRefs_frame hdata _ calls ?_).trans
      (load32_storeHeader mem pool.freeList 1 0)
    rw [hhdr, UInt64.lt_iff_toNat_lt, add_sub_add_toNat, offset_toNat hi]
    change ¬(2 ^ 64 - 56 + i) % 2 ^ 64 < 4
    omega
  · rw [← hhdr, runRefs_count hdata, hhdr]
    refine congrArg (· + refChange calls) (load32_congr fun i hi => storeHeader_of_outside 1 0 ?_)
    have hsame : pool.freeList + 56 + UInt64.ofNat i = pool.freeList + .ofNat (56 + i) := by
      rw [UInt64.ofNat_add, UInt64.add_assoc]
      rfl
    rw [hsame, UInt64.add_comm, UInt64.add_sub_cancel, UInt64.lt_iff_toNat_lt, UInt64.toNat_ofNat']
    change ¬(56 + i) % 2 ^ 64 < 8
    omega
  · rw [runRefs_frame hdata _ calls (by rw [hhdr]; exact hword)]
    exact storeHeader_of_outside 1 0 haddr

-- The header that is reached is never the one that was written.
theorem imgBufferFromSlab_not_refCounted (mem : Memory) (pool : ImgSlabPool) (w h ch : UInt32)
    (calls : List RefCall)
    (hdata : (imgBufferFromSlab mem (some pool) w h ch).buf.data ≠ 0) :
    ¬RefCounted pool (imgSlabAlloc mem pool).1 (imgBufferFromSlab mem (some pool) w h ch).buf
      (imgBufferFromSlab mem (some pool) w h ch).mem calls := by
  obtain ⟨hfree, hcarved⟩ := carved_of_data hdata
  rw [hcarved, imgSlabAlloc_first mem hfree]
  intro hcounted
  have hheader := hcounted.header
  rw [imgBufHdr_carved] at hheader
  exact absurd (UInt64.add_eq_left.mp hheader) (by decide)

end Carved

theorem imgBufferFromSlab_not_refCounted_onePage :
    ¬RefCounted onePage (imgSlabAlloc (fun _ => 0) onePage).1
      (imgBufferFromSlab (fun _ => 0) (some onePage) 1 1 1).buf
      (imgBufferFromSlab (fun _ => 0) (some onePage) 1 1 1).mem [] :=
  imgBufferFromSlab_not_refCounted (fun _ => 0) onePage 1 1 1 [] (by decide)

-- After one more reference the header still counts 1.
theorem imgBufferFromSlab_lost_reference : PoolReady (fun _ => 0) onePage ∧
    ¬RefCounted onePage 4096 (imgBufferFromSlab (fun _ => 0) (some onePage) 1 1 1).buf
      (imgBufferFromSlab (fun _ => 0) (some onePage) 1 1 1).mem [.acquire] := by
  refine ⟨onePage_ready, fun h => ?_⟩
  exact absurd (h.count 1) (by decide)

end ImgEngine.Memory
