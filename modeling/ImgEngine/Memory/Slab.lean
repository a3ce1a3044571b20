import ImgEngine.Core.Word
import ImgEngine.Library.ByteMemory

namespace ImgEngine.Memory

open ImgEngine.Library.ByteMemory

-- struct img_slab_pool. The numa node is left out, which no function reads.
structure ImgSlabPool where
  freeList : Ptr
  memory : Ptr
  totalSize : UInt64
  blockSize : UInt64
  blockCount : UInt64

def align64 (x : UInt64) : UInt64 := (x + 63) &&& ~~~63

-- `allocate` stands for numa_alloc_onnode or aligned_alloc, with 0 for failure.
def imgNumaAllocOnnode (allocate : UInt64 → Ptr) (size : UInt64) : Ptr := allocate (align64 size)

-- The i-th block, and what one round of the loop of img_slab_create does with it.

def ImgSlabPool.block (pool : ImgSlabPool) (i : Nat) : Ptr :=
  pool.memory + UInt64.ofNat i * pool.blockSize

def linkBlock (s : Memory × ImgSlabPool) (i : Nat) : Memory × ImgSlabPool :=
  (store64 s.1 (s.2.block i) s.2.freeList, { s.2 with freeList := s.2.block i })

-- none stands for the result NULL. malloc finds memory for the pool's record.
def imgSlabCreate (allocate : UInt64 → Ptr) (mem : Memory) (totalSize blockSize : UInt64) :
    Option (Memory × ImgSlabPool) :=
  let blockSize := align64 blockSize
  let totalSize := align64 totalSize
  let memory := imgNumaAllocOnnode allocate totalSize
  if memory = 0 then none
  else
    let blockCount := totalSize / blockSize
    some ((List.range blockCount.toNat).foldl linkBlock
      (mem, { freeList := 0, memory, totalSize, blockSize, blockCount }))

-- img_poison_block expands to nothing outside of sanitizer builds.

def imgSlabAlloc (mem : Memory) (pool : ImgSlabPool) : Ptr × ImgSlabPool :=
  if pool.freeList = 0 then (0, pool)
  else (pool.freeList, { pool with freeList := load64 mem pool.freeList })

def imgSlabFree (mem : Memory) (pool : ImgSlabPool) (ptr : Ptr) : Memory × ImgSlabPool :=
  if ptr = 0 then (mem, pool)
  else (store64 mem ptr pool.freeList, { pool with freeList := ptr })

-- What the pool is for: a stack of free blocks.
structure BlockPool where
  blockSize : UInt64
  free : List Ptr

namespace BlockPool

def alloc (pool : BlockPool) : Ptr × BlockPool :=
  match pool.free with
  | [] => (0, pool)
  | block :: rest => (block, { pool with free := rest })

def release (pool : BlockPool) (block : Ptr) : BlockPool :=
  if block = 0 then pool else { pool with free := block :: pool.free }

end BlockPool

namespace ImgSlab

def blocks (pool : ImgSlabPool) : List Ptr :=
  (List.range pool.blockCount.toNat).map pool.block

-- A pool with its client, who knows which blocks are live.
structure Session where
  mem : Memory
  pool : ImgSlabPool
  live : List Ptr

inductive Cmd where
  | alloc
  | free (block : Ptr)
  | write (addr : Ptr) (byte : UInt8)

-- The client frees live blocks and writes inside of live blocks. A command that
-- breaks these rules has no result.
def Session.step (s : Session) : Cmd → Option Session
  | .alloc =>
      let (block, pool) := imgSlabAlloc s.mem s.pool
      some { s with pool, live := if block = 0 then s.live else block :: s.live }
  | .free block =>
      if block ∈ s.live then
        let (mem, pool) := imgSlabFree s.mem s.pool block
        some { mem, pool, live := s.live.erase block }
      else none
  | .write addr byte =>
      if ∃ block ∈ s.live, addr - block < s.pool.blockSize then
        some { s with mem := Function.update s.mem addr byte }
      else none

structure Sound (s : Session) : Prop where
  -- the nodes of the free list and the live blocks are the blocks of the pool
  partition : ∃ free, Chain s.mem s.pool.freeList free ∧ (free ++ s.live).Nodup ∧
    ∀ block, block ∈ free ++ s.live ↔ block ∈ blocks s.pool
  inside : ∀ block ∈ blocks s.pool, s.pool.memory.toNat ≤ block.toNat ∧
    block.toNat + s.pool.blockSize.toNat ≤ s.pool.memory.toNat + s.pool.totalSize.toNat
  apart : ∀ block ∈ blocks s.pool, ∀ other ∈ blocks s.pool, block ≠ other →
    block.toNat + s.pool.blockSize.toNat ≤ other.toNat ∨
      other.toNat + s.pool.blockSize.toNat ≤ block.toNat
  fresh : (imgSlabAlloc s.mem s.pool).1 ∉ s.live
  exhausted : (imgSlabAlloc s.mem s.pool).1 = 0 ↔ s.live.length = s.pool.blockCount.toNat

end ImgSlab

end ImgEngine.Memory
