import ImgEngine.Core.Buffer
import ImgEngine.Memory.Slab

namespace ImgEngine.Memory

-- What a call does with the pool.
inductive PoolEvent where
  | take (block : Ptr)
  | give (block : Ptr)
deriving DecidableEq

theorem BlockPool.alloc_blockSize (pool : BlockPool) : pool.alloc.2.blockSize = pool.blockSize := by
  unfold BlockPool.alloc
  split <;> rfl

theorem BlockPool.alloc_nonnull {pool : BlockPool} (h : 0 ∉ pool.free) :
    0 ∉ pool.alloc.2.free := by
  unfold BlockPool.alloc
  split
  · exact h
  · next hfree =>
      rw [hfree] at h
      exact fun hm => h (List.mem_cons_of_mem _ hm)

theorem BlockPool.release_nonnull {pool : BlockPool} (h : 0 ∉ pool.free) (block : Ptr) :
    0 ∉ (pool.release block).free := by
  unfold BlockPool.release
  split_ifs with hblock
  · exact h
  · rw [List.mem_cons, not_or]
    exact ⟨Ne.symm hblock, h⟩

-- The pool as a job sees it. A block that is taken still holds its old bytes.
structure Heap where
  pool : BlockPool
  nonnull : 0 ∉ pool.free
  stale : Ptr → Bytes
  log : List PoolEvent

namespace Heap

-- none stands for the result NULL.
def alloc (heap : Heap) : Option (Ptr × Heap) :=
  if heap.pool.alloc.1 = 0 then none
  else some (heap.pool.alloc.1, { heap with
    pool := heap.pool.alloc.2
    nonnull := BlockPool.alloc_nonnull heap.nonnull
    log := heap.log ++ [.take heap.pool.alloc.1] })

def release (heap : Heap) (block : Ptr) : Heap :=
  if block = 0 then heap
  else { heap with
    pool := heap.pool.release block
    nonnull := BlockPool.release_nonnull heap.nonnull block
    log := heap.log ++ [.give block] }

theorem alloc_some {heap heap' : Heap} {block : Ptr} (h : heap.alloc = some (block, heap')) :
    block ≠ 0 ∧ heap'.pool.blockSize = heap.pool.blockSize := by
  unfold alloc at h
  split_ifs at h with hnull
  cases h
  exact ⟨hnull, heap.pool.alloc_blockSize⟩

-- A block that is taken comes off the front of the free list.
theorem alloc_free {heap heap' : Heap} {block : Ptr} (h : heap.alloc = some (block, heap')) :
    heap.pool.free = block :: heap'.pool.free := by
  unfold alloc at h
  split_ifs at h with hnull
  cases h
  cases hfree : heap.pool.free with
  | nil => exact absurd (by rw [BlockPool.alloc, hfree]) hnull
  | cons first rest => simp only [BlockPool.alloc, hfree]

theorem release_alloc {heap heap' : Heap} {block : Ptr} (h : heap.alloc = some (block, heap')) :
    (heap'.release block).pool = heap.pool := by
  obtain ⟨hblock, hsize⟩ := alloc_some h
  have hfree := alloc_free h
  rw [release, if_neg hblock]
  simp only [BlockPool.release, if_neg hblock]
  cases hpool : heap.pool with
  | mk blockSize free => simp_all

theorem alloc_eq_none_iff {heap : Heap} : heap.alloc = none ↔ heap.pool.free = [] := by
  unfold alloc
  cases hfree : heap.pool.free with
  | nil => simp [BlockPool.alloc, hfree]
  | cons first rest =>
      have hfirst : first ≠ 0 := by
        rintro rfl
        exact heap.nonnull (hfree ▸ List.mem_cons_self)
      simp [BlockPool.alloc, hfree, hfirst]

end Heap

-- The pool that img_api_init makes, 512 MiB in blocks of 32 MiB, at some address.
def apiHeap : Heap where
  pool := {
    blockSize := 32 * 1024 * 1024
    free := (List.range 16).map fun i => 0x20000000 + UInt64.ofNat i * (32 * 1024 * 1024) }
  nonnull := by decide
  stale _ _ := 0
  log := []

-- Playing back what was done, with at most `limit` blocks held at a time. Only
-- blocks that are held can be given back.
def PoolEvent.play (limit : Nat) (held : List Ptr) : PoolEvent → Option (List Ptr)
  | .take block => if held.length < limit then some (block :: held) else none
  | .give block => if block ∈ held then some (held.erase block) else none

-- From `start` on, the held blocks have been taken and nothing else is missing.
structure Bracket (limit : Nat) (start : BlockPool) (held : List Ptr) (heap : Heap) : Prop where
  nonnull : 0 ∉ start.free
  blocks : (held ++ heap.pool.free).Perm start.free
  log : ∃ order, heap.log.foldlM (PoolEvent.play limit) [] = some order ∧ order.Perm held

section Brackets

variable {limit : Nat} {start : BlockPool} {held : List Ptr} {heap heap' : Heap} {block : Ptr}

theorem Bracket.enter (heap : Heap) (hlog : heap.log = []) : Bracket limit heap.pool [] heap :=
  ⟨heap.nonnull, .refl _, [], by rw [hlog]; rfl, .refl _⟩

theorem Bracket.held_nonnull (h : Bracket limit start held heap) (hblock : block ∈ held) :
    block ≠ 0 := by
  rintro rfl
  exact h.nonnull (h.blocks.subset (List.mem_append_left _ hblock))

theorem Bracket.alloc (h : Bracket limit start held heap) (hroom : held.length < limit)
    (halloc : heap.alloc = some (block, heap')) : Bracket limit start (block :: held) heap' := by
  obtain ⟨order, hplay, horder⟩ := h.log
  unfold Heap.alloc at halloc
  split_ifs at halloc with hnull
  cases halloc
  refine ⟨h.nonnull, ?_, heap.pool.alloc.1 :: order, ?_, horder.cons _⟩
  · cases hfree : heap.pool.free with
    | nil => exact absurd (by rw [BlockPool.alloc, hfree]) hnull
    | cons first rest =>
        have hblocks := h.blocks
        rw [hfree] at hblocks
        simp only [BlockPool.alloc, hfree]
        exact List.perm_middle.symm.trans hblocks
  · rw [List.foldlM_append, hplay]
    change ((PoolEvent.play limit order (.take heap.pool.alloc.1)).bind some) = _
    rw [PoolEvent.play, if_pos (by rw [horder.length_eq]; exact hroom)]
    rfl

theorem Bracket.release (h : Bracket limit start held heap) (hblock : block ∈ held) :
    Bracket limit start (held.erase block) (heap.release block) := by
  have hnull := h.held_nonnull hblock
  obtain ⟨order, hplay, horder⟩ := h.log
  have hmem : block ∈ order := horder.mem_iff.mpr hblock
  rw [Heap.release, if_neg hnull]
  refine ⟨h.nonnull, ?_, order.erase block, ?_, horder.erase _⟩
  · simp only [BlockPool.release, if_neg hnull]
    calc
      (held.erase block ++ block :: heap.pool.free).Perm
          (block :: held.erase block ++ heap.pool.free) := List.perm_middle
      (block :: held.erase block ++ heap.pool.free).Perm (held ++ heap.pool.free) :=
        (List.perm_cons_erase hblock).symm.append_right _
      (held ++ heap.pool.free).Perm start.free := h.blocks
  · rw [List.foldlM_append, hplay]
    change ((PoolEvent.play limit order (.give block)).bind some) = _
    rw [PoolEvent.play, if_pos hmem]
    rfl

theorem Bracket.perm {held' : List Ptr} (h : Bracket limit start held heap)
    (hperm : held.Perm held') : Bracket limit start held' heap := by
  obtain ⟨order, hplay, horder⟩ := h.log
  exact ⟨h.nonnull, (hperm.symm.append_right _).trans h.blocks, order, hplay, horder.trans hperm⟩

-- The last block that was taken is given back, or the one before it.

theorem Bracket.releaseFirst {block : Ptr} (h : Bracket limit start (block :: held) heap) :
    Bracket limit start held (heap.release block) := by
  have h := h.release List.mem_cons_self
  rwa [List.erase_cons_head] at h

theorem Bracket.releaseSecond {first second : Ptr}
    (h : Bracket limit start (first :: second :: held) heap) :
    Bracket limit start (first :: held) (heap.release second) :=
  (h.perm (.swap second first held)).releaseFirst

-- What a bracketed call leaves: the pool as it was, and no block given back that
-- it did not hold.
structure GivesBack (limit : Nat) (heap heap' : Heap) : Prop where
  free : heap'.pool.free.Perm heap.pool.free
  balanced : heap'.log.foldlM (PoolEvent.play limit) [] = some []

theorem Bracket.givesBack (h : Bracket limit heap.pool [] heap') : GivesBack limit heap heap' := by
  obtain ⟨order, hplay, horder⟩ := h.log
  rw [List.perm_nil] at horder
  subst horder
  exact ⟨h.blocks, hplay⟩

end Brackets

end ImgEngine.Memory
