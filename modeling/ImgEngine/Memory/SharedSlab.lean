import ImgEngine.Library.Interleaving
import ImgEngine.Memory.Slab

namespace ImgEngine.Memory.SharedSlab

open ImgEngine.Library.ByteMemory
open ImgEngine.Library.Interleaving
open ImgEngine.Memory.ImgSlab

-- One pool that several threads use at once, as the jobs do with the global pool.
-- The functions take no lock, so a turn makes a single load or store of free_list
-- or of block->next. The session records which blocks the callers hold.

inductive Op where
  | alloc
  | free (block : Ptr)
  | write (addr : Ptr) (byte : UInt8)

-- Where a thread stands in img_slab_alloc: before the test of free_list, before
-- loading it again, before loading block->next, and before storing free_list.
inductive AllocPc where
  | test
  | loadHead
  | loadNext (block : Ptr)
  | storeHead (block next : Ptr)
  deriving DecidableEq

-- Where it stands in img_slab_free: before loading free_list, before storing
-- block->next, and before storing free_list.
inductive FreePc where
  | loadHead (block : Ptr)
  | storeNext (block head : Ptr)
  | storeHead (block : Ptr)
  deriving DecidableEq

inductive Pc where
  | alloc (pc : AllocPc)
  | free (pc : FreePc)
  | write (addr : Ptr) (byte : UInt8)
  deriving DecidableEq

-- A fault is the read of block->next through a null pointer.
inductive Result where
  | allocated (block : Ptr)
  | fault
  | freed
  | written
  deriving DecidableEq

-- One access of img_slab_alloc.
def imgSlabAlloc (s : Session) : AllocPc → Session × (AllocPc ⊕ Result)
  | .test => (s, if s.pool.freeList = 0 then .inr (.allocated 0) else .inl .loadHead)
  | .loadHead => (s, .inl (.loadNext s.pool.freeList))
  | .loadNext block =>
      (s, if block = 0 then .inr .fault else .inl (.storeHead block (load64 s.mem block)))
  | .storeHead block next =>
      ({ s with pool := { s.pool with freeList := next }, live := block :: s.live },
        .inr (.allocated block))

-- One access of img_slab_free. From its first access on, the caller does not hold
-- the block any more.
def imgSlabFree (s : Session) : FreePc → Session × (FreePc ⊕ Result)
  | .loadHead block =>
      if block = 0 then (s, .inr .freed)
      else ({ s with live := s.live.erase block }, .inl (.storeNext block s.pool.freeList))
  | .storeNext block head =>
      ({ s with mem := store64 s.mem block head }, .inl (.storeHead block))
  | .storeHead block => ({ s with pool := { s.pool with freeList := block } }, .inr .freed)

def imgSlab : Program Session Op Pc Result Unit where
  start
    | .alloc => .alloc .test
    | .free block => .free (.loadHead block)
    | .write addr byte => .write addr byte
  access s pc _ :=
    match pc with
    | .alloc pc =>
        let (s, outcome) := imgSlabAlloc s pc
        (s, outcome.map .alloc id)
    | .free pc =>
        let (s, outcome) := imgSlabFree s pc
        (s, outcome.map .free id)
    | .write addr byte => ({ s with mem := Function.update s.mem addr byte }, .inr .written)

section Runs

variable {Thread : Type}

abbrev State (Thread : Type) := Config Thread Session Pc

def idle (Thread : Type) (s : Session) : State Thread := { shared := s, pc := fun _ => none }

-- The rules for the callers: they free blocks that are held, or null, and write
-- inside of held blocks.
def Allowed (s : Session) : Pc → Prop
  | .free (.loadHead block) => block = 0 ∨ block ∈ s.live
  | .write addr _ => ∃ block ∈ s.live, addr - block < s.pool.blockSize
  | _ => True

-- A store to free_list is fresh when the list is as the call has loaded it: its
-- head, and for an allocation also the link out of the head.
def FreshStore (s : Session) : Pc → Prop
  | .alloc (.storeHead block next) => s.pool.freeList = block ∧ load64 s.mem block = next
  | .free (.storeHead block) => s.pool.freeList = load64 s.mem block
  | _ => True

instance (s : Session) : ∀ p, Decidable (Allowed s p)
  | .free (.loadHead block) => inferInstanceAs (Decidable (block = 0 ∨ block ∈ s.live))
  | .write addr _ =>
      inferInstanceAs (Decidable (∃ block ∈ s.live, addr - block < s.pool.blockSize))
  | .free (.storeNext _ _) | .free (.storeHead _) | .alloc _ => inferInstanceAs (Decidable True)

instance (s : Session) : ∀ p, Decidable (FreshStore s p)
  | .alloc (.storeHead block next) =>
      inferInstanceAs (Decidable (s.pool.freeList = block ∧ load64 s.mem block = next))
  | .free (.storeHead block) =>
      inferInstanceAs (Decidable (s.pool.freeList = load64 s.mem block))
  | .alloc .test | .alloc .loadHead | .alloc (.loadNext _) | .free (.loadHead _)
  | .free (.storeNext _ _) | .write _ _ => inferInstanceAs (Decidable True)

-- A rule for the accesses, as a rule for the turns.
def OnAccess (rule : Session → Pc → Prop) (config : State Thread) : Turn Thread Op Unit → Prop
  | .call _ _ => True
  | .access thread _ => (config.pc thread).elim True (rule config.shared)

instance (rule : Session → Pc → Prop) [∀ s p, Decidable (rule s p)] (config : State Thread) :
    ∀ turn, Decidable (OnAccess rule config turn)
  | .call _ _ => inferInstanceAs (Decidable True)
  | .access thread _ =>
      match h : config.pc thread with
      | some p => decidable_of_iff (rule config.shared p) (by simp [OnAccess, h])
      | none => isTrue (by simp [OnAccess, h])

structure NeverShared (config : State Thread) : Prop where
  -- no block is held twice
  once : config.shared.live.Nodup
  -- between the calls every block is held or in the free list, and not both
  accounted : (∀ thread, config.pc thread = none) →
    ∃ free, Chain config.shared.mem config.shared.pool.freeList free ∧
      (free ++ config.shared.live).Perm (blocks config.shared.pool)

end Runs

end ImgEngine.Memory.SharedSlab
