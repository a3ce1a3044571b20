import ImgEngine.Memory.Slab

namespace ImgEngine.Memory

-- img_arena_t. Its memory is read as words of 32 bits and is not cleared.
structure ImgArena where
  word : Nat → UInt32
  size : UInt64
  offset : UInt64

-- `memory` is what malloc and aligned_alloc find, with none for failure.
def imgArenaCreate (memory : Option (Nat → UInt32)) (size : UInt64) : Option ImgArena :=
  memory.map fun word => { word, size := align64 size, offset := 0 }

-- The result is the offset of the memory from the arena's base, with none for NULL.

def imgArenaAlloc (arena : ImgArena) (size : UInt64) : Option (UInt64 × ImgArena) :=
  let size := align64 size
  if arena.offset + size > arena.size then none
  else some (arena.offset, { arena with offset := arena.offset + size })

def imgArenaAllocAligned (arena : ImgArena) (size align : UInt64) : Option (UInt64 × ImgArena) :=
  if align = 0 then none
  else
    let alignedOffset := (arena.offset + align - 1) &&& ~~~(align - 1)
    if alignedOffset + size > arena.size then none
    else some (alignedOffset, { arena with offset := alignedOffset + size })

def imgArenaReset (arena : ImgArena) : ImgArena := { arena with offset := 0 }

end ImgEngine.Memory
