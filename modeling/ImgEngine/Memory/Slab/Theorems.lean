import ImgEngine.Memory.Slab

namespace ImgEngine.Memory.ImgSlab

open ImgEngine.Library.ByteMemory

-- Rounding up to a multiple of 64.

theorem align64_toNat {x : UInt64} (hx : x.toNat + 63 < 2 ^ 64) :
    (align64 x).toNat = (x.toNat + 63) / 64 * 64 := by
  have hsum : (x + 63).toNat = x.toNat + 63 := by
    rw [UInt64.toNat_add]
    exact Nat.mod_eq_of_lt hx
  rw [align64, uint64_and_not_mask (k := 6) _ _ rfl, hsum]
  rfl

-- Where the blocks lie.
structure Geometry (pool : ImgSlabPool) : Prop where
  word : 8 ≤ pool.blockSize.toNat
  fits : pool.blockCount.toNat * pool.blockSize.toNat ≤ pool.totalSize.toNat
  memory : pool.memory ≠ 0
  space : pool.memory.toNat + pool.totalSize.toNat ≤ 2 ^ 64

section Blocks

variable {pool : ImgSlabPool}

theorem blocks_freeList (pool : ImgSlabPool) (first : Ptr) :
    blocks { pool with freeList := first } = blocks pool := rfl

theorem Geometry.freeList (h : Geometry pool) (first : Ptr) :
    Geometry { pool with freeList := first } := ⟨h.word, h.fits, h.memory, h.space⟩

theorem Geometry.block_end (h : Geometry pool) {i : Nat} (hi : i < pool.blockCount.toNat) :
    pool.memory.toNat + (i * pool.blockSize.toNat + pool.blockSize.toNat) ≤
      pool.memory.toNat + pool.totalSize.toNat := by
  have hle : (i + 1) * pool.blockSize.toNat ≤ pool.blockCount.toNat * pool.blockSize.toNat :=
    Nat.mul_le_mul_right _ hi
  rw [Nat.succ_mul] at hle
  have := h.fits
  omega

theorem Geometry.block_toNat (h : Geometry pool) {i : Nat} (hi : i < pool.blockCount.toNat) :
    (pool.block i).toNat = pool.memory.toNat + i * pool.blockSize.toNat := by
  have hend := h.block_end hi
  have hspace := h.space
  have hword := h.word
  have hcount := pool.blockCount.toNat_lt
  have hindex : (UInt64.ofNat i).toNat = i := by
    rw [UInt64.toNat_ofNat', Nat.mod_eq_of_lt (by omega)]
  rw [ImgSlabPool.block, UInt64.toNat_add, UInt64.toNat_mul, hindex,
    Nat.mod_eq_of_lt (a := i * pool.blockSize.toNat) (by omega), Nat.mod_eq_of_lt (by omega)]

theorem Geometry.inside (h : Geometry pool) {block : Ptr} (hblock : block ∈ blocks pool) :
    pool.memory.toNat ≤ block.toNat ∧
      block.toNat + pool.blockSize.toNat ≤ pool.memory.toNat + pool.totalSize.toNat := by
  obtain ⟨i, hi, rfl⟩ := List.mem_map.mp hblock
  have hi := List.mem_range.mp hi
  have hend := h.block_end hi
  rw [h.block_toNat hi]
  omega

theorem Geometry.not_null (h : Geometry pool) {block : Ptr} (hblock : block ∈ blocks pool) :
    block ≠ 0 := by
  rintro rfl
  have hle := (h.inside hblock).1
  exact h.memory (UInt64.toNat_inj.mp (Nat.le_zero.mp hle))

theorem Geometry.apart_index (h : Geometry pool) {i j : Nat} (hij : i < j)
    (hj : j < pool.blockCount.toNat) :
    (pool.block i).toNat + pool.blockSize.toNat ≤ (pool.block j).toNat := by
  have hle : (i + 1) * pool.blockSize.toNat ≤ j * pool.blockSize.toNat :=
    Nat.mul_le_mul_right _ hij
  rw [Nat.succ_mul] at hle
  rw [h.block_toNat (lt_trans hij hj), h.block_toNat hj]
  omega

theorem Geometry.apart (h : Geometry pool) {block other : Ptr} (hblock : block ∈ blocks pool)
    (hother : other ∈ blocks pool) (hne : block ≠ other) :
    block.toNat + pool.blockSize.toNat ≤ other.toNat ∨
      other.toNat + pool.blockSize.toNat ≤ block.toNat := by
  obtain ⟨i, hi, rfl⟩ := List.mem_map.mp hblock
  obtain ⟨j, hj, rfl⟩ := List.mem_map.mp hother
  rcases Nat.lt_trichotomy i j with hij | rfl | hij
  · exact .inl (h.apart_index hij (List.mem_range.mp hj))
  · exact absurd rfl hne
  · exact .inr (h.apart_index hij (List.mem_range.mp hi))

theorem Geometry.blocks_nodup (h : Geometry pool) : (blocks pool).Nodup := by
  refine List.pairwise_map.mpr (List.Pairwise.imp_of_mem ?_ List.pairwise_lt_range)
  intro i j _ hj hij he
  have hle := h.apart_index hij (List.mem_range.mp hj)
  have := h.word
  rw [he] at hle
  omega

-- What is written into one block leaves the link of another alone.

theorem Geometry.load64_store (h : Geometry pool) {mem : Memory} {block other : Ptr}
    (hblock : block ∈ blocks pool) (hother : other ∈ blocks pool) (hne : other ≠ block)
    (word : UInt64) : load64 (store64 mem block word) other = load64 mem other := by
  have hword := h.word
  have hspace := h.space
  have hinside := (h.inside hblock).2
  have hinside' := (h.inside hother).2
  have hapart := h.apart hother hblock hne
  exact load64_store64_of_apart (by omega) (by omega) (by omega)

theorem Geometry.load64_write (h : Geometry pool) {mem : Memory} {block other addr : Ptr}
    (hblock : block ∈ blocks pool) (hother : other ∈ blocks pool) (hne : other ≠ block)
    (haddr : addr - block < pool.blockSize) (byte : UInt8) :
    load64 (Function.update mem addr byte) other = load64 mem other := by
  have hword := h.word
  have hspace := h.space
  have hinside := (h.inside hblock).2
  have hinside' := (h.inside hother).2
  have hapart := h.apart hother hblock hne
  rw [UInt64.lt_iff_toNat_lt, UInt64.toNat_sub] at haddr
  have hoffset : block.toNat ≤ addr.toNat ∧ addr.toNat < block.toNat + pool.blockSize.toNat := by
    have := addr.toNat_lt
    have := block.toNat_lt
    omega
  exact load64_update_of_apart byte (by omega) (by omega)

end Blocks

-- The branches of the three operations.

theorem imgSlabAlloc_null (mem : Memory) {pool : ImgSlabPool} (h : pool.freeList = 0) :
    imgSlabAlloc mem pool = (0, pool) := if_pos h

theorem imgSlabAlloc_first (mem : Memory) {pool : ImgSlabPool} (h : pool.freeList ≠ 0) :
    imgSlabAlloc mem pool =
      (pool.freeList, { pool with freeList := load64 mem pool.freeList }) := if_neg h

theorem imgSlabFree_block (mem : Memory) {pool : ImgSlabPool} {block : Ptr} (h : block ≠ 0) :
    imgSlabFree mem pool block =
      (store64 mem block pool.freeList, { pool with freeList := block }) := if_neg h

theorem BlockPool.alloc_nil {stack : BlockPool} (h : stack.free = []) :
    stack.alloc = (0, stack) := by
  rw [BlockPool.alloc, h]

theorem BlockPool.alloc_cons {stack : BlockPool} {block : Ptr} {rest : List Ptr}
    (h : stack.free = block :: rest) : stack.alloc = (block, { stack with free := rest }) := by
  rw [BlockPool.alloc, h]

-- The free list as a stack of blocks.
def Represents (mem : Memory) (pool : ImgSlabPool) (stack : BlockPool) : Prop :=
  pool.blockSize = stack.blockSize ∧ Chain mem pool.freeList stack.free

section Refinement

variable {mem : Memory} {pool : ImgSlabPool} {stack : BlockPool}

theorem Represents.alloc (h : Represents mem pool stack) :
    (imgSlabAlloc mem pool).1 = stack.alloc.1 ∧
      Represents mem (imgSlabAlloc mem pool).2 stack.alloc.2 := by
  have hchain := h.2
  cases hfree : stack.free with
  | nil =>
      rw [hfree] at hchain
      rw [imgSlabAlloc_null mem (hchain.first_eq_zero_iff.mpr rfl), BlockPool.alloc_nil hfree]
      exact ⟨rfl, h⟩
  | cons block rest =>
      rw [hfree] at hchain
      obtain ⟨rfl, hnull, hrest⟩ := hchain
      rw [imgSlabAlloc_first mem hnull, BlockPool.alloc_cons hfree]
      exact ⟨rfl, h.1, hrest⟩

theorem Represents.release (h : Represents mem pool stack) (hgeometry : Geometry pool)
    {block : Ptr} (hblock : block ∈ blocks pool) (hfree : ∀ other ∈ stack.free, other ∈ blocks pool)
    (hnew : block ∉ stack.free) :
    Represents (imgSlabFree mem pool block).1 (imgSlabFree mem pool block).2
      (stack.release block) := by
  have hnull := hgeometry.not_null hblock
  have hword := hgeometry.word
  have hspace := hgeometry.space
  rw [imgSlabFree_block mem hnull, BlockPool.release, if_neg hnull]
  refine ⟨h.1, h.2.cons hnull ?_ ?_⟩
  · have := (hgeometry.inside hblock).2
    omega
  · intro other hother
    have hinside := (hgeometry.inside (hfree other hother)).2
    have hapart := hgeometry.apart (hfree other hother) hblock fun he => hnew (he ▸ hother)
    omega

end Refinement

-- The invariant of a session: the stack and the live blocks are all the blocks.
structure Inv (s : Session) (stack : BlockPool) : Prop where
  geometry : Geometry s.pool
  represents : Represents s.mem s.pool stack
  partition : (stack.free ++ s.live).Perm (blocks s.pool)

section Sessions

variable {s s' : Session} {stack : BlockPool}

theorem Inv.alloc (h : Inv s stack) :
    Inv { s with
      pool := (imgSlabAlloc s.mem s.pool).2
      live := if (imgSlabAlloc s.mem s.pool).1 = 0 then s.live
        else (imgSlabAlloc s.mem s.pool).1 :: s.live } stack.alloc.2 := by
  have hrep := h.represents.alloc.2
  have hpartition := h.partition
  have hchain := h.represents.2
  cases hfree : stack.free with
  | nil =>
      rw [hfree] at hchain
      have halloc := imgSlabAlloc_null s.mem (hchain.first_eq_zero_iff.mpr rfl)
      rw [halloc, BlockPool.alloc_nil hfree]
      simp only [if_true]
      exact h
  | cons block rest =>
      rw [hfree] at hchain hpartition
      obtain ⟨hfirst, hnull, -⟩ := hchain
      have halloc := imgSlabAlloc_first s.mem (hfirst ▸ hnull)
      rw [halloc, BlockPool.alloc_cons hfree] at hrep
      rw [halloc, BlockPool.alloc_cons hfree]
      simp only [hfirst, hnull, if_false] at hrep ⊢
      refine ⟨h.geometry.freeList _, hrep, ?_⟩
      rw [blocks_freeList]
      exact List.Perm.trans List.perm_middle hpartition

theorem Inv.free (h : Inv s stack) {block : Ptr} (hlive : block ∈ s.live) :
    Inv { mem := (imgSlabFree s.mem s.pool block).1, pool := (imgSlabFree s.mem s.pool block).2,
          live := s.live.erase block } (stack.release block) := by
  have hnodup := h.partition.nodup_iff.mpr h.geometry.blocks_nodup
  have hblock := h.partition.subset (List.mem_append_right _ hlive)
  have hnull := h.geometry.not_null hblock
  have hnew : block ∉ stack.free := fun hm => List.disjoint_of_nodup_append hnodup hm hlive
  have hrep := h.represents.release h.geometry hblock
    (fun other hm => h.partition.subset (List.mem_append_left _ hm)) hnew
  rw [imgSlabFree_block s.mem hnull, BlockPool.release, if_neg hnull] at hrep ⊢
  refine ⟨h.geometry.freeList _, hrep, ?_⟩
  calc
    (block :: stack.free ++ s.live.erase block).Perm
        (stack.free ++ block :: s.live.erase block) := List.perm_middle.symm
    (stack.free ++ block :: s.live.erase block).Perm (stack.free ++ s.live) :=
      (List.perm_cons_erase hlive).symm.append_left _
    (stack.free ++ s.live).Perm (blocks s.pool) := h.partition

-- A write inside of a live block leaves the links of the free blocks alone.
theorem Inv.write (h : Inv s stack) {block addr : Ptr} (byte : UInt8) (hlive : block ∈ s.live)
    (haddr : addr - block < s.pool.blockSize) :
    Inv { s with mem := Function.update s.mem addr byte } stack := by
  have hnodup := h.partition.nodup_iff.mpr h.geometry.blocks_nodup
  have hblock := h.partition.subset (List.mem_append_right _ hlive)
  refine ⟨h.geometry, ⟨h.represents.1, h.represents.2.congr ?_⟩, h.partition⟩
  intro node hnode
  have hne : node ≠ block := by
    rintro rfl
    exact List.disjoint_of_nodup_append hnodup hnode hlive
  exact h.geometry.load64_write hblock (h.partition.subset (List.mem_append_left _ hnode)) hne
    haddr byte

theorem Inv.step (h : Inv s stack) {cmd : Cmd} (hstep : s.step cmd = some s') :
    ∃ stack', Inv s' stack' := by
  cases cmd with
  | alloc =>
      cases hstep
      exact ⟨_, h.alloc⟩
  | free block =>
      simp only [Session.step] at hstep
      split_ifs at hstep with hlive
      cases hstep
      exact ⟨_, h.free hlive⟩
  | write addr byte =>
      simp only [Session.step] at hstep
      split_ifs at hstep with hlive
      cases hstep
      obtain ⟨block, hlive, haddr⟩ := hlive
      exact ⟨_, h.write byte hlive haddr⟩

theorem Inv.run (h : Inv s stack) {cmds : List Cmd} (hrun : cmds.foldlM Session.step s = some s') :
    ∃ stack', Inv s' stack' := by
  induction cmds generalizing s stack with
  | nil =>
      cases hrun
      exact ⟨_, h⟩
  | cons cmd cmds ih =>
      simp only [List.foldlM_cons, Option.bind_eq_bind, Option.bind_eq_some_iff] at hrun
      obtain ⟨middle, hstep, hrun⟩ := hrun
      obtain ⟨stack', hmiddle⟩ := h.step hstep
      exact ih hmiddle hrun

theorem Inv.sound (h : Inv s stack) : Sound s := by
  have hnodup := h.partition.nodup_iff.mpr h.geometry.blocks_nodup
  have hlength := h.partition.length_eq
  rw [List.length_append, blocks, List.length_map, List.length_range] at hlength
  have hblock := h.represents.alloc.1
  refine ⟨⟨stack.free, h.represents.2, hnodup, fun block => h.partition.mem_iff⟩,
    fun block hb => h.geometry.inside hb,
    fun block hb other ho hne => h.geometry.apart hb ho hne, ?_, ?_⟩
  · rw [hblock]
    cases hfree : stack.free with
    | nil =>
        rw [BlockPool.alloc_nil hfree]
        intro hlive
        exact h.geometry.not_null (h.partition.subset (List.mem_append_right _ hlive)) rfl
    | cons block rest =>
        rw [hfree] at hnodup
        rw [BlockPool.alloc_cons hfree]
        exact fun hlive => List.disjoint_of_nodup_append hnodup (List.mem_cons_self ..) hlive
  · rw [hblock]
    cases hfree : stack.free with
    | nil =>
        rw [hfree] at hlength
        rw [BlockPool.alloc_nil hfree]
        simpa using hlength
    | cons block rest =>
        have hmem := h.partition.subset (List.mem_append_left s.live
          (hfree ▸ List.mem_cons_self .. : block ∈ stack.free))
        rw [hfree, List.length_cons] at hlength
        rw [BlockPool.alloc_cons hfree]
        constructor
        · exact fun hzero => absurd hzero (h.geometry.not_null hmem)
        · intro hall
          omega

end Sessions

-- The loop of img_slab_create pushes the blocks one after another.
theorem linkBlock_represents (mem : Memory) {pool : ImgSlabPool} (hgeometry : Geometry pool)
    (hempty : pool.freeList = 0) {count : Nat} (hcount : count ≤ pool.blockCount.toNat) :
    ∃ mem' first, (List.range count).foldl linkBlock (mem, pool) =
        (mem', { pool with freeList := first }) ∧
      Chain mem' first (((List.range count).map pool.block).reverse) := by
  induction count with
  | zero => exact ⟨mem, 0, by rw [← hempty]; rfl, rfl⟩
  | succ count ih =>
      obtain ⟨mem', first, hfold, hchain⟩ := ih (by omega)
      have hmem : ∀ i < pool.blockCount.toNat, pool.block i ∈ blocks pool := fun i hi =>
        List.mem_map.mpr ⟨i, List.mem_range.mpr hi, rfl⟩
      refine ⟨store64 mem' (pool.block count) first, pool.block count, ?_, ?_⟩
      · rw [List.range_succ, List.foldl_append, hfold]
        rfl
      · rw [List.range_succ, List.map_append, List.reverse_append]
        have hspace := hgeometry.space
        have hword := hgeometry.word
        refine hchain.cons (hgeometry.not_null (hmem count hcount)) ?_ ?_
        · have := (hgeometry.inside (hmem count hcount)).2
          omega
        · intro other hother
          obtain ⟨i, hi, rfl⟩ := List.mem_map.mp (List.mem_reverse.mp hother)
          have hi := List.mem_range.mp hi
          have := hgeometry.apart_index hi hcount
          have := (hgeometry.inside (hmem i (by omega))).2
          omega

section Create

variable {allocate : UInt64 → Ptr} {mem : Memory} {totalSize blockSize : UInt64}

theorem Inv.create {s : Memory × ImgSlabPool}
    (hallocate : ∀ size, allocate size ≠ 0 → (allocate size).toNat + size.toNat ≤ 2 ^ 64)
    (hblock : 1 ≤ blockSize) (hround : blockSize.toNat + 63 < 2 ^ 64)
    (hround' : totalSize.toNat + 63 < 2 ^ 64)
    (hcreate : imgSlabCreate allocate mem totalSize blockSize = some s) :
    ∃ stack, Inv { mem := s.1, pool := s.2, live := [] } stack := by
  have hsize := align64_toNat hround
  have htotal := align64_toNat hround'
  have hblock : 1 ≤ blockSize.toNat := UInt64.le_iff_toNat_le.mp hblock
  have htwice : align64 (align64 totalSize) = align64 totalSize := by
    apply UInt64.toNat_inj.mp
    rw [align64_toNat (by omega), htotal]
    omega
  simp only [imgSlabCreate, imgNumaAllocOnnode, htwice] at hcreate
  split_ifs at hcreate with hnull
  have hspace := hallocate _ hnull
  generalize hpool : ImgSlabPool.mk 0 (allocate (align64 totalSize)) (align64 totalSize)
    (align64 blockSize) (align64 totalSize / align64 blockSize) = pool at hcreate
  have hgeometry : Geometry pool := by
    rw [← hpool]
    refine ⟨?_, ?_, hnull, hspace⟩
    · change 8 ≤ (align64 blockSize).toNat
      omega
    · change (align64 totalSize / align64 blockSize).toNat * (align64 blockSize).toNat ≤ _
      rw [UInt64.toNat_div]
      exact Nat.div_mul_le_self _ _
  have hcount : align64 totalSize / align64 blockSize = pool.blockCount := by rw [← hpool]
  obtain ⟨mem', first, hfold, hchain⟩ := linkBlock_represents mem hgeometry
    (by rw [← hpool]) (Nat.le_refl _)
  rw [hcount, hfold] at hcreate
  cases hcreate
  refine ⟨{ blockSize := pool.blockSize, free := (blocks pool).reverse }, hgeometry.freeList _,
    ⟨rfl, hchain⟩, ?_⟩
  rw [List.append_nil]
  exact List.reverse_perm _

-- Whatever a client does within the rules, the pool stays sound.
theorem imgSlab_sound {s : Memory × ImgSlabPool}
    (hallocate : ∀ size, allocate size ≠ 0 → (allocate size).toNat + size.toNat ≤ 2 ^ 64)
    (hblock : 1 ≤ blockSize) (hround : blockSize.toNat + 63 < 2 ^ 64)
    (hround' : totalSize.toNat + 63 < 2 ^ 64)
    (hcreate : imgSlabCreate allocate mem totalSize blockSize = some s)
    {cmds : List Cmd} {s' : Session}
    (hrun : cmds.foldlM Session.step { mem := s.1, pool := s.2, live := [] } = some s') :
    Sound s' := by
  obtain ⟨stack, hinv⟩ := Inv.create hallocate hblock hround hround' hcreate
  obtain ⟨stack', hinv'⟩ := hinv.run hrun
  exact hinv'.sound

-- A pool of two blocks at address 4096. The client takes both, overwrites the link
-- of one and gives it back.
theorem imgSlab_sound_two :
    ∃ s s', imgSlabCreate (fun size => if size ≤ 4096 then 4096 else 0) (fun _ => 0) 128 50 =
        some s ∧
      [Cmd.alloc, .write 4160 255, .alloc, .alloc, .free 4160].foldlM Session.step
        { mem := s.1, pool := s.2, live := [] } = some s' ∧
      s'.live = [4096] ∧ Sound s' := by
  have hlive : ((imgSlabCreate (fun size => if size ≤ 4096 then 4096 else 0) (fun _ => 0) 128 50).bind
      fun s => [Cmd.alloc, .write 4160 255, .alloc, .alloc, .free 4160].foldlM Session.step
        { mem := s.1, pool := s.2, live := [] }).map Session.live = some [4096] := by
    decide +kernel
  obtain ⟨s', hs', hlive⟩ := Option.map_eq_some_iff.mp hlive
  obtain ⟨s, hcreate, hrun⟩ := Option.bind_eq_some_iff.mp hs'
  refine ⟨s, s', hcreate, hrun, hlive,
    imgSlab_sound ?_ (by decide) (by decide) (by decide) hcreate hrun⟩
  intro size hsize
  split_ifs at hsize ⊢ with hle
  · have := UInt64.le_iff_toNat_le.mp hle
    change 4096 + size.toNat ≤ _
    change size.toNat ≤ 4096 at this
    omega
  · exact absurd rfl hsize

end Create

end ImgEngine.Memory.ImgSlab
