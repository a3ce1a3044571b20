import ImgEngine.Memory.SharedSlab
import ImgEngine.Memory.Slab.Theorems

namespace ImgEngine.Memory.SharedSlab

open ImgEngine.Library.ByteMemory
open ImgEngine.Library.Interleaving
open ImgEngine.Memory.ImgSlab

variable {Thread : Type}

-- The block that a call of img_slab_free has taken and not yet put into the list.
def handedIn : Pc → Option Ptr
  | .free (.storeNext block _) | .free (.storeHead block) => some block
  | _ => none

def Returning (pc : Thread → Option Pc) (thread : Thread) (block : Ptr) : Prop :=
  (pc thread).bind handedIn = some block

-- Every block of the pool is in the free list, held, or in the hands of one call
-- that returns it.
structure Accounts (s : Session) (pc : Thread → Option Pc) (free hands : List Ptr) : Prop where
  geometry : Geometry s.pool
  chain : Chain s.mem s.pool.freeList free
  partition : (free ++ (s.live ++ hands)).Perm (blocks s.pool)
  hands : ∀ block, block ∈ hands ↔ ∃ thread, Returning pc thread block
  oneCall : ∀ thread other block, Returning pc thread block → Returning pc other block →
    thread = other
  found : ∀ thread block next, pc thread = some (.alloc (.storeHead block next)) → block ≠ 0

section Steps

variable {s : Session} {pc : Thread → Option Pc} {free hands : List Ptr}

theorem Accounts.nodup (h : Accounts s pc free hands) : (free ++ (s.live ++ hands)).Nodup :=
  h.partition.nodup_iff.mpr h.geometry.blocks_nodup

theorem Accounts.mem_blocks_of_hands (h : Accounts s pc free hands) {block : Ptr}
    (hblock : block ∈ hands) : block ∈ blocks s.pool :=
  h.partition.subset (List.mem_append_right _ (List.mem_append_right _ hblock))

theorem Accounts.mem_blocks_of_live (h : Accounts s pc free hands) {block : Ptr}
    (hblock : block ∈ s.live) : block ∈ blocks s.pool :=
  h.partition.subset (List.mem_append_right _ (List.mem_append_left _ hblock))

-- A block that is held or being returned is not in the list, so what is written
-- into it leaves the list alone.
theorem Accounts.chain_congr (h : Accounts s pc free hands) {mem : Memory} {block : Ptr}
    (hblock : block ∈ s.live ++ hands)
    (hmem : ∀ other ∈ blocks s.pool, other ≠ block → load64 mem other = load64 s.mem other) :
    Chain mem s.pool.freeList free := by
  refine h.chain.congr fun node hnode => hmem node ?_ ?_
  · exact h.partition.subset (List.mem_append_left _ hnode)
  · rintro rfl
    exact List.disjoint_of_nodup_append h.nodup hnode hblock

variable [DecidableEq Thread]

theorem returning_update_self {thread : Thread} {p : Option Pc} {block : Ptr} :
    Returning (Function.update pc thread p) thread block ↔ p.bind handedIn = some block := by
  simp [Returning]

theorem returning_update_ne {thread other : Thread} {p : Option Pc} {block : Ptr}
    (hne : other ≠ thread) :
    Returning (Function.update pc thread p) other block ↔ Returning pc other block := by
  simp [Returning, hne]

-- An access after which its thread hands in the same block as before, or still none.
theorem Accounts.keep (h : Accounts s pc free hands) {thread : Thread} {p : Option Pc}
    {s' : Session} {free' : List Ptr} (hsame : p.bind handedIn = (pc thread).bind handedIn)
    (hgeometry : Geometry s'.pool) (hchain : Chain s'.mem s'.pool.freeList free')
    (hpartition : (free' ++ (s'.live ++ hands)).Perm (blocks s'.pool))
    (hfound : ∀ block next, p = some (.alloc (.storeHead block next)) → block ≠ 0) :
    Accounts s' (Function.update pc thread p) free' hands := by
  have hreturning : ∀ other block, Returning (Function.update pc thread p) other block ↔
      Returning pc other block := by
    intro other block
    by_cases he : other = thread
    · subst he
      rw [returning_update_self, hsame]
      rfl
    · exact returning_update_ne he
  refine ⟨hgeometry, hchain, hpartition, ?_, ?_, ?_⟩
  · intro block
    simp only [h.hands, hreturning]
  · intro first second block
    rw [hreturning, hreturning]
    exact h.oneCall first second block
  · intro other block next hother
    by_cases he : other = thread
    · subst he
      exact hfound block next (by simpa using hother)
    · exact h.found other block next (by simpa [he] using hother)

-- A call takes the block out of the caller's hands and puts it into the list.

theorem Accounts.take (h : Accounts s pc free hands) {thread : Thread} {block head : Ptr}
    (hpc : pc thread = some (.free (.loadHead block))) (hlive : block ∈ s.live) :
    Accounts { s with live := s.live.erase block }
      (Function.update pc thread (some (.free (.storeNext block head)))) free (block :: hands) := by
  have hnew : block ∉ hands := fun hmem =>
    List.disjoint_of_nodup_append (List.nodup_append.mp h.nodup).2.1 hlive hmem
  have hnone : ∀ other, Returning pc thread other → False := by
    intro other hret
    rw [Returning, hpc] at hret
    cases hret
  refine ⟨h.geometry, h.chain, ?_, ?_, ?_, ?_⟩
  · calc
      (free ++ (s.live.erase block ++ block :: hands)).Perm
          (free ++ (block :: s.live.erase block ++ hands)) := List.perm_middle.append_left _
      (free ++ (block :: s.live.erase block ++ hands)).Perm (free ++ (s.live ++ hands)) :=
        ((List.perm_cons_erase hlive).symm.append_right _).append_left _
      (free ++ (s.live ++ hands)).Perm (blocks s.pool) := h.partition
  · intro other
    rw [List.mem_cons, h.hands]
    constructor
    · rintro (rfl | ⟨holder, hret⟩)
      · exact ⟨thread, returning_update_self.mpr rfl⟩
      · have hne : holder ≠ thread := fun he => hnone other (he ▸ hret)
        exact ⟨holder, (returning_update_ne hne).mpr hret⟩
    · rintro ⟨holder, hret⟩
      by_cases he : holder = thread
      · subst he
        rw [returning_update_self] at hret
        cases hret
        exact .inl rfl
      · exact .inr ⟨holder, (returning_update_ne he).mp hret⟩
  · intro first second other hfirst hsecond
    have howner : ∀ holder, holder ≠ thread →
        Returning (Function.update pc thread (some (.free (.storeNext block head)))) holder other →
        other ≠ block := by
      rintro holder hne hret rfl
      exact hnew ((h.hands _).mpr ⟨holder, (returning_update_ne hne).mp hret⟩)
    by_cases he : first = thread
    · by_cases he' : second = thread
      · rw [he, he']
      · subst he
        rw [returning_update_self] at hfirst
        cases hfirst
        exact absurd rfl (howner second he' hsecond)
    · by_cases he' : second = thread
      · subst he'
        rw [returning_update_self] at hsecond
        cases hsecond
        exact absurd rfl (howner first he hfirst)
      · exact h.oneCall first second other ((returning_update_ne he).mp hfirst)
          ((returning_update_ne he').mp hsecond)
  · intro other block' next hother
    by_cases he : other = thread
    · subst he
      simp at hother
    · exact h.found other block' next (by simpa [he] using hother)

theorem Accounts.putBack (h : Accounts s pc free hands) {thread : Thread} {block : Ptr}
    (hpc : pc thread = some (.free (.storeHead block)))
    (hfresh : s.pool.freeList = load64 s.mem block) :
    Accounts { s with pool := { s.pool with freeList := block } }
      (Function.update pc thread none) (block :: free) (hands.erase block) := by
  have hmine : Returning pc thread block := by simp [Returning, hpc, handedIn]
  have hmem : block ∈ hands := (h.hands block).mpr ⟨thread, hmine⟩
  have hnull := h.geometry.not_null (h.mem_blocks_of_hands hmem)
  have hnodup := (List.nodup_append.mp (List.nodup_append.mp h.nodup).2.1).2.1
  -- the other calls return other blocks
  have hother : ∀ holder other, Returning (Function.update pc thread none) holder other ↔
      Returning pc holder other ∧ other ≠ block := by
    intro holder other
    by_cases he : holder = thread
    · subst he
      rw [returning_update_self]
      refine ⟨nofun, fun hret => absurd ?_ hret.2⟩
      have := hret.1.symm.trans hmine
      exact Option.some.inj this
    · rw [returning_update_ne he]
      refine ⟨fun hret => ⟨hret, ?_⟩, fun hret => hret.1⟩
      rintro rfl
      exact he (h.oneCall _ _ _ hret hmine)
  refine ⟨h.geometry.freeList _, ⟨rfl, hnull, hfresh ▸ h.chain⟩, ?_, ?_, ?_, ?_⟩
  · rw [blocks_freeList]
    calc
      (block :: free ++ (s.live ++ hands.erase block)).Perm
          (free ++ block :: (s.live ++ hands.erase block)) := List.perm_middle.symm
      (free ++ block :: (s.live ++ hands.erase block)).Perm
          (free ++ (s.live ++ block :: hands.erase block)) := List.perm_middle.symm.append_left _
      (free ++ (s.live ++ block :: hands.erase block)).Perm (free ++ (s.live ++ hands)) :=
        ((List.perm_cons_erase hmem).symm.append_left _).append_left _
      (free ++ (s.live ++ hands)).Perm (blocks s.pool) := h.partition
  · intro other
    rw [hnodup.mem_erase_iff, h.hands]
    simp only [hother, exists_and_right]
    exact and_comm
  · intro first second other hfirst hsecond
    exact h.oneCall first second other ((hother _ _).mp hfirst).1 ((hother _ _).mp hsecond).1
  · intro other block' next hpc'
    by_cases he : other = thread
    · subst he
      simp at hpc'
    · exact h.found other block' next (by simpa [he] using hpc')

-- A fresh allocation takes the head of the list.
theorem Accounts.allocate (h : Accounts s pc free hands) {thread : Thread} {block next : Ptr}
    (hpc : pc thread = some (.alloc (.storeHead block next)))
    (hfresh : s.pool.freeList = block ∧ load64 s.mem block = next) :
    ∃ rest, Accounts { s with pool := { s.pool with freeList := next }, live := block :: s.live }
      (Function.update pc thread none) rest hands := by
  obtain ⟨rfl, rfl⟩ := hfresh
  have hnull := h.found thread _ _ hpc
  have hchain := h.chain
  have hpartition := h.partition
  cases free with
  | nil => exact absurd hchain hnull
  | cons node rest =>
      obtain ⟨rfl, -, hrest⟩ := hchain
      refine ⟨rest, h.keep (by simp [hpc, handedIn]) (h.geometry.freeList _) hrest ?_ nofun⟩
      rw [blocks_freeList, List.cons_append]
      exact List.perm_middle.trans hpartition

theorem Accounts.access (h : Accounts s pc free hands) {thread : Thread} {p : Pc}
    (hpc : pc thread = some p) (hallowed : Allowed s p) (hfresh : FreshStore s p) (choice : Unit) :
    ∃ free hands, Accounts (imgSlab.access s p choice).1
      (Function.update pc thread (imgSlab.access s p choice).2.getLeft?) free hands := by
  cases p with
  | alloc p =>
      have hnone : (pc thread).bind handedIn = none := by rw [hpc]; rfl
      cases p with
      | test =>
          refine ⟨free, hands, h.keep ?_ h.geometry h.chain h.partition ?_⟩
          · simp only [imgSlab, imgSlabAlloc]
            split_ifs <;> exact hnone.symm
          · simp only [imgSlab, imgSlabAlloc]
            split_ifs <;> simp
      | loadHead =>
          exact ⟨free, hands, h.keep hnone.symm h.geometry h.chain h.partition nofun⟩
      | loadNext block =>
          refine ⟨free, hands, h.keep ?_ h.geometry h.chain h.partition ?_⟩
          · simp only [imgSlab, imgSlabAlloc]
            split_ifs <;> exact hnone.symm
          · simp only [imgSlab, imgSlabAlloc]
            split_ifs with hnull
            · simp
            · rintro block' next ⟨⟩
              exact hnull
      | storeHead block next =>
          obtain ⟨rest, hrest⟩ := h.allocate hpc hfresh
          exact ⟨rest, hands, hrest⟩
  | free p =>
      cases p with
      | loadHead block =>
          simp only [imgSlab, imgSlabFree]
          split_ifs with hnull
          · exact ⟨free, hands, h.keep (by rw [hpc]; rfl) h.geometry h.chain h.partition nofun⟩
          · exact ⟨free, block :: hands, h.take hpc (hallowed.resolve_left hnull)⟩
      | storeNext block head =>
          have hmem : block ∈ hands := (h.hands block).mpr ⟨thread, by simp [Returning, hpc, handedIn]⟩
          refine ⟨free, hands, h.keep (by rw [hpc]; rfl) h.geometry ?_ h.partition nofun⟩
          exact h.chain_congr (List.mem_append_right _ hmem) fun other hother hne =>
            h.geometry.load64_store (h.mem_blocks_of_hands hmem) hother hne head
      | storeHead block => exact ⟨_, _, h.putBack hpc hfresh⟩
  | write addr byte =>
      obtain ⟨block, hlive, haddr⟩ := hallowed
      refine ⟨free, hands, h.keep (by rw [hpc]; rfl) h.geometry ?_ h.partition nofun⟩
      exact h.chain_congr (List.mem_append_left _ hlive) fun other hother hne =>
        h.geometry.load64_write (h.mem_blocks_of_live hlive) hother hne haddr byte

end Steps

section Runs

variable {s : Session} {stack : BlockPool} {config : State Thread}

theorem Accounts.start (hinv : Inv s stack) :
    Accounts s (fun _ : Thread => none) stack.free [] where
  geometry := hinv.geometry
  chain := hinv.represents.2
  partition := by simpa using hinv.partition
  hands := by simp [Returning]
  oneCall := by simp [Returning]
  found := by simp

-- Between the calls nothing is in anybody's hands.
theorem Accounts.neverShared {free hands : List Ptr}
    (h : Accounts config.shared config.pc free hands) : NeverShared config := by
  constructor
  · exact (List.nodup_append.mp (List.nodup_append.mp h.nodup).2.1).1
  · intro hidle
    have hempty : hands = [] := by
      apply List.eq_nil_iff_forall_not_mem.mpr
      intro block hmem
      obtain ⟨thread, hret⟩ := (h.hands block).mp hmem
      rw [Returning, hidle thread] at hret
      cases hret
    have hpartition := h.partition
    rw [hempty, List.append_nil] at hpartition
    exact ⟨free, h.chain, hpartition⟩

variable [DecidableEq Thread] {events : List (Event Thread Op Pc Result)}

theorem Accounts.of_run (hinv : Inv s stack)
    (run : imgSlab.Run
      (fun config turn => OnAccess Allowed config turn ∧ OnAccess FreshStore config turn)
      (idle Thread s) events config) :
    ∃ free hands, Accounts config.shared config.pc free hands := by
  induction run with
  | start => exact ⟨_, _, .start hinv⟩
  | @turn events config event next turn run hlegal hplay ih =>
      obtain ⟨free, hands, h⟩ := ih
      obtain ⟨thread, op, rfl, hpc, rfl, rfl⟩ | ⟨thread, choice, p, rfl, hpc, rfl, rfl⟩ :=
        Program.play_cases hplay
      · refine ⟨free, hands, h.keep ?_ h.geometry h.chain h.partition ?_⟩
        · rw [hpc]
          cases op <;> rfl
        · intro block link hstart
          cases op <;> cases hstart
      · obtain ⟨hallowed, hfresh⟩ := hlegal
        simp only [OnAccess, hpc, Option.elim_some] at hallowed hfresh
        exact h.access hpc hallowed hfresh choice

-- As long as every store to the head of the list is fresh, no two callers share a
-- block and none gets lost.
theorem imgSlab_neverShared_of_fresh (hinv : Inv s stack)
    (run : imgSlab.Run
      (fun config turn => OnAccess Allowed config turn ∧ OnAccess FreshStore config turn)
      (idle Thread s) events config) : NeverShared config := by
  obtain ⟨free, hands, h⟩ := Accounts.of_run hinv run
  exact h.neverShared

end Runs

-- A call that no other thread interrupts does what the sequential function does.

section Alone

variable {s s' : Session} {stack : BlockPool}

def call : Cmd → Op
  | .alloc => .alloc
  | .free block => .free block
  | .write addr byte => .write addr byte

theorem alloc_alone (hstep : s.step .alloc = some s') :
    imgSlab.alone () 4 s (imgSlab.start .alloc) =
      some (s', .allocated (Memory.imgSlabAlloc s.mem s.pool).1) := by
  simp only [Session.step, Option.some.injEq] at hstep
  subst hstep
  by_cases hnull : s.pool.freeList = 0
  · rw [imgSlabAlloc_null s.mem hnull]
    simp [Program.alone, imgSlab, imgSlabAlloc, hnull]
  · rw [imgSlabAlloc_first s.mem hnull]
    simp [Program.alone, imgSlab, imgSlabAlloc, hnull]

theorem step_alone (hinv : Inv s stack) {cmd : Cmd} (hstep : s.step cmd = some s') :
    ∃ result, imgSlab.alone () 4 s (imgSlab.start (call cmd)) = some (s', result) := by
  cases cmd with
  | alloc => exact ⟨_, alloc_alone hstep⟩
  | free block =>
      simp only [Session.step] at hstep
      split_ifs at hstep with hlive
      have hnull := hinv.geometry.not_null
        (hinv.partition.subset (List.mem_append_right _ hlive))
      rw [imgSlabFree_block s.mem hnull] at hstep
      cases hstep
      exact ⟨.freed, by simp [Program.alone, imgSlab, call, imgSlabFree, hnull]⟩
  | write addr byte =>
      simp only [Session.step] at hstep
      split_ifs at hstep
      cases hstep
      exact ⟨.written, rfl⟩

end Alone

-- Schedules for two threads and the pool of two blocks at address 4096.

section Schedules

def twoBlocks : Session :=
  let pool := { freeList := 4160, memory := 4096, totalSize := 128, blockSize := 64, blockCount := 2 }
  { mem := store64 (store64 (fun _ => 0) 4096 0) 4160 4096, pool, live := [] }

theorem twoBlocks_inv : ∃ stack, Inv twoBlocks stack := by
  have hcreate : imgSlabCreate (fun size => if size ≤ 4096 then 4096 else 0) (fun _ => 0) 128 50 =
      some (twoBlocks.mem, twoBlocks.pool) := rfl
  refine Inv.create ?_ (by decide) (by decide) (by decide) hcreate
  intro size hsize
  split_ifs at hsize ⊢ with hle
  · have hle : size.toNat ≤ 4096 := UInt64.le_iff_toNat_le.mp hle
    change 4096 + size.toNat ≤ _
    omega
  · exact absurd rfl hsize

def turns (thread : Bool) (count : Nat) : List (Turn Bool Op Unit) :=
  List.replicate count (.access thread ())

-- One thread takes a block while the other waits before its first access.
theorem imgSlab_neverShared_of_fresh_two :
    ∃ stack events, ∃ config : State Bool, Inv twoBlocks stack ∧
      imgSlab.Run
        (fun config turn => OnAccess Allowed config turn ∧ OnAccess FreshStore config turn)
        (idle Bool twoBlocks) events config ∧
      config.shared.live = [4096, 4160] ∧ NeverShared config := by
  have hplay : (imgSlab.playAll
      (fun config turn => OnAccess Allowed config turn ∧ OnAccess FreshStore config turn)
      (.call true .alloc :: .call false .alloc :: turns true 4 ++ turns false 4) []
      (idle Bool twoBlocks)).map (fun r => r.2.shared.live) = some [4096, 4160] := by
    decide +kernel
  obtain ⟨⟨events, config⟩, hplay, hlive⟩ := Option.map_eq_some_iff.mp hplay
  obtain ⟨stack, hinv⟩ := twoBlocks_inv
  have run := Program.Run.start.playAll hplay
  exact ⟨stack, events, config, hinv, run, hlive, imgSlab_neverShared_of_fresh hinv run⟩

-- Both threads load the head of the list before either stores it, and both get the
-- same block.
theorem imgSlab_shares_block :
    ∃ stack events, ∃ config : State Bool, Inv twoBlocks stack ∧
      imgSlab.Run (OnAccess Allowed) (idle Bool twoBlocks) events config ∧
      config.shared.live = [4160, 4160] ∧ ¬NeverShared config := by
  have hplay : (imgSlab.playAll (OnAccess Allowed)
      (.call true .alloc :: .call false .alloc :: turns true 3 ++ turns false 4 ++ turns true 1) []
      (idle Bool twoBlocks)).map (fun r => r.2.shared.live) = some [4160, 4160] := by
    decide +kernel
  obtain ⟨⟨events, config⟩, hplay, hlive⟩ := Option.map_eq_some_iff.mp hplay
  obtain ⟨stack, hinv⟩ := twoBlocks_inv
  refine ⟨stack, events, config, hinv, Program.Run.start.playAll hplay, hlive, ?_⟩
  intro hnever
  have honce := hnever.once
  rw [hlive] at honce
  exact absurd honce (by decide)

end Schedules

end ImgEngine.Memory.SharedSlab
