import ImgEngine.Library.Bump
import ImgEngine.Memory.Arena
import ImgEngine.Memory.Slab.Theorems

namespace ImgEngine.Memory

open ImgEngine.Library.Bump ImgEngine.Memory.ImgSlab

inductive ArenaCall where
  | alloc (size : UInt64)
  | allocAligned (size align : UInt64)
  | reset

-- The result NULL and a call without a result are none.
def ArenaCall.run (arena : ImgArena) : ArenaCall → Option UInt64 × ImgArena
  | alloc size =>
      match imgArenaAlloc arena size with
      | none => (none, arena)
      | some (offset, arena) => (some offset, arena)
  | allocAligned size align =>
      match imgArenaAllocAligned arena size align with
      | none => (none, arena)
      | some (offset, arena) => (some offset, arena)
  | reset => (none, imgArenaReset arena)

-- How the start and the size of what a call asks for are rounded.
structure Request where
  align : Nat
  size : Nat

def ArenaCall.request : ArenaCall → Option Request
  | alloc size => some ⟨1, roundUp 64 size.toNat⟩
  | allocAligned size align => some ⟨align.toNat, size.toNat⟩
  | reset => none

def ArenaCall.Valid : ArenaCall → Prop
  | alloc size => size.toNat < 2 ^ 62
  | allocAligned size align => size.toNat < 2 ^ 62 ∧ ∃ k ≤ 62, align.toNat = 2 ^ k
  | reset => True

-- The arena with the regions that it has handed out since it was last reset.
structure ArenaRun where
  arena : ImgArena
  regions : List Region

def ArenaRun.step (s : ArenaRun) (call : ArenaCall) : ArenaRun :=
  match call.request, call.run s.arena with
  | none, (_, arena) => ⟨arena, []⟩
  | some _, (none, arena) => ⟨arena, s.regions⟩
  | some req, (some offset, arena) => ⟨arena, ⟨offset.toNat, req.size⟩ :: s.regions⟩

def runArena (arena : ImgArena) (calls : List ArenaCall) : ArenaRun :=
  calls.foldl ArenaRun.step ⟨arena, []⟩

-- The two ways to round in the source.

section Rounding

theorem align64_roundUp {size : UInt64} (h : size.toNat < 2 ^ 62) :
    (align64 size).toNat = roundUp 64 size.toNat :=
  align64_toNat (by omega)

theorem alignedOffset_roundUp {offset align : UInt64} {k : Nat} (hk : k ≤ 62)
    (halign : align.toNat = 2 ^ k) (hoffset : offset.toNat < 2 ^ 63) :
    ((offset + align - 1) &&& ~~~(align - 1)).toNat = roundUp align.toNat offset.toNat := by
  have hpos : 0 < align.toNat := halign ▸ Nat.two_pow_pos k
  have hle : align.toNat ≤ 2 ^ 62 := halign ▸ Nat.pow_le_pow_right (by decide) hk
  have hone : (1 : UInt64).toNat = 1 := rfl
  have hmask : (align - 1).toNat = 2 ^ k - 1 := by
    rw [UInt64.toNat_sub_of_le _ _ (UInt64.le_iff_toNat_le.mpr (by rw [hone]; exact hpos)), halign,
      hone]
  have hsum : (offset + align - 1).toNat = offset.toNat + (align.toNat - 1) := by
    have hadd : (offset + align).toNat = offset.toNat + align.toNat := by
      rw [UInt64.toNat_add]
      exact Nat.mod_eq_of_lt (by omega)
    rw [UInt64.toNat_sub_of_le _ _ (UInt64.le_iff_toNat_le.mpr (by rw [hone, hadd]; omega)), hadd,
      hone]
    omega
  rw [uint64_and_not_mask _ _ hmask, hsum, roundUp, halign]

end Rounding

section Calls

variable {arena : ImgArena} {call : ArenaCall} {req : Request}

-- Where the request is placed.
def Request.start (req : Request) (arena : ImgArena) : Nat := roundUp req.align arena.offset.toNat

def Request.Fits (req : Request) (arena : ImgArena) : Prop :=
  req.start arena + req.size ≤ arena.size.toNat

instance (req : Request) (arena : ImgArena) : Decidable (req.Fits arena) := Nat.decLe _ _

-- A call in natural numbers.
def Request.serve (req : Request) (arena : ImgArena) : Option UInt64 × ImgArena :=
  if req.Fits arena then
    (some (.ofNat (req.start arena)), { arena with offset := .ofNat (req.start arena + req.size) })
  else (none, arena)

theorem ArenaCall.align_pos (hvalid : call.Valid) (hreq : call.request = some req) :
    0 < req.align := by
  cases call with
  | alloc size =>
      cases hreq
      exact Nat.one_pos
  | allocAligned size align =>
      cases hreq
      obtain ⟨-, k, -, halign⟩ := hvalid
      exact halign ▸ Nat.two_pow_pos k
  | reset => cases hreq

theorem alloc_run (hsize : arena.size.toNat < 2 ^ 63)
    (hoffset : arena.offset.toNat ≤ arena.size.toNat) {size : UInt64} (hvalid : size.toNat < 2 ^ 62) :
    (ArenaCall.alloc size).run arena = Request.serve ⟨1, roundUp 64 size.toNat⟩ arena := by
  have hround := align64_roundUp hvalid
  have hlt : roundUp 64 size.toNat < size.toNat + 64 := roundUp_lt (by decide) _
  have hsum : (arena.offset + align64 size).toNat =
      arena.offset.toNat + roundUp 64 size.toNat := by
    rw [UInt64.toNat_add, hround]
    exact Nat.mod_eq_of_lt (by omega)
  have hend : arena.offset + align64 size = .ofNat (arena.offset.toNat + roundUp 64 size.toNat) := by
    rw [← hsum, UInt64.ofNat_toNat]
  have hstart : Request.start ⟨1, roundUp 64 size.toNat⟩ arena = arena.offset.toNat := roundUp_one _
  simp only [ArenaCall.run, imgArenaAlloc, gt_iff_lt, UInt64.lt_iff_toNat_lt, hsum]
  by_cases hfits : Request.Fits ⟨1, roundUp 64 size.toNat⟩ arena
  · have hle := hfits
    rw [Request.Fits, hstart] at hle
    rw [Request.serve, if_pos hfits, if_neg (Nat.not_lt.mpr hle), hend, hstart, UInt64.ofNat_toNat]
  · have hlt := hfits
    rw [Request.Fits, hstart] at hlt
    rw [Request.serve, if_neg hfits, if_pos (Nat.not_le.mp hlt)]

theorem allocAligned_run (hsize : arena.size.toNat < 2 ^ 63)
    (hoffset : arena.offset.toNat ≤ arena.size.toNat) {size align : UInt64}
    (hvalid : (ArenaCall.allocAligned size align).Valid) :
    (ArenaCall.allocAligned size align).run arena =
      Request.serve ⟨align.toNat, size.toNat⟩ arena := by
  obtain ⟨hlt, k, hk, halign⟩ := hvalid
  have hpos : 0 < align.toNat := halign ▸ Nat.two_pow_pos k
  have hle : align.toNat ≤ 2 ^ 62 := halign ▸ Nat.pow_le_pow_right (by decide) hk
  have hnonzero : align ≠ 0 := by
    rintro rfl
    exact absurd hpos (Nat.lt_irrefl 0)
  have hround := alignedOffset_roundUp hk halign (hoffset.trans_lt hsize)
  have hstart : (arena.offset + align - 1) &&& ~~~(align - 1) =
      .ofNat (roundUp align.toNat arena.offset.toNat) := by
    rw [← hround, UInt64.ofNat_toNat]
  have hbound := roundUp_lt hpos arena.offset.toNat
  have hsum : (((arena.offset + align - 1) &&& ~~~(align - 1)) + size).toNat =
      roundUp align.toNat arena.offset.toNat + size.toNat := by
    rw [UInt64.toNat_add, hround]
    exact Nat.mod_eq_of_lt (by omega)
  have hend : ((arena.offset + align - 1) &&& ~~~(align - 1)) + size =
      .ofNat (roundUp align.toNat arena.offset.toNat + size.toNat) := by
    rw [← hsum, UInt64.ofNat_toNat]
  simp only [ArenaCall.run, imgArenaAllocAligned, if_neg hnonzero, gt_iff_lt,
    UInt64.lt_iff_toNat_lt, hsum]
  by_cases hfits : Request.Fits ⟨align.toNat, size.toNat⟩ arena
  · have hle : roundUp align.toNat arena.offset.toNat + size.toNat ≤ arena.size.toNat := hfits
    rw [Request.serve, if_pos hfits, if_neg (Nat.not_lt.mpr hle), hend, hstart]
    rfl
  · have hlt : ¬roundUp align.toNat arena.offset.toNat + size.toNat ≤ arena.size.toNat := hfits
    rw [Request.serve, if_neg hfits, if_pos (Nat.not_le.mp hlt)]

theorem ArenaCall.run_eq (hsize : arena.size.toNat < 2 ^ 63)
    (hoffset : arena.offset.toNat ≤ arena.size.toNat) (hvalid : call.Valid)
    (hreq : call.request = some req) : call.run arena = req.serve arena := by
  cases call with
  | alloc size =>
      cases hreq
      exact alloc_run hsize hoffset hvalid
  | allocAligned size align =>
      cases hreq
      exact allocAligned_run hsize hoffset hvalid
  | reset => cases hreq

end Calls

-- The arena as a stack of regions.

section Runs

variable {arena : ImgArena} {s : ArenaRun} {call : ArenaCall}

structure Represents {capacity : Nat} (s : ArenaRun) (stack : Stack capacity) : Prop where
  size : s.arena.size.toNat = capacity
  top : s.arena.offset.toNat = stack.top
  regions : s.regions = stack.regions

theorem step_represents {capacity : Nat} {stack : Stack capacity} (hcapacity : capacity < 2 ^ 63)
    (h : Represents s stack) (hvalid : call.Valid) :
    ∃ stack' : Stack capacity, Represents (s.step call) stack' := by
  have hoffset : s.arena.offset.toNat ≤ s.arena.size.toNat := by
    rw [h.size, h.top]
    exact stack.fits
  cases hreq : call.request with
  | none =>
      cases call with
      | alloc size => cases hreq
      | allocAligned size align => cases hreq
      | reset => exact ⟨.cleared 0 (Nat.zero_le _), h.size, rfl, rfl⟩
  | some req =>
      have hrun := call.run_eq (by rw [h.size]; exact hcapacity) hoffset hvalid hreq
      by_cases hfits : req.Fits s.arena
      · have hle : stack.top ≤ req.start s.arena :=
          h.top ▸ le_roundUp (ArenaCall.align_pos hvalid hreq) _
        have hend : req.start s.arena + req.size ≤ capacity := h.size ▸ hfits
        refine ⟨stack.push (req.start s.arena) req.size hle hend, ?_⟩
        rw [Request.serve, if_pos hfits] at hrun
        have hstart : (UInt64.ofNat (req.start s.arena)).toNat = req.start s.arena := by
          rw [UInt64.toNat_ofNat', Nat.mod_eq_of_lt (by omega)]
        have htop : (UInt64.ofNat (req.start s.arena + req.size)).toNat =
            req.start s.arena + req.size := by
          rw [UInt64.toNat_ofNat', Nat.mod_eq_of_lt (by omega)]
        simp only [ArenaRun.step, hreq, hrun]
        exact ⟨h.size, htop, by rw [h.regions, hstart]; rfl⟩
      · rw [Request.serve, if_neg hfits] at hrun
        simp only [ArenaRun.step, hreq, hrun]
        exact ⟨stack, h.size, h.top, h.regions⟩

theorem runArena_represents {calls : List ArenaCall} (hsize : arena.size.toNat < 2 ^ 63)
    (hoffset : arena.offset.toNat ≤ arena.size.toNat) (hcalls : ∀ call ∈ calls, call.Valid) :
    ∃ stack : Stack arena.size.toNat, Represents (runArena arena calls) stack := by
  induction calls using List.reverseRecOn with
  | nil => exact ⟨.cleared arena.offset.toNat hoffset, rfl, rfl, rfl⟩
  | append_singleton calls call ih =>
      obtain ⟨stack, hstack⟩ := ih fun call hmem => hcalls call (List.mem_append_left _ hmem)
      rw [runArena, List.foldl_append]
      exact step_represents hsize hstack
        (hcalls call (List.mem_append_right _ List.mem_cons_self))

end Runs

-- What holds between the calls.
structure ArenaSound (size : UInt64) (s : ArenaRun) : Prop where
  kept : s.arena.size = size
  apart : s.regions.Pairwise Region.Apart
  inside : ∀ region ∈ s.regions, region.start + region.size ≤ size.toNat
  offset : s.arena.offset.toNat ≤ size.toNat

-- What the next call does.
structure CallSound (arena : ImgArena) (call : ArenaCall) : Prop where
  grows : call ≠ .reset → arena.offset ≤ (call.run arena).2.offset
  null : ∀ req, call.request = some req → ((call.run arena).1 = none ↔ ¬req.Fits arena)
  kept : call ≠ .reset → (call.run arena).1 = none → (call.run arena).2 = arena
  least : ∀ req, call.request = some req → ∀ offset, (call.run arena).1 = some offset →
    IsLeast {k | req.align ∣ k ∧ arena.offset.toNat ≤ k} offset.toNat

theorem Represents.sound {size : UInt64} {s : ArenaRun} {stack : Stack size.toNat}
    (h : Represents s stack) : ArenaSound size s where
  kept := UInt64.toNat_inj.mp h.size
  apart := h.regions ▸ stack.apart
  inside := h.regions ▸ fun _ hmem => stack.inside hmem
  offset := h.top ▸ stack.fits

-- A call whose region fits, and one whose region does not.

theorem callSound_of_fits {arena : ImgArena} (hsize : arena.size.toNat < 2 ^ 63)
    {call : ArenaCall} {req : Request} (hreq : call.request = some req) (hpos : 0 < req.align)
    (hrun : call.run arena = req.serve arena) (hfits : req.Fits arena) : CallSound arena call := by
  rw [Request.serve, if_pos hfits] at hrun
  have hend : req.start arena + req.size ≤ arena.size.toNat := hfits
  have hstart : (UInt64.ofNat (req.start arena)).toNat = req.start arena := by
    rw [UInt64.toNat_ofNat', Nat.mod_eq_of_lt (by omega)]
  constructor
  · intro _
    have hle : arena.offset.toNat ≤ req.start arena := le_roundUp hpos _
    rw [hrun, UInt64.le_iff_toNat_le, UInt64.toNat_ofNat', Nat.mod_eq_of_lt (by omega)]
    omega
  · intro req' hreq'
    cases hreq.symm.trans hreq'
    simp [hrun, hfits]
  · intro _ hnone
    rw [hrun] at hnone
    cases hnone
  · intro req' hreq' offset hsome
    cases hreq.symm.trans hreq'
    rw [hrun] at hsome
    cases hsome
    rw [hstart]
    exact roundUp_isLeast hpos _

theorem callSound_of_not_fits {arena : ImgArena} {call : ArenaCall} {req : Request}
    (hreq : call.request = some req) (hrun : call.run arena = req.serve arena)
    (hfits : ¬req.Fits arena) : CallSound arena call := by
  rw [Request.serve, if_neg hfits] at hrun
  constructor
  · intro _
    rw [hrun]
    exact UInt64.le_refl _
  · intro req' hreq'
    cases hreq.symm.trans hreq'
    simp [hrun, hfits]
  · intro _ _
    rw [hrun]
  · intro _ _ _ hsome
    rw [hrun] at hsome
    cases hsome

theorem callSound {arena : ImgArena} (hsize : arena.size.toNat < 2 ^ 63)
    (hoffset : arena.offset.toNat ≤ arena.size.toNat) {call : ArenaCall} (hvalid : call.Valid) :
    CallSound arena call := by
  cases hreq : call.request with
  | none =>
      cases call with
      | alloc size => cases hreq
      | allocAligned size align => cases hreq
      | reset => exact ⟨fun h => absurd rfl h, nofun, fun h => absurd rfl h, nofun⟩
  | some req =>
      have hrun := call.run_eq hsize hoffset hvalid hreq
      by_cases hfits : req.Fits arena
      · exact callSound_of_fits hsize hreq (ArenaCall.align_pos hvalid hreq) hrun hfits
      · exact callSound_of_not_fits hreq hrun hfits

-- After any calls, the regions handed out since the last reset are apart, and the next
-- call keeps to its part of the bargain.
theorem imgArena_sound (arena : ImgArena) (calls : List ArenaCall)
    (hsize : arena.size.toNat < 2 ^ 63) (hoffset : arena.offset.toNat ≤ arena.size.toNat)
    (hcalls : ∀ call ∈ calls, call.Valid) :
    ArenaSound arena.size (runArena arena calls) ∧
      ∀ call : ArenaCall, call.Valid → CallSound (runArena arena calls).arena call := by
  obtain ⟨stack, hstack⟩ := runArena_represents hsize hoffset hcalls
  refine ⟨hstack.sound, fun call hvalid => callSound ?_ ?_ hvalid⟩
  · rw [hstack.size]
    exact hsize
  · rw [hstack.size, hstack.top]
    exact stack.fits

-- An arena of 256 bytes, and calls of each kind.

def smallArena : ImgArena where
  word _ := 0
  size := 256
  offset := 0

theorem imgArena_sound_small :
    ArenaSound 256 (runArena smallArena [.alloc 10, .allocAligned 7 128, .alloc 1000]) ∧
      ∀ call : ArenaCall, call.Valid →
        CallSound (runArena smallArena [.alloc 10, .allocAligned 7 128, .alloc 1000]).arena call :=
  imgArena_sound smallArena [.alloc 10, .allocAligned 7 128, .alloc 1000] (by decide) (by decide) (by
    intro call hmem
    simp only [List.mem_cons, List.not_mem_nil, or_false] at hmem
    rcases hmem with rfl | rfl | rfl
    · exact show (10 : UInt64).toNat < 2 ^ 62 by decide
    · exact ⟨by decide, 7, by decide, rfl⟩
    · exact show (1000 : UInt64).toNat < 2 ^ 62 by decide)

example : (runArena smallArena [.alloc 10, .allocAligned 7 128, .alloc 1000]).regions =
    [⟨128, 7⟩, ⟨0, 64⟩] := by decide

end ImgEngine.Memory
