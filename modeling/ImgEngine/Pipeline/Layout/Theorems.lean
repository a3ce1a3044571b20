import ImgEngine.Library.VectorLoop
import ImgEngine.Pipeline.Canvas.Theorems
import ImgEngine.Pipeline.Layout.Runs

namespace ImgEngine.Pipeline

open ImgEngine.Library.Loop ImgEngine.Memory

variable {F : Type} {job : ImgJob F} {heap heap' : Heap}
  {canvas : ImgCanvas} {photo scaled : ImgBuffer} {arena : ImgArena}

-- The offsets that a row copy reaches.
def reach (rowBytes : UInt32) : Nat :=
  if rowBytes.toNat + 32 < 2 ^ 32 then rowBytes.toNat else 2 ^ 32

theorem vectorOffsets_succ (rowBytes : UInt32) (fuel : Nat) (x : UInt32) :
    vectorOffsets rowBytes (fuel + 1) x = if x + 32 ≤ rowBytes then
      ((List.range 32).map (x.toNat + ·) ++ (vectorOffsets rowBytes fuel (x + 32)).1,
        (vectorOffsets rowBytes fuel (x + 32)).2)
    else ([], x) := rfl

theorem vectorOffsets_of_lt {rowBytes x : UInt32} (hrow : rowBytes.toNat + 32 < 2 ^ 32)
    (hx : x.toNat ≤ rowBytes.toNat) (fuel : Nat) :
    x.toNat ≤ (vectorOffsets rowBytes fuel x).2.toNat ∧
      (vectorOffsets rowBytes fuel x).2.toNat ≤ rowBytes.toNat ∧
      ∀ o, o ∈ (vectorOffsets rowBytes fuel x).1 ↔
        x.toNat ≤ o ∧ o < (vectorOffsets rowBytes fuel x).2.toNat := by
  induction fuel generalizing x with
  | zero => exact ⟨Nat.le_refl _, hx, fun o => by simp [vectorOffsets]⟩
  | succ fuel ih =>
      rw [vectorOffsets_succ]
      split_ifs with hle
      · have hadd := Library.VectorLoop.next_toNat x
        rw [Nat.mod_eq_of_lt (by omega)] at hadd
        rw [UInt32.le_iff_toNat_le, hadd] at hle
        obtain ⟨hlow, hhigh, hmem⟩ := ih (x := x + 32) (by omega)
        dsimp only
        refine ⟨by omega, hhigh, fun o => ?_⟩
        rw [List.mem_append, hmem, List.mem_map]
        constructor
        · rintro (⟨i, hi, rfl⟩ | h)
          · have := List.mem_range.mp hi
            omega
          · omega
        · intro h
          rcases Nat.lt_or_ge o (x.toNat + 32) with ho | ho
          · exact .inl ⟨o - x.toNat, List.mem_range.mpr (by omega), by omega⟩
          · exact .inr (by omega)
      · exact ⟨Nat.le_refl _, hx, fun o => by simp⟩

-- Here the loop runs through all of its rounds.
theorem vectorOffsets_of_ge {rowBytes x : UInt32} (hrow : 2 ^ 32 ≤ rowBytes.toNat + 32)
    {k : Nat} (hx : x.toNat = 32 * k) (fuel : Nat) (hfuel : k + fuel ≤ 2 ^ 27) :
    ∀ o, o ∈ (vectorOffsets rowBytes fuel x).1 ↔ 32 * k ≤ o ∧ o < 32 * (k + fuel) := by
  induction fuel generalizing x k with
  | zero => simp [vectorOffsets]
  | succ fuel ih =>
      have hadd := Library.VectorLoop.next_toNat x
      have hle : x + 32 ≤ rowBytes := by
        rw [UInt32.le_iff_toNat_le, hadd]
        omega
      intro o
      rw [vectorOffsets_succ, if_pos hle, List.mem_append, List.mem_map]
      have hrest : ∀ o, o ∈ (vectorOffsets rowBytes fuel (x + 32)).1 ↔
          32 * (k + 1) ≤ o ∧ o < 32 * (k + 1 + fuel) := by
        rcases Nat.lt_or_ge (x.toNat + 32) (2 ^ 32) with hlt | hge
        · exact ih (by rw [hadd, Nat.mod_eq_of_lt hlt, hx]; omega) (by omega)
        · have hzero : fuel = 0 := by omega
          intro o
          subst hzero
          simp [vectorOffsets]
      rw [hrest]
      constructor
      · rintro (⟨i, hi, rfl⟩ | h)
        · have := List.mem_range.mp hi
          omega
        · omega
      · intro h
        rcases Nat.lt_or_ge o (x.toNat + 32) with ho | ho
        · exact .inl ⟨o - x.toNat, List.mem_range.mpr (by omega), by omega⟩
        · exact .inr (by omega)

theorem mem_rowOffsets (rowBytes : UInt32) (o : Nat) :
    o ∈ rowOffsets rowBytes ↔ o < reach rowBytes := by
  have hzero : (0 : UInt32).toNat = 0 := rfl
  have htail : ∀ x : UInt32,
      o ∈ (List.range (rowBytes.toNat - x.toNat)).map (x.toNat + ·) ↔
        x.toNat ≤ o ∧ o < rowBytes.toNat := by
    intro x
    rw [List.mem_map]
    constructor
    · rintro ⟨i, hi, rfl⟩
      have := List.mem_range.mp hi
      omega
    · intro h
      exact ⟨o - x.toNat, List.mem_range.mpr (by omega), by omega⟩
  unfold rowOffsets reach
  rw [List.mem_append, htail]
  split_ifs with hrow
  · obtain ⟨_, hhigh, hmem⟩ := vectorOffsets_of_lt hrow (x := 0) (by rw [hzero]; omega) (2 ^ 27)
    rw [hmem, hzero]
    omega
  · have hmem := vectorOffsets_of_ge (Nat.not_lt.mp hrow) (k := 0) hzero (2 ^ 27) (by omega) o
    have := rowBytes.toNat_lt
    rw [hmem]
    omega

section Prepare

variable [FloatType F]

-- A prepared cell is a buffer of the cell's size, in a block that holds it.
structure Prepared (blockSize : UInt64) (cellW cellH : UInt32) (scaled : ImgBuffer) : Prop where
  data : scaled.data ≠ 0
  width : scaled.width = cellW
  height : scaled.height = cellH
  stride : scaled.stride = cellW * 3
  size : rgbSize cellW cellH ≤ blockSize

theorem Prepared.rgbBuffer {blockSize : UInt64} {cellW cellH : UInt32} {mem : Ptr}
    (hmem : mem ≠ 0) (hsize : ¬rgbSize cellW cellH > blockSize) (bytes : Bytes) :
    Prepared blockSize cellW cellH (rgbBuffer mem cellW cellH bytes) :=
  ⟨hmem, rfl, rfl, rfl, UInt64.not_lt.mp hsize⟩

section Ends

variable {src : ImgBuffer} {cellW cellH : UInt32} {make : Bytes → Bytes → Bytes → Bytes}
  {run : Bytes → Except ImgError ImgBuffer × Heap} {bytes : Bytes} {out : ImgBuffer}

theorem Ends.ok (h : Ends heap cellW cellH make run) (hok : run bytes = (.ok out, heap')) :
    Prepared heap.pool.blockSize cellW cellH out ∧ ∃ mem stale tmpStale, ∀ bytes,
      run bytes = (.ok (rgbBuffer mem cellW cellH (make bytes stale tmpStale)), heap') := by
  cases h with
  | early e hrun =>
      rw [hrun] at hok
      cases hok
  | late e halloc hrun =>
      rw [hrun] at hok
      cases hok
  | @done first second mem tmp heap₁ heap₂ stale tmpStale halloc halloc' hblocks hsize hrun =>
      have hmem : mem ≠ 0 := by
        have htaken : mem ∈ [second, first] := hblocks.mem_iff.mpr (by simp)
        rcases List.mem_pair.mp htaken with rfl | rfl
        · exact (Heap.alloc_some halloc').1
        · exact (Heap.alloc_some halloc).1
      have hrun' := hrun bytes
      rw [hok] at hrun'
      cases hrun'
      exact ⟨.rgbBuffer hmem (UInt64.not_lt.mpr hsize) _, mem, stale, tmpStale, hrun⟩

theorem Ends.error {e : ImgError} (h : Ends heap cellW cellH make run)
    (herror : run bytes = (.error e, heap')) : heap'.pool = heap.pool := by
  cases h with
  | early e hrun =>
      rw [hrun] at herror
      cases herror
      rfl
  | late e halloc hrun =>
      rw [hrun] at herror
      cases herror
      exact Heap.release_alloc halloc
  | done stale tmpStale halloc halloc' hblocks hsize hrun =>
      rw [hrun] at herror
      cases herror

theorem prepareFill_ok (h : prepareFill F src cellW cellH heap = (.ok out, heap')) :
    Prepared heap.pool.blockSize cellW cellH out :=
  (Ends.ok (prepareFill_ends src cellW cellH heap) h).1

theorem prepareFit_ok {bg : Rgb} (h : prepareFit F src cellW cellH heap bg = (.ok out, heap')) :
    Prepared heap.pool.blockSize cellW cellH out :=
  (Ends.ok (prepareFit_ends src cellW cellH heap bg) h).1

end Ends

theorem prepareCell_ok (h : prepareCell canvas photo job heap = (.ok scaled, heap')) :
    Prepared heap.pool.blockSize canvas.photoWPx canvas.photoHPx scaled := by
  unfold prepareCell at h
  cases hmode : job.mode with
  | fit =>
      rw [hmode] at h
      exact prepareFit_ok h
  | fill =>
      rw [hmode] at h
      exact prepareFill_ok h

-- A successful layout is the run of the placing loop for the prepared cell.
theorem imgLayoutGrid_ok {canvas' : ImgCanvas} {layout : ImgLayout}
    (h : imgLayoutGrid canvas photo job arena heap = (.ok (canvas', layout), heap')) :
    ∃ scaled heap₁ offset arena', prepareCell canvas photo job heap = (.ok scaled, heap₁) ∧
      imgArenaAlloc arena (16 * (job.cols * job.rows).toUInt64) = some (offset, arena') ∧
      canvas' = { canvas with
        buf := (placeCells canvas scaled job (CellArray.inArena arena' offset)).buf } ∧
      layout.cells = (placeCells canvas scaled job (CellArray.inArena arena' offset)).cells ∧
      layout.blits = (placeCells canvas scaled job (CellArray.inArena arena' offset)).blits ∧
      layout.count = job.cols * job.rows := by
  unfold imgLayoutGrid at h
  rcases hprepare : prepareCell canvas photo job heap with ⟨scaled | scaled, heap₁⟩
  all_goals rw [hprepare] at h
  · cases h
  · simp only at h
    cases hcells : imgArenaAlloc arena (16 * (job.cols * job.rows).toUInt64) with
    | none =>
        rw [hcells] at h
        cases h
    | some taken =>
        rw [hcells] at h
        cases h
        exact ⟨scaled, heap₁, taken.1, taken.2, rfl, rfl, rfl, rfl, rfl, rfl⟩

theorem initAndLayout_some {canvas' : ImgCanvas} {layout : ImgLayout}
    (h : initAndLayout heap job photo arena = some (canvas, canvas', layout)) :
    ∃ heap' heap'', imgCanvasInit heap job = some (.ok canvas, heap') ∧
      imgLayoutGrid canvas photo job arena heap' = (.ok (canvas', layout), heap'') := by
  unfold initAndLayout at h
  rcases hinit : imgCanvasInit heap job with _ | ⟨_ | canvas₁, heap'⟩
  all_goals rw [hinit] at h
  · cases h
  · cases h
  · simp only at h
    rcases hlayout : imgLayoutGrid canvas₁ photo job arena heap' with ⟨_ | ⟨canvas₂, layout₂⟩, heap''⟩
    all_goals rw [hlayout] at h
    · cases h
    · cases h
      exact ⟨heap', heap'', rfl, hlayout⟩

-- Small inputs for tests: a photo of two pixels and the arena of img_api_run_job. At
-- one dot per inch the page has 8 by 12 pixels and a cell has 2 by 1.

def smallPhoto : ImgBuffer := rgbBuffer 64 2 1 fun i => .ofNat (i + 1)

def smallArena : ImgArena := { word := fun _ => 7, size := 1048576, offset := 0 }

def smallJob : ImgJob Float32 :=
  { imgJobDefaults with
    dpi := 1, cols := 2, rows := 2, gap := 2, padding := 1, borderPx := 1, bleedPx := 1,
    cropMarkPx := 1, cropThickness := 0, cropOffsetPx := 0 }

end Prepare

-- The grid positions are numbered row by row.
def gridCell (canvas : ImgCanvas) (job : ImgJob F) (n : Nat) : ImgCell where
  x := gridX canvas job (n % job.cols.toNat)
  y := gridY canvas job (n / job.cols.toNat)
  w := canvas.photoWPx
  h := canvas.photoHPx

-- The test of the loop, in 32-bit arithmetic.
def Fits (canvas : ImgCanvas) (cell : ImgCell) : Prop :=
  cell.x + cell.w ≤ canvas.buf.width ∧ cell.y + cell.h ≤ canvas.buf.height

instance (canvas : ImgCanvas) (cell : ImgCell) : Decidable (Fits canvas cell) :=
  inferInstanceAs (Decidable (_ ∧ _))

def blitOf (canvas : ImgCanvas) (scaled : ImgBuffer) (cell : ImgCell) : Blit :=
  ⟨cell.x, cell.y, blitStores canvas.buf scaled cell.x cell.y⟩

theorem position_lt {n : Nat} (hn : n < job.rows.toNat * job.cols.toNat) :
    n % job.cols.toNat < job.cols.toNat ∧ n / job.cols.toNat < job.rows.toNat := by
  have hpos : 0 < job.cols.toNat := by
    by_contra hzero
    rw [show job.cols.toNat = 0 by omega] at hn
    exact Nat.not_lt_zero _ hn
  exact ⟨Nat.mod_lt _ hpos, Nat.div_lt_of_lt_mul (by rwa [Nat.mul_comm] at hn)⟩

theorem gridCell_position {row col : Nat} (hrow : row < job.rows.toNat) (hcol : col < job.cols.toNat) :
    row * job.cols.toNat + col < job.rows.toNat * job.cols.toNat ∧
      gridCell canvas job (row * job.cols.toNat + col) =
        ⟨gridX canvas job col, gridY canvas job row, canvas.photoWPx, canvas.photoHPx⟩ := by
  have hle := Nat.mul_le_mul_right job.cols.toNat (Nat.succ_le_of_lt hrow)
  rw [Nat.succ_mul] at hle
  have hdiv : (row * job.cols.toNat + col) / job.cols.toNat = row := by
    rw [Nat.mul_comm, Nat.mul_add_div (by omega), Nat.div_eq_of_lt hcol, Nat.add_zero]
  refine ⟨by omega, ?_⟩
  rw [gridCell, hdiv, Nat.mul_add_mod_of_lt hcol]

theorem gridIndex_eq (cols : UInt32) (n : Nat) :
    UInt32.ofNat (n / cols.toNat) * cols + .ofNat (n % cols.toNat) = .ofNat n := by
  calc
    UInt32.ofNat (n / cols.toNat) * cols + .ofNat (n % cols.toNat) =
        .ofNat (n / cols.toNat) * .ofNat cols.toNat + .ofNat (n % cols.toNat) := by
      rw [UInt32.ofNat_toNat]
    _ = .ofNat (n / cols.toNat * cols.toNat + n % cols.toNat) := by
      rw [UInt32.ofNat_add, UInt32.ofNat_mul]
    _ = .ofNat n := by rw [Nat.div_add_mod']

-- What the loop has done after n positions.
structure PlacedUpTo (canvas : ImgCanvas) (scaled : ImgBuffer) (job : ImgJob F) (n : Nat)
    (s : GridState) : Prop where
  buf : s.buf = { canvas.buf with bytes := s.buf.bytes }
  blits : ∀ blit, blit ∈ s.blits ↔
    ∃ k < n, Fits canvas (gridCell canvas job k) ∧ blit = blitOf canvas scaled (gridCell canvas job k)
  -- an entry is what the last fitting position with its index has written
  cells : ∀ i cell, s.cells.written i = some cell ↔
    ∃ k < n, .ofNat k = i ∧ Fits canvas (gridCell canvas job k) ∧ cell = gridCell canvas job k ∧
      ∀ m < n, k < m → .ofNat m = i → ¬Fits canvas (gridCell canvas job m)

theorem imgBlitAvx2_shape (dst src : ImgBuffer) (x y : UInt32) :
    imgBlitAvx2 dst src x y = { dst with bytes := (imgBlitAvx2 dst src x y).bytes } := rfl

theorem placeCell_skip {n : Nat} {s : GridState} (hbuf : s.buf = { canvas.buf with bytes := s.buf.bytes })
    (h : ¬Fits canvas (gridCell canvas job n)) :
    placeCell canvas scaled job (n / job.cols.toNat) (n % job.cols.toNat) s = s := by
  unfold placeCell
  rw [hbuf]
  dsimp only
  split_ifs with hx hy
  · rfl
  · rfl
  · exact absurd ⟨UInt32.not_lt.mp hx, UInt32.not_lt.mp hy⟩ h

theorem placeCell_fits {n : Nat} {s : GridState} (hbuf : s.buf = { canvas.buf with bytes := s.buf.bytes })
    (h : Fits canvas (gridCell canvas job n)) :
    placeCell canvas scaled job (n / job.cols.toNat) (n % job.cols.toNat) s =
      { buf := imgBlitAvx2 s.buf scaled (gridCell canvas job n).x (gridCell canvas job n).y
        cells := s.cells.set (.ofNat n) (gridCell canvas job n)
        blits := s.blits ++ [blitOf canvas scaled (gridCell canvas job n)] } := by
  have hstores : ∀ x y, blitStores s.buf scaled x y = blitStores canvas.buf scaled x y := by
    intro x y
    rw [hbuf]
    rfl
  unfold placeCell
  dsimp only
  rw [gridIndex_eq, hstores, if_neg, if_neg]
  · rfl
  · rw [hbuf]
    exact UInt32.not_lt.mpr h.2
  · rw [hbuf]
    exact UInt32.not_lt.mpr h.1

-- The last place below n + 1 is n itself, or it is the last one below n.
theorem exists_last_succ {P Q : Nat → Prop} {n : Nat} :
    (∃ k < n + 1, P k ∧ Q k ∧ ∀ m < n + 1, k < m → ¬P m) ↔
      (P n ∧ Q n) ∨ (¬P n ∧ ∃ k < n, P k ∧ Q k ∧ ∀ m < n, k < m → ¬P m) := by
  constructor
  · rintro ⟨k, hk, hp, hq, hlast⟩
    rcases Nat.lt_succ_iff_lt_or_eq.mp hk with hk | rfl
    · exact .inr ⟨hlast n (Nat.lt_succ_self n) hk, k, hk, hp, hq,
        fun m hm => hlast m (Nat.lt_succ_of_lt hm)⟩
    · exact .inl ⟨hp, hq⟩
  · rintro (⟨hp, hq⟩ | ⟨hn, k, hk, hp, hq, hlast⟩)
    · exact ⟨n, Nat.lt_succ_self n, hp, hq, fun m hm hk => by omega⟩
    · refine ⟨k, Nat.lt_succ_of_lt hk, hp, hq, fun m hm hkm => ?_⟩
      rcases Nat.lt_succ_iff_lt_or_eq.mp hm with hm | rfl
      · exact hlast m hm hkm
      · exact hn

-- What position n adds to the entries written so far.
theorem written_succ {n : Nat} {i : UInt32} {cell : ImgCell} :
    (∃ k < n + 1, .ofNat k = i ∧ Fits canvas (gridCell canvas job k) ∧
      cell = gridCell canvas job k ∧
      ∀ m < n + 1, k < m → .ofNat m = i → ¬Fits canvas (gridCell canvas job m)) ↔
    ((.ofNat n = i ∧ Fits canvas (gridCell canvas job n)) ∧ cell = gridCell canvas job n) ∨
    (¬(.ofNat n = i ∧ Fits canvas (gridCell canvas job n)) ∧
      ∃ k < n, .ofNat k = i ∧ Fits canvas (gridCell canvas job k) ∧ cell = gridCell canvas job k ∧
        ∀ m < n, k < m → .ofNat m = i → ¬Fits canvas (gridCell canvas job m)) := by
  have hlast := exists_last_succ (n := n)
    (P := fun k => UInt32.ofNat k = i ∧ Fits canvas (gridCell canvas job k))
    (Q := fun k => cell = gridCell canvas job k)
  simpa only [and_assoc, not_and] using hlast

theorem PlacedUpTo.step {n : Nat} {s : GridState} (h : PlacedUpTo canvas scaled job n s) :
    PlacedUpTo canvas scaled job (n + 1)
      (placeCell canvas scaled job (n / job.cols.toNat) (n % job.cols.toNat) s) := by
  by_cases hfits : Fits canvas (gridCell canvas job n)
  · rw [placeCell_fits h.buf hfits]
    refine ⟨?_, fun blit => ?_, fun i cell => ?_⟩
    · rw [imgBlitAvx2_shape, h.buf]
    · rw [List.mem_append, List.mem_singleton, h.blits, Nat.exists_lt_succ_right,
        and_iff_right hfits]
    · dsimp only [CellArray.set]
      rw [Function.update_apply, written_succ]
      split_ifs with hi
      · rw [and_iff_left hfits, iff_true_intro hi.symm]
        simp [eq_comm]
      · have hn : ¬UInt32.ofNat n = i := fun he => hi he.symm
        rw [h.cells]
        simp [hn]
  · rw [placeCell_skip h.buf hfits]
    refine ⟨h.buf, fun blit => ?_, fun i cell => ?_⟩
    · rw [h.blits, Nat.exists_lt_succ_right]
      simp [hfits]
    · rw [h.cells, written_succ]
      simp [hfits]

theorem placeCells_placed (canvas : ImgCanvas) (scaled : ImgBuffer) (job : ImgJob F)
    (cells : CellArray) (hcells : ∀ i, cells.written i = none) :
    PlacedUpTo canvas scaled job (job.rows.toNat * job.cols.toNat)
      (placeCells canvas scaled job cells) := by
  unfold placeCells
  rw [forRange_nested]
  apply forRange_invariant (PlacedUpTo canvas scaled job)
  · refine ⟨rfl, fun blit => ?_, fun i cell => ?_⟩
    · simp
    · simp [hcells]
  · intro n _ s hs
    exact hs.step

end ImgEngine.Pipeline
