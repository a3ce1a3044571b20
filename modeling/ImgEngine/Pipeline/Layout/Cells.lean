import ImgEngine.Pipeline.Layout.Theorems
import Mathlib.Data.Nat.Find

namespace ImgEngine.Pipeline

open ImgEngine.Memory

-- Which entries of a layout are cells on the page.

def InPage (canvas : ImgCanvas) (cell : ImgCell) : Prop :=
  cell.x.toNat + cell.w.toNat ≤ canvas.buf.width.toNat ∧
    cell.y.toNat + cell.h.toNat ≤ canvas.buf.height.toNat

instance (canvas : ImgCanvas) (cell : ImgCell) : Decidable (InPage canvas cell) :=
  inferInstanceAs (Decidable (_ ∧ _))

variable {F : Type} {job : ImgJob F} {canvas : ImgCanvas} {cell : ImgCell}

theorem InPage.fits (h : InPage canvas cell) : Fits canvas cell := by
  have hw := canvas.buf.width.toNat_lt
  have hh := canvas.buf.height.toNat_lt
  unfold Fits
  rw [UInt32.le_iff_toNat_le, UInt32.le_iff_toNat_le, uint32_toNat_add (h.1.trans_lt hw),
    uint32_toNat_add (h.2.trans_lt hh)]
  exact h

-- The position n is the last one that writes entry i. The index wraps, so that with
-- 2^32 positions or more an entry can have several writers.
def LastWriter (canvas : ImgCanvas) (job : ImgJob F) (i n : Nat) : Prop :=
  n < job.rows.toNat * job.cols.toNat ∧ UInt32.ofNat n = .ofNat i ∧
    Fits canvas (gridCell canvas job n) ∧
    ∀ m < job.rows.toNat * job.cols.toNat, n < m → UInt32.ofNat m = .ofNat i →
      ¬Fits canvas (gridCell canvas job m)

theorem exists_lastWriter {i n : Nat} (hn : n < job.rows.toNat * job.cols.toNat)
    (hindex : UInt32.ofNat n = .ofNat i) (hfits : Fits canvas (gridCell canvas job n)) :
    ∃ k, LastWriter canvas job i k := by
  let Writes m := m < job.rows.toNat * job.cols.toNat ∧ UInt32.ofNat m = .ofNat i ∧
    Fits canvas (gridCell canvas job m)
  have hspec : Writes (Nat.findGreatest Writes (job.rows.toNat * job.cols.toNat)) :=
    Nat.findGreatest_spec hn.le ⟨hn, hindex, hfits⟩
  refine ⟨_, hspec.1, hspec.2.1, hspec.2.2, fun m hm hlt hm' hmfits => ?_⟩
  exact Nat.findGreatest_is_greatest hlt hm.le ⟨hm, hm', hmfits⟩

theorem LastWriter.unique {i n k : Nat} (hn : LastWriter canvas job i n)
    (hk : LastWriter canvas job i k) : n = k := by
  rcases Nat.lt_trichotomy n k with hlt | heq | hlt
  · exact absurd hk.2.2.1 (hn.2.2.2 k hk.1 hlt hk.2.1)
  · exact heq
  · exact absurd hn.2.2.1 (hk.2.2.2 n hn.1 hlt hn.2.1)

theorem LastWriter.eq_of_lt {i n : Nat} (hn : LastWriter canvas job i n)
    (hi : i < job.rows.toNat * job.cols.toNat)
    (hcount : job.rows.toNat * job.cols.toNat ≤ 2 ^ 32) : n = i := by
  have hindex := congrArg UInt32.toNat hn.2.1
  have hlt := hn.1
  rwa [uint32_toNat_ofNat (by omega), uint32_toNat_ofNat (by omega)] at hindex

theorem PlacedUpTo.written_iff {scaled : ImgBuffer} {s : GridState}
    (h : PlacedUpTo canvas scaled job (job.rows.toNat * job.cols.toNat) s) (i : Nat) :
    s.cells.written (.ofNat i) = some cell ↔
      ∃ k, LastWriter canvas job i k ∧ cell = gridCell canvas job k := by
  rw [h.cells]
  constructor
  · rintro ⟨k, hk, hindex, hfits, hcell, hlast⟩
    exact ⟨k, ⟨hk, hindex, hfits, hlast⟩, hcell⟩
  · rintro ⟨k, ⟨hk, hindex, hfits, hlast⟩, hcell⟩
    exact ⟨k, hk, hindex, hfits, hcell, hlast⟩

section Layouts

variable [FloatType F] {heap heap' : Heap} {canvas' : ImgCanvas} {photo : ImgBuffer}
  {arena : ImgArena} {layout : ImgLayout}

-- Entry i was written by the call, describes the i-th position, which lies on the
-- page, and the photo is there.
structure RealCell (canvas : ImgCanvas) (photo : ImgBuffer) (job : ImgJob F) (heap : Heap)
    (layout : ImgLayout) (i : Nat) : Prop where
  written : layout.cells.written (.ofNat i) = some (gridCell canvas job i)
  inPage : InPage canvas (gridCell canvas job i)
  blitted : ∃ scaled heap', prepareCell canvas photo job heap = (.ok scaled, heap') ∧
    blitOf canvas scaled (gridCell canvas job i) ∈ layout.blits

-- A real cell is on the page, and the last writer of its entry agrees with it.
theorem RealCell.lastWriter {i : Nat}
    (hlayout : imgLayoutGrid canvas photo job arena heap = (.ok (canvas', layout), heap'))
    (h : RealCell canvas photo job heap layout i) {n : Nat} (hn : LastWriter canvas job i n) :
    gridCell canvas job n = gridCell canvas job i := by
  obtain ⟨scaled, heap₁, offset, arena', -, -, -, hcells, -⟩ := imgLayoutGrid_ok hlayout
  have hplaced := placeCells_placed canvas scaled job (CellArray.inArena arena' offset) fun i => rfl
  have hwritten := h.written
  rw [hcells] at hwritten
  obtain ⟨k, hk, hcell⟩ := (hplaced.written_iff i).mp hwritten
  rw [hn.unique hk, hcell]

theorem realCell_of_lastWriter {i : Nat}
    (hlayout : imgLayoutGrid canvas photo job arena heap = (.ok (canvas', layout), heap'))
    (hi : i < (job.cols * job.rows).toNat) (hpage : InPage canvas (gridCell canvas job i))
    (hlast : ∀ n, LastWriter canvas job i n → gridCell canvas job n = gridCell canvas job i) :
    RealCell canvas photo job heap layout i := by
  obtain ⟨scaled, heap₁, offset, arena', hprepare, -, -, hcells, hblits, -⟩ :=
    imgLayoutGrid_ok hlayout
  have hplaced := placeCells_placed canvas scaled job (CellArray.inArena arena' offset) fun i => rfl
  have htotal : (job.cols * job.rows).toNat ≤ job.rows.toNat * job.cols.toNat := by
    rw [UInt32.toNat_mul, Nat.mul_comm]
    exact Nat.mod_le _ _
  obtain ⟨k, hk⟩ := exists_lastWriter (hi.trans_le htotal) rfl hpage.fits
  refine ⟨?_, hpage, scaled, heap₁, hprepare, ?_⟩
  · rw [hcells]
    exact (hplaced.written_iff i).mpr ⟨k, hk, (hlast k hk).symm⟩
  · rw [hblits]
    exact (hplaced.blits _).mpr ⟨i, hi.trans_le htotal, hpage.fits, rfl⟩

-- The counted positions are all on the page, and where the index wraps the last
-- writer of an entry agrees with the position that the entry is for.
theorem imgLayoutGrid_cells_iff
    (hlayout : imgLayoutGrid canvas photo job arena heap = (.ok (canvas', layout), heap')) :
    (∀ i < layout.count.toNat, RealCell canvas photo job heap layout i) ↔
      ∀ i < (job.cols * job.rows).toNat, InPage canvas (gridCell canvas job i) ∧
        ∀ n, LastWriter canvas job i n → gridCell canvas job n = gridCell canvas job i := by
  obtain ⟨-, -, -, -, -, -, -, -, -, hcount⟩ := imgLayoutGrid_ok hlayout
  rw [hcount]
  constructor
  · intro h i hi
    exact ⟨(h i hi).inPage, fun n hn => (h i hi).lastWriter hlayout hn⟩
  · intro h i hi
    obtain ⟨hpage, hlast⟩ := h i hi
    exact realCell_of_lastWriter hlayout hi hpage hlast

-- Two by two cells with gaps of two pixels.
theorem imgLayoutGrid_cells_iff_small :
    ∃ canvas canvas' layout heap, initAndLayout apiHeap smallJob smallPhoto smallArena =
        some (canvas, canvas', layout) ∧ layout.count = 4 ∧
      ∀ i < layout.count.toNat, RealCell canvas smallPhoto smallJob heap layout i := by
  have hall : (initAndLayout apiHeap smallJob smallPhoto smallArena).any fun r =>
      r.2.2.count = 4 ∧ ∀ i < (smallJob.cols * smallJob.rows).toNat,
        InPage r.1 (gridCell r.1 smallJob i) := by decide +kernel
  obtain ⟨⟨canvas, canvas', layout⟩, hrun, hall⟩ := (Option.any_eq_true _ _).mp hall
  obtain ⟨hcount, hpage⟩ := of_decide_eq_true hall
  obtain ⟨heap, heap', -, hlayout⟩ := initAndLayout_some hrun
  refine ⟨canvas, canvas', layout, heap, hrun, hcount, (imgLayoutGrid_cells_iff hlayout).mpr ?_⟩
  intro i hi
  refine ⟨hpage i hi, fun n hn => ?_⟩
  rw [hn.eq_of_lt hi (by decide)]

-- Twenty rows of cells of one pixel each on a page of twelve: the last entries are
-- counted and never written.
theorem imgLayoutGrid_unwritten :
    ∃ canvas canvas' layout,
      initAndLayout apiHeap { smallJob with cols := 1, rows := 20, gap := 0, padding := 0 }
        smallPhoto smallArena = some (canvas, canvas', layout) ∧
      ∃ i < layout.count.toNat, ∀ heap, ¬RealCell canvas smallPhoto
        { smallJob with cols := 1, rows := 20, gap := 0, padding := 0 } heap layout i := by
  have hany : (initAndLayout apiHeap { smallJob with cols := 1, rows := 20, gap := 0, padding := 0 }
      smallPhoto smallArena).any fun r =>
        12 < r.2.2.count.toNat ∧ r.2.2.cells.written 12 = none := by decide +kernel
  obtain ⟨⟨canvas, canvas', layout⟩, hrun, hany⟩ := (Option.any_eq_true _ _).mp hany
  obtain ⟨hcount, hnone⟩ := of_decide_eq_true hany
  refine ⟨canvas, canvas', layout, hrun, 12, hcount, fun heap hreal => ?_⟩
  have hwritten := hreal.written
  change layout.cells.written 12 = _ at hwritten
  rw [hnone] at hwritten
  cases hwritten

end Layouts

end ImgEngine.Pipeline
