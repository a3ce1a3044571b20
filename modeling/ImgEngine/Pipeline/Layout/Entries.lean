import ImgEngine.Pipeline.Layout.Cells

namespace ImgEngine.Pipeline

open ImgEngine.Memory

-- Which entries of the cells array img_layout_grid stores to.

variable {F : Type} [FloatType F] {job : ImgJob F} {heap heap' : Heap}
  {canvas canvas' : ImgCanvas} {photo scaled : ImgBuffer} {arena : ImgArena} {layout : ImgLayout}

-- The array has been allocated with one entry for each of the counted cells.
def StoresInArray (layout : ImgLayout) : Prop :=
  ∀ i : UInt32, (layout.cells.written i).isSome → i.toNat < layout.count.toNat

theorem written_isSome_iff
    (hlayout : imgLayoutGrid canvas photo job arena heap = (.ok (canvas', layout), heap'))
    (i : UInt32) : (layout.cells.written i).isSome ↔
      ∃ n < job.rows.toNat * job.cols.toNat, UInt32.ofNat n = i ∧ Fits canvas (gridCell canvas job n) := by
  obtain ⟨scaled, -, offset, arena', -, -, -, hcells, -⟩ := imgLayoutGrid_ok hlayout
  have hplaced := placeCells_placed canvas scaled job (CellArray.inArena arena' offset) fun i => rfl
  rw [hcells, Option.isSome_iff_exists]
  constructor
  · rintro ⟨cell, hwritten⟩
    obtain ⟨n, hn, hindex, hfits, -⟩ := (hplaced.cells i cell).mp hwritten
    exact ⟨n, hn, hindex, hfits⟩
  · rintro ⟨n, hn, rfl, hfits⟩
    obtain ⟨k, hk⟩ := exists_lastWriter hn rfl hfits
    exact ⟨gridCell canvas job k, (hplaced.written_iff n).mpr ⟨k, hk, rfl⟩⟩

-- The array is overrun exactly if the number of cells wraps and a cell whose index is
-- not below the wrapped number passes the tests of the loop.
theorem imgLayoutGrid_storesInArray_iff
    (hlayout : imgLayoutGrid canvas photo job arena heap = (.ok (canvas', layout), heap')) :
    StoresInArray layout ↔ job.cols.toNat * job.rows.toNat < 2 ^ 32 ∨
      ∀ row < job.rows.toNat, ∀ col < job.cols.toNat,
        job.cols.toNat * job.rows.toNat % 2 ^ 32 ≤ (row * job.cols.toNat + col) % 2 ^ 32 →
        ¬Fits canvas ⟨gridX canvas job col, gridY canvas job row, canvas.photoWPx,
          canvas.photoHPx⟩ := by
  obtain ⟨-, -, -, -, -, -, -, -, -, hcount⟩ := imgLayoutGrid_ok hlayout
  have htotal : layout.count.toNat = job.cols.toNat * job.rows.toNat % 2 ^ 32 := by
    rw [hcount, UInt32.toNat_mul]
  unfold StoresInArray
  simp only [written_isSome_iff hlayout, htotal]
  constructor
  · intro h
    refine .inr fun row hrow col hcol hindex hfits => ?_
    obtain ⟨hn, hcell⟩ := gridCell_position hrow hcol
    rw [← hcell] at hfits
    have hlt := h _ ⟨_, hn, rfl, hfits⟩
    rw [UInt32.toNat_ofNat'] at hlt
    omega
  · rintro (hsmall | hnone) i ⟨n, hn, rfl, hfits⟩
    · rw [Nat.mul_comm] at hn
      rw [UInt32.toNat_ofNat', Nat.mod_eq_of_lt hsmall, Nat.mod_eq_of_lt (hn.trans hsmall)]
      exact hn
    · by_contra hindex
      rw [UInt32.toNat_ofNat'] at hindex
      obtain ⟨hcol, hrow⟩ := position_lt hn
      refine hnone _ hrow _ hcol ?_ hfits
      rw [Nat.div_add_mod']
      omega

-- Two by two cells in an array of four.
theorem imgLayoutGrid_storesInArray_small :
    ∃ canvas canvas' layout, initAndLayout apiHeap smallJob smallPhoto smallArena =
        some (canvas, canvas', layout) ∧ StoresInArray layout := by
  have hsome : (initAndLayout apiHeap smallJob smallPhoto smallArena).isSome := by decide +kernel
  obtain ⟨⟨canvas, canvas', layout⟩, hrun⟩ := Option.isSome_iff_exists.mp hsome
  obtain ⟨heap, heap', -, hlayout⟩ := initAndLayout_some hrun
  exact ⟨canvas, canvas', layout, hrun,
    (imgLayoutGrid_storesInArray_iff hlayout).mpr (.inl (by decide))⟩

-- 65536 by 65536 cells: the product wraps to zero, an array of zero bytes is found, and
-- the first cell is stored to it.

def wrappingJob : ImgJob Float32 := { smallJob with cols := 65536, rows := 65536 }

theorem imgLayoutGrid_overrun :
    ∃ canvas canvas' layout heap heap',
      imgCanvasInit apiHeap wrappingJob = some (.ok canvas, heap) ∧
      imgLayoutGrid canvas smallPhoto wrappingJob smallArena heap = (.ok (canvas', layout), heap') ∧
      layout.count = 0 ∧ (layout.cells.written 0).isSome := by
  have hall : (imgCanvasInit apiHeap wrappingJob).any fun r => r.1.toOption.any fun canvas =>
      Fits canvas (gridCell canvas wrappingJob 0) ∧
        (prepareCell canvas smallPhoto wrappingJob r.2).1.toOption.isSome := by decide +kernel
  obtain ⟨⟨result, heap⟩, hcanvas, hall⟩ := (Option.any_eq_true _ _).mp hall
  obtain ⟨canvas, hresult, hall⟩ := (Option.any_eq_true _ _).mp hall
  obtain ⟨hfits, hprepare⟩ := of_decide_eq_true hall
  cases result with
  | error e => cases hresult
  | ok canvas' =>
      cases hresult
      rcases hscaled : prepareCell canvas smallPhoto wrappingJob heap with ⟨scaled | scaled, heap'⟩
      · rw [hscaled] at hprepare
        cases hprepare
      · have hlayout : ∃ layout, imgLayoutGrid canvas smallPhoto wrappingJob smallArena heap =
            (.ok layout, heap'.release scaled.data) := by
          unfold imgLayoutGrid
          rw [hscaled]
          exact ⟨_, rfl⟩
        obtain ⟨⟨canvas', layout⟩, hlayout⟩ := hlayout
        refine ⟨canvas, canvas', layout, heap, _, hcanvas, hlayout, ?_, ?_⟩
        · obtain ⟨-, -, -, -, -, -, -, -, -, hcount⟩ := imgLayoutGrid_ok hlayout
          rw [hcount]
          decide
        · exact (written_isSome_iff hlayout 0).mpr ⟨0, by decide, rfl, hfits⟩

end ImgEngine.Pipeline
