import ImgEngine.Pipeline.Layout.Cells

namespace ImgEngine.Pipeline

open ImgEngine.Memory

-- The grid in natural numbers.

-- One axis: count cells of a size with gaps between them from start on.
theorem axis_coordinate {start size gap : UInt32} {i count limit : Nat} (hi : i < count)
    (hfit : start.toNat + (count * size.toNat + (count - 1) * gap.toNat) ≤ limit)
    (hlimit : limit < 2 ^ 32) :
    (start + .ofNat i * (size + gap)).toNat = start.toNat + i * (size.toNat + gap.toNat) ∧
      start.toNat + i * (size.toNat + gap.toNat) + size.toNat ≤ limit := by
  have hle : i * (size.toNat + gap.toNat) ≤ (count - 1) * (size.toNat + gap.toNat) :=
    Nat.mul_le_mul_right _ (by omega)
  have hsplit : (count - 1) * (size.toNat + gap.toNat) + size.toNat =
      count * size.toNat + (count - 1) * gap.toNat := by
    obtain ⟨k, rfl⟩ : ∃ k, count = k + 1 := ⟨count - 1, by omega⟩
    rw [Nat.add_sub_cancel, Nat.mul_add, Nat.succ_mul]
    omega
  refine ⟨?_, by omega⟩
  rcases Nat.eq_zero_or_pos i with rfl | hpos
  · simp
  · have hstep : size.toNat + gap.toNat ≤ i * (size.toNat + gap.toNat) :=
      Nat.le_mul_of_pos_left _ hpos
    have hindex : i ≤ i * (size.toNat + gap.toNat) ∨ size.toNat + gap.toNat = 0 := by
      rcases Nat.eq_zero_or_pos (size.toNat + gap.toNat) with hzero | hpos'
      · exact .inr hzero
      · exact .inl (Nat.le_mul_of_pos_right _ hpos')
    rcases hindex with hindex | hzero
    · have hsum := uint32_toNat_add (a := size) (b := gap) (by omega)
      have hi' : (UInt32.ofNat i).toNat = i := uint32_toNat_ofNat (by omega)
      have hmul : (UInt32.ofNat i * (size + gap)).toNat = i * (size.toNat + gap.toNat) := by
        rw [uint32_toNat_mul (by rw [hi', hsum]; omega), hi', hsum]
      rw [uint32_toNat_add (by rw [hmul]; omega), hmul]
    · have hstep : size + gap = 0 := by
        apply UInt32.toNat_inj.mp
        rw [uint32_toNat_add (by omega), hzero]
        rfl
      rw [hstep, hzero]
      simp

-- The gaps of an axis, as img_canvas_init computes them.
theorem gaps_toNat {count gap : UInt32} {limit : Nat} (hcount : count ≠ 0)
    (hfit : (count.toNat - 1) * gap.toNat ≤ limit) (hlimit : limit < 2 ^ 32) :
    (if count > 1 then (count - 1) * gap else 0).toNat = (count.toNat - 1) * gap.toNat := by
  have hpos : 1 ≤ count.toNat :=
    Nat.one_le_iff_ne_zero.mpr fun hzero => hcount (UInt32.toNat_inj.mp hzero)
  have hsub : (count - 1).toNat = count.toNat - 1 := uint32_toNat_sub hpos
  split_ifs with hone
  · rw [uint32_toNat_mul (by rw [hsub]; omega), hsub]
  · have hle : count.toNat ≤ 1 := UInt32.le_iff_toNat_le.mp (UInt32.not_lt.mp hone)
    rw [show count.toNat - 1 = 0 by omega, Nat.zero_mul]
    rfl

-- The room that an axis leaves for its cells.
theorem room_toNat {page padding gaps : UInt32} {natGaps : Nat} (hgaps : gaps.toNat = natGaps)
    (hfit : 2 * padding.toNat + natGaps < page.toNat) :
    (if page > padding * 2 + gaps then page - padding * 2 - gaps else 1).toNat =
      page.toNat - 2 * padding.toNat - natGaps := by
  have hlt := page.toNat_lt
  have hpad : (padding * 2).toNat = 2 * padding.toNat := by
    rw [uint32_toNat_mul (show padding.toNat * 2 < 2 ^ 32 by omega)]
    exact Nat.mul_comm _ _
  have hsum : (padding * 2 + gaps).toNat = 2 * padding.toNat + natGaps := by
    rw [uint32_toNat_add (by omega), hpad, hgaps]
  have hpos : page > padding * 2 + gaps := UInt32.lt_iff_toNat_lt.mpr (by rw [hsum]; exact hfit)
  have hsub := uint32_toNat_sub (a := page) (b := padding * 2) (by omega)
  rw [if_pos hpos, uint32_toNat_sub (by omega), hsub, hpad, hgaps]

-- What a count of cells takes of the room that they were cut from.
theorem cells_le_room {count size : UInt32} {room page : UInt32} {padding gaps : Nat}
    (hroom : room.toNat = page.toNat - 2 * padding - gaps) (hfit : 2 * padding + gaps < page.toNat)
    (hsize : size ≤ room / count) :
    2 * padding + (count.toNat * size.toNat + gaps) ≤ page.toNat := by
  have hsize := UInt32.le_iff_toNat_le.mp hsize
  rw [UInt32.toNat_div] at hsize
  have hmul : count.toNat * size.toNat ≤ room.toNat :=
    (Nat.mul_le_mul_left _ hsize).trans (Nat.mul_div_le _ _)
  omega

-- The part of a page that is not taken, halved, as img_canvas_init centers the grid.
theorem centred_toNat {page taken padding : UInt32}
    (hfit : 2 * padding.toNat + taken.toNat ≤ page.toNat) :
    (if page > taken then (page - taken) / 2 else padding).toNat =
      (page.toNat - taken.toNat) / 2 := by
  split_ifs with hlt
  · rw [UInt32.toNat_div, uint32_toNat_sub (by omega)]
    rfl
  · have hle := UInt32.le_iff_toNat_le.mp (UInt32.not_lt.mp hlt)
    omega

theorem axis_apart {start size gap i j : Nat} (hij : i < j) :
    start + i * (size + gap) + size + gap ≤ start + j * (size + gap) := by
  have hle : (i + 1) * (size + gap) ≤ j * (size + gap) := Nat.mul_le_mul_right _ hij
  rw [Nat.succ_mul] at hle
  omega

-- Two cells with at least a gap between their columns or between their rows.
def Apart (gap : Nat) (cell other : ImgCell) : Prop :=
  cell.x.toNat + cell.w.toNat + gap ≤ other.x.toNat ∨
    other.x.toNat + other.w.toNat + gap ≤ cell.x.toNat ∨
    cell.y.toNat + cell.h.toNat + gap ≤ other.y.toNat ∨
    other.y.toNat + other.h.toNat + gap ≤ cell.y.toNat

section Grids

variable {F : Type} {job : ImgJob F} {canvas : ImgCanvas}

-- A grid that fits on the page lies at its natural coordinates.
structure GridFits (canvas : ImgCanvas) (job : ImgJob F) : Prop where
  right : canvas.startX.toNat + (job.cols.toNat * canvas.photoWPx.toNat +
    (job.cols.toNat - 1) * job.gap.toNat) ≤ canvas.buf.width.toNat
  bottom : canvas.startY.toNat + (job.rows.toNat * canvas.photoHPx.toNat +
    (job.rows.toNat - 1) * job.gap.toNat) ≤ canvas.buf.height.toNat

theorem GridFits.coordinate (h : GridFits canvas job) {n : Nat}
    (hn : n < job.rows.toNat * job.cols.toNat) :
    (gridCell canvas job n).x.toNat = canvas.startX.toNat +
        n % job.cols.toNat * (canvas.photoWPx.toNat + job.gap.toNat) ∧
      (gridCell canvas job n).y.toNat = canvas.startY.toNat +
        n / job.cols.toNat * (canvas.photoHPx.toNat + job.gap.toNat) ∧
      InPage canvas (gridCell canvas job n) := by
  obtain ⟨hcol, hrow⟩ := position_lt hn
  obtain ⟨hx, hright⟩ := axis_coordinate hcol h.right canvas.buf.width.toNat_lt
  obtain ⟨hy, hbottom⟩ := axis_coordinate hrow h.bottom canvas.buf.height.toNat_lt
  refine ⟨hx, hy, ?_, ?_⟩
  · change (gridX canvas job _).toNat + _ ≤ _
    rw [gridX, hx]
    exact hright
  · change (gridY canvas job _).toNat + _ ≤ _
    rw [gridY, hy]
    exact hbottom

theorem GridFits.apart (h : GridFits canvas job) {m n : Nat}
    (hm : m < job.rows.toNat * job.cols.toNat) (hn : n < job.rows.toNat * job.cols.toNat)
    (hne : m ≠ n) :
    Apart job.gap.toNat (gridCell canvas job m) (gridCell canvas job n) := by
  obtain ⟨hxm, hym, -⟩ := h.coordinate hm
  obtain ⟨hxn, hyn, -⟩ := h.coordinate hn
  have hw : ∀ k, (gridCell canvas job k).w = canvas.photoWPx := fun _ => rfl
  have hh : ∀ k, (gridCell canvas job k).h = canvas.photoHPx := fun _ => rfl
  unfold Apart
  rw [hxm, hym, hxn, hyn, hw, hw, hh, hh]
  rcases Nat.lt_trichotomy (m % job.cols.toNat) (n % job.cols.toNat) with hlt | heq | hlt
  · exact .inl (axis_apart hlt)
  · rcases Nat.lt_trichotomy (m / job.cols.toNat) (n / job.cols.toNat) with hlt | heq' | hlt
    · exact .inr (.inr (.inl (axis_apart hlt)))
    · refine absurd ?_ hne
      rw [← Nat.div_add_mod m job.cols.toNat, heq, heq', Nat.div_add_mod]
    · exact .inr (.inr (.inr (axis_apart hlt)))
  · exact .inr (.inl (axis_apart hlt))

theorem GridFits.columnGap (h : GridFits canvas job) {n : Nat}
    (hn : n < job.rows.toNat * job.cols.toNat) (hcol : n % job.cols.toNat + 1 < job.cols.toNat) :
    (gridCell canvas job (n + 1)).x.toNat = (gridCell canvas job n).x.toNat +
      (gridCell canvas job n).w.toNat + job.gap.toNat := by
  have hmod : (n + 1) % job.cols.toNat = n % job.cols.toNat + 1 := by
    rw [Nat.add_mod, Nat.mod_eq_of_lt (a := 1) (by omega), Nat.mod_eq_of_lt hcol]
  have hnext := (axis_coordinate hcol h.right canvas.buf.width.toNat_lt).1
  rw [(h.coordinate hn).1]
  change (gridX canvas job ((n + 1) % job.cols.toNat)).toNat = _
  rw [hmod, gridX, hnext, Nat.succ_mul]
  change _ = _ + canvas.photoWPx.toNat + _
  omega

theorem GridFits.rowGap (h : GridFits canvas job) {n : Nat}
    (hn : n + job.cols.toNat < job.rows.toNat * job.cols.toNat) :
    (gridCell canvas job (n + job.cols.toNat)).y.toNat = (gridCell canvas job n).y.toNat +
      (gridCell canvas job n).h.toNat + job.gap.toNat := by
  have hpos : 0 < job.cols.toNat := by
    have := (position_lt hn).1
    omega
  have hnext := (h.coordinate hn).2.1
  rw [Nat.add_div_right _ hpos, Nat.succ_mul] at hnext
  rw [hnext, (h.coordinate (n := n) (by omega)).2.1]
  change _ = _ + canvas.photoHPx.toNat + _
  omega

end Grids

section Layouts

variable {F : Type} [FloatType F] {job : ImgJob F} {heap heap' heap'' : Heap}
  {canvas canvas' : ImgCanvas} {photo : ImgBuffer} {arena : ImgArena} {layout : ImgLayout}

-- The geometry of a grid. Positions are numbered row by row, and the distances are
-- those of natural numbers.
structure GridGeometry (canvas : ImgCanvas) (photo : ImgBuffer) (job : ImgJob F) (heap : Heap)
    (layout : ImgLayout) : Prop where
  count : layout.count.toNat = job.rows.toNat * job.cols.toNat
  placed : ∀ n < job.rows.toNat * job.cols.toNat, RealCell canvas photo job heap layout n
  gridW : job.gridW.toNat =
    job.cols.toNat * canvas.photoWPx.toNat + (job.cols.toNat - 1) * job.gap.toNat
  coordinateX : ∀ n < job.rows.toNat * job.cols.toNat, (gridCell canvas job n).x.toNat =
    canvas.startX.toNat + n % job.cols.toNat * (canvas.photoWPx.toNat + job.gap.toNat)
  coordinateY : ∀ n < job.rows.toNat * job.cols.toNat, (gridCell canvas job n).y.toNat =
    canvas.startY.toNat + n / job.cols.toNat * (canvas.photoHPx.toNat + job.gap.toNat)
  columnGap : ∀ n < job.rows.toNat * job.cols.toNat, n % job.cols.toNat + 1 < job.cols.toNat →
    (gridCell canvas job (n + 1)).x.toNat = (gridCell canvas job n).x.toNat +
      (gridCell canvas job n).w.toNat + job.gap.toNat
  rowGap : ∀ n, n + job.cols.toNat < job.rows.toNat * job.cols.toNat →
    (gridCell canvas job (n + job.cols.toNat)).y.toNat = (gridCell canvas job n).y.toNat +
      (gridCell canvas job n).h.toNat + job.gap.toNat
  apart : ∀ m < job.rows.toNat * job.cols.toNat, ∀ n < job.rows.toNat * job.cols.toNat, m ≠ n →
    Apart job.gap.toNat (gridCell canvas job m) (gridCell canvas job n)
  left : job.padding.toNat ≤ canvas.startX.toNat
  right : canvas.startX.toNat + job.gridW.toNat + job.padding.toNat ≤ canvas.buf.width.toNat
  centred : canvas.startX.toNat ≤ canvas.buf.width.toNat - (canvas.startX.toNat + job.gridW.toNat) ∧
    canvas.buf.width.toNat - (canvas.startX.toNat + job.gridW.toNat) ≤ canvas.startX.toNat + 1
  top : canvas.startY = job.padding
  bottom : canvas.startY.toNat + (job.rows.toNat * canvas.photoHPx.toNat +
    (job.rows.toNat - 1) * job.gap.toNat) + job.padding.toNat ≤ canvas.buf.height.toNat

-- A grid on the page is placed cell by cell.
theorem GridFits.realCells (h : GridFits canvas job)
    (hcount : job.rows.toNat * job.cols.toNat < 2 ^ 32)
    (hlayout : imgLayoutGrid canvas photo job arena heap = (.ok (canvas', layout), heap')) :
    layout.count.toNat = job.rows.toNat * job.cols.toNat ∧
      ∀ n < job.rows.toNat * job.cols.toNat, RealCell canvas photo job heap layout n := by
  have htotal : (job.cols * job.rows).toNat = job.rows.toNat * job.cols.toNat := by
    rw [uint32_toNat_mul (by rwa [Nat.mul_comm]), Nat.mul_comm]
  obtain ⟨-, -, -, -, -, -, -, -, -, hlayoutCount⟩ := imgLayoutGrid_ok hlayout
  refine ⟨by rw [hlayoutCount, htotal], fun n hn => ?_⟩
  refine realCell_of_lastWriter hlayout (htotal.symm ▸ hn) (h.coordinate hn).2.2 fun k hk => ?_
  rw [hk.eq_of_lt hn hcount.le]

-- What the cell size leaves of the page.
theorem grid_room {blockSize : UInt64} (hcanvas : CanvasFor job blockSize canvas)
    (hw : 2 * job.padding.toNat + (job.cols.toNat - 1) * job.gap.toNat < canvas.buf.width.toNat)
    (hh : 2 * job.padding.toNat + (job.rows.toNat - 1) * job.gap.toNat < canvas.buf.height.toNat)
    (hphotoW : canvas.photoWPx ≤ job.maxPw) (hphotoH : canvas.photoHPx ≤ job.maxPh) :
    2 * job.padding.toNat + (job.cols.toNat * canvas.photoWPx.toNat +
        (job.cols.toNat - 1) * job.gap.toNat) ≤ canvas.buf.width.toNat ∧
      2 * job.padding.toNat + (job.rows.toNat * canvas.photoHPx.toNat +
        (job.rows.toNat - 1) * job.gap.toNat) ≤ canvas.buf.height.toNat ∧
      job.hGaps.toNat = (job.cols.toNat - 1) * job.gap.toNat := by
  have hhGaps : job.hGaps.toNat = (job.cols.toNat - 1) * job.gap.toNat :=
    gaps_toNat hcanvas.cols (by omega) canvas.buf.width.toNat_lt
  have hvGaps : job.vGaps.toNat = (job.rows.toNat - 1) * job.gap.toNat :=
    gaps_toNat hcanvas.rows (by omega) canvas.buf.height.toNat_lt
  rw [hcanvas.width] at hw ⊢
  rw [hcanvas.height] at hh ⊢
  exact ⟨cells_le_room (room_toNat hhGaps hw) hw hphotoW,
    cells_le_room (room_toNat hvGaps hh) hh hphotoH, hhGaps⟩

-- The job leaves room for cells, and the cells are not larger than the room.
theorem imgLayoutGrid_geometry (hcanvas : imgCanvasInit heap job = some (.ok canvas, heap'))
    (hlayout : imgLayoutGrid canvas photo job arena heap' = (.ok (canvas', layout), heap''))
    (harea : 3 * canvas.buf.width.toNat * canvas.buf.height.toNat ≤ 32 * 1024 * 1024)
    (hw : 2 * job.padding.toNat + (job.cols.toNat - 1) * job.gap.toNat < canvas.buf.width.toNat)
    (hh : 2 * job.padding.toNat + (job.rows.toNat - 1) * job.gap.toNat < canvas.buf.height.toNat)
    (hphotoW : canvas.photoWPx ≤ job.maxPw) (hphotoH : canvas.photoHPx ≤ job.maxPh) :
    GridGeometry canvas photo job heap' layout := by
  obtain ⟨hcanvas, -⟩ := imgCanvasInit_canvas hcanvas
  obtain ⟨hright, hbottom, hgaps⟩ := grid_room hcanvas hw hh hphotoW hphotoH
  have hpw := hcanvas.photoW_pos
  have hph := hcanvas.photoH_pos
  have hwidth := canvas.buf.width.toNat_lt
  have hcols : job.cols.toNat ≤ job.cols.toNat * canvas.photoWPx.toNat :=
    Nat.le_mul_of_pos_right _ hpw
  have hrows : job.rows.toNat ≤ job.rows.toNat * canvas.photoHPx.toNat :=
    Nat.le_mul_of_pos_right _ hph
  have hgridW : job.gridW.toNat =
      job.cols.toNat * canvas.photoWPx.toNat + (job.cols.toNat - 1) * job.gap.toNat := by
    have hmul : (job.cols * job.photoSize.1).toNat = job.cols.toNat * canvas.photoWPx.toNat := by
      rw [← hcanvas.photoW]
      exact uint32_toNat_mul (by omega)
    rw [ImgJob.gridW, uint32_toNat_add (by rw [hmul, hgaps]; omega), hmul, hgaps]
  have hstart : canvas.startX.toNat = (canvas.buf.width.toNat - job.gridW.toNat) / 2 := by
    rw [hcanvas.startX, hcanvas.width]
    exact centred_toNat (by rw [hgridW, ← hcanvas.width]; exact hright)
  have hfits : GridFits canvas job := by
    refine ⟨by omega, ?_⟩
    rw [hcanvas.startY]
    omega
  have hcount : job.rows.toNat * job.cols.toNat < 2 ^ 32 := by
    have hle : job.rows.toNat * job.cols.toNat ≤
        canvas.buf.height.toNat * canvas.buf.width.toNat := Nat.mul_le_mul (by omega) (by omega)
    rw [Nat.mul_assoc, Nat.mul_comm canvas.buf.width.toNat] at harea
    omega
  obtain ⟨hlayoutCount, hplaced⟩ := hfits.realCells hcount hlayout
  exact {
    count := hlayoutCount
    placed := hplaced
    gridW := hgridW
    coordinateX := fun n hn => (hfits.coordinate hn).1
    coordinateY := fun n hn => (hfits.coordinate hn).2.1
    columnGap := fun n hn hcol => hfits.columnGap hn hcol
    rowGap := fun n hn => hfits.rowGap hn
    apart := fun m hm n hn hne => hfits.apart hm hn hne
    left := by omega
    right := by omega
    centred := by omega
    top := hcanvas.startY
    bottom := by
      rw [hcanvas.startY]
      omega }

-- Two by two cells, with no pixel to spare in the width.
theorem imgLayoutGrid_geometry_small :
    ∃ canvas canvas' layout heap, initAndLayout apiHeap smallJob smallPhoto smallArena =
        some (canvas, canvas', layout) ∧ smallJob.gridW = 6 ∧ canvas.buf.width = 8 ∧
      GridGeometry canvas smallPhoto smallJob heap layout := by
  have hall : (initAndLayout apiHeap smallJob smallPhoto smallArena).any fun r =>
      r.1.buf.width = 8 ∧
      3 * r.1.buf.width.toNat * r.1.buf.height.toNat ≤ 32 * 1024 * 1024 ∧
      2 * smallJob.padding.toNat + (smallJob.cols.toNat - 1) * smallJob.gap.toNat <
        r.1.buf.width.toNat ∧
      2 * smallJob.padding.toNat + (smallJob.rows.toNat - 1) * smallJob.gap.toNat <
        r.1.buf.height.toNat ∧
      r.1.photoWPx ≤ smallJob.maxPw ∧ r.1.photoHPx ≤ smallJob.maxPh := by decide +kernel
  obtain ⟨⟨canvas, canvas', layout⟩, hrun, hall⟩ := (Option.any_eq_true _ _).mp hall
  obtain ⟨hwidth, harea, hw, hh, hphotoW, hphotoH⟩ := of_decide_eq_true hall
  obtain ⟨heap, heap', hcanvas, hlayout⟩ := initAndLayout_some hrun
  exact ⟨canvas, canvas', layout, heap, hrun, by decide +kernel, hwidth,
    imgLayoutGrid_geometry hcanvas hlayout harea hw hh hphotoW hphotoH⟩

end Layouts

end ImgEngine.Pipeline
