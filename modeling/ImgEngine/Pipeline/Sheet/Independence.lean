import ImgEngine.Pipeline.Sheet.Same

namespace ImgEngine.Pipeline

open ImgEngine.Library.Painting ImgEngine.Memory

variable {F : Type} [FloatType F]

-- A pool with blocks of a size, at least k of which are free.
structure Roomy (k : Nat) (blockSize : UInt64) (heap : Heap) : Prop where
  blockSize : heap.pool.blockSize = blockSize
  free : k ≤ heap.pool.free.length

-- Two results that are the same error or are related.
def Matches {A B : Type} (R : A → B → Prop) : Except ImgError A → Except ImgError B → Prop
  | .error e, .error e' => e = e'
  | .ok a, .ok b => R a b
  | _, _ => False

section Rooms

variable {k : Nat} {blockSize : UInt64} {heap heap' : Heap}

theorem Roomy.alloc (h : Roomy (k + 1) blockSize heap) :
    ∃ mem heap₁, heap.alloc = some (mem, heap₁) ∧ Roomy k blockSize heap₁ := by
  cases halloc : heap.alloc with
  | none =>
      have hfree := h.free
      rw [Heap.alloc_eq_none_iff.mp halloc] at hfree
      exact absurd hfree (Nat.not_succ_le_zero k)
  | some taken =>
      obtain ⟨mem, heap₁⟩ := taken
      have hfree := h.free
      rw [Heap.alloc_free halloc, List.length_cons] at hfree
      exact ⟨mem, heap₁, rfl, (Heap.alloc_some halloc).2.trans h.blockSize, by omega⟩

-- Why resize_nearest refuses a size, when a block is free.
def resizeRefusal (blockSize : UInt64) (size : UInt32 × UInt32) : Option ImgError :=
  if size.1 = 0 ∨ size.2 = 0 then some .format
  else if rgbSize size.1 size.2 > blockSize then some .nomem
  else none

theorem resizeNearest_roomy (h : Roomy (k + 1) blockSize heap) (src : ImgBuffer)
    (size : UInt32 × UInt32) : ∃ mem heap₁, Roomy k blockSize heap₁ ∧
      resizeNearest src size.1 size.2 heap =
        match resizeRefusal blockSize size with
        | some e => (.error e, heap)
        | none => (.ok (rgbBuffer mem size.1 size.2
            (scaledBytes src size (heap₁.stale mem))), heap₁) := by
  obtain ⟨mem, heap₁, halloc, hroom⟩ := h.alloc
  refine ⟨mem, heap₁, hroom, ?_⟩
  unfold resizeNearest resizeRefusal
  rw [h.blockSize]
  split_ifs
  · rfl
  · rfl
  · rw [halloc]
    rfl

-- A size that is not refused, the product of which is not cut off, is in words.
theorem rowsInWord_of_accepted {size : UInt32 × UInt32}
    (hblock : blockSize.toNat < 2 ^ 31) (hsize : 3 * (size.1.toNat * size.2.toNat) < 2 ^ 64)
    (haccepted : resizeRefusal blockSize size = none) :
    RowsInWord size.1 (size.2.toNat - 1) := by
  unfold resizeRefusal at haccepted
  split_ifs at haccepted with hzero hlarge
  rw [not_or] at hzero
  have hheight : 1 ≤ size.2.toNat :=
    Nat.one_le_iff_ne_zero.mpr fun h => hzero.2 (UInt32.toNat_inj.mp h)
  have hbytes : 3 * (size.1.toNat * size.2.toNat) < 2 ^ 31 := by
    rw [gt_iff_lt, UInt64.not_lt, UInt64.le_iff_toNat_le, rgbSize_toNat,
      Nat.mul_comm _ 3, Nat.mod_eq_of_lt hsize] at hlarge
    omega
  have hrow : size.1.toNat * 1 ≤ size.1.toNat * size.2.toNat := Nat.mul_le_mul_left _ hheight
  refine ⟨by omega, ?_⟩
  calc
    (size.2.toNat - 1) * (3 * size.1.toNat) ≤ size.2.toNat * (3 * size.1.toNat) :=
      Nat.mul_le_mul_right _ (Nat.sub_le _ _)
    _ = 3 * (size.1.toNat * size.2.toNat) := by ring
    _ < 2 ^ 32 := by omega

end Rooms

section Prepare

variable {blockSize : UInt64} {heap heap' : Heap} {photo photo' : ImgBuffer}
  {cellW cellH : UInt32} {k : Nat}

theorem prepareFill_same (hroom : Roomy 2 blockSize heap) (hroom' : Roomy 2 blockSize heap')
    (hblock : blockSize.toNat < 2 ^ 31) (h : SamePicture photo photo') (hphoto : Delivered photo)
    (hphoto' : Delivered photo')
    (hsize : 3 * ((coverSize F photo cellW cellH).1.toNat *
      (coverSize F photo cellW cellH).2.toNat) < 2 ^ 64) :
    Matches SamePicture (prepareFill F photo cellW cellH heap).1
      (prepareFill F photo' cellW cellH heap').1 := by
  have hcover : coverSize F photo' cellW cellH = coverSize F photo cellW cellH := by
    unfold coverSize
    rw [h.width, h.height]
  obtain ⟨hw, hh⟩ := coverSize_ge (F := F) photo cellW cellH
  unfold prepareFill
  simp only [hcover]
  generalize coverSize F photo cellW cellH = size at *
  obtain ⟨tmp, heap₁, hroom₁, hresize⟩ := resizeNearest_roomy hroom photo size
  obtain ⟨tmp', heap₁', hroom₁', hresize'⟩ := resizeNearest_roomy hroom' photo' size
  simp only [hresize, hresize']
  cases hrefusal : resizeRefusal blockSize size with
  | some e => exact rfl
  | none =>
      have hrows := rowsInWord_of_accepted hblock hsize hrefusal
      simp only [hroom₁.blockSize, hroom₁'.blockSize]
      split_ifs
      · exact rfl
      · obtain ⟨mem, heap₂, halloc, -⟩ := hroom₁.alloc
        obtain ⟨mem', heap₂', halloc', -⟩ := hroom₁'.alloc
        simp only [halloc, halloc']
        exact cropped_same h hphoto hphoto' hrows hw hh _ _ _ _ _ _

theorem prepareFit_same (hroom : Roomy 2 blockSize heap) (hroom' : Roomy 2 blockSize heap')
    (h : SamePicture photo photo') (hphoto : Delivered photo) (hphoto' : Delivered photo')
    (hcell : RowsInWord cellW (cellH.toNat - 1)) (bg : Rgb) :
    Matches SamePicture (prepareFit F photo cellW cellH heap bg).1
      (prepareFit F photo' cellW cellH heap' bg).1 := by
  have hfit : fitSize F photo' cellW cellH = fitSize F photo cellW cellH := by
    unfold fitSize
    rw [h.width, h.height]
  obtain ⟨hw, hh⟩ := fitSize_le (F := F) photo cellW cellH
  unfold prepareFit
  simp only [hfit, hroom.blockSize, hroom'.blockSize]
  generalize fitSize F photo cellW cellH = size at *
  split_ifs
  · exact rfl
  · obtain ⟨mem, heap₁, halloc, hroom₁⟩ := hroom.alloc
    obtain ⟨mem', heap₁', halloc', hroom₁'⟩ := hroom'.alloc
    obtain ⟨tmp, heap₂, -, hresize⟩ := resizeNearest_roomy hroom₁ photo size
    obtain ⟨tmp', heap₂', -, hresize'⟩ := resizeNearest_roomy hroom₁' photo' size
    simp only [halloc, halloc', hresize, hresize']
    cases resizeRefusal blockSize size with
    | some e => exact rfl
    | none =>
        exact pasted_same h hphoto hphoto' (hcell.mono (Nat.le_refl _) (by omega)) hw hh bg
          _ _ _ _ _ _

end Prepare

-- A job whose grid lies on the page, and whose sizes in bytes are not cut off.
structure JobFits (job : ImgJob F) : Prop where
  grid : GridFits (newCanvas job 0 fun _ => 0) job
  count : job.rows.toNat * job.cols.toNat < 2 ^ 32
  page : 3 * (job.pageW.toNat * job.pageH.toNat) < 2 ^ 64
  scaled : job.mode = .fill → ∀ photo, Delivered photo →
    3 * ((coverSize F photo job.photoSize.1 job.photoSize.2).1.toNat *
      (coverSize F photo job.photoSize.1 job.photoSize.2).2.toNat) < 2 ^ 64

section Layouts

variable {job : ImgJob F} {blockSize : UInt64} {canvas canvas' : ImgCanvas}
  {photo photo' : ImgBuffer} {arena arena' : ImgArena} {heap heap' : Heap}

-- The canvases of a job differ in their blocks only.

theorem CanvasFor.gridCell_eq (hcanvas : CanvasFor job blockSize canvas)
    (hcanvas' : CanvasFor job blockSize canvas') :
    gridCell canvas job = gridCell canvas' job := by
  funext n
  simp only [gridCell, gridX, gridY, hcanvas.photoW, hcanvas.photoH, hcanvas.startX,
    hcanvas.startY, hcanvas'.photoW, hcanvas'.photoH, hcanvas'.startX, hcanvas'.startY]

theorem JobFits.gridFits (hfits : JobFits job) (hcanvas : CanvasFor job blockSize canvas) :
    GridFits canvas job := by
  obtain ⟨hright, hbottom⟩ := hfits.grid
  constructor
  · rw [hcanvas.startX, hcanvas.photoW, hcanvas.width]
    exact hright
  · rw [hcanvas.startY, hcanvas.photoH, hcanvas.height]
    exact hbottom

-- A page on which the grid lies, in one block.
structure PageInBlock (canvas : ImgCanvas) : Prop where
  plain : Plain canvas.buf
  wide : 3 * canvas.buf.width.toNat + 32 < 2 ^ 32
  cell : RowsInWord canvas.photoWPx (canvas.photoHPx.toNat - 1)

theorem JobFits.page_block (hfits : JobFits job) (hcanvas : CanvasFor job blockSize canvas)
    (hblock : blockSize.toNat + 32 < 2 ^ 31) : PageInBlock canvas := by
  obtain ⟨hright, hbottom⟩ := hfits.gridFits hcanvas
  have hw := hcanvas.photoW_pos
  have hh := hcanvas.photoH_pos
  have hcols : 1 ≤ job.cols.toNat :=
    Nat.one_le_iff_ne_zero.mpr fun h => hcanvas.cols (UInt32.toNat_inj.mp h)
  have hrows : 1 ≤ job.rows.toNat :=
    Nat.one_le_iff_ne_zero.mpr fun h => hcanvas.rows (UInt32.toNat_inj.mp h)
  have hcellW : canvas.photoWPx.toNat ≤ job.cols.toNat * canvas.photoWPx.toNat :=
    Nat.le_mul_of_pos_left _ hcols
  have hcellH : canvas.photoHPx.toNat ≤ job.rows.toNat * canvas.photoHPx.toNat :=
    Nat.le_mul_of_pos_left _ hrows
  have hpage := hfits.page
  rw [← hcanvas.width, ← hcanvas.height] at hpage
  have hsize : 3 * (canvas.buf.width.toNat * canvas.buf.height.toNat) ≤ blockSize.toNat := by
    have h := UInt64.le_iff_toNat_le.mp hcanvas.size
    rwa [rgbSize_toNat, Nat.mul_comm _ 3, Nat.mod_eq_of_lt hpage] at h
  have hwidth : canvas.buf.width.toNat * 1 ≤ canvas.buf.width.toNat * canvas.buf.height.toNat :=
    Nat.mul_le_mul_left _ (by omega)
  have hheight : 1 * canvas.buf.height.toNat ≤ canvas.buf.width.toNat * canvas.buf.height.toNat :=
    Nat.mul_le_mul_right _ (by omega)
  have hcell : (canvas.photoHPx.toNat - 1) * (3 * canvas.photoWPx.toNat) ≤
      3 * (canvas.buf.width.toNat * canvas.buf.height.toNat) :=
    calc
      (canvas.photoHPx.toNat - 1) * (3 * canvas.photoWPx.toNat) ≤
          canvas.buf.height.toNat * (3 * canvas.buf.width.toNat) :=
        Nat.mul_le_mul (by omega) (by omega)
      _ = 3 * (canvas.buf.width.toNat * canvas.buf.height.toNat) := by ring
  refine ⟨⟨?_, by omega, by omega⟩, by omega, by omega, by omega⟩
  rw [hcanvas.stride, uint32_toNat_mul_three (by omega)]

theorem JobFits.background (hfits : JobFits job) (hcanvas : CanvasFor job blockSize canvas)
    (hcanvas' : CanvasFor job blockSize canvas') (hblock : blockSize.toNat + 32 < 2 ^ 31) :
    SamePicture canvas.buf canvas'.buf := by
  have hpage := hfits.page_block hcanvas hblock
  have hpage' := hfits.page_block hcanvas' hblock
  refine ⟨by rw [hcanvas.width, hcanvas'.width], by rw [hcanvas.height, hcanvas'.height],
    fun p hp => ?_⟩
  have hp' : picture.domain (picture.shape canvas'.buf) p := by
    rw [mem_domain] at hp ⊢
    rwa [hcanvas'.width, hcanvas'.height, ← hcanvas.width, ← hcanvas.height]
  rw [hcanvas.pixel hpage.plain hpage.wide hp, hcanvas'.pixel hpage'.plain hpage'.wide hp']

theorem prepareCell_same (hroom : Roomy 2 blockSize heap) (hroom' : Roomy 2 blockSize heap')
    (hblock : blockSize.toNat + 32 < 2 ^ 31) (hfits : JobFits job)
    (hcanvas : CanvasFor job blockSize canvas) (hcanvas' : CanvasFor job blockSize canvas')
    (h : SamePicture photo photo') (hphoto : Delivered photo) (hphoto' : Delivered photo') :
    Matches SamePicture (prepareCell canvas photo job heap).1
      (prepareCell canvas' photo' job heap').1 := by
  have hcell := (hfits.page_block hcanvas hblock).cell
  unfold prepareCell
  cases hmode : job.mode with
  | fit =>
      simp only [hcanvas'.photoW, hcanvas'.photoH, ← hcanvas.photoW, ← hcanvas.photoH]
      exact prepareFit_same hroom hroom' h hphoto hphoto' hcell job.bg
  | fill =>
      simp only [hcanvas'.photoW, hcanvas'.photoH, hcanvas.photoW, hcanvas.photoH]
      exact prepareFill_same hroom hroom' (by omega) h hphoto hphoto'
        (hfits.scaled hmode photo hphoto)

omit [FloatType F] in
-- The cells of a grid on the page share no pixel.
theorem gridCell_unique (hgrid : GridFits canvas job) {p : Int × Int} {m n : Nat}
    (hm : m < job.rows.toNat * job.cols.toNat) (hn : n < job.rows.toNat * job.cols.toNat)
    (hpm : InCell (gridCell canvas job m) p) (hpn : InCell (gridCell canvas job n) p) : m = n := by
  by_contra hne
  have hapart := hgrid.apart hm hn hne
  unfold Apart at hapart
  unfold InCell InRect at hpm hpn
  omega

theorem placeCells_same {scaled scaled' : ImgBuffer} (hblock : blockSize.toNat + 32 < 2 ^ 31)
    (hfits : JobFits job) (hcanvas : CanvasFor job blockSize canvas)
    (hcanvas' : CanvasFor job blockSize canvas') (h : SamePicture scaled scaled')
    (hscaled : Prepared blockSize canvas.photoWPx canvas.photoHPx scaled)
    (hscaled' : Prepared blockSize canvas'.photoWPx canvas'.photoHPx scaled')
    (cells cells' : CellArray) :
    SamePicture (placeCells canvas scaled job cells).buf
      (placeCells canvas' scaled' job cells').buf := by
  have hpage := hfits.page_block hcanvas hblock
  have hpage' := hfits.page_block hcanvas' hblock
  have hgrid := hfits.gridFits hcanvas
  have hpainted := placeCells_painted cells hpage.plain hcanvas.data hscaled.data hscaled.width
    hscaled.height hpage.wide fun n hn => (hgrid.coordinate hn).2.2
  have hpainted' := placeCells_painted cells' hpage'.plain hcanvas'.data hscaled'.data
    hscaled'.width hscaled'.height hpage'.wide
    fun n hn => ((hfits.gridFits hcanvas').coordinate hn).2.2
  rw [← hcanvas.gridCell_eq hcanvas'] at hpainted'
  -- inside of a cell both photos show the same
  have himage : ∀ n p, InCell (gridCell canvas job n) p →
      imageAt scaled' (gridCell canvas job n) p = imageAt scaled (gridCell canvas job n) p := by
    intro n p hin
    refine (h.pixel _ ?_).symm
    obtain ⟨hx, hx', hy, hy'⟩ := hin
    have hw : (gridCell canvas job n).w = scaled.width := hscaled.width.symm
    have hh : (gridCell canvas job n).h = scaled.height := hscaled.height.symm
    rw [hw] at hx'
    rw [hh] at hy'
    rw [mem_domain]
    omega
  refine (hfits.background hcanvas hcanvas' hblock).painted hpainted
    (hpainted'.congr fun p _ v => ?_) ?_
  · constructor
    · rintro ⟨n, hn, hin, rfl⟩
      exact ⟨n, hn, hin, himage n p hin⟩
    · rintro ⟨n, hn, hin, rfl⟩
      exact ⟨n, hn, hin, (himage n p hin).symm⟩
  · rintro p v v' ⟨m, hm, hinm, rfl⟩ ⟨n, hn, hinn, rfl⟩
    rw [gridCell_unique hgrid hm hn hinm hinn]

-- Two layouts of a job on canvases that show the same, with the same cells.
structure SameLayout (job : ImgJob F) (canvas canvas' : ImgCanvas)
    (laid laid' : ImgCanvas × ImgLayout) : Prop where
  same : SamePicture laid.1.buf laid'.1.buf
  shape : picture.shape laid.1.buf = picture.shape canvas.buf
  shape' : picture.shape laid'.1.buf = picture.shape canvas'.buf
  cells : Cells laid.2 (job.rows.toNat * job.cols.toNat) (gridCell canvas job)
  cells' : Cells laid'.2 (job.rows.toNat * job.cols.toNat) (gridCell canvas job)

-- Arenas that differ in what their memory holds.
structure SameArena (arena arena' : ImgArena) : Prop where
  size : arena'.size = arena.size
  offset : arena'.offset = arena.offset

theorem imgArenaAlloc_same (harena : SameArena arena arena') (size : UInt64) :
    (imgArenaAlloc arena' size).map Prod.fst = (imgArenaAlloc arena size).map Prod.fst := by
  simp only [imgArenaAlloc, harena.size, harena.offset]
  split_ifs
  · rfl
  · rfl

theorem imgLayoutGrid_of_prepared {scaled : ImgBuffer} {heap₁ : Heap} {taken : UInt64 × ImgArena}
    (hprepare : prepareCell canvas photo job heap = (.ok scaled, heap₁))
    (htaken : imgArenaAlloc arena (16 * (job.cols * job.rows).toUInt64) = some taken) :
    ∃ laid, imgLayoutGrid canvas photo job arena heap = (.ok laid, heap₁.release scaled.data) ∧
      laid.1.buf = (placeCells canvas scaled job (CellArray.inArena taken.2 taken.1)).buf := by
  simp only [imgLayoutGrid, hprepare, htaken]
  exact ⟨_, rfl, rfl⟩

theorem imgLayoutGrid_same (hroom : Roomy 2 blockSize heap) (hroom' : Roomy 2 blockSize heap')
    (hblock : blockSize.toNat + 32 < 2 ^ 31) (hfits : JobFits job)
    (hcanvas : CanvasFor job blockSize canvas) (hcanvas' : CanvasFor job blockSize canvas')
    (h : SamePicture photo photo') (hphoto : Delivered photo) (hphoto' : Delivered photo')
    (harena : SameArena arena arena') :
    Matches (SameLayout job canvas canvas') (imgLayoutGrid canvas photo job arena heap).1
      (imgLayoutGrid canvas' photo' job arena' heap').1 := by
  have hcell := prepareCell_same hroom hroom' hblock hfits hcanvas hcanvas' h hphoto hphoto'
  have hgrid := hfits.gridFits hcanvas
  have hgrid' := hfits.gridFits hcanvas'
  rcases hprepare : prepareCell canvas photo job heap with ⟨e | scaled, heap₁⟩
  all_goals rcases hprepare' : prepareCell canvas' photo' job heap' with ⟨e' | scaled', heap₁'⟩
  all_goals rw [hprepare, hprepare'] at hcell
  · obtain rfl : e = e' := hcell
    simp only [imgLayoutGrid, hprepare, hprepare']
    exact rfl
  · exact hcell.elim
  · exact hcell.elim
  · have halloc := imgArenaAlloc_same harena (16 * (job.cols * job.rows).toUInt64)
    cases htaken : imgArenaAlloc arena (16 * (job.cols * job.rows).toUInt64) with
    | none =>
        rw [htaken] at halloc
        have hnone := Option.map_eq_none_iff.mp halloc
        simp only [imgLayoutGrid, hprepare, hprepare', htaken, hnone]
        exact rfl
    | some taken =>
        rw [htaken] at halloc
        obtain ⟨taken', htaken', -⟩ := Option.map_eq_some_iff.mp halloc
        obtain ⟨laid, hlaid, hbuf⟩ := imgLayoutGrid_of_prepared hprepare htaken
        obtain ⟨laid', hlaid', hbuf'⟩ := imgLayoutGrid_of_prepared hprepare' htaken'
        have hscaled := prepareCell_ok hprepare
        have hscaled' := prepareCell_ok hprepare'
        rw [hroom.blockSize] at hscaled
        rw [hroom'.blockSize] at hscaled'
        have hcells' := imgLayoutGrid_cells hgrid' hfits.count hlaid'
        rw [← hcanvas.gridCell_eq hcanvas'] at hcells'
        rw [hlaid, hlaid']
        refine ⟨?_, imgLayoutGrid_shape hlaid, imgLayoutGrid_shape hlaid',
          imgLayoutGrid_cells hgrid hfits.count hlaid, hcells'⟩
        rw [hbuf, hbuf']
        exact placeCells_same hblock hfits hcanvas hcanvas' hcell hscaled hscaled' _ _

end Layouts

end ImgEngine.Pipeline
