import ImgEngine.Pipeline.Sheet.Accesses
import ImgEngine.Pipeline.Sheet.Theorems

namespace ImgEngine.Pipeline

open ImgEngine.Library.Loop ImgEngine.Library.Painting

section Clamp

variable {canvas : ImgBuffer} {layout layout' : ImgLayout} {bleedPx : UInt32}

-- The counted cells in the order of the passes.
def ImgLayout.cellList (layout : ImgLayout) : List ImgCell :=
  (List.range layout.count.toNat).map layout.cell

theorem mem_cellList {c : ImgCell} :
    c ∈ layout.cellList ↔ ∃ i < layout.count.toNat, layout.cell i = c := by
  simp only [ImgLayout.cellList, List.mem_map, List.mem_range]

-- The rectangles of two cells, enlarged by the bleed, share no pixel of the canvas.
def RingsApart (canvas : ImgBuffer) (bleed : Nat) (c other : ImgCell) : Prop :=
  ∀ p, picture.domain (picture.shape canvas) p → Within c bleed p → ¬Within other bleed p

theorem RingsApart.symm {bleed : Nat} {c other : ImgCell} (h : RingsApart canvas bleed c other) :
    RingsApart canvas bleed other c := fun p hp hin hother => h p hp hother hin

-- Cells on the canvas whose bleeds do not meet, and a bleed that is an int32_t.
structure Bleedable (canvas : ImgBuffer) (layout : ImgLayout) (bleedPx : UInt32) : Prop where
  raster : IntRaster canvas
  bleed : bleedPx.toNat < 2 ^ 31
  inside : ∀ c ∈ layout.cellList, CellInside canvas c
  apart : layout.cellList.Pairwise (RingsApart canvas bleedPx.toNat)

theorem Bleedable.cell (h : Bleedable canvas layout bleedPx) {i : Nat}
    (hi : i < layout.count.toNat) : CellInside canvas (layout.cell i) :=
  h.inside _ (mem_cellList.mpr ⟨i, hi, rfl⟩)

theorem Bleedable.rings (h : Bleedable canvas layout bleedPx) {i j : Nat}
    (hi : i < layout.count.toNat) (hj : j < layout.count.toNat) (hne : i ≠ j) :
    RingsApart canvas bleedPx.toNat (layout.cell i) (layout.cell j) := by
  have hapart := List.pairwise_map.mp h.apart
  have hlt : ∀ i j, i < j → j < layout.count.toNat →
      RingsApart canvas bleedPx.toNat (layout.cell i) (layout.cell j) := by
    intro i j hij hj
    have hget := List.pairwise_iff_getElem.mp hapart i j (by simp; omega) (by simpa using hj) hij
    simpa only [List.getElem_range] using hget
  rcases Nat.lt_or_gt_of_ne hne with hij | hji
  · exact hlt i j hij hj
  · exact (hlt j i hji hi).symm

theorem Bleedable.perm (h : Bleedable canvas layout bleedPx)
    (hperm : layout'.cellList.Perm layout.cellList) : Bleedable canvas layout' bleedPx :=
  ⟨h.raster, h.bleed, fun c hc => h.inside c (hperm.mem_iff.mp hc),
    (hperm.pairwise_iff fun hrings => hrings.symm).mpr h.apart⟩

-- What the bleed leaves, pixel by pixel and byte by byte.
structure ClampedToEdge (canvas : ImgBuffer) (layout : ImgLayout) (bleedPx : UInt32)
    (canvas' : ImgBuffer) : Prop where
  shape : picture.shape canvas' = picture.shape canvas
  enlarged : ∀ p, picture.domain (picture.shape canvas) p → ∀ c ∈ layout.cellList,
    Within c bleedPx.toNat p → canvas'.pixel p = canvas.pixel (clampCell c p)
  cell : ∀ p, ∀ c ∈ layout.cellList, InCell c p → canvas'.pixel p = canvas.pixel p
  outside : ∀ p, picture.domain (picture.shape canvas) p →
    (∀ c ∈ layout.cellList, ¬Within c bleedPx.toNat p) → canvas'.pixel p = canvas.pixel p
  offPixels : ∀ i, OffPixels canvas i → canvas'.bytes i = canvas.bytes i

theorem CellInside.domain {c : ImgCell} {p : Int × Int} (h : CellInside canvas c) (hp : InCell c p) :
    picture.domain (picture.shape canvas) p := by
  obtain ⟨-, -, hright, hbottom⟩ := h
  obtain ⟨hx, hx', hy, hy'⟩ := hp
  rw [mem_domain]
  omega

theorem imgApplyBleed_clamped (h : Bleedable canvas layout bleedPx) {canvas' : ImgBuffer}
    (hbleed : imgApplyBleed canvas layout bleedPx = .ok canvas') :
    ClampedToEdge canvas layout bleedPx canvas' := by
  have hread : Cells layout layout.count.toNat layout.cell := ⟨rfl, fun _ _ => rfl⟩
  -- a ring meets neither another cell nor another ring
  have hring : ∀ i < layout.count.toNat, ∀ j < layout.count.toNat, i ≠ j → ∀ p,
      Within (layout.cell i) bleedPx.toNat p → ¬InCell (layout.cell j) p :=
    fun i hi j hj hne p hwithin hin =>
      h.rings hi hj hne p ((h.cell hj).domain hin) hwithin (hin.within _)
  obtain ⟨buf', hok, hpainted⟩ := imgApplyBleed_painted h.raster hread
    (fun i hi => (h.cell hi).onCanvas) (fun i hi => (h.cell hi).small h.raster) h.bleed hring
  rw [hbleed, Except.ok.injEq] at hok
  subst hok
  have hcell : ∀ p, ∀ i < layout.count.toNat, InCell (layout.cell i) p →
      canvas'.pixel p = canvas.pixel p := by
    intro p i hi hin
    refine hpainted.kept ((h.cell hi).domain hin) ?_
    rintro v ⟨j, hj, ⟨hwithin, hout⟩, -⟩
    by_cases hji : j = i
    · exact hout (hji ▸ hin)
    · exact hring j hj i hi hji p hwithin hin
  obtain ⟨pass, hcopies, hpass⟩ := imgApplyBleed_copies h.raster (fun i => h.cell) bleedPx
  rw [hpass, Except.ok.injEq] at hbleed
  subst hbleed
  refine ⟨hpainted.1, fun p hp c hc hwithin => ?_, fun p c hc hin => ?_, fun p hp hout => ?_,
    fun i hi => hcopies.byte hi⟩
  · obtain ⟨i, hi, rfl⟩ := mem_cellList.mp hc
    by_cases hin : InCell (layout.cell i) p
    · rw [hcell p i hi hin, hin.clamp]
    · refine hpainted.color hp ⟨i, hi, ⟨hwithin, hin⟩, rfl⟩ ?_
      rintro v ⟨j, hj, ⟨hwithin', -⟩, rfl⟩
      by_cases hji : j = i
      · rw [hji]
      · exact absurd hwithin (h.rings hj hi hji p hp hwithin')
  · obtain ⟨i, hi, rfl⟩ := mem_cellList.mp hc
    exact hcell p i hi hin
  · refine hpainted.kept hp ?_
    rintro v ⟨i, hi, ⟨hwithin, -⟩, -⟩
    exact hout _ (mem_cellList.mpr ⟨i, hi, rfl⟩) hwithin

-- Two buffers of one shape with the same pixels and the same bytes besides.
theorem eq_of_pixels {other : ImgBuffer} (hshape : picture.shape other = picture.shape canvas)
    (hpixel : ∀ p, picture.domain (picture.shape canvas) p → other.pixel p = canvas.pixel p)
    (hbyte : ∀ i, OffPixels canvas i → other.bytes i = canvas.bytes i) : other = canvas := by
  have hbytes : other.bytes = canvas.bytes := by
    funext i
    by_cases hi : OffPixels canvas i
    · exact hbyte i hi
    · unfold OffPixels at hi
      push Not at hi
      obtain ⟨p, hp, hlow, hhigh⟩ := hi
      have hrgb := hpixel p hp
      unfold ImgBuffer.pixel at hrgb
      rw [offset_of_shape hshape] at hrgb
      simp only [Bytes.getRgb, Rgb.mk.injEq] at hrgb
      obtain ⟨hr, hg, hb⟩ := hrgb
      have hplace : i = canvas.offset p.1 p.2 ∨ i = canvas.offset p.1 p.2 + 1 ∨
        i = canvas.offset p.1 p.2 + 2 := by omega
      rcases hplace with rfl | rfl | rfl
      · exact hr
      · exact hg
      · exact hb
  rw [eq_of_shape hshape, hbytes]

-- The order of the cells does not matter.
theorem ClampedToEdge.unique {one other : ImgBuffer} (h : ClampedToEdge canvas layout bleedPx one)
    (h' : ClampedToEdge canvas layout' bleedPx other)
    (hperm : layout'.cellList.Perm layout.cellList) : other = one := by
  refine eq_of_pixels (h'.shape.trans h.shape.symm) (fun p hp => ?_) fun i hi => ?_
  · have hp : picture.domain (picture.shape canvas) p := h.shape ▸ hp
    by_cases hwithin : ∃ c ∈ layout.cellList, Within c bleedPx.toNat p
    · obtain ⟨c, hc, hwithin⟩ := hwithin
      rw [h.enlarged p hp c hc hwithin, h'.enlarged p hp c (hperm.mem_iff.mpr hc) hwithin]
    · push Not at hwithin
      rw [h.outside p hp hwithin, h'.outside p hp fun c hc => hwithin c (hperm.mem_iff.mp hc)]
  · have hoff : OffPixels canvas i := by
      intro p hp
      rw [← offset_of_shape h.shape]
      exact hi p (h.shape.symm ▸ hp)
    rw [h.offPixels i hoff, h'.offPixels i hoff]

-- The bleed copies pixels of the canvas to pixels of the canvas, whatever they show,
-- and repeats the edges of the cells around them.
theorem imgApplyBleed_clampsToEdge (h : Bleedable canvas layout bleedPx) :
    (∀ p, picture.domain (picture.shape canvas) p →
      canvas.offset p.1 p.2 + 3 ≤ canvas.height.toNat * canvas.stride.toNat) ∧
    ∃ pass, CopiesPixels canvas pass ∧ (∀ s, imgApplyBleed s layout bleedPx = .ok (pass s)) ∧
      ClampedToEdge canvas layout bleedPx (pass canvas) ∧
      ∀ layout' : ImgLayout, layout'.cellList.Perm layout.cellList →
        imgApplyBleed canvas layout' bleedPx = imgApplyBleed canvas layout bleedPx := by
  refine ⟨fun p hp => h.raster.offset_le hp, ?_⟩
  obtain ⟨pass, hcopies, hpass⟩ := imgApplyBleed_copies h.raster (fun i => h.cell) bleedPx
  have hclamped := imgApplyBleed_clamped h (hpass canvas)
  refine ⟨pass, hcopies, hpass, hclamped, fun layout' hperm => ?_⟩
  have h' := h.perm hperm
  obtain ⟨pass', -, hpass'⟩ := imgApplyBleed_copies h'.raster (fun i => h'.cell) bleedPx
  rw [hpass, hpass', hclamped.unique (imgApplyBleed_clamped h' (hpass' canvas)) hperm]

-- A row of four pixels and four bytes more, with a cell of one pixel at each end.

def paddedRow : ImgBuffer where
  data := 64
  bytes i := .ofNat i
  width := 4
  height := 1
  channels := 3
  stride := 16

def bothEnds : ImgLayout where
  cells := { stale := fun i => ⟨if i = 0 then 0 else 3, 0, 1, 1⟩, written := fun _ => none }
  count := 2
  blits := []

theorem imgApplyBleed_clampsToEdge_ends :
    ∃ canvas', imgApplyBleed paddedRow bothEnds 1 = .ok canvas' ∧
      ClampedToEdge paddedRow bothEnds 1 canvas' ∧ canvas'.pixel (1, 0) = ⟨0, 1, 2⟩ := by
  have hlist : bothEnds.cellList = [⟨0, 0, 1, 1⟩, ⟨3, 0, 1, 1⟩] := rfl
  have hone : (1 : UInt32).toNat = 1 := rfl
  have h : Bleedable paddedRow bothEnds 1 := by
    refine ⟨⟨⟨by decide⟩, by decide⟩, by decide, ?_, ?_⟩
    · intro c hc
      rw [hlist] at hc
      rcases List.mem_pair.mp hc with rfl | rfl
      · exact ⟨by decide, by decide, by decide, by decide⟩
      · exact ⟨by decide, by decide, by decide, by decide⟩
    · rw [hlist]
      refine List.pairwise_pair.mpr fun p _ hwithin hwithin' => ?_
      have hthree : (3 : UInt32).toNat = 3 := rfl
      have hzero : (0 : UInt32).toNat = 0 := rfl
      unfold Within InRect at hwithin hwithin'
      simp only [hone, hthree, hzero] at hwithin hwithin'
      omega
  obtain ⟨-, pass, -, hpass, hclamped, -⟩ := imgApplyBleed_clampsToEdge h
  refine ⟨pass paddedRow, hpass paddedRow, hclamped, ?_⟩
  have hfirst : (⟨0, 0, 1, 1⟩ : ImgCell) ∈ bothEnds.cellList := by
    rw [hlist]
    exact List.mem_cons_self
  rw [hclamped.enlarged (1, 0) (by rw [mem_domain]; decide) _ hfirst (by unfold Within; decide)]
  decide

end Clamp

end ImgEngine.Pipeline
