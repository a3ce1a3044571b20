import ImgEngine.Library.Painting
import ImgEngine.Pipeline.Border
import ImgEngine.Pipeline.CropMarks

namespace ImgEngine.Pipeline

open ImgEngine.Library.Loop ImgEngine.Library.Painting

-- A buffer as a picture. Its shape is all of the buffer but the bytes.
def picture : Surface ImgBuffer (Int × Int) Rgb ImgBuffer where
  shape buf := { buf with bytes := fun _ => 0 }
  view := ImgBuffer.pixel
  domain shape p := 0 ≤ p.1 ∧ p.1 < shape.width.toNat ∧ 0 ≤ p.2 ∧ p.2 < shape.height.toNat

-- A row holds the pixels that lie in it, and perhaps more bytes behind them.
structure Raster (buf : ImgBuffer) : Prop where
  stride : 3 * buf.width.toNat ≤ buf.stride.toNat

-- The loops that compare with the height as an int32_t.
structure IntRaster (buf : ImgBuffer) : Prop extends Raster buf where
  height : buf.height.toNat < 2 ^ 31

-- The rows follow each other without gaps, and coordinates are int32_t.
structure Plain (buf : ImgBuffer) : Prop where
  stride : buf.stride.toNat = 3 * buf.width.toNat
  width : buf.width.toNat < 2 ^ 31
  height : buf.height.toNat < 2 ^ 31

def InRect (x y w h : Int) (p : Int × Int) : Prop :=
  x ≤ p.1 ∧ p.1 < x + w ∧ y ≤ p.2 ∧ p.2 < y + h

section Pixels

variable {buf other : ImgBuffer} {x y : Int} {p : Int × Int} {color : Rgb}

theorem mem_domain : picture.domain (picture.shape buf) p ↔
    0 ≤ p.1 ∧ p.1 < buf.width.toNat ∧ 0 ≤ p.2 ∧ p.2 < buf.height.toNat := Iff.rfl

theorem shape_eq_iff : picture.shape other = picture.shape buf ↔
    other.data = buf.data ∧ other.width = buf.width ∧ other.height = buf.height ∧
      other.channels = buf.channels ∧ other.stride = buf.stride := by
  change ImgBuffer.mk other.data _ other.width other.height other.channels other.stride =
    ImgBuffer.mk buf.data _ buf.width buf.height buf.channels buf.stride ↔ _
  rw [ImgBuffer.mk.injEq]
  tauto

theorem Raster.of_shape (h : Raster buf) (hshape : picture.shape other = picture.shape buf) :
    Raster other := by
  obtain ⟨-, hwidth, -, -, hstride⟩ := shape_eq_iff.mp hshape
  exact ⟨by rw [hwidth, hstride]; exact h.stride⟩

theorem IntRaster.of_shape (h : IntRaster buf) (hshape : picture.shape other = picture.shape buf) :
    IntRaster other := by
  obtain ⟨-, -, hheight, -⟩ := shape_eq_iff.mp hshape
  exact ⟨h.toRaster.of_shape hshape, by rw [hheight]; exact h.height⟩

theorem Plain.of_shape (h : Plain buf) (hshape : picture.shape other = picture.shape buf) :
    Plain other := by
  obtain ⟨-, hwidth, hheight, -, hstride⟩ := shape_eq_iff.mp hshape
  exact ⟨by rw [hwidth, hstride]; exact h.stride, by rw [hwidth]; exact h.width,
    by rw [hheight]; exact h.height⟩

theorem Plain.intRaster (h : Plain buf) : IntRaster buf := ⟨⟨h.stride.ge⟩, h.height⟩

-- A stride is a word.
theorem Raster.width (h : Raster buf) : buf.width.toNat < 2 ^ 31 := by
  have hle := h.stride
  have hlt := buf.stride.toNat_lt
  omega

theorem Raster.offset (h : Raster buf) (hp : picture.domain (picture.shape buf) p) :
    buf.offset p.1 p.2 = p.2.toNat * buf.stride.toNat + 3 * p.1.toNat := by
  obtain ⟨hx, hx', hy, hy'⟩ := mem_domain.mp hp
  have hwidth := h.width
  have hheight := buf.height.toNat_lt
  rw [ImgBuffer.offset, sizeT_of_nonneg hx (by omega), sizeT_of_nonneg hy (by omega),
    Nat.mul_comm p.1.toNat]

theorem Plain.offset (h : Plain buf) (hp : picture.domain (picture.shape buf) p) :
    buf.offset p.1 p.2 = 3 * (p.2.toNat * buf.width.toNat + p.1.toNat) := by
  rw [h.intRaster.offset hp, h.stride]
  ring

theorem eq_of_shape (hshape : picture.shape other = picture.shape buf) :
    other = { buf with bytes := other.bytes } := by
  obtain ⟨hdata, hwidth, hheight, hchannels, hstride⟩ := shape_eq_iff.mp hshape
  rw [← hdata, ← hwidth, ← hheight, ← hchannels, ← hstride]

-- A row and a place in it are determined by the index.
theorem row_unique {size row row' i i' : Nat} (hi : i < size) (hi' : i' < size)
    (h : row * size + i = row' * size + i') : row = row' ∧ i = i' := by
  have hpos : 0 < size := Nat.zero_lt_of_lt hi
  have hmod := congrArg (· % size) h
  have hdiv := congrArg (· / size) h
  simp only [Nat.mul_add_mod_of_lt hi, Nat.mul_add_mod_of_lt hi'] at hmod
  rw [Nat.mul_comm, Nat.mul_comm row'] at hdiv
  simp only [Nat.mul_add_div hpos, Nat.div_eq_of_lt hi, Nat.div_eq_of_lt hi', Nat.add_zero] at hdiv
  exact ⟨hdiv, hmod⟩

-- A row and the next one.
theorem row_le {row row' : Nat} (size : Nat) (h : row < row') : row * size + size ≤ row' * size := by
  rw [← Nat.succ_mul]
  exact Nat.mul_le_mul_right _ h

-- Two pixels of rows that hold their width share no byte.
theorem pixels_apart {width stride x y x' y' : Nat} (hstride : 3 * width ≤ stride) (hx : x < width)
    (hx' : x' < width) (hne : ¬(x = x' ∧ y = y')) :
    y * stride + 3 * x + 3 ≤ y' * stride + 3 * x' ∨ y' * stride + 3 * x' + 3 ≤ y * stride + 3 * x := by
  rcases Nat.lt_trichotomy y y' with hlt | rfl | hlt
  · have hrow := row_le stride hlt
    omega
  · omega
  · have hrow := row_le stride hlt
    omega

theorem Raster.apart (h : Raster buf) {q : Int × Int} (hp : picture.domain (picture.shape buf) p)
    (hq : picture.domain (picture.shape buf) q) (hne : p ≠ q) :
    buf.offset p.1 p.2 + 3 ≤ buf.offset q.1 q.2 ∨
      buf.offset q.1 q.2 + 3 ≤ buf.offset p.1 p.2 := by
  rw [h.offset hp, h.offset hq]
  obtain ⟨hx, hx', hy, -⟩ := mem_domain.mp hp
  obtain ⟨hqx, hqx', hqy, -⟩ := mem_domain.mp hq
  have hne : ¬(p.1.toNat = q.1.toNat ∧ p.2.toNat = q.2.toNat) := fun ⟨hcol, hrow⟩ =>
    hne (Prod.ext (by omega) (by omega))
  exact pixels_apart h.stride (by omega) (by omega) hne

-- A pixel of a picture lies in its rows.
theorem Raster.offset_le (h : Raster buf) (hp : picture.domain (picture.shape buf) p) :
    buf.offset p.1 p.2 + 3 ≤ buf.height.toNat * buf.stride.toNat := by
  rw [h.offset hp]
  have hstride := h.stride
  obtain ⟨hx, hx', hy, hy'⟩ := mem_domain.mp hp
  have hrow := row_le buf.stride.toNat (show p.2.toNat < buf.height.toNat by omega)
  omega

theorem setPixel_painted (h : Raster buf) (hp : picture.domain (picture.shape buf) (x, y))
    (color : Rgb) :
    Painted picture (fun q v => q = (x, y) ∧ v = color) buf (buf.setPixel x y color) := by
  refine ⟨rfl, fun q hq => ?_⟩
  by_cases heq : q = (x, y)
  · refine .inl ⟨heq, ?_⟩
    rw [heq]
    exact Bytes.getRgb_setRgb _ _ _
  · exact .inr ⟨fun v hv => heq hv.1, Bytes.getRgb_setRgb_of_apart _ _ (h.apart hp hq (Ne.symm heq))⟩

theorem copyPixel_painted (h : Raster buf) (hp : picture.domain (picture.shape buf) (x, y))
    (src : Nat) :
    Painted picture (fun q v => q = (x, y) ∧ v = buf.bytes.getRgb src) buf
      (buf.copyPixel (buf.offset x y) src) := setPixel_painted h hp _

end Pixels

-- The loops that draw one color, each as the region that it paints.

section Regions

variable {buf : ImgBuffer} {color : Rgb}

theorem guarded_painted (h : Raster buf) {x y : Int} {P : Prop} [Decidable P]
    (hP : ¬P ↔ picture.domain (picture.shape buf) (x, y)) (color : Rgb) :
    Painted picture (fun p v => p = (x, y) ∧ v = color) buf
      (if P then buf else buf.setPixel x y color) := by
  split_ifs with hguard
  · refine .refl fun p hp v hv => ?_
    rw [hv.1] at hp
    exact hP.mpr hp hguard
  · exact setPixel_painted h (hP.mp hguard) color

theorem fillRect_painted (h : IntRaster buf) (x y w h' : Int) (color : Rgb) :
    Painted picture (fun p v => InRect x y w h' p ∧ v = color) buf
      (fillRect buf x y w h' color) := by
  have hwidth := h.width
  have hheight := h.height
  have hcw : int32 buf.width = buf.width.toNat := int32_of_lt hwidth
  have hcht : int32 buf.height = buf.height.toNat := int32_of_lt hheight
  have hloop : Painted picture
      (fun p v => ∃ py, y ≤ py ∧ py < y + h' ∧ ∃ px, x ≤ px ∧ px < x + w ∧ p = (px, py) ∧ v = color)
      buf (fillRect buf x y w h' color) := by
    unfold fillRect
    rw [hcw, hcht]
    refine Painted.forUp (fun py p v => ∃ px, x ≤ px ∧ px < x + w ∧ p = (px, py) ∧ v = color) ?_
    intro py _ _ s hs
    obtain ⟨-, hsw, hsh, -⟩ := shape_eq_iff.mp hs.1
    split_ifs with hrow
    · refine .refl fun p hp v ⟨px, _, _, heq, _⟩ => ?_
      rw [heq] at hp
      have hlow := hp.2.2.1
      have hhigh : py < s.height.toNat := hp.2.2.2
      rw [hsh] at hhigh
      dsimp only at hlow
      omega
    · refine Painted.forUp (fun px p v => p = (px, py) ∧ v = color) ?_
      intro px _ _ t ht
      obtain ⟨-, htw, hth, -⟩ := shape_eq_iff.mp ht.1
      refine guarded_painted ((h.of_shape hs.1).of_shape ht.1).toRaster ?_ color
      change _ ↔ 0 ≤ px ∧ px < t.width.toNat ∧ 0 ≤ py ∧ py < t.height.toNat
      rw [htw, hth, hsw, hsh]
      omega
  refine hloop.congr fun p _ v => ?_
  constructor
  · rintro ⟨py, hy, hy', px, hx, hx', rfl, rfl⟩
    exact ⟨⟨hx, hx', hy, hy'⟩, rfl⟩
  · rintro ⟨⟨hx, hx', hy, hy'⟩, rfl⟩
    exact ⟨p.2, hy, hy', p.1, hx, hx', rfl, rfl⟩

theorem setPx_painted (h : Raster buf) (x y : Int) (color : Rgb) :
    Painted picture (fun p v => p = (x, y) ∧ v = color) buf (setPx buf x y color) := by
  refine guarded_painted h ?_ color
  change _ ↔ 0 ≤ x ∧ x < buf.width.toNat ∧ 0 ≤ y ∧ y < buf.height.toNat
  omega

theorem int32_ofNat {t n : Nat} (ht : t < n) (hn : n < 2 ^ 31) : int32 (.ofNat t) = t := by
  have hlt : (UInt32.ofNat t).toNat = t := uint32_toNat_ofNat (by omega)
  rw [int32_of_lt (by omega), hlt]

-- The bars of the crop marks. A line of a bar is int32_t(t) below or right of the
-- first one, which is t itself on bars thinner than 2^31.

def BarH (x y len : Int) (th : UInt32) (p : Int × Int) : Prop :=
  ∃ t < th.toNat, p.2 = y + int32 (.ofNat t) ∧ x ≤ p.1 ∧ p.1 < x + len

def BarV (x y len : Int) (th : UInt32) (p : Int × Int) : Prop :=
  ∃ t < th.toNat, p.1 = x + int32 (.ofNat t) ∧ y ≤ p.2 ∧ p.2 < y + len

theorem drawH_painted (h : Raster buf) (x y len : Int) (th : UInt32) (color : Rgb) :
    Painted picture (fun p v => BarH x y len th p ∧ v = color) buf (drawH buf x y len th color) := by
  have hloop : Painted picture
      (fun p v => ∃ t < th.toNat, ∃ i, 0 ≤ i ∧ i < len ∧ p = (x + i, y + int32 (.ofNat t)) ∧
        v = color) buf (drawH buf x y len th color) := by
    refine Painted.forRange
      (fun t p v => ∃ i, 0 ≤ i ∧ i < len ∧ p = (x + i, y + int32 (.ofNat t)) ∧ v = color) ?_
    intro t _ s hs
    refine Painted.forUp (fun i p v => p = (x + i, y + int32 (.ofNat t)) ∧ v = color) ?_
    intro i _ _ s' hs'
    exact setPx_painted ((h.of_shape hs.1).of_shape hs'.1) _ _ color
  refine hloop.congr fun p _ v => ?_
  constructor
  · rintro ⟨t, ht, i, hi, hi', rfl, rfl⟩
    exact ⟨⟨t, ht, rfl, by dsimp only; omega, by dsimp only; omega⟩, rfl⟩
  · rintro ⟨⟨t, ht, hrow, hx, hx'⟩, rfl⟩
    exact ⟨t, ht, p.1 - x, by omega, by omega, Prod.ext (by dsimp only; omega) hrow, rfl⟩

theorem drawV_painted (h : Raster buf) (x y len : Int) (th : UInt32) (color : Rgb) :
    Painted picture (fun p v => BarV x y len th p ∧ v = color) buf (drawV buf x y len th color) := by
  have hloop : Painted picture
      (fun p v => ∃ t < th.toNat, ∃ i, 0 ≤ i ∧ i < len ∧ p = (x + int32 (.ofNat t), y + i) ∧
        v = color) buf (drawV buf x y len th color) := by
    refine Painted.forRange
      (fun t p v => ∃ i, 0 ≤ i ∧ i < len ∧ p = (x + int32 (.ofNat t), y + i) ∧ v = color) ?_
    intro t _ s hs
    refine Painted.forUp (fun i p v => p = (x + int32 (.ofNat t), y + i) ∧ v = color) ?_
    intro i _ _ s' hs'
    exact setPx_painted ((h.of_shape hs.1).of_shape hs'.1) _ _ color
  refine hloop.congr fun p _ v => ?_
  constructor
  · rintro ⟨t, ht, i, hi, hi', rfl, rfl⟩
    exact ⟨⟨t, ht, rfl, by dsimp only; omega, by dsimp only; omega⟩, rfl⟩
  · rintro ⟨⟨t, ht, hcol, hy, hy'⟩, rfl⟩
    exact ⟨t, ht, p.2 - y, by omega, by omega, Prod.ext hcol (by dsimp only; omega), rfl⟩

theorem exists_line_iff {th : UInt32} (hth : th.toNat < 2 ^ 31) {x y : Int} :
    (∃ t < th.toNat, x = y + int32 (.ofNat t)) ↔ y ≤ x ∧ x < y + th.toNat := by
  constructor
  · rintro ⟨t, ht, rfl⟩
    rw [int32_ofNat ht hth]
    omega
  · rintro ⟨hlow, hhigh⟩
    have ht : (x - y).toNat < th.toNat := by omega
    refine ⟨(x - y).toNat, ht, ?_⟩
    rw [int32_ofNat ht hth]
    omega

theorem barH_iff {th : UInt32} (hth : th.toNat < 2 ^ 31) {x y len : Int} {p : Int × Int} :
    BarH x y len th p ↔ InRect x y len th.toNat p := by
  have hline := @exists_line_iff th hth p.2 y
  constructor
  · rintro ⟨t, ht, hrow, hx, hx'⟩
    exact ⟨hx, hx', hline.mp ⟨t, ht, hrow⟩⟩
  · rintro ⟨hx, hx', hy⟩
    obtain ⟨t, ht, hrow⟩ := hline.mpr hy
    exact ⟨t, ht, hrow, hx, hx'⟩

theorem barV_iff {th : UInt32} (hth : th.toNat < 2 ^ 31) {x y len : Int} {p : Int × Int} :
    BarV x y len th p ↔ InRect x y th.toNat len p := by
  have hline := @exists_line_iff th hth p.1 x
  constructor
  · rintro ⟨t, ht, hcol, hy, hy'⟩
    obtain ⟨hx, hx'⟩ := hline.mp ⟨t, ht, hcol⟩
    exact ⟨hx, hx', hy, hy'⟩
  · rintro ⟨hx, hx', hy, hy'⟩
    obtain ⟨t, ht, hcol⟩ := hline.mpr ⟨hx, hx'⟩
    exact ⟨t, ht, hcol, hy, hy'⟩

-- Drawing black over two regions one after the other.
theorem painted_black {buf buf' buf'' : ImgBuffer} {R R' : Int × Int → Prop}
    (h : Painted picture (fun p v => R p ∧ v = .black) buf buf')
    (h' : Painted picture (fun p v => R' p ∧ v = .black) buf' buf'') :
    Painted picture (fun p v => (R p ∨ R' p) ∧ v = .black) buf buf'' :=
  (h.trans h').congr fun _ _ _ => or_and_right.symm

end Regions

-- The points of a cell that are less than b pixels from one of its edges.
def NearEdge (c : ImgCell) (b : Nat) (p : Int × Int) : Prop :=
  InRect c.x.toNat c.y.toNat c.w.toNat c.h.toNat p ∧
    (p.1 < c.x.toNat + b ∨ c.x.toNat + c.w.toNat - b ≤ p.1 ∨
      p.2 < c.y.toNat + b ∨ c.y.toNat + c.h.toNat - b ≤ p.2)

-- The eight crop marks of a cell.
def OnMark (c : ImgCell) (off len th : Nat) (p : Int × Int) : Prop :=
  InRect (c.x.toNat - off - len) (c.y.toNat - off - th) len th p ∨
    InRect (c.x.toNat - off - th) (c.y.toNat - off - len) th len p ∨
    InRect (c.x.toNat + c.w.toNat + off) (c.y.toNat - off - th) len th p ∨
    InRect (c.x.toNat + c.w.toNat + off) (c.y.toNat - off - len) th len p ∨
    InRect (c.x.toNat - off - len) (c.y.toNat + c.h.toNat + off) len th p ∨
    InRect (c.x.toNat - off - th) (c.y.toNat + c.h.toNat + off) th len p ∨
    InRect (c.x.toNat + c.w.toNat + off) (c.y.toNat + c.h.toNat + off) len th p ∨
    InRect (c.x.toNat + c.w.toNat + off) (c.y.toNat + c.h.toNat + off) th len p

-- What the loops paint, for any width of the border and any size of the marks: the
-- four rectangles of a border and the eight bars of the marks.

def OnFrame (c : ImgCell) (b : Int) (p : Int × Int) : Prop :=
  InRect c.x.toNat c.y.toNat c.w.toNat b p ∨
    InRect c.x.toNat (c.y.toNat + c.h.toNat - b) c.w.toNat b p ∨
    InRect c.x.toNat c.y.toNat b c.h.toNat p ∨
    InRect (c.x.toNat + c.w.toNat - b) c.y.toNat b c.h.toNat p

def OnBars (c : ImgCell) (off len : Int) (th : UInt32) (p : Int × Int) : Prop :=
  BarH (c.x.toNat - off - len) (c.y.toNat - off - int32 th) len th p ∨
    BarV (c.x.toNat - off - int32 th) (c.y.toNat - off - len) len th p ∨
    BarH (c.x.toNat + c.w.toNat + off) (c.y.toNat - off - int32 th) len th p ∨
    BarV (c.x.toNat + c.w.toNat + off) (c.y.toNat - off - len) len th p ∨
    BarH (c.x.toNat - off - len) (c.y.toNat + c.h.toNat + off) len th p ∨
    BarV (c.x.toNat - off - int32 th) (c.y.toNat + c.h.toNat + off) len th p ∨
    BarH (c.x.toNat + c.w.toNat + off) (c.y.toNat + c.h.toNat + off) len th p ∨
    BarV (c.x.toNat + c.w.toNat + off) (c.y.toNat + c.h.toNat + off) len th p

theorem onFrame_iff {c : ImgCell} {b : Nat} (hw : b ≤ c.w.toNat) (hh : b ≤ c.h.toNat)
    {p : Int × Int} : OnFrame c b p ↔ NearEdge c b p := by
  unfold OnFrame NearEdge InRect
  omega

theorem onBars_iff {c : ImgCell} {off len : Nat} {th : UInt32} (hth : th.toNat < 2 ^ 31)
    {p : Int × Int} : OnBars c off len th p ↔ OnMark c off len th.toNat p := by
  simp only [OnBars, OnMark, barH_iff hth, barV_iff hth, int32_of_lt hth]

-- A cell on a canvas whose sides are int32_t.
structure SmallCell (c : ImgCell) : Prop where
  right : c.x.toNat + c.w.toNat < 2 ^ 31
  bottom : c.y.toNat + c.h.toNat < 2 ^ 31

section Cells

variable {buf : ImgBuffer} {c : ImgCell}

theorem SmallCell.int32 (h : SmallCell c) : int32 c.x = c.x.toNat ∧ int32 c.y = c.y.toNat ∧
    int32 c.w = c.w.toNat ∧ int32 c.h = c.h.toNat := by
  have hright := h.right
  have hbottom := h.bottom
  exact ⟨int32_of_lt (by omega), int32_of_lt (by omega), int32_of_lt (by omega),
    int32_of_lt (by omega)⟩

theorem drawBorder_painted (h : IntRaster buf) (hc : SmallCell c) (b : Int) :
    Painted picture (fun p v => OnFrame c b p ∧ v = .black) buf (drawBorder buf c b) := by
  obtain ⟨hx, hy, hw', hh'⟩ := hc.int32
  unfold drawBorder
  rw [hx, hy, hw', hh']
  have htop := fillRect_painted h c.x.toNat c.y.toNat c.w.toNat b .black
  have hbottom := painted_black htop (fillRect_painted (h.of_shape htop.1) c.x.toNat
    (c.y.toNat + c.h.toNat - b) c.w.toNat b .black)
  have hleft := painted_black hbottom (fillRect_painted (h.of_shape hbottom.1) c.x.toNat c.y.toNat b
    c.h.toNat .black)
  have hright := painted_black hleft (fillRect_painted (h.of_shape hleft.1) (c.x.toNat + c.w.toNat - b)
    c.y.toNat b c.h.toNat .black)
  refine hright.congr fun p _ v => and_congr_left fun _ => ?_
  simp only [OnFrame, or_assoc]

theorem drawCropMarks_painted (h : Raster buf) (hc : SmallCell c) (off len : Int) (th : UInt32) :
    Painted picture (fun p v => OnBars c off len th p ∧ v = .black) buf
      (drawCropMarks buf c off len th) := by
  obtain ⟨hx, hy, hw, hh⟩ := hc.int32
  unfold drawCropMarks
  rw [hx, hy, hw, hh]
  have h₁ := drawH_painted h (c.x.toNat - off - len) (c.y.toNat - off - int32 th) len th .black
  have h₂ := painted_black h₁ (drawV_painted (h.of_shape h₁.1) (c.x.toNat - off - int32 th)
    (c.y.toNat - off - len) len th .black)
  have h₃ := painted_black h₂ (drawH_painted (h.of_shape h₂.1) (c.x.toNat + c.w.toNat + off)
    (c.y.toNat - off - int32 th) len th .black)
  have h₄ := painted_black h₃ (drawV_painted (h.of_shape h₃.1) (c.x.toNat + c.w.toNat + off)
    (c.y.toNat - off - len) len th .black)
  have h₅ := painted_black h₄ (drawH_painted (h.of_shape h₄.1) (c.x.toNat - off - len)
    (c.y.toNat + c.h.toNat + off) len th .black)
  have h₆ := painted_black h₅ (drawV_painted (h.of_shape h₅.1) (c.x.toNat - off - int32 th)
    (c.y.toNat + c.h.toNat + off) len th .black)
  have h₇ := painted_black h₆ (drawH_painted (h.of_shape h₆.1) (c.x.toNat + c.w.toNat + off)
    (c.y.toNat + c.h.toNat + off) len th .black)
  have h₈ := painted_black h₇ (drawV_painted (h.of_shape h₇.1) (c.x.toNat + c.w.toNat + off)
    (c.y.toNat + c.h.toNat + off) len th .black)
  refine h₈.congr fun p _ v => and_congr_left fun _ => ?_
  simp only [OnBars, or_assoc]

end Cells

end ImgEngine.Pipeline
