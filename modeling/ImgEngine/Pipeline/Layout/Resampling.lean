import ImgEngine.Core.ExactFloat
import ImgEngine.Pipeline.Layout.Theorems
import ImgEngine.Pipeline.Picture

namespace ImgEngine.Pipeline

open ImgEngine.Library.Loop ImgEngine.Library.Painting ImgEngine.Memory

-- The pixels of a block of bytes, in rows of a width.
def pixels (width stride : Nat) : Surface Bytes (Nat × Nat) Rgb Unit where
  shape _ := ()
  view bytes p := bytes.getRgb (p.2 * stride + 3 * p.1)
  domain _ p := p.1 < width

section Rows

variable {width stride : Nat}

theorem setRgb_painted (hstride : 3 * width ≤ stride) {x y : Nat} (hx : x < width) (bytes : Bytes)
    (color : Rgb) :
    Painted (pixels width stride) (fun p v => p = (x, y) ∧ v = color) bytes
      (bytes.setRgb (y * stride + 3 * x) color) := by
  refine ⟨rfl, fun p hp => ?_⟩
  by_cases heq : p = (x, y)
  · refine .inl ⟨heq, ?_⟩
    rw [heq]
    exact Bytes.getRgb_setRgb _ _ _
  · refine .inr ⟨fun v hv => heq hv.1, Bytes.getRgb_setRgb_of_apart _ _ ?_⟩
    exact pixels_apart hstride hx hp fun ⟨hcol, hrow⟩ => heq (Prod.ext hcol.symm hrow.symm)

-- A part of a row, copied from somewhere else.
theorem memcpy_painted (hstride : 3 * width ≤ stride) {x y n : Nat} (hx : x + n ≤ width)
    (dst src : Bytes) (srcOffset : Nat) :
    Painted (pixels width stride)
      (fun p v => p.2 = y ∧ x ≤ p.1 ∧ p.1 < x + n ∧ v = src.getRgb (srcOffset + 3 * (p.1 - x))) dst
      (dst.memcpy (y * stride + 3 * x) src srcOffset (3 * n)) := by
  refine ⟨rfl, fun p hp => ?_⟩
  have hp : p.1 < width := hp
  by_cases hin : p.2 = y ∧ x ≤ p.1 ∧ p.1 < x + n
  · obtain ⟨hrow, hlow, hhigh⟩ := hin
    refine .inl ⟨hrow, hlow, hhigh, ?_⟩
    change (Bytes.memcpy _ _ _ _ _).getRgb _ = _
    rw [hrow, Bytes.getRgb_memcpy _ _ _ (by omega) (by omega)]
    congr 1
    omega
  · refine .inr ⟨fun v hv => hin ⟨hv.1, hv.2.1, hv.2.2.1⟩, Bytes.getRgb_memcpy_of_apart _ _ _ ?_⟩
    rcases Nat.lt_trichotomy p.2 y with hlt | heq | hlt
    · have hrow := row_le stride hlt
      omega
    · rw [heq]
      omega
    · have hrow := row_le stride hlt
      omega

-- The offsets are those of consecutive rows.
theorem copyRows_painted (hstride : 3 * width ≤ stride) {x y n : Nat} (hx : x + n ≤ width)
    (dst src : Bytes) {rows size : UInt32} (hsize : size.toNat = 3 * n) (dstOffset : UInt32 → Nat)
    (hdst : ∀ dy < rows.toNat, dstOffset (.ofNat dy) = (y + dy) * stride + 3 * x)
    (srcOffset : UInt32 → Nat) :
    Painted (pixels width stride)
      (fun p v => (y ≤ p.2 ∧ p.2 < y + rows.toNat ∧ x ≤ p.1 ∧ p.1 < x + n) ∧
        v = src.getRgb (srcOffset (.ofNat (p.2 - y)) + 3 * (p.1 - x))) dst
      (copyRows dst src rows size dstOffset srcOffset) := by
  have hloop : Painted (pixels width stride)
      (fun p v => ∃ dy < rows.toNat, p.2 = y + dy ∧ x ≤ p.1 ∧ p.1 < x + n ∧
        v = src.getRgb (srcOffset (.ofNat dy) + 3 * (p.1 - x))) dst
      (copyRows dst src rows size dstOffset srcOffset) := by
    refine Painted.forRange (fun dy (p : Nat × Nat) v => p.2 = y + dy ∧ x ≤ p.1 ∧ p.1 < x + n ∧
      v = src.getRgb (srcOffset (.ofNat dy) + 3 * (p.1 - x))) ?_
    intro dy hdy s _
    rw [hdst dy hdy, hsize]
    exact memcpy_painted hstride hx _ _ _
  refine hloop.congr fun p _ v => ?_
  constructor
  · rintro ⟨dy, hdy, hrow, hlow, hhigh, rfl⟩
    rw [show p.2 - y = dy by omega]
    exact ⟨⟨by omega, by omega, hlow, hhigh⟩, rfl⟩
  · rintro ⟨⟨hy, hy', hlow, hhigh⟩, rfl⟩
    exact ⟨p.2 - y, by omega, by omega, hlow, hhigh, rfl⟩

end Rows

-- The rows of an image, up to the last one that is used, start at offsets that are words.
structure RowsInWord (width : UInt32) (last : Nat) : Prop where
  row : 3 * width.toNat < 2 ^ 32
  rows : last * (3 * width.toNat) < 2 ^ 32

theorem RowsInWord.offset {width y : UInt32} {last : Nat} (h : RowsInWord width last)
    (hy : y.toNat ≤ last) : (y * (width * 3)).toNat = y.toNat * (3 * width.toNat) := by
  rw [uint32_toNat_mul, uint32_toNat_mul_three h.row]
  rw [uint32_toNat_mul_three h.row]
  exact (Nat.mul_le_mul_right _ hy).trans_lt h.rows

theorem scaledBytes_painted {size : UInt32 × UInt32} (h : RowsInWord size.1 (size.2.toNat - 1))
    (src : ImgBuffer) (stale : Bytes) :
    Painted (pixels size.1.toNat (3 * size.1.toNat))
      (fun p v => (p.1 < size.1.toNat ∧ p.2 < size.2.toNat) ∧
        v = src.bytes.getRgb (nearestOffset src size.1 size.2 (.ofNat p.1) (.ofNat p.2))) stale
      (scaledBytes src size stale) := by
  have hloop : Painted (pixels size.1.toNat (3 * size.1.toNat))
      (fun p v => ∃ dy < size.2.toNat, ∃ dx < size.1.toNat, p = (dx, dy) ∧
        v = src.bytes.getRgb (nearestOffset src size.1 size.2 (.ofNat dx) (.ofNat dy))) stale
      (scaledBytes src size stale) := by
    refine Painted.forRange (fun dy p v => ∃ dx < size.1.toNat, p = (dx, dy) ∧
      v = src.bytes.getRgb (nearestOffset src size.1 size.2 (.ofNat dx) (.ofNat dy))) ?_
    intro dy hdy s _
    refine Painted.forRange (fun dx p v => p = (dx, dy) ∧
      v = src.bytes.getRgb (nearestOffset src size.1 size.2 (.ofNat dx) (.ofNat dy))) ?_
    intro dx hdx t _
    have hrow := h.row
    have hheight := size.2.toNat_lt
    have hy : (UInt32.ofNat dy).toNat = dy := uint32_toNat_ofNat (by omega)
    have hx : (UInt32.ofNat dx).toNat = dx := uint32_toNat_ofNat (by omega)
    rw [h.offset (by omega), hy, uint32_toNat_mul_three (by omega), hx]
    exact setRgb_painted le_rfl hdx _ _
  refine hloop.congr fun p _ v => ?_
  constructor
  · rintro ⟨dy, hdy, dx, hdx, rfl, rfl⟩
    exact ⟨⟨hdx, hdy⟩, rfl⟩
  · rintro ⟨⟨hx, hy⟩, rfl⟩
    exact ⟨p.2, hy, p.1, hx, rfl, rfl⟩

-- Each pixel of the scaled image is the one that was computed for it.
theorem scaledBytes_getRgb {size : UInt32 × UInt32} (h : RowsInWord size.1 (size.2.toNat - 1))
    (src : ImgBuffer) (stale : Bytes) {x y : Nat} (hx : x < size.1.toNat) (hy : y < size.2.toNat) :
    (scaledBytes src size stale).getRgb (y * (3 * size.1.toNat) + 3 * x) =
      src.bytes.getRgb (nearestOffset src size.1 size.2 (.ofNat x) (.ofNat y)) :=
  (scaledBytes_painted h src stale).color (p := (x, y)) hx ⟨⟨hx, hy⟩, rfl⟩ fun _ hv => hv.2

-- A source that can be scaled to a size, both products of the coordinates being words.
structure Scalable (src : ImgBuffer) (size : UInt32 × UInt32) : Prop extends Raster src where
  width_pos : 1 ≤ src.width.toNat
  height_pos : 1 ≤ src.height.toNat
  cols : size.1.toNat * src.width.toNat < 2 ^ 32
  rows : size.2.toNat * src.height.toNat < 2 ^ 32

-- The pixel of the source that is nearest to a point of the image scaled to a size.
def nearestPixel (src : ImgBuffer) (size : UInt32 × UInt32) (x y : Nat) : Rgb :=
  src.pixel ((x * src.width.toNat / size.1.toNat : Nat), (y * src.height.toNat / size.2.toNat : Nat))

section Nearest

variable {src : ImgBuffer} {size : UInt32 × UInt32} {x y : Nat}

theorem scale_lt {x width newW : Nat} (hx : x < newW) (hwidth : 1 ≤ width) :
    x * width / newW < width := by
  rw [Nat.div_lt_iff_lt_mul (by omega), Nat.mul_comm width]
  exact Nat.mul_lt_mul_of_pos_right hx hwidth

-- One coordinate as resize_nearest computes it. The comparison with the size of the
-- source never holds.
theorem nearest_toNat {x : Nat} {width newW : UInt32} (hx : x < newW.toNat)
    (hwidth : 1 ≤ width.toNat) (hprod : x * width.toNat < 2 ^ 32) :
    (if UInt32.ofNat x * width / newW ≥ width then width - 1
      else UInt32.ofNat x * width / newW).toNat = x * width.toNat / newW.toNat := by
  have hnewW := newW.toNat_lt
  have hcoord : (UInt32.ofNat x).toNat = x := uint32_toNat_ofNat (by omega)
  have hquot : (UInt32.ofNat x * width / newW).toNat = x * width.toNat / newW.toNat := by
    rw [UInt32.toNat_div, uint32_toNat_mul, hcoord]
    rwa [hcoord]
  rw [if_neg, hquot]
  intro hge
  have hge := UInt32.le_iff_toNat_le.mp hge
  rw [hquot] at hge
  exact absurd (scale_lt hx hwidth) (Nat.not_lt.mpr hge)

theorem Scalable.col_lt (h : Scalable src size) (hx : x < size.1.toNat) :
    x * src.width.toNat < 2 ^ 32 := (Nat.mul_le_mul_right _ hx.le).trans_lt h.cols

theorem Scalable.row_lt (h : Scalable src size) (hy : y < size.2.toNat) :
    y * src.height.toNat < 2 ^ 32 := (Nat.mul_le_mul_right _ hy.le).trans_lt h.rows

-- The row is looked up at an offset in a word.
theorem nearestOffset_eq (h : Scalable src size) (hx : x < size.1.toNat) (hy : y < size.2.toNat) :
    nearestOffset src size.1 size.2 (.ofNat x) (.ofNat y) =
      y * src.height.toNat / size.2.toNat * src.stride.toNat % 2 ^ 32 +
        3 * (x * src.width.toNat / size.1.toNat) := by
  have hcol := scale_lt hx h.width_pos
  have hstride := h.stride
  have hlt := src.stride.toNat_lt
  unfold nearestOffset
  dsimp only
  rw [UInt32.toNat_mul, nearest_toNat hy h.height_pos (h.row_lt hy), uint32_toNat_mul_three,
    nearest_toNat hx h.width_pos (h.col_lt hx)]
  rw [nearest_toNat hx h.width_pos (h.col_lt hx)]
  omega

theorem nearestPixel_eq (h : Raster src) (hwidth : 1 ≤ src.width.toNat)
    (hheight : 1 ≤ src.height.toNat) (hx : x < size.1.toNat) (hy : y < size.2.toNat) :
    nearestPixel src size x y = src.bytes.getRgb (y * src.height.toNat / size.2.toNat *
      src.stride.toNat + 3 * (x * src.width.toNat / size.1.toNat)) := by
  have hcol := scale_lt hx hwidth
  have hrow := scale_lt hy hheight
  have hin : picture.domain (picture.shape src)
      ((x * src.width.toNat / size.1.toNat : Nat), (y * src.height.toNat / size.2.toNat : Nat)) :=
    ⟨Int.natCast_nonneg _, Int.ofNat_lt.mpr hcol, Int.natCast_nonneg _, Int.ofNat_lt.mpr hrow⟩
  rw [nearestPixel, ImgBuffer.pixel, h.offset hin]
  rfl

-- A place that holds the nearest pixel whatever the bytes are is the place of that pixel.
theorem place_of_nearestPixel (h : Raster src) (hwidth : 1 ≤ src.width.toNat)
    (hheight : 1 ≤ src.height.toNat) (hx : x < size.1.toNat) (hy : y < size.2.toNat) {i : Nat}
    (hbytes : ∀ bytes : Bytes, bytes.getRgb i = nearestPixel { src with bytes } size x y) :
    i = y * src.height.toNat / size.2.toNat * src.stride.toNat +
      3 * (x * src.width.toNat / size.1.toNat) := by
  have hpixel : ∀ bytes : Bytes, bytes.getRgb i = bytes.getRgb (y * src.height.toNat /
      size.2.toNat * src.stride.toNat + 3 * (x * src.width.toNat / size.1.toNat)) := fun bytes =>
    (hbytes bytes).trans
      (@nearestPixel_eq { src with bytes } size x y ⟨h.stride⟩ hwidth hheight hx hy)
  generalize y * src.height.toNat / size.2.toNat * src.stride.toNat +
    3 * (x * src.width.toNat / size.1.toNat) = place at hpixel ⊢
  by_contra hne
  -- one byte that is not zero, at the place of the pixel
  have heq := congrArg Rgb.r (hpixel (Function.update (fun _ => 0) place 1))
  simp only [Bytes.getRgb, Function.update_of_ne hne, Function.update_self] at heq
  exact absurd heq (by decide)

-- The source is read inside of its rows.
theorem nearestOffset_le (h : Scalable src size) (hx : x < size.1.toNat) (hy : y < size.2.toNat) :
    nearestOffset src size.1 size.2 (.ofNat x) (.ofNat y) + 3 ≤
      src.height.toNat * src.stride.toNat := by
  have hcol := scale_lt hx h.width_pos
  have hrow := row_le src.stride.toNat (scale_lt hy h.height_pos)
  have hstride := h.stride
  have hmod := Nat.mod_le (y * src.height.toNat / size.2.toNat * src.stride.toNat) (2 ^ 32)
  rw [nearestOffset_eq h hx hy]
  omega

-- The last row that is looked up starts at an offset that is a word.
def SourceRowInWord (src : ImgBuffer) (size : UInt32 × UInt32) (last : Nat) : Prop :=
  last * src.height.toNat / size.2.toNat * src.stride.toNat < 2 ^ 32

instance (last : Nat) : Decidable (SourceRowInWord src size last) :=
  inferInstanceAs (Decidable (_ < _))

theorem nearestOffset_getRgb (h : Scalable src size) {last : Nat}
    (hlast : SourceRowInWord src size last) (hx : x < size.1.toNat) (hy : y < size.2.toNat)
    (hle : y ≤ last) :
    src.bytes.getRgb (nearestOffset src size.1 size.2 (.ofNat x) (.ofNat y)) =
      nearestPixel src size x y := by
  have hrow : y * src.height.toNat / size.2.toNat ≤ last * src.height.toNat / size.2.toNat :=
    Nat.div_le_div_right (Nat.mul_le_mul_right _ hle)
  rw [nearestOffset_eq h hx hy, nearestPixel_eq h.toRaster h.width_pos h.height_pos hx hy,
    Nat.mod_eq_of_lt]
  exact (Nat.mul_le_mul_right _ hrow).trans_lt hlast

-- Both places are the same one only if the offset of the row does not wrap.
theorem sourceRowInWord_of_nearest (h : Scalable src size) (hx : x < size.1.toNat)
    (hy : y < size.2.toNat)
    (hbytes : ∀ bytes, bytes.getRgb (nearestOffset src size.1 size.2 (.ofNat x) (.ofNat y)) =
      nearestPixel { src with bytes } size x y) : SourceRowInWord src size y := by
  unfold SourceRowInWord
  by_contra hge
  have hplace := place_of_nearestPixel h.toRaster h.width_pos h.height_pos hx hy hbytes
  rw [nearestOffset_eq h hx hy] at hplace
  have hmod : y * src.height.toNat / size.2.toNat * src.stride.toNat % 2 ^ 32 <
      y * src.height.toNat / size.2.toNat * src.stride.toNat :=
    (Nat.mod_lt _ (by decide)).trans_le (Nat.not_lt.mp hge)
  omega

end Nearest

end ImgEngine.Pipeline
