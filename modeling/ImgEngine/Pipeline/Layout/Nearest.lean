import ImgEngine.Io.Decoder.Theorems
import ImgEngine.Pipeline.Layout.Scaled

namespace ImgEngine.Pipeline

open ImgEngine.Io ImgEngine.Memory

-- One coordinate of the source pixel that resize_nearest picks.
def nearestCoord (x size newSize : UInt32) : UInt32 :=
  let s := x * size / newSize
  if s ≥ size then size - 1 else s

section Coordinates

variable {x : Nat} {size newSize : UInt32}

theorem wrapped_quot (hx : x < newSize.toNat) :
    (UInt32.ofNat x * size / newSize).toNat = x * size.toNat % 2 ^ 32 / newSize.toNat := by
  have hnewSize := newSize.toNat_lt
  rw [UInt32.toNat_div, UInt32.toNat_mul, uint32_toNat_ofNat (by omega)]

theorem nearestCoord_le (hx : x < newSize.toNat) (hsize : 1 ≤ size.toNat) :
    (nearestCoord (.ofNat x) size newSize).toNat ≤ x * size.toNat % 2 ^ 32 / newSize.toNat := by
  unfold nearestCoord
  dsimp only
  split_ifs with hge
  · have hge := UInt32.le_iff_toNat_le.mp hge
    rw [wrapped_quot hx] at hge
    have hlast : (size - 1).toNat = size.toNat - 1 := uint32_toNat_sub hsize
    omega
  · exact (wrapped_quot hx).le

-- The clamp keeps the coordinate inside of the source, also where the product wraps.
theorem nearestCoord_lt (x newSize : UInt32) (hsize : 1 ≤ size.toNat) :
    (nearestCoord x size newSize).toNat < size.toNat := by
  unfold nearestCoord
  dsimp only
  split_ifs with hge
  · have hlast : (size - 1).toNat = size.toNat - 1 := uint32_toNat_sub hsize
    omega
  · exact UInt32.lt_iff_toNat_lt.mp (UInt32.not_le.mp hge)

theorem nearestCoord_eq (hx : x < newSize.toNat) (hsize : 1 ≤ size.toNat)
    (hprod : x * size.toNat < 2 ^ 32) :
    (nearestCoord (.ofNat x) size newSize).toNat = x * size.toNat / newSize.toNat :=
  nearest_toNat hx hsize hprod

-- A product that wraps loses at least one multiple of the new size.
theorem nearestCoord_lt_exact (hx : x < newSize.toNat) (hsize : 1 ≤ size.toNat)
    (hwraps : 2 ^ 32 ≤ x * size.toNat) :
    (nearestCoord (.ofNat x) size newSize).toNat < x * size.toNat / newSize.toNat := by
  have hnewSize := newSize.toNat_lt
  have hmod : x * size.toNat % 2 ^ 32 + newSize.toNat ≤ x * size.toNat := by
    have hdiv := Nat.div_add_mod (x * size.toNat) (2 ^ 32)
    have hpos : 1 ≤ x * size.toNat / 2 ^ 32 := (Nat.one_le_div_iff (by decide)).mpr hwraps
    omega
  calc
    (nearestCoord (.ofNat x) size newSize).toNat
        ≤ x * size.toNat % 2 ^ 32 / newSize.toNat := nearestCoord_le hx hsize
    _ < x * size.toNat % 2 ^ 32 / newSize.toNat + 1 := Nat.lt_succ_self _
    _ = (x * size.toNat % 2 ^ 32 + newSize.toNat) / newSize.toNat :=
      (Nat.add_div_right _ (by omega)).symm
    _ ≤ x * size.toNat / newSize.toNat := Nat.div_le_div_right hmod

theorem nearestCoord_le_exact (hx : x < newSize.toNat) (hsize : 1 ≤ size.toNat) :
    (nearestCoord (.ofNat x) size newSize).toNat ≤ x * size.toNat / newSize.toNat :=
  (nearestCoord_le hx hsize).trans (Nat.div_le_div_right (Nat.mod_le _ _))

-- The coordinates are exact up to the last one if its product is a word.
theorem nearestCoord_mono {x' : Nat} (hle : x ≤ x') (hx : x' < newSize.toNat)
    (hsize : 1 ≤ size.toNat) (hprod : (newSize.toNat - 1) * size.toNat < 2 ^ 32) :
    nearestCoord (.ofNat x) size newSize ≤ nearestCoord (.ofNat x') size newSize := by
  have hword : ∀ y < newSize.toNat, y * size.toNat < 2 ^ 32 := fun y hy =>
    (Nat.mul_le_mul_right _ (Nat.le_sub_one_of_lt hy)).trans_lt hprod
  rw [UInt32.le_iff_toNat_le, nearestCoord_eq (hle.trans_lt hx) hsize (hword x (hle.trans_lt hx)),
    nearestCoord_eq hx hsize (hword x' hx)]
  exact Nat.div_le_div_right (Nat.mul_le_mul_right _ hle)

end Coordinates

-- A source as the decoder leaves it.
structure Delivered (src : ImgBuffer) : Prop where
  width : 1 ≤ src.width.toNat ∧ src.width.toNat ≤ 16384
  height : 1 ≤ src.height.toNat ∧ src.height.toNat ≤ 16384
  stride : src.stride.toNat = 3 * src.width.toNat

-- Every image that the decoder gives out is one.
theorem imgDecodeToBuffer_delivered {tj : TurboJpeg} {ctx : Option ImgCtx} {input : Input}
    {out : Option ImgBuffer} {buf : ImgBuffer}
    (hok : (imgDecodeToBuffer tj ctx input out).ret = .ok ())
    (hbuf : (imgDecodeToBuffer tj ctx input out).out = some buf) : Delivered buf := by
  have hcase := imgDecodeToBuffer_atomic tj ctx input out
  rw [AllOrNothing, hok] at hcase
  obtain ⟨heap, heap', buf', -, -, hbuf', hblock⟩ := hcase
  obtain rfl : buf' = buf := Option.some.inj (hbuf'.symm.trans hbuf)
  exact ⟨hblock.width, hblock.height, hblock.stride⟩

-- A target that fits a block of the pool that img_api_init makes.
structure TargetFits (newW newH : UInt32) : Prop where
  width : 1 ≤ newW.toNat
  height : 1 ≤ newH.toNat
  size : 3 * newW.toNat * newH.toNat ≤ apiHeap.pool.blockSize.toNat

section Offsets

variable {src : ImgBuffer} {newW newH : UInt32}

theorem Delivered.raster (h : Delivered src) : Raster src := ⟨h.stride.ge⟩

theorem Delivered.withBytes (h : Delivered src) (bytes : Bytes) : Delivered { src with bytes } :=
  ⟨h.width, h.height, h.stride⟩

-- The row is looked up at an offset that does not wrap.
theorem Delivered.offset_eq (h : Delivered src) (newW newH dx dy : UInt32) :
    nearestOffset src newW newH dx dy =
      (nearestCoord dy src.height newH).toNat * src.stride.toNat +
        3 * (nearestCoord dx src.width newW).toNat := by
  have hrow := nearestCoord_lt dy newH h.height.1
  have hcol := nearestCoord_lt dx newW h.width.1
  have hheight := h.height.2
  have hwidth := h.width.2
  have hstride := h.stride
  have hword : (nearestCoord dy src.height newH).toNat * src.stride.toNat < 2 ^ 32 :=
    calc
      (nearestCoord dy src.height newH).toNat * src.stride.toNat ≤ 16384 * 49152 :=
        Nat.mul_le_mul (by omega) (by omega)
      _ < 2 ^ 32 := by decide
  change (nearestCoord dy src.height newH * src.stride).toNat +
    (nearestCoord dx src.width newW * 3).toNat = _
  rw [uint32_toNat_mul hword, uint32_toNat_mul_three (by omega)]

-- Whatever the products are, the source is read inside of its rows.
theorem Delivered.offset_le (h : Delivered src) (newW newH dx dy : UInt32) :
    nearestOffset src newW newH dx dy + 3 ≤ src.height.toNat * src.stride.toNat := by
  have hcol := nearestCoord_lt dx newW h.width.1
  have hrow := row_le src.stride.toNat (nearestCoord_lt dy newH h.height.1)
  have hstride := h.stride
  rw [h.offset_eq]
  omega

theorem apiHeap_blockSize : apiHeap.pool.blockSize.toNat = 33554432 := by decide

theorem TargetFits.rowsInWord (h : TargetFits newW newH) : RowsInWord newW (newH.toNat - 1) := by
  have hsize := h.size
  have hheight := h.height
  rw [apiHeap_blockSize] at hsize
  constructor
  · have hle : 3 * newW.toNat * 1 ≤ 3 * newW.toNat * newH.toNat := Nat.mul_le_mul_left _ hheight
    omega
  · have hle : (newH.toNat - 1) * (3 * newW.toNat) ≤ newH.toNat * (3 * newW.toNat) :=
      Nat.mul_le_mul_right _ (Nat.sub_le _ _)
    rw [Nat.mul_comm newH.toNat] at hle
    omega

end Offsets

-- What resize_nearest is for: each pixel is the one at the exact position, the positions
-- never decrease, and the source is read inside of its rows.
structure Sampled (src : ImgBuffer) (newW newH : UInt32) (out : ImgBuffer) : Prop where
  shows : Shows out newW newH (nearestPixel src (newW, newH))
  cols : ∀ x x', x ≤ x' → x' < newW.toNat →
    nearestCoord (.ofNat x) src.width newW ≤ nearestCoord (.ofNat x') src.width newW
  rows : ∀ y y', y ≤ y' → y' < newH.toNat →
    nearestCoord (.ofNat y) src.height newH ≤ nearestCoord (.ofNat y') src.height newH
  reads : ∀ dx dy, nearestOffset src newW newH dx dy + 3 ≤ src.height.toNat * src.stride.toNat

-- The same whatever the bytes of the source are.
def SamplesExactly (src : ImgBuffer) (newW newH : UInt32) (heap : Heap) : Prop :=
  ∀ bytes out heap', resizeNearest { src with bytes } newW newH heap = (.ok out, heap') →
    Sampled { src with bytes } newW newH out

-- The products at the last column and the last row are words.
def ProductsInWord (src : ImgBuffer) (newW newH : UInt32) : Prop :=
  (newW.toNat - 1) * src.width.toNat < 2 ^ 32 ∧ (newH.toNat - 1) * src.height.toNat < 2 ^ 32

instance (src : ImgBuffer) (newW newH : UInt32) : Decidable (ProductsInWord src newW newH) :=
  inferInstanceAs (Decidable (_ ∧ _))

section Exact

variable {src : ImgBuffer} {newW newH : UInt32} {heap heap' : Heap} {mem : Ptr}

theorem resizeNearest_ok (h : TargetFits newW newH)
    (hblock : heap.pool.blockSize = apiHeap.pool.blockSize) (halloc : heap.alloc = some (mem, heap'))
    (src : ImgBuffer) :
    resizeNearest src newW newH heap =
      (.ok (rgbBuffer mem newW newH (scaledBytes src (newW, newH) (heap'.stale mem))), heap') := by
  have hpos : ¬(newW = 0 ∨ newH = 0) := by
    rintro (rfl | rfl)
    · exact absurd h.width (by decide)
    · exact absurd h.height (by decide)
  have hsize : ¬rgbSize newW newH > heap.pool.blockSize := by
    rw [UInt64.not_lt, UInt64.le_iff_toNat_le, hblock, rgbSize_exact h.rowsInWord.row,
      ← Nat.mul_assoc]
    exact h.size
  rw [resizeNearest, if_neg hpos, if_neg hsize, halloc]
  rfl

theorem resizeNearest_pixel (h : TargetFits newW newH) (src : ImgBuffer) (mem : Ptr)
    (stale : Bytes) {x y : Nat} (hx : x < newW.toNat) (hy : y < newH.toNat) :
    (rgbBuffer mem newW newH (scaledBytes src (newW, newH) stale)).pixel (x, y) =
      src.bytes.getRgb (nearestOffset src newW newH (.ofNat x) (.ofNat y)) := by
  rw [rgbBuffer_pixel h.rowsInWord.row _ _ hx hy]
  exact scaledBytes_getRgb h.rowsInWord src stale hx hy

theorem Delivered.sampled (hsrc : Delivered src) (hprod : ProductsInWord src newW newH)
    (h : TargetFits newW newH) (mem : Ptr) (stale : Bytes) :
    Sampled src newW newH (rgbBuffer mem newW newH (scaledBytes src (newW, newH) stale)) where
  shows := by
    refine ⟨rfl, rfl, fun x hx y hy => ?_⟩
    have hcol : x * src.width.toNat < 2 ^ 32 :=
      (Nat.mul_le_mul_right _ (Nat.le_sub_one_of_lt hx)).trans_lt hprod.1
    have hrow : y * src.height.toNat < 2 ^ 32 :=
      (Nat.mul_le_mul_right _ (Nat.le_sub_one_of_lt hy)).trans_lt hprod.2
    rw [resizeNearest_pixel h src mem stale hx hy, hsrc.offset_eq,
      nearestCoord_eq hx hsrc.width.1 hcol, nearestCoord_eq hy hsrc.height.1 hrow]
    exact (@nearestPixel_eq src (newW, newH) x y hsrc.raster hsrc.width.1 hsrc.height.1 hx hy).symm
  cols _ _ hle hx := nearestCoord_mono hle hx hsrc.width.1 hprod.1
  rows _ _ hle hy := nearestCoord_mono hle hy hsrc.height.1 hprod.2
  reads := hsrc.offset_le newW newH

-- The pixel in the last column and the last row is the one that tells.
theorem productsInWord_of_shows (hsrc : Delivered src) (h : TargetFits newW newH) {stale : Bytes}
    (hshows : ∀ bytes, Shows
      (rgbBuffer mem newW newH (scaledBytes { src with bytes } (newW, newH) stale)) newW newH
      (nearestPixel { src with bytes } (newW, newH))) : ProductsInWord src newW newH := by
  have hx : newW.toNat - 1 < newW.toNat := Nat.sub_lt h.width Nat.one_pos
  have hy : newH.toNat - 1 < newH.toNat := Nat.sub_lt h.height Nat.one_pos
  have hpixel : ∀ bytes : Bytes, bytes.getRgb (nearestOffset src newW newH
      (.ofNat (newW.toNat - 1)) (.ofNat (newH.toNat - 1))) =
      nearestPixel { src with bytes } (newW, newH) (newW.toNat - 1) (newH.toNat - 1) := fun bytes =>
    (resizeNearest_pixel h { src with bytes } mem stale hx hy).symm.trans
      ((hshows bytes).2.2 _ hx _ hy)
  have hplace := place_of_nearestPixel hsrc.raster hsrc.width.1 hsrc.height.1 hx hy hpixel
  rw [hsrc.offset_eq] at hplace
  dsimp only at hplace
  have hcol := nearestCoord_le_exact hx hsrc.width.1
  have hrow := nearestCoord_le_exact hy hsrc.height.1
  have hrows := Nat.mul_le_mul_right src.stride.toNat hrow
  have hstride : 1 ≤ src.stride.toNat := by
    have hwidth := hsrc.width.1
    have hstride := hsrc.stride
    omega
  constructor
  · by_contra hwraps
    have hlt := nearestCoord_lt_exact hx hsrc.width.1 (Nat.not_lt.mp hwraps)
    omega
  · by_contra hwraps
    have hlt := nearestCoord_lt_exact hy hsrc.height.1 (Nat.not_lt.mp hwraps)
    have hlts := Nat.mul_lt_mul_of_pos_right hlt hstride
    omega

end Exact

-- The image is exact unless a product wraps, with nothing written where no block is free.
-- The reads stay inside in any case.
theorem resizeNearest_exact_iff (src : ImgBuffer) (newW newH : UInt32) (heap : Heap)
    (hsrc : Delivered src) (htarget : TargetFits newW newH)
    (hblock : heap.pool.blockSize = apiHeap.pool.blockSize) :
    (∀ dx dy, nearestOffset src newW newH dx dy + 3 ≤ src.height.toNat * src.stride.toNat) ∧
      (SamplesExactly src newW newH heap ↔
        heap.pool.free = [] ∨ ProductsInWord src newW newH) := by
  refine ⟨hsrc.offset_le newW newH, ?_⟩
  cases halloc : heap.alloc with
  | none =>
      refine iff_of_true (fun bytes out heap' hok => ?_) (.inl (Heap.alloc_eq_none_iff.mp halloc))
      rcases resizeNearest_cases src newW newH heap with ⟨e, hfail⟩ | ⟨mem, heap₁, hsome, -⟩
      · rw [hfail] at hok
        cases hok
      · rw [halloc] at hsome
        cases hsome
  | some taken =>
      obtain ⟨mem, heap₁⟩ := taken
      have hfree : heap.pool.free ≠ [] := by
        rw [Heap.alloc_free halloc]
        exact List.cons_ne_nil _ _
      rw [or_iff_right hfree]
      constructor
      · intro hexact
        exact productsInWord_of_shows hsrc htarget fun bytes =>
          (hexact bytes _ _ (resizeNearest_ok htarget hblock halloc _)).shows
      · intro hprod bytes out heap' hok
        rw [resizeNearest_ok htarget hblock halloc] at hok
        cases hok
        exact (hsrc.withBytes bytes).sampled hprod htarget _ _

theorem resizeNearest_exact_square : SamplesExactly squarePhoto 4 2 apiHeap :=
  (resizeNearest_exact_iff squarePhoto 4 2 apiHeap ⟨by decide, by decide, by decide⟩
    ⟨by decide, by decide, by decide⟩ rfl).2.mpr (.inr (by decide))

-- A row of 16384 pixels, the last one white, scaled to cover a cell of 100 by 19. The last
-- pixel of the scaled row is looked up at column 2586, and the first step back on the way
-- there is at column 2^18.

def widePhoto : ImgBuffer := rgbBuffer 1 16384 1 fun i => if i < 3 * 16383 then 0 else 255

theorem resizeNearest_wrapped :
    coverSize ℚ widePhoto 100 19 = (311296, 19) ∧ Delivered widePhoto ∧ TargetFits 311296 19 ∧
      (∃ out heap, resizeNearest widePhoto 311296 19 apiHeap = (.ok out, heap) ∧
        out.pixel (311295, 0) = .black ∧
        nearestPixel widePhoto (311296, 19) 311295 0 = ⟨255, 255, 255⟩) ∧
      nearestCoord 262143 16384 311296 = 13797 ∧ nearestCoord 262144 16384 311296 = 0 := by
  have hsrc : Delivered widePhoto := ⟨by decide, by decide, by decide⟩
  have htarget : TargetFits 311296 19 := ⟨by decide, by decide, by decide⟩
  refine ⟨by decide +kernel, hsrc, htarget, ?_, by decide, by decide⟩
  cases halloc : apiHeap.alloc with
  | none => exact absurd (Heap.alloc_eq_none_iff.mp halloc) (by decide)
  | some taken =>
      refine ⟨_, _, resizeNearest_ok htarget rfl halloc widePhoto, ?_, by decide +kernel⟩
      have hpixel := resizeNearest_pixel htarget widePhoto taken.1 (taken.2.stale taken.1)
        (show 311295 < (311296 : UInt32).toNat by decide) (show 0 < (19 : UInt32).toNat by decide)
      exact hpixel.trans (by decide +kernel)

end ImgEngine.Pipeline
