import ImgEngine.Arch.Grayscale
import ImgEngine.Pipeline.Fuse.Rows

namespace ImgEngine.Arch

open ImgEngine.Library.Loop ImgEngine.Library.Strips ImgEngine.Library.VectorLoop ImgEngine.Pipeline

-- The two formulas for a pixel compute the same number.

def luma (r g b : Nat) : Nat := (77 * r + 150 * g + 29 * b) / 256

theorem luma_sum_toNat (r g b : UInt8) :
    (r.toUInt32 * 77 + g.toUInt32 * 150 + b.toUInt32 * 29).toNat =
      77 * r.toNat + 150 * g.toNat + 29 * b.toNat := by
  have hr := r.toNat_lt
  have hg := g.toNat_lt
  have hb := b.toNat_lt
  simp only [UInt32.toNat_add, UInt32.toNat_mul, UInt8.toNat_toUInt32]
  change ((r.toNat * 77 % 2 ^ 32 + g.toNat * 150 % 2 ^ 32) % 2 ^ 32 + b.toNat * 29 % 2 ^ 32)
    % 2 ^ 32 = _
  omega

theorem lumaScalar_toNat (r g b : UInt8) :
    (lumaScalar r g b).toNat = luma r.toNat g.toNat b.toNat := by
  have hr := r.toNat_lt
  have hg := g.toNat_lt
  have hb := b.toNat_lt
  rw [lumaScalar, UInt32.toNat_toUInt8, UInt32.toNat_shiftRight, luma_sum_toNat, luma]
  change (_ >>> 8) % 2 ^ 8 = _
  rw [Nat.shiftRight_eq_div_pow]
  omega

theorem lumaTail_eq (r g b : UInt8) : lumaTail r g b = lumaScalar r g b := by
  have hr := r.toNat_lt
  have hg := g.toNat_lt
  have hb := b.toNat_lt
  have hgray : ((r.toUInt32 * 77 + g.toUInt32 * 150 + b.toUInt32 * 29).toUInt16 >>> 8).toNat =
      luma r.toNat g.toNat b.toNat := by
    rw [UInt16.toNat_shiftRight, UInt32.toNat_toUInt16, luma_sum_toNat, luma]
    change (_ % 2 ^ 16) >>> 8 = _
    rw [Nat.shiftRight_eq_div_pow]
    omega
  have hsmall : luma r.toNat g.toNat b.toNat ≤ 255 := by
    rw [luma]
    omega
  have hle : ¬(r.toUInt32 * 77 + g.toUInt32 * 150 + b.toUInt32 * 29).toUInt16 >>> 8 > 255 := by
    rw [gt_iff_lt, UInt16.lt_iff_toNat_lt, hgray]
    exact Nat.not_lt.mpr hsmall
  rw [lumaTail, if_neg hle, ← UInt8.toNat_inj, lumaScalar_toNat, UInt16.toNat_toUInt8, hgray]
  omega

theorem grayLane_toNat (px : UInt8) : (grayLane px).toNat = 77 * px.toNat / 256 := by
  have hpx := px.toNat_lt
  have hlane : ((px.toUInt16 * 77) >>> 8).toNat = 77 * px.toNat / 256 := by
    rw [UInt16.toNat_shiftRight, UInt16.toNat_mul, UInt8.toNat_toUInt16]
    change (px.toNat * 77 % 2 ^ 16) >>> 8 = _
    rw [Nat.shiftRight_eq_div_pow]
    omega
  rw [grayLane, packusEpi16_toNat, hlane, if_neg (by omega)]
  omega

-- What the kernels make of the bytes of a row.

def lumaRow (bytes : Nat → UInt8) (k : Nat) : UInt8 :=
  lumaScalar (bytes (k / 3 * 3)) (bytes (k / 3 * 3 + 1)) (bytes (k / 3 * 3 + 2))

-- The bytes that the vector loop over a row of n leaves.
def vectorRow (n : Nat) (bytes : Nat → UInt8) (i : Nat) : UInt8 :=
  if i < n / 32 * 32 then grayLane (bytes i) else bytes i

def avx2Row (n : Nat) (bytes : Nat → UInt8) (k : Nat) : UInt8 :=
  if k < n / 32 * 32 / 3 * 3 then vectorRow n bytes k else lumaRow (vectorRow n bytes) k

-- A pixel as a window.
theorem setRgb_eq_window (bytes : Bytes) (i : Nat) (g : UInt8) :
    bytes.setRgb i ⟨g, g, g⟩ = window i 3 (fun _ _ => g) bytes := by
  funext j
  simp only [Bytes.setRgb, Function.update_apply, window]
  split_ifs <;> first | rfl | omega

theorem setLuma_eq_window (bytes : Bytes) (i : Nat) :
    (let g := lumaScalar (bytes i) (bytes (i + 1)) (bytes (i + 2))
    bytes.setRgb i ⟨g, g, g⟩) =
      window i 3 (fun a _ => lumaScalar (a 0) (a 1) (a 2)) bytes := by
  simp only [setRgb_eq_window]
  funext j
  simp only [window, Nat.add_zero]

theorem local_luma : Local 3 fun a _ => lumaScalar (a 0) (a 1) (a 2) := by
  intro a b h k _
  simp only [h 0 (by omega), h 1 (by omega), h 2 (by omega)]

theorem local_lumaRow {n : Nat} (hn : n % 3 = 0) : Local n lumaRow := by
  intro a b h k hk
  simp only [lumaRow, h (k / 3 * 3) (by omega), h (k / 3 * 3 + 1) (by omega),
    h (k / 3 * 3 + 2) (by omega)]

theorem local_avx2Row {n : Nat} (hn : n % 3 = 0) : Local n (avx2Row n) := by
  intro a b h k hk
  have hvector : ∀ k < n, vectorRow n a k = vectorRow n b k := by
    intro k hk
    rw [vectorRow, vectorRow, h k hk]
  rw [avx2Row, avx2Row, hvector k hk, local_lumaRow hn _ _ hvector k hk]

theorem lumaPixels_eq (o count : Nat) (bytes : Bytes) :
    forRange count (fun k (bytes : Bytes) =>
      let i := o + k * 3
      let g := lumaScalar (bytes i) (bytes (i + 1)) (bytes (i + 2))
      bytes.setRgb i ⟨g, g, g⟩) bytes = window o (count * 3) lumaRow bytes := by
  simp only [setLuma_eq_window]
  exact strips_adjacent o 3 count local_luma

-- The scalar kernel on rows whose offsets do not wrap.

theorem scalarPixel_eq {row x : Nat} (hx : x * 3 + 2 < 2 ^ 32) (bytes : Bytes) :
    scalarPixel row (UInt32.ofNat x * 3) bytes =
      let i := row + x * 3
      let g := lumaScalar (bytes i) (bytes (i + 1)) (bytes (i + 2))
      bytes.setRgb i ⟨g, g, g⟩ := by
  have hpixel : (UInt32.ofNat x * 3).toNat = x * 3 := by
    rw [uint32_toNat_mul, uint32_toNat_ofNat (by omega)]
    · rfl
    · rw [uint32_toNat_ofNat (by omega)]
      change x * 3 < _
      omega
  have hnext : ∀ c : UInt32, c.toNat ≤ 2 →
      (UInt32.ofNat x * 3 + c).toNat = x * 3 + c.toNat := by
    intro c hc
    rw [uint32_toNat_add, hpixel]
    rw [hpixel]
    omega
  simp only [scalarPixel, hpixel, hnext 1 (by decide), hnext 2 (by decide)]
  funext j
  simp only [Bytes.setRgb, Function.update_apply]
  change (if j = row + x * 3 then _ else if j = row + (x * 3 + 1) then _
    else if j = row + (x * 3 + 2) then _ else _) = _
  split_ifs <;> first | rfl | omega

theorem imgArchGrayscaleScalar_eq {buf : ImgBuffer} (hch : buf.channels = 3)
    (hstride : 3 * buf.width.toNat ≤ buf.stride.toNat)
    (hrows : (buf.height.toNat - 1) * buf.stride.toNat < 2 ^ 32) :
    imgArchGrayscaleScalar buf = { buf with
      bytes := strips 0 buf.stride.toNat (3 * buf.width.toNat) buf.height.toNat lumaRow buf.bytes } := by
  have hlt := buf.stride.toNat_lt
  rw [imgArchGrayscaleScalar, hch]
  congr 1
  apply forRange_congr
  intro y hy bytes
  have hrow : (UInt32.ofNat y * buf.stride).toNat = 0 + y * buf.stride.toNat := by
    have hle := Nat.mul_le_mul_right buf.stride.toNat (show y ≤ buf.height.toNat - 1 by omega)
    have hheight := buf.height.toNat_lt
    rw [uint32_toNat_mul, uint32_toNat_ofNat (by omega), Nat.zero_add]
    rw [uint32_toNat_ofNat (by omega)]
    omega
  change forRange _ _ _ = _
  rw [hrow, Nat.mul_comm 3, ← lumaPixels_eq]
  apply forRange_congr
  intro x hx bytes
  exact scalarPixel_eq (by omega) bytes

-- The vector kernel on rows whose loop ends.

theorem grayVector_vectored (row : Nat) (rowBytes : UInt32) :
    Vectored rowBytes
      (fun x => forRange 32 fun i (bytes : Bytes) =>
        Function.update bytes (row + x.toNat + i) (grayLane (bytes (row + x.toNat + i))))
      (fun x bytes => (x, bytes)) (grayVector row rowBytes) :=
  ⟨fun _ _ => rfl, fun _ _ _ => rfl⟩

theorem grayVector_eq (row : Nat) {rowBytes : UInt32} (hlt : rowBytes.toNat < 2 ^ 32 - 32)
    (bytes : Bytes) :
    grayVector row rowBytes (2 ^ 27 + 1) 0 bytes =
      some (UInt32.ofNat (rowBytes.toNat / 32 * 32),
        window row (rowBytes.toNat / 32 * 32) (fun a k => grayLane (a k)) bytes) := by
  have hzero : (0 : UInt32).toNat = 0 := rfl
  have hfuel : rowBytes.toNat < (0 : UInt32).toNat + 32 * (2 ^ 27 + 1) := by
    change _ < 0 + 32 * _
    omega
  have hnone : window row 0 (fun a k => grayLane (a k)) bytes = bytes :=
    funext fun j => window_outside (by omega)
  obtain ⟨_, rfl, hloop⟩ := (grayVector_vectored row rowBytes).returns hlt
    (fun x s => s = window row x (fun a k => grayLane (a k)) bytes)
    (fun x s _ hs => by rw [hs, forRange_update, window_map_append]) rfl (Nat.zero_le _) hfuel
    (hzero ▸ hnone.symm)
  exact hloop

theorem grayTail_eq {row : Nat} {rowBytes : UInt32} (h3 : rowBytes.toNat % 3 = 0)
    (hlt : rowBytes.toNat < 2 ^ 32) (bytes : Bytes) :
    grayTail row rowBytes (UInt32.ofNat (rowBytes.toNat / 32 * 32)) bytes =
      window (row + rowBytes.toNat / 32 * 32 / 3 * 3)
        (rowBytes.toNat - rowBytes.toNat / 32 * 32 / 3 * 3) lumaRow bytes := by
  have hstart : (UInt32.ofNat (rowBytes.toNat / 32 * 32) / 3 * 3).toNat =
      rowBytes.toNat / 32 * 32 / 3 * 3 := by
    have hx : (UInt32.ofNat (rowBytes.toNat / 32 * 32)).toNat = rowBytes.toNat / 32 * 32 :=
      uint32_toNat_ofNat (by omega)
    have hpixels : (UInt32.ofNat (rowBytes.toNat / 32 * 32) / 3).toNat =
        rowBytes.toNat / 32 * 32 / 3 := by
      rw [UInt32.toNat_div, hx]
      rfl
    have hfits : rowBytes.toNat / 32 * 32 / 3 * 3 < 2 ^ 32 := by omega
    rw [uint32_toNat_mul, hpixels]
    · rfl
    · rw [hpixels]
      exact hfits
  have hcount : (rowBytes.toNat - rowBytes.toNat / 32 * 32 / 3 * 3) / 3 * 3 =
      rowBytes.toNat - rowBytes.toNat / 32 * 32 / 3 * 3 := by omega
  rw [← hcount, ← lumaPixels_eq]
  simp only [grayTail, hstart, lumaTail_eq, Nat.add_assoc]

theorem avx2Row_eq {row n : Nat} (h3 : n % 3 = 0) (bytes : Bytes) :
    window (row + n / 32 * 32 / 3 * 3) (n - n / 32 * 32 / 3 * 3) lumaRow
        (window row (n / 32 * 32) (fun a k => grayLane (a k)) bytes) =
      window row n (avx2Row n) bytes := by
  have hvector : ∀ i, window row (n / 32 * 32) (fun a k => grayLane (a k)) bytes (row + i) =
      vectorRow n (fun k => bytes (row + k)) i := by
    intro i
    simp only [window, vectorRow, Nat.add_sub_cancel_left, Nat.le_add_right, true_and,
      Nat.add_lt_add_iff_left]
  have hx : n / 32 * 32 / 3 * 3 ≤ n := by omega
  funext j
  by_cases hj : row ≤ j ∧ j < row + n
  · obtain ⟨k, rfl⟩ := Nat.exists_eq_add_of_le hj.1
    have hk : k < n := by omega
    rw [window_inside hk, avx2Row]
    by_cases hwhole : k < n / 32 * 32 / 3 * 3
    · rw [if_pos hwhole, window_outside (by omega), hvector]
    · -- the tail starts with a whole pixel
      have hpixel : n / 32 * 32 / 3 * 3 + (k - n / 32 * 32 / 3 * 3) / 3 * 3 = k / 3 * 3 := by omega
      have hat : row + k = row + n / 32 * 32 / 3 * 3 + (k - n / 32 * 32 / 3 * 3) := by omega
      rw [if_neg hwhole, hat, window_inside (by omega), lumaRow, lumaRow]
      simp only [← Nat.add_assoc]
      simp only [Nat.add_assoc row, hpixel, hvector]
  · rw [window_outside (by omega), window_outside (by omega), window_outside (by omega)]

theorem imgArchGrayscaleAvx2_eq {buf : ImgBuffer} (hch : buf.channels = 3)
    (hends : 3 * buf.width.toNat < 2 ^ 32 - 32) :
    imgArchGrayscaleAvx2 buf = some { buf with
      bytes := strips 0 buf.stride.toNat (3 * buf.width.toNat) buf.height.toNat
        (avx2Row (3 * buf.width.toNat)) buf.bytes } := by
  have hbytes : (buf.width * 3).toNat = 3 * buf.width.toNat := uint32_toNat_mul_three (by omega)
  have hround : ∀ y < buf.height.toNat, ∀ bytes : Bytes,
      ((grayVector (y * buf.stride.toNat) (buf.width * 3) (2 ^ 27 + 1) 0 bytes).map fun t =>
        grayTail (y * buf.stride.toNat) (buf.width * 3) t.1 t.2) =
      some (window (0 + y * buf.stride.toNat) (3 * buf.width.toNat)
        (avx2Row (3 * buf.width.toNat)) bytes) := by
    intro y _ bytes
    have hpixels : (buf.width * 3).toNat % 3 = 0 := by omega
    rw [grayVector_eq _ (hbytes ▸ hends), Option.map_some, grayTail_eq hpixels (UInt32.toNat_lt _),
      hbytes, Nat.zero_add, ← avx2Row_eq (hbytes ▸ hpixels)]
  rw [imgArchGrayscaleAvx2, hch, foldlM_range_eq hround]
  rfl

-- The kernel returns unless a row has so many bytes that x + 32 wraps.
theorem imgArchGrayscaleAvx2_stuck {buf : ImgBuffer} (hch : buf.channels = 3)
    (hstride : 3 * buf.width.toNat ≤ buf.stride.toNat) (hheight : buf.height.toNat ≠ 0)
    (hends : 2 ^ 32 - 32 ≤ 3 * buf.width.toNat) : imgArchGrayscaleAvx2 buf = none := by
  have hlt := buf.stride.toNat_lt
  have hbytes : (buf.width * 3).toNat = 3 * buf.width.toNat := uint32_toNat_mul_three (by omega)
  obtain ⟨n, hn⟩ := Nat.exists_eq_succ_of_ne_zero hheight
  rw [imgArchGrayscaleAvx2, hch, hn, List.range_succ_eq_map, List.foldlM_cons]
  have hfirst : grayVector (0 * buf.stride.toNat) (buf.width * 3) (2 ^ 27 + 1) 0 buf.bytes = none :=
    (grayVector_vectored _ _).stuck (hbytes ▸ hends) rfl
  simp only [hfirst]
  rfl

-- The two rows agree on the pixels before the end of the vector loop when those are
-- nearly black, and on the pixel that it stops in when scaling its first bytes does
-- not change its luma.

section Row

variable {bytes : Nat → UInt8}

structure RowAgrees (n : Nat) (bytes : Nat → UInt8) : Prop where
  whole : ∀ p < n / 32 * 32 / 3,
    77 * (bytes (p * 3)).toNat + 150 * (bytes (p * 3 + 1)).toNat +
      29 * (bytes (p * 3 + 2)).toNat < 256 ∧ (bytes (p * 3 + 2)).toNat ≤ 3
  one : n / 32 * 32 % 3 = 1 →
    let i := n / 32 * 32 / 3 * 3
    luma (77 * (bytes i).toNat / 256) (bytes (i + 1)).toNat (bytes (i + 2)).toNat =
      luma (bytes i).toNat (bytes (i + 1)).toNat (bytes (i + 2)).toNat
  two : n / 32 * 32 % 3 = 2 →
    let i := n / 32 * 32 / 3 * 3
    luma (77 * (bytes i).toNat / 256) (77 * (bytes (i + 1)).toNat / 256) (bytes (i + 2)).toNat =
      luma (bytes i).toNat (bytes (i + 1)).toNat (bytes (i + 2)).toNat

theorem dark_iff {r g b : Nat} :
    (77 * r / 256 = luma r g b ∧ 77 * g / 256 = luma r g b ∧ 77 * b / 256 = luma r g b) ↔
      77 * r + 150 * g + 29 * b < 256 ∧ b ≤ 3 := by
  constructor
  · intro ⟨hr, hg, hb⟩
    -- the luma is at least the smallest of the three, which shrinks unless it is 0
    have hzero : luma r g b = 0 := by
      unfold luma at *
      obtain hmin | hmin | hmin : (r ≤ g ∧ r ≤ b) ∨ (g ≤ r ∧ g ≤ b) ∨ (b ≤ r ∧ b ≤ g) := by omega
      · have hle : r ≤ 77 * r / 256 := hr ▸ (Nat.le_div_iff_mul_le (by decide)).mpr (by omega)
        omega
      · have hle : g ≤ 77 * g / 256 := hg ▸ (Nat.le_div_iff_mul_le (by decide)).mpr (by omega)
        omega
      · have hle : b ≤ 77 * b / 256 := hb ▸ (Nat.le_div_iff_mul_le (by decide)).mpr (by omega)
        omega
    rw [hzero] at hb
    unfold luma at hzero
    omega
  · intro ⟨hluma, hb⟩
    rw [luma, Nat.div_eq_of_lt hluma]
    exact ⟨Nat.div_eq_of_lt (by omega), Nat.div_eq_of_lt (by omega), Nat.div_eq_of_lt (by omega)⟩

theorem forall_bytes_iff {w : Nat} {P : Nat → Prop} :
    (∀ k < 3 * w, P k) ↔ ∀ p < w, ∀ c < 3, P (p * 3 + c) := by
  constructor
  · intro h p hp c hc
    exact h _ (by omega)
  · intro h k hk
    have hpixel := h (k / 3) (by omega) (k % 3) (by omega)
    rwa [Nat.div_add_mod'] at hpixel

-- The bytes of one pixel in both rows.

theorem lumaRow_pixel (p c : Nat) (hc : c < 3) : lumaRow bytes (p * 3 + c) =
    lumaScalar (bytes (p * 3)) (bytes (p * 3 + 1)) (bytes (p * 3 + 2)) := by
  have hp : (p * 3 + c) / 3 = p := by omega
  rw [lumaRow, hp]

theorem vectorRow_toNat (n i : Nat) : (vectorRow n bytes i).toNat =
    if i < n / 32 * 32 then 77 * (bytes i).toNat / 256 else (bytes i).toNat := by
  rw [vectorRow]
  split_ifs
  · exact grayLane_toNat _
  · rfl

def pixelLuma (bytes : Nat → UInt8) (p : Nat) : Nat :=
  luma (bytes (p * 3)).toNat (bytes (p * 3 + 1)).toNat (bytes (p * 3 + 2)).toNat

theorem lumaRow_toNat (p c : Nat) (hc : c < 3) :
    (lumaRow bytes (p * 3 + c)).toNat = pixelLuma bytes p := by
  rw [lumaRow_pixel p c hc, lumaScalar_toNat, pixelLuma]

-- Before the end of the vector loop.
theorem pixel_agrees_whole {n p : Nat} (hp : p < n / 32 * 32 / 3) :
    (∀ c < 3, avx2Row n bytes (p * 3 + c) = lumaRow bytes (p * 3 + c)) ↔
      77 * (bytes (p * 3)).toNat + 150 * (bytes (p * 3 + 1)).toNat +
        29 * (bytes (p * 3 + 2)).toNat < 256 ∧ (bytes (p * 3 + 2)).toNat ≤ 3 := by
  have hbyte : ∀ c < 3, avx2Row n bytes (p * 3 + c) = lumaRow bytes (p * 3 + c) ↔
      77 * (bytes (p * 3 + c)).toNat / 256 = pixelLuma bytes p := by
    intro c hc
    rw [← UInt8.toNat_inj, lumaRow_toNat p c hc, avx2Row, if_pos (by omega), vectorRow_toNat,
      if_pos (by omega)]
  rw [← dark_iff]
  constructor
  · intro h
    exact ⟨(hbyte 0 (by decide)).mp (h 0 (by decide)), (hbyte 1 (by decide)).mp (h 1 (by decide)),
      (hbyte 2 (by decide)).mp (h 2 (by decide))⟩
  · intro ⟨hr, hg, hb⟩ c hc
    apply (hbyte c hc).mpr
    obtain rfl | rfl | rfl : c = 0 ∨ c = 1 ∨ c = 2 := by omega
    · exact hr
    · exact hg
    · exact hb

-- From the pixel on in which it ends.
theorem pixel_agrees_tail {n p : Nat} (hp : n / 32 * 32 / 3 ≤ p) :
    (∀ c < 3, avx2Row n bytes (p * 3 + c) = lumaRow bytes (p * 3 + c)) ↔
      pixelLuma (vectorRow n bytes) p = pixelLuma bytes p := by
  have hbyte : ∀ c < 3, avx2Row n bytes (p * 3 + c) = lumaRow bytes (p * 3 + c) ↔
      pixelLuma (vectorRow n bytes) p = pixelLuma bytes p := by
    intro c hc
    rw [← UInt8.toNat_inj, lumaRow_toNat p c hc, avx2Row, if_neg (by omega), lumaRow_toNat p c hc]
  exact ⟨fun h => (hbyte 0 (by decide)).mp (h 0 (by decide)), fun h c hc => (hbyte c hc).mpr h⟩

-- The pixel that the vector loop stops in.
theorem pixelLuma_vectorRow {n p : Nat} : pixelLuma (vectorRow n bytes) p =
    luma (if p * 3 < n / 32 * 32 then 77 * (bytes (p * 3)).toNat / 256 else (bytes (p * 3)).toNat)
      (if p * 3 + 1 < n / 32 * 32 then 77 * (bytes (p * 3 + 1)).toNat / 256
        else (bytes (p * 3 + 1)).toNat)
      (if p * 3 + 2 < n / 32 * 32 then 77 * (bytes (p * 3 + 2)).toNat / 256
        else (bytes (p * 3 + 2)).toNat) := by
  rw [pixelLuma, vectorRow_toNat, vectorRow_toNat, vectorRow_toNat]

theorem avx2Row_eq_iff {w : Nat} : (∀ k < 3 * w, avx2Row (3 * w) bytes k = lumaRow bytes k) ↔
    RowAgrees (3 * w) bytes := by
  rw [forall_bytes_iff]
  constructor
  · intro h
    refine ⟨fun p hp => (pixel_agrees_whole hp).mp (h p (by omega)), fun hone => ?_, fun htwo => ?_⟩
    · have hpixel := (pixel_agrees_tail (Nat.le_refl _)).mp (h (3 * w / 32 * 32 / 3) (by omega))
      rwa [pixelLuma_vectorRow, if_pos (by omega), if_neg (by omega), if_neg (by omega)] at hpixel
    · have hpixel := (pixel_agrees_tail (Nat.le_refl _)).mp (h (3 * w / 32 * 32 / 3) (by omega))
      rwa [pixelLuma_vectorRow, if_pos (by omega), if_pos (by omega), if_neg (by omega)] at hpixel
  · intro h p hp
    by_cases hwhole : p < 3 * w / 32 * 32 / 3
    · exact (pixel_agrees_whole hwhole).mpr (h.whole p hwhole)
    rw [pixel_agrees_tail (Nat.not_lt.mp hwhole), pixelLuma_vectorRow, if_neg (by omega) (c := p * 3 + 2 < _)]
    by_cases hsplit : p * 3 < 3 * w / 32 * 32
    · obtain rfl : p = 3 * w / 32 * 32 / 3 := by omega
      rw [if_pos hsplit]
      by_cases htwo : 3 * w / 32 * 32 / 3 * 3 + 1 < 3 * w / 32 * 32
      · rw [if_pos htwo]
        exact h.two (by omega)
      · rw [if_neg htwo]
        exact h.one (by omega)
    · rw [if_neg hsplit, if_neg (by omega)]
      rfl

end Row

theorem agree_iff_rows {buf : ImgBuffer} (hch : buf.channels = 3)
    (hstride : 3 * buf.width.toNat ≤ buf.stride.toNat)
    (hrows : (buf.height.toNat - 1) * buf.stride.toNat < 2 ^ 32)
    (hends : 3 * buf.width.toNat < 2 ^ 32 - 32) :
    imgArchGrayscaleAvx2 buf = some (imgArchGrayscaleScalar buf) ↔
      ∀ y < buf.height.toNat, RowAgrees (3 * buf.width.toNat)
        fun k => buf.bytes (y * buf.stride.toNat + k) := by
  have hrow := strips_eq_iff 0 buf.height.toNat buf.bytes hstride
    (local_avx2Row (Nat.mul_mod_right 3 _)) (local_lumaRow (Nat.mul_mod_right 3 _))
  simp only [Nat.zero_add, avx2Row_eq_iff] at hrow
  rw [imgArchGrayscaleAvx2_eq hch hends, imgArchGrayscaleScalar_eq hch hstride hrows, ← hrow]
  simp only [Option.some.injEq, ImgBuffer.mk.injEq, true_and, and_true]

-- Both kernels leave the same bytes exactly when the vector kernel returns and all
-- rows agree. From 2^32 on the scalar kernel loses the high bits of a row's offset.
theorem imgArchGrayscale_agree_iff (buf : ImgBuffer) (hch : buf.channels = 3)
    (hstride : 3 * buf.width.toNat ≤ buf.stride.toNat)
    (hrows : (buf.height.toNat - 1) * buf.stride.toNat < 2 ^ 32) :
    imgArchGrayscaleAvx2 buf = some (imgArchGrayscaleScalar buf) ↔
      (buf.height = 0 ∨ 3 * buf.width.toNat < 2 ^ 32 - 32) ∧
        ∀ y < buf.height.toNat, RowAgrees (3 * buf.width.toNat)
          fun k => buf.bytes (y * buf.stride.toNat + k) := by
  by_cases hheight : buf.height.toNat = 0
  · have hzero : buf.height = 0 := UInt32.toNat_inj.mp hheight
    simp [imgArchGrayscaleAvx2, imgArchGrayscaleScalar, hzero]
  have hpositive : buf.height ≠ 0 := fun h => hheight (congrArg UInt32.toNat h)
  by_cases hends : 3 * buf.width.toNat < 2 ^ 32 - 32
  · rw [agree_iff_rows hch hstride hrows hends]
    simp only [hends, or_true, true_and]
  · rw [imgArchGrayscaleAvx2_stuck hch hstride hheight (Nat.not_lt.mp hends)]
    simp only [hpositive, hends, or_self, false_and, reduceCtorEq]

-- Two rows of eleven pixels, the shortest with a vector in it. The last pixel is bright in
-- its blue, which lies behind the vector.

def darkRows : ImgBuffer where
  data := 4096
  bytes i :=
    if i % 33 = 32 then 200 else if i % 33 = 30 then 1 else if i % 3 = 0 then 2
    else if i % 3 = 1 then 0 else 3
  width := 11
  height := 2
  channels := 3
  stride := 33

theorem imgArchGrayscale_agree_dark :
    imgArchGrayscaleAvx2 darkRows = some (imgArchGrayscaleScalar darkRows) := by
  apply (imgArchGrayscale_agree_iff darkRows rfl (by decide) (by decide)).mpr
  refine ⟨.inr (by decide), fun y hy => ?_⟩
  have hrows : ∀ y < 2, RowAgrees 33 fun k => darkRows.bytes (y * 33 + k) := fun y hy =>
    ⟨by revert y; decide, fun h => absurd h (by decide), by revert y; decide⟩
  exact hrows y hy

def elevenPixels (px : UInt8) : ImgBuffer where
  data := 4096
  bytes _ := px
  width := 11
  height := 1
  channels := 3
  stride := 33

theorem imgArchGrayscale_differ_white :
    imgArchGrayscaleAvx2 (elevenPixels 255) ≠ some (imgArchGrayscaleScalar (elevenPixels 255)) := by
  rw [ne_eq, agree_iff_rows rfl (by decide) (by decide) (by decide)]
  intro h
  exact absurd ((h 0 (by decide)).whole 0 (by decide)).2 (by decide)

end ImgEngine.Arch
