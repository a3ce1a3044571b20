import ImgEngine.Arch.Resize
import ImgEngine.Arch.ResizeMaps.Rows

namespace ImgEngine.Arch

open ImgEngine.Library.Loop ImgEngine.Library.Overlay ImgEngine.Library.VectorLoop

-- The pixel or row of the source that is taken for one of the destination.
def sample (scale : UInt32) (i : Nat) : Nat := ((UInt32.ofNat i * scale) >>> 16).toNat

@[simp] theorem sample_zero (scale : UInt32) : sample scale 0 = 0 := by
  simp [sample]

theorem shiftRight_lt (x : UInt32) : (x >>> 16).toNat < 2 ^ 16 := by
  have hx := x.toNat_lt
  have hshift : (x >>> 16).toNat = x.toNat >>> 16 := UInt32.toNat_shiftRight x 16
  rw [hshift, Nat.shiftRight_eq_div_pow]
  omega

section Row

variable {src : ResizeSource} {bytes : Bytes} {scaleX len : UInt32} {d s : Nat}

-- Where the scalar loop takes byte k of a row from.
def sampledByte (ch scaleX : UInt32) (k : Nat) : Nat :=
  sample scaleX (k / ch.toNat) * ch.toNat + k % ch.toNat

-- The pixel from which the vector loop takes block b. It goes on by as many pixels as
-- there are whole ones in 32 bytes.
def blockPixel (ch scaleX : UInt32) (b : Nat) : Nat :=
  ((UInt32.ofNat b * (scaleX * (32 / ch))) >>> 16).toNat

def blockCopies32 (ch scaleX len : UInt32) (d s : Nat) : Nat → Option Nat :=
  layers (fun b => span (d + b * 32) (s + blockPixel ch scaleX b * ch.toNat) 32) (len.toNat / 32)

def byteCopies (ch scaleX len : UInt32) (d s : Nat) : Nat → Option Nat :=
  layers (fun k => span (d + len.toNat / 32 * 32 + k * 1)
    (s + sampledByte ch scaleX (len.toNat / 32 * 32 + k)) 1) (len.toNat % 32)

def rowCopies (ch scaleX len : UInt32) (d s : Nat) : Nat → Option Nat :=
  atop (byteCopies ch scaleX len d s) (blockCopies32 ch scaleX len d s)

theorem avx2ResizeRow_vectored (src : ResizeSource) (scaleX : UInt32) (s d : Nat) (len : UInt32) :
    Vectored len
      (fun dx (state : UInt32 × Bytes) => (state.1 + scaleX * (32 / src.channels),
        state.2.memcpy (d + dx.toNat) (src.data state.2)
          (s + (state.1 >>> 16 * src.channels).toNat) 32))
      (fun dx state => forRange (len.toNat - dx.toNat) (fun i (bytes : Bytes) =>
        let dx := dx + UInt32.ofNat i
        let pixel := dx / src.channels
        let sx := (pixel * scaleX) >>> 16
        Function.update bytes (d + dx.toNat)
          (src.data bytes (s + (sx * src.channels + dx % src.channels).toNat))) state.2)
      (fun fuel dx state => avx2ResizeRow src scaleX s d len fuel state.1 dx state.2) :=
  ⟨fun _ _ => rfl, fun _ _ _ => rfl⟩

theorem blockPixel_mul_lt (ch scaleX : UInt32) (b : Nat) :
    blockPixel ch scaleX b * ch.toNat < 2 ^ 32 := by
  have hpixel : blockPixel ch scaleX b < 2 ^ 16 := shiftRight_lt _
  by_cases hch : ch.toNat ≤ 32
  · have hmul := Nat.mul_le_mul hpixel.le hch
    omega
  · -- no whole pixel fits into 32 bytes
    have hstep : (32 : UInt32) / ch = 0 := by
      rw [← UInt32.toNat_inj, UInt32.toNat_div, UInt32.toNat_zero]
      exact Nat.div_eq_of_lt (Nat.not_le.mp hch)
    simp [blockPixel, hstep]

theorem sampledByte_toNat {ch scaleX : UInt32} {k : Nat} (hk : k < 2 ^ 32)
    (hfit : sample scaleX (k / ch.toNat) * ch.toNat + ch.toNat < 2 ^ 32) (hch : 0 < ch.toNat) :
    (((UInt32.ofNat k / ch) * scaleX) >>> 16 * ch + UInt32.ofNat k % ch).toNat =
      sampledByte ch scaleX k := by
  have hkNat : (UInt32.ofNat k).toNat = k := uint32_toNat_ofNat hk
  have hpixel : UInt32.ofNat k / ch = .ofNat (k / ch.toNat) := by
    rw [← UInt32.toNat_inj, UInt32.toNat_div, hkNat, uint32_toNat_ofNat]
    exact (Nat.div_le_self _ _).trans_lt hk
  have hrest : (UInt32.ofNat k % ch).toNat = k % ch.toNat := by rw [UInt32.toNat_mod, hkNat]
  have hlt := Nat.mod_lt k hch
  have hmul : ((UInt32.ofNat (k / ch.toNat) * scaleX) >>> 16 * ch).toNat =
      sample scaleX (k / ch.toNat) * ch.toNat := uint32_toNat_mul (by
    change sample scaleX (k / ch.toNat) * ch.toNat < _
    omega)
  rw [hpixel, uint32_toNat_add (by rw [hmul, hrest]; omega), hmul, hrest, sampledByte]

theorem byteLoop_overlay {ch : UInt32} (bytes dst : Bytes)
    (hfit : ∀ k < len.toNat, sample scaleX (k / ch.toNat) * ch.toNat + ch.toNat < 2 ^ 32)
    (hch : 0 < len.toNat → 0 < ch.toNat) :
    forRange (len.toNat % 32) (fun i (dst : Bytes) =>
      let dx := UInt32.ofNat (len.toNat / 32 * 32) + UInt32.ofNat i
      let pixel := dx / ch
      let sx := (pixel * scaleX) >>> 16
      Function.update dst (d + dx.toNat) (bytes (s + (sx * ch + dx % ch).toNat))) dst =
        overlay (byteCopies ch scaleX len d s) bytes dst := by
  have hlen := len.toNat_lt
  rw [byteCopies, ← forRange_overlay]
  refine forRange_congr (fun i hi dst => ?_) dst
  have hdx : (UInt32.ofNat (len.toNat / 32 * 32 + i)).toNat = len.toNat / 32 * 32 + i :=
    uint32_toNat_ofNat (by omega)
  simp only [← UInt32.ofNat_add]
  rw [sampledByte_toNat (by omega) (hfit _ (by omega)) (hch (by omega)), hdx, update_overlay,
    Nat.mul_one, Nat.add_assoc]

theorem avx2ResizeRow_overlay {ch stride : UInt32} (bytes dst : Bytes)
    (hlen : len.toNat < 2 ^ 32 - 32)
    (hfit : ∀ k < len.toNat, sample scaleX (k / ch.toNat) * ch.toNat + ch.toNat < 2 ^ 32)
    (hch : 0 < len.toNat → 0 < ch.toNat) :
    avx2ResizeRow ⟨fun _ => bytes, ch, stride⟩ scaleX s d len (2 ^ 27 + 1) 0 0 dst =
      some (overlay (rowCopies ch scaleX len d s) bytes dst) := by
  have hfuel : len.toNat < (0 : UInt32).toNat + 32 * (2 ^ 27 + 1) := by
    change _ < 0 + 32 * _
    omega
  have hend : (UInt32.ofNat (len.toNat / 32 * 32)).toNat = len.toNat / 32 * 32 :=
    uint32_toNat_ofNat (by omega)
  let block := fun b => span (d + b * 32) (s + blockPixel ch scaleX b * ch.toNat) 32
  -- the sum in the loop is a product
  obtain ⟨⟨_, _⟩, ⟨-, -, rfl⟩, hloop⟩ :=
    (avx2ResizeRow_vectored ⟨fun _ => bytes, ch, stride⟩ scaleX s d len).returns hlen
      (s := (0, dst))
      (fun x state => x % 32 = 0 ∧ state.1 = UInt32.ofNat (x / 32) * (scaleX * (32 / ch)) ∧
        state.2 = overlay (layers block (x / 32)) bytes dst)
      (fun x state hx hinv => by
        obtain ⟨sum, _⟩ := state
        obtain ⟨haligned, rfl, rfl⟩ := hinv
        have hpixel : (((UInt32.ofNat (x.toNat / 32) * (scaleX * (32 / ch))) >>> 16) * ch).toNat =
            blockPixel ch scaleX (x.toNat / 32) * ch.toNat :=
          uint32_toNat_mul (blockPixel_mul_lt ch scaleX _)
        refine ⟨by omega, ?_, ?_⟩
        · rw [Nat.add_div_right _ (by decide), UInt32.ofNat_add, UInt32.add_mul]
          exact congrArg (_ + ·) (UInt32.one_mul _).symm
        · rw [Nat.add_div_right _ (by decide), layers, ← overlay_atop, hpixel, memcpy_overlay]
          simp only [block, Nat.div_mul_cancel (Nat.dvd_of_mod_eq_zero haligned)])
      rfl (Nat.zero_le _) hfuel
      ⟨rfl, (UInt32.zero_mul).symm, (funext fun _ => overlay_of_none rfl).symm⟩
  rw [hloop, hend, ← Nat.mod_eq_sub_div_mul]
  simp only
  rw [byteLoop_overlay bytes _ hfit hch, overlay_atop, Nat.mul_div_cancel _ (by decide)]
  rfl

-- Byte by byte.

variable {ch : UInt32} {k : Nat}

theorem rowCopies_block (hk : k < len.toNat / 32 * 32) :
    rowCopies ch scaleX len d s (d + k) =
      some (s + (blockPixel ch scaleX (k / 32) * ch.toNat + k % 32)) := by
  have hrest : byteCopies ch scaleX len d s (d + k) = none :=
    tiles_outside fun _ _ => .inl (by omega)
  have hsplit : d + k = d + k / 32 * 32 + k % 32 := by omega
  rw [rowCopies, atop, hrest, Option.none_or, hsplit, ← Nat.add_assoc]
  exact tiles_inside (Nat.le_refl _) (by omega) (Nat.mod_lt _ (by decide))

theorem rowCopies_rest (hblocks : len.toNat / 32 * 32 ≤ k) (hk : k < len.toNat) :
    rowCopies ch scaleX len d s (d + k) = some (s + sampledByte ch scaleX k) := by
  obtain ⟨i, rfl⟩ := Nat.exists_eq_add_of_le hblocks
  have hbyte : byteCopies ch scaleX len d s (d + len.toNat / 32 * 32 + i * 1 + 0) =
      some (s + sampledByte ch scaleX (len.toNat / 32 * 32 + i) + 0) :=
    tiles_inside (Nat.le_refl _) (by omega) Nat.one_pos
  rw [Nat.mul_one, Nat.add_zero, Nat.add_zero, Nat.add_assoc] at hbyte
  rw [rowCopies, atop, hbyte, Option.some_or]

theorem rowCopies_outside {j : Nat} (hj : j < d ∨ d + len.toNat ≤ j) :
    rowCopies ch scaleX len d s j = none := by
  have hbytes : byteCopies ch scaleX len d s j = none := tiles_outside fun k hk => by omega
  rw [rowCopies, atop, hbytes, Option.none_or]
  exact tiles_outside fun b hb => by omega

-- The whole blocks start with a pixel, and the pixels of each come one after the other
-- from the source.
structure BlocksUniform (ch scaleX len : UInt32) : Prop where
  aligned : ch.toNat ∣ 32 ∨ len.toNat < 64
  advance : ∀ k < len.toNat / 32 * 32, sample scaleX (k / ch.toNat) =
    sample scaleX (k / 32 * 32 / ch.toNat) + k % 32 / ch.toNat

theorem blockPixel_eq {b : Nat} (h : ch.toNat ∣ 32 ∨ b = 0) :
    blockPixel ch scaleX b = sample scaleX (b * 32 / ch.toNat) := by
  rcases h with hdvd | rfl
  · have hstep : (32 : UInt32) / ch = .ofNat (32 / ch.toNat) := by
      rw [← UInt32.toNat_inj, UInt32.toNat_div, uint32_toNat_ofNat]
      · rfl
      · exact (Nat.div_le_self _ _).trans_lt (by decide)
    rw [blockPixel, sample, hstep, Nat.mul_div_assoc _ hdvd, UInt32.ofNat_mul, UInt32.mul_assoc,
      UInt32.mul_comm scaleX]
  · simp [blockPixel]

-- A byte of a block that starts with a pixel.
theorem sampledByte_block (h : ch.toNat ∣ k / 32 * 32) :
    sampledByte ch scaleX k = sample scaleX (k / ch.toNat) * ch.toNat + k % 32 % ch.toNat := by
  have hsplit : k % ch.toNat = (k / 32 * 32 + k % 32) % ch.toNat := by rw [Nat.div_add_mod']
  rw [sampledByte, hsplit, Nat.add_mod, Nat.mod_eq_zero_of_dvd h, Nat.zero_add, Nat.mod_mod]

theorem BlocksUniform.sampledByte_eq (h : BlocksUniform ch scaleX len)
    (hk : k < len.toNat / 32 * 32) :
    sampledByte ch scaleX k = blockPixel ch scaleX (k / 32) * ch.toNat + k % 32 := by
  have haligned : ch.toNat ∣ 32 ∨ k / 32 = 0 := h.aligned.imp_right fun hone => by omega
  have hdvd : ch.toNat ∣ k / 32 * 32 := by
    rcases haligned with hdvd | hzero
    · exact Dvd.dvd.mul_left hdvd _
    · rw [hzero, Nat.zero_mul]
      exact Nat.dvd_zero _
  rw [sampledByte_block hdvd, h.advance k hk, blockPixel_eq haligned, Nat.add_mul, Nat.add_assoc,
    Nat.div_add_mod']

theorem blocksUniform_of_sampledByte (hch : 0 < ch.toNat)
    (h : ∀ k < len.toNat / 32 * 32,
      sampledByte ch scaleX k = blockPixel ch scaleX (k / 32) * ch.toNat + k % 32) :
    BlocksUniform ch scaleX len := by
  have hstart : ∀ b < len.toNat / 32, ch.toNat ∣ b * 32 ∧
      blockPixel ch scaleX b = sample scaleX (b * 32 / ch.toNat) := by
    intro b hb
    have hbyte := h (b * 32) (by omega)
    rw [Nat.mul_div_cancel _ (by decide), Nat.mul_mod_left, Nat.add_zero, sampledByte] at hbyte
    have hdvd : ch.toNat ∣ b * 32 := by
      refine Nat.dvd_of_mod_eq_zero ?_
      have hmod := congrArg (· % ch.toNat) hbyte
      simpa [Nat.mul_add_mod'] using hmod
    rw [Nat.mod_eq_zero_of_dvd hdvd, Nat.add_zero] at hbyte
    exact ⟨hdvd, (Nat.eq_of_mul_eq_mul_right hch hbyte).symm⟩
  constructor
  · by_cases hone : len.toNat < 64
    · exact .inr hone
    · exact .inl (by simpa using (hstart 1 (by omega)).1)
  · intro k hk
    obtain ⟨hdvd, hpixel⟩ := hstart (k / 32) (by omega)
    have hbyte := h k hk
    rw [sampledByte_block hdvd, hpixel, ← Nat.div_add_mod' (k % 32) ch.toNat, ← Nat.add_assoc,
      ← Nat.add_mul] at hbyte
    simp only [Nat.div_add_mod', Nat.add_left_inj] at hbyte
    exact Nat.eq_of_mul_eq_mul_right hch hbyte

theorem blocksUniform_iff (hch : 0 < ch.toNat) :
    BlocksUniform ch scaleX len ↔ ∀ k < len.toNat,
      rowCopies ch scaleX len d s (d + k) = some (s + sampledByte ch scaleX k) := by
  constructor
  · intro h k hk
    by_cases hblock : k < len.toNat / 32 * 32
    · rw [rowCopies_block hblock, h.sampledByte_eq hblock]
    · exact rowCopies_rest (by omega) hk
  · intro h
    refine blocksUniform_of_sampledByte hch fun k hk => ?_
    have hcell := h k (by omega)
    rw [rowCopies_block hk, Option.some.injEq] at hcell
    omega

end Row

section Kernel

variable {ch stride targetW targetH scaleX scaleY : UInt32} {dst : ImgBuffer}

-- The sampled coordinates lie inside of the source.
structure Sampled (srcWidth srcHeight ch stride scaleX scaleY : UInt32) (dst : ImgBuffer) :
    Prop where
  columns : dst.width.toNat * ch.toNat ≤ dst.stride.toNat
  sourceRow : srcWidth.toNat * ch.toNat ≤ stride.toNat
  insideX : ∀ x < dst.width.toNat, sample scaleX x < srcWidth.toNat
  insideY : ∀ y < dst.height.toNat, sample scaleY y < srcHeight.toNat

-- A source that lies apart from the destination.
def apartParams (ch stride targetW targetH scaleX scaleY : UInt32) (bytes : Bytes) :
    ResizeParams where
  src := some ⟨fun _ => bytes, ch, stride⟩
  targetW := targetW
  targetH := targetH
  scaleX := scaleX
  scaleY := scaleY

-- Each byte of a row is the one that the formula of the scalar loop gives.
def UniformRows (ch stride scaleX scaleY : UInt32) (bytes : Bytes) (dst dst' : ImgBuffer) : Prop :=
  ∀ y < dst.height.toNat, ∀ k < dst.width.toNat * ch.toNat,
    dst'.bytes (y * dst.stride.toNat + k) =
      bytes (sample scaleY y * stride.toNat + sampledByte ch scaleX k)

def resizedRow (ch stride scaleX scaleY : UInt32) (dst : ImgBuffer) (y : Nat) : Nat → Option Nat :=
  rowCopies ch scaleX (dst.width * ch) (rowStart dst.stride y)
    (rowStart stride (sample scaleY y))

theorem rowStart_sample (stride scale : UInt32) (y : Nat) :
    ((UInt32.ofNat y * scale) >>> 16 * stride).toNat = rowStart stride (sample scale y) := by
  rw [rowStart, sample, UInt32.ofNat_toNat]

section Inside

variable {srcWidth srcHeight : UInt32}

theorem Sampled.rowBytes (h : Sampled srcWidth srcHeight ch stride scaleX scaleY dst) :
    (dst.width * ch).toNat = dst.width.toNat * ch.toNat :=
  uint32_toNat_mul (h.columns.trans_lt dst.stride.toNat_lt)

theorem Sampled.fit (h : Sampled srcWidth srcHeight ch stride scaleX scaleY dst) {k : Nat}
    (hk : k < dst.width.toNat * ch.toNat) :
    sample scaleX (k / ch.toNat) * ch.toNat + ch.toNat < 2 ^ 32 := by
  have hpixel := h.insideX _ (Nat.div_lt_of_lt_mul (Nat.mul_comm _ ch.toNat ▸ hk))
  have hend := Nat.mul_le_mul_right ch.toNat hpixel
  rw [Nat.succ_mul] at hend
  exact (hend.trans h.sourceRow).trans_lt stride.toNat_lt

theorem Sampled.imgArchAvx2Resize (h : Sampled srcWidth srcHeight ch stride scaleX scaleY dst)
    (hlen : dst.width.toNat * ch.toNat < 2 ^ 32 - 32) (bytes : Bytes) :
    imgArchAvx2Resize (some (apartParams ch stride targetW targetH scaleX scaleY bytes)) dst =
      some { dst with bytes := overlay (layers (resizedRow ch stride scaleX scaleY dst)
        dst.height.toNat) bytes dst.bytes } := by
  have hround : ∀ y < dst.height.toNat, ∀ row : Bytes,
      avx2ResizeRow ⟨fun _ => bytes, ch, stride⟩ scaleX
        ((UInt32.ofNat y * scaleY) >>> 16 * stride).toNat (UInt32.ofNat y * dst.stride).toNat
        (dst.width * ch) (2 ^ 27 + 1) 0 0 row =
          some (overlay (resizedRow ch stride scaleX scaleY dst y) bytes row) := by
    intro y _ row
    rw [rowStart_sample, avx2ResizeRow_overlay bytes row (by rw [h.rowBytes]; exact hlen)]
    · rfl
    · intro k hk
      exact h.fit (h.rowBytes ▸ hk)
    · rw [h.rowBytes]
      exact Nat.pos_of_mul_pos_left
  simp only [Arch.imgArchAvx2Resize, apartParams, Option.bind_some]
  rw [foldlM_range_eq hround, forRange_overlay]
  rfl

theorem Sampled.inRows (h : Sampled srcWidth srcHeight ch stride scaleX scaleY dst) :
    InRows dst.stride (resizedRow ch stride scaleX scaleY dst) := fun y j hj =>
  rowCopies_outside (by have := h.columns; rw [h.rowBytes]; omega)

theorem imgArchAvx2Resize_stuck (hrows : dst.height ≠ 0)
    (hlen : 2 ^ 32 - 32 ≤ (dst.width * ch).toNat) (bytes : Bytes) :
    imgArchAvx2Resize (some (apartParams ch stride targetW targetH scaleX scaleY bytes)) dst =
      none := by
  have hheight : dst.height.toNat ≠ 0 := fun h => hrows (UInt32.toNat_inj.mp h)
  obtain ⟨n, hn⟩ := Nat.exists_eq_succ_of_ne_zero hheight
  simp only [Arch.imgArchAvx2Resize, apartParams, Option.bind_some]
  rw [hn, List.range_succ_eq_map, List.foldlM_cons,
    (avx2ResizeRow_vectored ⟨fun _ => bytes, ch, stride⟩ scaleX _ _ (dst.width * ch)).stuck
      (s := (0, dst.bytes)) hlen rfl]
  rfl

-- The cells of a row, where its offset in the destination does not wrap around.
theorem Sampled.row_iff (h : Sampled srcWidth srcHeight ch stride scaleX scaleY dst)
    (hlast : (dst.height.toNat - 1) * dst.stride.toNat < 2 ^ 32) {y : Nat}
    (hy : y < dst.height.toNat) (hbytes : 1 ≤ dst.width.toNat * ch.toNat) :
    (∀ k < dst.width.toNat * ch.toNat,
      resizedRow ch stride scaleX scaleY dst y (y * dst.stride.toNat + k) =
        some (sample scaleY y * stride.toNat + sampledByte ch scaleX k)) ↔
      sample scaleY y * stride.toNat < 2 ^ 32 ∧ BlocksUniform ch scaleX (dst.width * ch) := by
  have hch : 0 < ch.toNat := Nat.pos_of_mul_pos_left hbytes
  have hstart := rowStart_of_lt ((mul_le_last hy).trans_lt hlast)
  have hblocks : BlocksUniform ch scaleX (dst.width * ch) ↔
      ∀ k < (dst.width * ch).toNat,
        rowCopies ch scaleX (dst.width * ch) (y * dst.stride.toNat)
          (rowStart stride (sample scaleY y)) (y * dst.stride.toNat + k) =
            some (rowStart stride (sample scaleY y) + sampledByte ch scaleX k) :=
    blocksUniform_iff hch
  rw [h.rowBytes] at hblocks
  simp only [resizedRow, hstart]
  constructor
  · intro hcells
    -- byte 0 of a row is taken from byte 0
    have hzero : rowCopies ch scaleX (dst.width * ch) (y * dst.stride.toNat)
        (rowStart stride (sample scaleY y)) (y * dst.stride.toNat + 0) =
          some (rowStart stride (sample scaleY y)) := by
      by_cases hblock : (dst.width * ch).toNat < 32
      · rw [rowCopies_rest (by omega) (by rw [h.rowBytes]; exact hbytes)]
        simp [sampledByte]
      · rw [rowCopies_block (by omega)]
        simp [blockPixel]
    have hfirst := hzero.symm.trans (hcells 0 hbytes)
    simp only [sampledByte, Nat.zero_div, sample_zero, Nat.zero_mul, Nat.zero_mod, Nat.add_zero,
      Option.some.injEq] at hfirst
    have hlt : rowStart stride (sample scaleY y) < 2 ^ 32 := UInt32.toNat_lt _
    exact ⟨hfirst ▸ hlt, hblocks.mpr (hfirst ▸ hcells)⟩
  · rintro ⟨hoffset, hblocks'⟩
    have hcells := hblocks.mp hblocks'
    rw [rowStart_of_lt hoffset] at hcells ⊢
    exact hcells

-- When the two loops agree for every content of the source.
structure UniformlySampled (ch stride scaleX scaleY : UInt32) (dst : ImgBuffer) : Prop where
  returns : dst.width.toNat * ch.toNat < 2 ^ 32 - 32
  blocks : BlocksUniform ch scaleX (dst.width * ch)
  offsets : 1 ≤ dst.width.toNat * ch.toNat →
    (dst.height.toNat - 1) * dst.stride.toNat < 2 ^ 32 ∧
      ∀ y < dst.height.toNat, sample scaleY y * stride.toNat < 2 ^ 32

theorem Sampled.uniformRows_iff (h : Sampled srcWidth srcHeight ch stride scaleX scaleY dst)
    (hrows : dst.height ≠ 0) (hlen : dst.width.toNat * ch.toNat < 2 ^ 32 - 32) :
    (∀ bytes, UniformRows ch stride scaleX scaleY bytes dst { dst with
      bytes := overlay (layers (resizedRow ch stride scaleX scaleY dst) dst.height.toNat) bytes
        dst.bytes }) ↔ UniformlySampled ch stride scaleX scaleY dst := by
  have hheight : 1 ≤ dst.height.toNat :=
    Nat.one_le_iff_ne_zero.mpr fun hzero => hrows (UInt32.toNat_inj.mp hzero)
  by_cases hbytes : 1 ≤ dst.width.toNat * ch.toNat
  · have hcells := copiesRows_iff h.inRows hheight hbytes h.columns
      (fun y k => sample scaleY y * stride.toNat + sampledByte ch scaleX k) dst.bytes
    refine Iff.trans hcells ?_
    constructor
    · rintro ⟨hlast, hrow⟩
      have hrow' := fun y hy => (h.row_iff hlast hy hbytes).mp (hrow y hy)
      exact ⟨hlen, (hrow' 0 hheight).2, fun _ => ⟨hlast, fun y hy => (hrow' y hy).1⟩⟩
    · rintro ⟨-, hblocks, hoffsets⟩
      obtain ⟨hlast, hoffset⟩ := hoffsets hbytes
      exact ⟨hlast, fun y hy => (h.row_iff hlast hy hbytes).mpr ⟨hoffset y hy, hblocks⟩⟩
  · have hshort : (dst.width * ch).toNat = 0 := by rw [h.rowBytes]; omega
    refine iff_of_true (fun bytes y _ k hk => absurd hk (by omega))
      ⟨hlen, ⟨.inr (by omega), fun k hk => by omega⟩, fun hone => absurd hone hbytes⟩

end Inside

-- The source is meant with every content of its bytes.
theorem imgArchAvx2Resize_uniform_iff (srcWidth srcHeight ch stride targetW targetH scaleX
    scaleY : UInt32) (dst : ImgBuffer)
    (h : Sampled srcWidth srcHeight ch stride scaleX scaleY dst) :
    (∀ bytes, ∃ dst', imgArchAvx2Resize
      (some (apartParams ch stride targetW targetH scaleX scaleY bytes)) dst = some dst' ∧
        UniformRows ch stride scaleX scaleY bytes dst dst') ↔
      dst.height = 0 ∨ UniformlySampled ch stride scaleX scaleY dst := by
  by_cases hrows : dst.height = 0
  · refine iff_of_true (fun bytes => ?_) (.inl hrows)
    simp only [imgArchAvx2Resize, apartParams, Option.bind_some, hrows]
    refine ⟨_, rfl, fun y hy => ?_⟩
    rw [hrows] at hy
    exact absurd hy (Nat.not_lt_zero y)
  by_cases hlen : dst.width.toNat * ch.toNat < 2 ^ 32 - 32
  · rw [← h.uniformRows_iff hrows hlen]
    simp only [h.imgArchAvx2Resize hlen, Option.some.injEq, exists_eq_left', hrows, false_or]
  · refine iff_of_false (fun hall => ?_) ?_
    · obtain ⟨dst', hsome, -⟩ := hall fun _ => 0
      rw [imgArchAvx2Resize_stuck hrows (by rw [h.rowBytes]; omega)] at hsome
      cases hsome
    · rintro (hzero | hr)
      · exact hrows hzero
      · exact hlen hr.returns

end Kernel

-- A row of 32 pixels of one byte, scaled down from 64.

def grayLine : ImgBuffer where
  data := 8192
  bytes _ := 0
  width := 32
  height := 1
  channels := 1
  stride := 32

theorem grayLine_sampled (scaleX : UInt32) (h : ∀ x < 32, sample scaleX x < 64) :
    Sampled 64 1 1 64 scaleX 65536 grayLine :=
  ⟨by decide, by decide, h, by decide⟩

theorem imgArchAvx2Resize_uniform_unscaled :
    ∃ dst', imgArchAvx2Resize (some (apartParams 1 64 32 1 65536 65536 fun i => .ofNat i)) grayLine =
      some dst' ∧ UniformRows 1 64 65536 65536 (fun i => .ofNat i) grayLine dst' :=
  (imgArchAvx2Resize_uniform_iff 64 1 1 64 32 1 65536 65536 grayLine
    (grayLine_sampled 65536 (by decide))).mpr
    (.inr ⟨by decide, ⟨.inl (by decide), by decide⟩, by decide⟩) _

-- Pixel 1 should be pixel 2 of the source.
theorem imgArchAvx2Resize_halves : Sampled 64 1 1 64 131072 65536 grayLine ∧
    ¬∃ dst', imgArchAvx2Resize
      (some (apartParams 1 64 32 1 131072 65536 fun i => .ofNat i)) grayLine = some dst' ∧
        UniformRows 1 64 131072 65536 (fun i => .ofNat i) grayLine dst' := by
  refine ⟨grayLine_sampled 131072 (by decide), ?_⟩
  rintro ⟨dst', hsome, hrows⟩
  have hbyte := hrows 0 (by decide) 1 (by decide)
  have hcopied : (imgArchAvx2Resize
      (some (apartParams 1 64 32 1 131072 65536 fun i => .ofNat i)) grayLine).map
        (fun dst => dst.bytes 1) = some 1 := by decide
  rw [hsome, Option.map_some, Option.some.injEq] at hcopied
  rw [show dst'.bytes (0 * grayLine.stride.toNat + 1) = dst'.bytes 1 from rfl, hcopied] at hbyte
  exact absurd hbyte (by decide)

end ImgEngine.Arch
