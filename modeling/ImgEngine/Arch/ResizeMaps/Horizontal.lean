import ImgEngine.Arch.ResizeMaps.Rows

namespace ImgEngine.Arch

open ImgEngine.Library.Loop ImgEngine.Library.Overlay ImgEngine.Library.VectorLoop

-- The rows are long enough for every access that the kernels make. A vector is 32
-- bytes, whatever a pixel is.
structure RowsHold (src dst : ImgBuffer) (xIndex : UInt32 → UInt32) : Prop where
  columns : dst.width.toNat * src.channels.toNat ≤ dst.stride.toNat
  mapped : ∀ x < dst.width.toNat,
    (xIndex (.ofNat x)).toNat * src.channels.toNat + src.channels.toNat ≤ src.stride.toNat
  stores : ∀ x, x % 32 = 0 → x + 32 ≤ dst.width.toNat →
    x * src.channels.toNat + 32 ≤ dst.stride.toNat
  loads : ∀ x, x % 32 = 0 → x + 32 ≤ dst.width.toNat →
    (xIndex (.ofNat x)).toNat * src.channels.toNat + 32 ≤ src.stride.toNat

-- Pixel x of each row is pixel x_index[x] of the source's row.
def ColumnsTaken (src : ImgBuffer) (xIndex : UInt32 → UInt32) (dst : ImgBuffer) (bytes : Bytes) :
    Prop :=
  ∀ y < src.height.toNat, ∀ x < dst.width.toNat, ∀ c < src.channels.toNat,
    bytes (y * dst.stride.toNat + (x * src.channels.toNat + c)) =
      src.bytes (y * src.stride.toNat +
        ((xIndex (.ofNat x)).toNat * src.channels.toNat + c))

structure HorizontalCopies (src : ImgBuffer) (xIndex : UInt32 → UInt32)
    (yIndex : Option (UInt32 → UInt32)) (dst : ImgBuffer) : Prop where
  same : imgArchResizeHAvx2 (some ⟨some src, some xIndex, yIndex⟩) dst =
    some (imgArchResizeHScalar (some ⟨some src, some xIndex, yIndex⟩) dst)
  columns : ColumnsTaken src xIndex dst
    (imgArchResizeHScalar (some ⟨some src, some xIndex, yIndex⟩) dst).bytes

-- What the kernels copy into the row at d from the row at s.

section Row

variable {src dst : ImgBuffer} {xIndex : UInt32 → UInt32}

def columnCopies (src dst : ImgBuffer) (xIndex : UInt32 → UInt32) (d s : Nat) : Nat → Option Nat :=
  layers (fun x => span (d + x * src.channels.toNat)
    (s + (xIndex (.ofNat x)).toNat * src.channels.toNat) src.channels.toNat) dst.width.toNat

-- Blocks of 32 columns, of which 32 bytes are copied from where the first one comes from.
def blockCopies (src dst : ImgBuffer) (xIndex : UInt32 → UInt32) (d s : Nat) : Nat → Option Nat :=
  layers (fun b => span (d + b * (32 * src.channels.toNat))
    (s + (xIndex (.ofNat (b * 32))).toNat * src.channels.toNat) 32) (dst.width.toNat / 32)

-- The columns after the last whole block.
def restCopies (src dst : ImgBuffer) (xIndex : UInt32 → UInt32) (d s : Nat) : Nat → Option Nat :=
  layers (fun k => span (d + dst.width.toNat / 32 * 32 * src.channels.toNat + k * src.channels.toNat)
    (s + (xIndex (.ofNat (dst.width.toNat / 32 * 32 + k))).toNat * src.channels.toNat)
    src.channels.toNat) (dst.width.toNat % 32)

def vectorCopies (src dst : ImgBuffer) (xIndex : UInt32 → UInt32) (d s : Nat) : Nat → Option Nat :=
  atop (restCopies src dst xIndex d s) (blockCopies src dst xIndex d s)

theorem RowsHold.copyColumn (h : RowsHold src dst xIndex) {x : Nat} (hx : x < dst.width.toNat)
    (d s : Nat) (bytes : Bytes) :
    copyColumn src xIndex s d (.ofNat x) bytes =
      overlay (span (d + x * src.channels.toNat)
        (s + (xIndex (.ofNat x)).toNat * src.channels.toNat) src.channels.toNat) src.bytes bytes := by
  have hwidth := dst.width.toNat_lt
  have hdst := dst.stride.toNat_lt
  have hsrc := src.stride.toNat_lt
  have hcolumns := h.columns
  have hmapped := h.mapped x hx
  have hend := Nat.mul_le_mul_right src.channels.toNat hx
  rw [Nat.succ_mul] at hend
  have hxNat : (UInt32.ofNat x).toNat = x := uint32_toNat_ofNat (by omega)
  unfold Arch.copyColumn
  rw [← forRange_copy]
  refine forRange_congr (fun c hc bytes => ?_) bytes
  have hcNat : (UInt32.ofNat c).toNat = c := uint32_toNat_ofNat (by omega)
  have hto : (UInt32.ofNat x * src.channels).toNat = x * src.channels.toNat := by
    rw [uint32_toNat_mul (by rw [hxNat]; omega), hxNat]
  have hfrom : (xIndex (.ofNat x) * src.channels).toNat =
      (xIndex (.ofNat x)).toNat * src.channels.toNat := uint32_toNat_mul (by omega)
  rw [uint32_toNat_add (by rw [hto, hcNat]; omega), uint32_toNat_add (by rw [hfrom, hcNat]; omega),
    hto, hfrom, hcNat, Nat.add_assoc, Nat.add_assoc]

theorem RowsHold.columnLoop (h : RowsHold src dst xIndex) (d s : Nat) (bytes : Bytes) :
    forRange dst.width.toNat (fun x bytes => Arch.copyColumn src xIndex s d (.ofNat x) bytes) bytes =
      overlay (columnCopies src dst xIndex d s) src.bytes bytes := by
  rw [forRange_congr (fun x hx bytes => h.copyColumn hx d s bytes), forRange_overlay]
  rfl

theorem RowsHold.restLoop (h : RowsHold src dst xIndex) (d s : Nat) (bytes : Bytes) :
    forRange (dst.width.toNat % 32) (fun k bytes => Arch.copyColumn src xIndex s d
      (.ofNat (dst.width.toNat / 32 * 32) + .ofNat k) bytes) bytes =
        overlay (restCopies src dst xIndex d s) src.bytes bytes := by
  have hcolumn : ∀ k < dst.width.toNat % 32, ∀ bytes, Arch.copyColumn src xIndex s d
      (.ofNat (dst.width.toNat / 32 * 32) + .ofNat k) bytes =
        overlay (span (d + dst.width.toNat / 32 * 32 * src.channels.toNat + k * src.channels.toNat)
          (s + (xIndex (.ofNat (dst.width.toNat / 32 * 32 + k))).toNat * src.channels.toNat)
          src.channels.toNat) src.bytes bytes := by
    intro k hk bytes
    rw [← UInt32.ofNat_add, h.copyColumn (by omega), Nat.add_mul, Nat.add_assoc d]
  rw [forRange_congr hcolumn, forRange_overlay]
  rfl

-- One round of the vector loop.
theorem RowsHold.copyBlock (h : RowsHold src dst xIndex) {b : Nat}
    (hb : b * 32 + 32 ≤ dst.width.toNat) (d s : Nat) (bytes : Bytes) :
    bytes.memcpy (d + (UInt32.ofNat (b * 32) * src.channels).toNat) src.bytes
      (s + (xIndex (.ofNat (b * 32)) * src.channels).toNat) 32 =
        overlay (span (d + b * (32 * src.channels.toNat))
          (s + (xIndex (.ofNat (b * 32))).toNat * src.channels.toNat) 32) src.bytes bytes := by
  have hwidth := dst.width.toNat_lt
  have hdst := dst.stride.toNat_lt
  have hsrc := src.stride.toNat_lt
  have hstores := h.stores (b * 32) (by omega) hb
  have hloads := h.loads (b * 32) (by omega) hb
  have hx : (UInt32.ofNat (b * 32)).toNat = b * 32 := uint32_toNat_ofNat (by omega)
  rw [uint32_toNat_mul (by rw [hx]; omega), uint32_toNat_mul (by omega), hx, Nat.mul_assoc,
    memcpy_overlay]

theorem resizeHRow_vectored (channels : UInt32) (d s : Nat) :
    Vectored dst.width
      (fun x bytes => bytes.memcpy (d + (x * channels).toNat) src.bytes
        (s + (xIndex x * src.channels).toNat) 32)
      (fun x => forRange (dst.width.toNat - x.toNat) fun k bytes =>
        Arch.copyColumn src xIndex s d (x + .ofNat k) bytes)
      (resizeHRow src xIndex channels s d dst.width) :=
  ⟨fun _ _ => rfl, fun _ _ _ => rfl⟩

theorem RowsHold.resizeHRow (h : RowsHold src dst xIndex)
    (hwidth : dst.width.toNat < 2 ^ 32 - 32) (d s : Nat) (bytes : Bytes) :
    resizeHRow src xIndex src.channels s d dst.width (2 ^ 27 + 1) 0 bytes =
      some (overlay (vectorCopies src dst xIndex d s) src.bytes bytes) := by
  have hfuel : dst.width.toNat < (0 : UInt32).toNat + 32 * (2 ^ 27 + 1) := by
    change _ < 0 + 32 * _
    omega
  have hend : (UInt32.ofNat (dst.width.toNat / 32 * 32)).toNat = dst.width.toNat / 32 * 32 :=
    uint32_toNat_ofNat (by omega)
  let block := fun b => span (d + b * (32 * src.channels.toNat))
    (s + (xIndex (.ofNat (b * 32))).toNat * src.channels.toNat) 32
  -- the rounds so far have copied the blocks before x
  obtain ⟨_, ⟨-, rfl⟩, hloop⟩ := (resizeHRow_vectored src.channels d s).returns hwidth
    (fun x bytes' => x % 32 = 0 ∧ bytes' = overlay (layers block (x / 32)) src.bytes bytes)
    (fun x bytes' hx hinv => by
      obtain ⟨haligned, rfl⟩ := hinv
      have hblock : x = .ofNat (x.toNat / 32 * 32) := by
        rw [Nat.div_mul_cancel (Nat.dvd_of_mod_eq_zero haligned), UInt32.ofNat_toNat]
      refine ⟨by omega, ?_⟩
      rw [Nat.add_div_right _ (by decide), layers, ← overlay_atop,
        ← h.copyBlock (by omega), ← hblock])
    rfl (Nat.zero_le _) hfuel ⟨rfl, (funext fun _ => overlay_of_none rfl).symm⟩
  rw [hloop, hend, ← Nat.mod_eq_sub_div_mul, h.restLoop, overlay_atop,
    Nat.mul_div_cancel _ (by decide)]
  rfl

-- Cell by cell.

variable {d s x c : Nat}

theorem columnCopies_inside (hx : x < dst.width.toNat) (hc : c < src.channels.toNat) :
    columnCopies src dst xIndex d s (d + (x * src.channels.toNat + c)) =
      some (s + ((xIndex (.ofNat x)).toNat * src.channels.toNat + c)) := by
  rw [← Nat.add_assoc, ← Nat.add_assoc]
  exact tiles_inside (Nat.le_refl _) hx hc

theorem columnCopies_outside {j : Nat}
    (hj : j < d ∨ d + dst.width.toNat * src.channels.toNat ≤ j) :
    columnCopies src dst xIndex d s j = none := by
  refine tiles_outside fun x hx => ?_
  have hend := Nat.mul_le_mul_right src.channels.toNat hx
  rw [Nat.succ_mul] at hend
  omega

-- Where the columns of a block come from.
theorem vectorCopies_block (hx : x < dst.width.toNat / 32 * 32) (hc : c < src.channels.toNat) :
    vectorCopies src dst xIndex d s (d + (x * src.channels.toNat + c)) =
      if x % 32 * src.channels.toNat + c < 32 then
        some (s + ((xIndex (.ofNat (x / 32 * 32))).toNat * src.channels.toNat +
          (x % 32 * src.channels.toNat + c)))
      else none := by
  have hend := Nat.mul_le_mul_right src.channels.toNat hx
  rw [Nat.succ_mul] at hend
  have hrest : restCopies src dst xIndex d s (d + (x * src.channels.toNat + c)) = none :=
    tiles_outside fun k _ => .inl (by omega)
  have hoffset : d + (x * src.channels.toNat + c) =
      d + x / 32 * (32 * src.channels.toNat) + (x % 32 * src.channels.toNat + c) := by
    have hsplit : x = x / 32 * 32 + x % 32 := (Nat.div_add_mod' x 32).symm
    conv_lhs => rw [hsplit]
    rw [Nat.add_mul, Nat.mul_assoc]
    omega
  rw [vectorCopies, atop, hrest, Option.none_or, hoffset]
  have hblock : 32 ≤ 32 * src.channels.toNat := by omega
  split_ifs with hin
  · rw [blockCopies, tiles_inside hblock (by omega) hin, Nat.add_assoc]
  · have hpixel := Nat.mul_le_mul_right src.channels.toNat
      (show x % 32 + 1 ≤ 32 from Nat.mod_lt x (by decide))
    rw [Nat.succ_mul] at hpixel
    refine tiles_outside fun b _ => ?_
    -- the cell lies behind the 32 bytes of its block and before the next block
    rcases Nat.lt_trichotomy b (x / 32) with hlt | rfl | hgt
    · have hstep := Nat.mul_le_mul_right (32 * src.channels.toNat) hlt
      rw [Nat.succ_mul] at hstep
      omega
    · omega
    · have hstep := Nat.mul_le_mul_right (32 * src.channels.toNat) hgt
      rw [Nat.succ_mul] at hstep
      omega

theorem vectorCopies_rest (hx : x < dst.width.toNat) (hrest : dst.width.toNat / 32 * 32 ≤ x)
    (hc : c < src.channels.toNat) :
    vectorCopies src dst xIndex d s (d + (x * src.channels.toNat + c)) =
      some (s + ((xIndex (.ofNat x)).toNat * src.channels.toNat + c)) := by
  obtain ⟨k, rfl⟩ := Nat.exists_eq_add_of_le hrest
  rw [vectorCopies, atop, Nat.add_mul, Nat.add_assoc, ← Nat.add_assoc d, ← Nat.add_assoc,
    restCopies, tiles_inside (Nat.le_refl _) (by omega) hc, Option.some_or, Nat.add_assoc]

theorem RowsHold.vectorCopies_outside (h : RowsHold src dst xIndex) {j : Nat}
    (hj : j < d ∨ d + dst.stride.toNat ≤ j) : vectorCopies src dst xIndex d s j = none := by
  have hcolumns := h.columns
  have hrest : restCopies src dst xIndex d s j = none := by
    refine tiles_outside fun k hk => ?_
    have hend := Nat.mul_le_mul_right src.channels.toNat
      (show dst.width.toNat / 32 * 32 + k + 1 ≤ dst.width.toNat by omega)
    rw [Nat.succ_mul, Nat.add_mul] at hend
    omega
  rw [vectorCopies, atop, hrest, Option.none_or]
  refine tiles_outside fun b hb => ?_
  have hstores := h.stores (b * 32) (by omega) (by omega)
  rw [Nat.mul_assoc] at hstores
  omega

-- There are no blocks, or pixels are bytes and the map goes on by one within each block.
def BlocksAdvance (src dst : ImgBuffer) (xIndex : UInt32 → UInt32) : Prop :=
  dst.width.toNat < 32 ∨ src.channels = 1 ∧ ∀ x < dst.width.toNat / 32 * 32,
    (xIndex (.ofNat x)).toNat = (xIndex (.ofNat (x / 32 * 32))).toNat + x % 32

theorem blocksAdvance_iff (hch : 1 ≤ src.channels.toNat) :
    BlocksAdvance src dst xIndex ↔ ∀ x < dst.width.toNat, ∀ c < src.channels.toNat,
      vectorCopies src dst xIndex d s (d + (x * src.channels.toNat + c)) =
        some (s + ((xIndex (.ofNat x)).toNat * src.channels.toNat + c)) := by
  constructor
  · intro hadvance x hx c hc
    by_cases hblock : x < dst.width.toNat / 32 * 32
    · rcases hadvance with hshort | ⟨hone, hadvance⟩
      · omega
      · rw [vectorCopies_block hblock hc, hadvance x hblock]
        have hone : src.channels.toNat = 1 := congrArg UInt32.toNat hone
        rw [hone] at hc ⊢
        rw [if_pos (by omega)]
        congr 1
        omega
    · exact vectorCopies_rest hx (by omega) hc
  · intro h
    by_cases hshort : dst.width.toNat < 32
    · exact .inl hshort
    -- the last byte of the block's last column is among its 32 bytes
    have hlast := h 31 (by omega) (src.channels.toNat - 1) (by omega)
    rw [vectorCopies_block (by omega) (by omega)] at hlast
    split_ifs at hlast with hin
    have hone : src.channels.toNat = 1 := by omega
    refine .inr ⟨UInt32.toNat_inj.mp hone, fun x hx => ?_⟩
    have hcolumn := h x (by omega) 0 (by omega)
    rw [vectorCopies_block hx (by omega), hone, if_pos (by omega), Option.some.injEq] at hcolumn
    omega

theorem BlocksAdvance.vectorCopies_eq (h : BlocksAdvance src dst xIndex) :
    vectorCopies src dst xIndex d s = columnCopies src dst xIndex d s := by
  funext j
  rcases h with hshort | ⟨hone, hadvance⟩
  · have hblocks : blockCopies src dst xIndex d s j = none :=
      tiles_outside fun b hb => by omega
    have hdiv : dst.width.toNat / 32 = 0 := Nat.div_eq_of_lt hshort
    have hmod : dst.width.toNat % 32 = dst.width.toNat := Nat.mod_eq_of_lt hshort
    simp only [vectorCopies, atop, hblocks, Option.or_none, restCopies, columnCopies, hdiv, hmod,
      Nat.zero_mul, Nat.add_zero, Nat.zero_add]
  · have hch : src.channels.toNat = 1 := congrArg UInt32.toNat hone
    by_cases hin : d ≤ j ∧ j < d + dst.width.toNat
    · obtain ⟨x, rfl⟩ := Nat.exists_eq_add_of_le hin.1
      have hx : x < dst.width.toNat := by omega
      have hcell := (blocksAdvance_iff (d := d) (s := s) (by omega)).mp (.inr ⟨hone, hadvance⟩)
        x hx 0 (by omega)
      rw [← columnCopies_inside hx (by omega)] at hcell
      simpa only [hch, Nat.mul_one, Nat.add_zero] using hcell
    · have hcolumn : columnCopies src dst xIndex d s j = none :=
        columnCopies_outside (by rw [hch]; omega)
      have hrest : restCopies src dst xIndex d s j = none :=
        tiles_outside fun k hk => by rw [hch]; omega
      rw [hcolumn, vectorCopies, atop, hrest, Option.none_or]
      exact tiles_outside fun b hb => by rw [hch]; omega

end Row

section Kernels

variable {src dst : ImgBuffer} {xIndex : UInt32 → UInt32} {yIndex : Option (UInt32 → UInt32)}

def hRowScalar (src dst : ImgBuffer) (xIndex : UInt32 → UInt32) (y : Nat) : Nat → Option Nat :=
  columnCopies src dst xIndex (rowStart dst.stride y) (rowStart src.stride y)

def hRowAvx2 (src dst : ImgBuffer) (xIndex : UInt32 → UInt32) (y : Nat) : Nat → Option Nat :=
  vectorCopies src dst xIndex (rowStart dst.stride y) (rowStart src.stride y)

theorem RowsHold.imgArchResizeHScalar (h : RowsHold src dst xIndex) :
    imgArchResizeHScalar (some ⟨some src, some xIndex, yIndex⟩) dst = { dst with
      bytes := overlay (layers (hRowScalar src dst xIndex) src.height.toNat) src.bytes dst.bytes } := by
  simp only [Arch.imgArchResizeHScalar, h.columnLoop]
  rw [← forRange_overlay]
  rfl

theorem RowsHold.imgArchResizeHAvx2 (h : RowsHold src dst xIndex)
    (hch : dst.channels = src.channels) (hwidth : dst.width.toNat < 2 ^ 32 - 32) :
    imgArchResizeHAvx2 (some ⟨some src, some xIndex, yIndex⟩) dst = some { dst with
      bytes := overlay (layers (hRowAvx2 src dst xIndex) src.height.toNat) src.bytes dst.bytes } := by
  have hround : ∀ y < src.height.toNat, ∀ bytes : Bytes,
      (if dst.width = 0 then some bytes
        else Arch.resizeHRow src xIndex dst.channels (UInt32.ofNat y * src.stride).toNat
          (UInt32.ofNat y * dst.stride).toNat dst.width (2 ^ 27 + 1) 0 bytes) =
        some (overlay (hRowAvx2 src dst xIndex y) src.bytes bytes) := by
    intro y _ bytes
    rw [hch, h.resizeHRow hwidth]
    split_ifs with hzero
    · have hshort : BlocksAdvance src dst xIndex := .inl (by rw [hzero]; decide)
      have hnone : hRowAvx2 src dst xIndex y = fun _ => none := by
        funext j
        rw [hRowAvx2, hshort.vectorCopies_eq]
        exact columnCopies_outside (by rw [hzero, UInt32.toNat_zero]; omega)
      rw [hnone]
      rfl
    · rfl
  simp only [Arch.imgArchResizeHAvx2, Option.bind_some]
  rw [foldlM_range_eq hround, forRange_overlay]
  rfl

theorem imgArchResizeHAvx2_stuck (hrows : src.height ≠ 0) (hwidth : 2 ^ 32 - 32 ≤ dst.width.toNat) :
    imgArchResizeHAvx2 (some ⟨some src, some xIndex, yIndex⟩) dst = none := by
  have hheight : src.height.toNat ≠ 0 := fun h => hrows (UInt32.toNat_inj.mp h)
  obtain ⟨n, hn⟩ := Nat.exists_eq_succ_of_ne_zero hheight
  have hzero : dst.width ≠ 0 := by
    rintro hzero
    rw [hzero] at hwidth
    exact absurd hwidth (by decide)
  simp only [imgArchResizeHAvx2, Option.bind_some, if_neg hzero]
  rw [hn, List.range_succ_eq_map, List.foldlM_cons,
    (resizeHRow_vectored dst.channels _ _).stuck hwidth rfl]
  rfl

-- Where a byte of the destination should come from.
def columnSource (src : ImgBuffer) (xIndex : UInt32 → UInt32) (y k : Nat) : Nat :=
  y * src.stride.toNat + ((xIndex (.ofNat (k / src.channels.toNat))).toNat * src.channels.toNat +
    k % src.channels.toNat)

theorem columnsTaken_iff {bytes : Bytes} : ColumnsTaken src xIndex dst bytes ↔
    ∀ y < src.height.toNat, ∀ k < dst.width.toNat * src.channels.toNat,
      bytes (y * dst.stride.toNat + k) = src.bytes (columnSource src xIndex y k) := by
  refine forall₂_congr fun y _ => ?_
  rw [forall_pixelBytes_iff]
  refine forall₂_congr fun x _ => forall₂_congr fun c hc => ?_
  rw [columnSource, (pixelByte_div_mod x hc).1, (pixelByte_div_mod x hc).2]

theorem RowsHold.inRows_scalar (h : RowsHold src dst xIndex) :
    InRows dst.stride (hRowScalar src dst xIndex) := fun y j hj =>
  columnCopies_outside (by have := h.columns; omega)

theorem RowsHold.inRows_vector (h : RowsHold src dst xIndex) :
    InRows dst.stride (hRowAvx2 src dst xIndex) := fun _ _ hj => h.vectorCopies_outside hj

-- The cells of a row, where neither offset of the row wraps around.
theorem hRowScalar_cell (hlast : (src.height.toNat - 1) * dst.stride.toNat < 2 ^ 32) {y k : Nat}
    (hy : y < src.height.toNat) (hk : k < dst.width.toNat * src.channels.toNat) :
    hRowScalar src dst xIndex y (y * dst.stride.toNat + k) =
      some (rowStart src.stride y + ((xIndex (.ofNat (k / src.channels.toNat))).toNat *
        src.channels.toNat + k % src.channels.toNat)) := by
  revert k
  rw [forall_pixelBytes_iff]
  intro x hx c hc
  rw [(pixelByte_div_mod x hc).1, (pixelByte_div_mod x hc).2,
    ← rowStart_of_lt ((mul_le_last hy).trans_lt hlast)]
  exact columnCopies_inside hx hc

end Kernels

section Agreement

variable (src dst : ImgBuffer) (xIndex : UInt32 → UInt32) (yIndex : Option (UInt32 → UInt32))

-- When the kernels agree for every content of the source.
structure Resizable : Prop where
  returns : dst.width.toNat < 2 ^ 32 - 32
  blocks : BlocksAdvance src dst xIndex
  offsets : 1 ≤ dst.width.toNat * src.channels.toNat →
    (src.height.toNat - 1) * src.stride.toNat < 2 ^ 32 ∧
      (src.height.toNat - 1) * dst.stride.toNat < 2 ^ 32

variable {src dst xIndex yIndex}

theorem Resizable.horizontalCopies (hr : Resizable src dst xIndex) (h : RowsHold src dst xIndex)
    (hch : dst.channels = src.channels) : HorizontalCopies src xIndex yIndex dst := by
  have hrow : hRowAvx2 src dst xIndex = hRowScalar src dst xIndex :=
    funext fun y => hr.blocks.vectorCopies_eq
  constructor
  · rw [h.imgArchResizeHAvx2 hch hr.returns, h.imgArchResizeHScalar, hrow]
  · rw [h.imgArchResizeHScalar, columnsTaken_iff]
    intro y hy k hk
    obtain ⟨hsrc, hdst⟩ := hr.offsets (by omega)
    have hcolumns := h.columns
    refine overlay_of_some ?_
    rw [layers_row h.inRows_scalar hdst hy (by omega), hRowScalar_cell hdst hy hk,
      rowStart_of_lt ((mul_le_last hy).trans_lt hsrc)]
    rfl

theorem HorizontalCopies.sameBytes {bytes : Bytes}
    (hcopies : HorizontalCopies { src with bytes } xIndex yIndex dst) (h : RowsHold src dst xIndex)
    (hch : dst.channels = src.channels) (hwidth : dst.width.toNat < 2 ^ 32 - 32) :
    overlay (layers (hRowAvx2 src dst xIndex) src.height.toNat) bytes dst.bytes =
      overlay (layers (hRowScalar src dst xIndex) src.height.toNat) bytes dst.bytes := by
  have h' : RowsHold { src with bytes } dst xIndex := ⟨h.1, h.2, h.3, h.4⟩
  have hsame := hcopies.same
  rw [h'.imgArchResizeHAvx2 hch hwidth, h'.imgArchResizeHScalar, Option.some.injEq,
    ImgBuffer.mk.injEq] at hsame
  exact hsame.2.1

-- The cells that the map of each kernel has to copy.
theorem HorizontalCopies.cells (hall : ∀ bytes, HorizontalCopies { src with bytes } xIndex yIndex dst)
    (h : RowsHold src dst xIndex) (hch : dst.channels = src.channels) (hrows : src.height ≠ 0)
    (hwidth : dst.width.toNat < 2 ^ 32 - 32) (hbytes : 1 ≤ dst.width.toNat * src.channels.toNat) :
    (src.height.toNat - 1) * dst.stride.toNat < 2 ^ 32 ∧
      (∀ y < src.height.toNat, ∀ k < dst.width.toNat * src.channels.toNat,
        hRowScalar src dst xIndex y (y * dst.stride.toNat + k) =
          some (columnSource src xIndex y k)) ∧
      ∀ y < src.height.toNat, ∀ k < dst.width.toNat * src.channels.toNat,
        hRowAvx2 src dst xIndex y (y * dst.stride.toNat + k) =
          some (columnSource src xIndex y k) := by
  have hheight : 1 ≤ src.height.toNat :=
    Nat.one_le_iff_ne_zero.mpr fun hzero => hrows (UInt32.toNat_inj.mp hzero)
  have hscalar : ∀ bytes : Bytes, ∀ y < src.height.toNat,
      ∀ k < dst.width.toNat * src.channels.toNat,
        overlay (layers (hRowScalar src dst xIndex) src.height.toNat) bytes dst.bytes
          (y * dst.stride.toNat + k) = bytes (columnSource src xIndex y k) := by
    intro bytes
    have h' : RowsHold { src with bytes } dst xIndex := ⟨h.1, h.2, h.3, h.4⟩
    have hcolumns := (hall bytes).columns
    rw [h'.imgArchResizeHScalar, columnsTaken_iff] at hcolumns
    exact hcolumns
  have hvector : ∀ bytes : Bytes, ∀ y < src.height.toNat,
      ∀ k < dst.width.toNat * src.channels.toNat,
        overlay (layers (hRowAvx2 src dst xIndex) src.height.toNat) bytes dst.bytes
          (y * dst.stride.toNat + k) = bytes (columnSource src xIndex y k) := by
    intro bytes
    rw [(hall bytes).sameBytes h hch hwidth]
    exact hscalar bytes
  obtain ⟨hlast, hscalar⟩ :=
    (copiesRows_iff h.inRows_scalar hheight hbytes h.columns _ dst.bytes).mp hscalar
  obtain ⟨-, hvector⟩ :=
    (copiesRows_iff h.inRows_vector hheight hbytes h.columns _ dst.bytes).mp hvector
  exact ⟨hlast, hscalar, hvector⟩

-- Without channels the scalar kernel copies nothing and the vectors still do.
theorem HorizontalCopies.no_vectors
    (hall : ∀ bytes, HorizontalCopies { src with bytes } xIndex yIndex dst)
    (h : RowsHold src dst xIndex) (hch : dst.channels = src.channels) (hrows : src.height ≠ 0)
    (hwidth : dst.width.toNat < 2 ^ 32 - 32) (hzero : src.channels.toNat = 0) :
    dst.width.toNat < 32 := by
  by_contra hlong
  have hheight : 1 ≤ src.height.toNat :=
    Nat.one_le_iff_ne_zero.mpr fun hzero => hrows (UInt32.toNat_inj.mp hzero)
  have hkeeps : layers (hRowAvx2 src dst xIndex) src.height.toNat 0 = none := by
    refine (overlay_keeps_iff dst.bytes).mp fun bytes => ?_
    rw [(hall bytes).sameBytes h hch hwidth]
    refine overlay_of_none (layers_eq_none fun y _ => columnCopies_outside ?_)
    rw [hzero]
    omega
  have hfirst := layers_eq_none_iff.mp hkeeps 0 hheight
  have hblocks := (Option.or_eq_none_iff.mp hfirst).2
  have hblock := layers_eq_none_iff.mp hblocks 0 (by omega)
  rw [rowStart_of_lt (by omega), Nat.zero_mul, Nat.zero_mul] at hblock
  rw [span, if_pos (by omega)] at hblock
  cases hblock

theorem HorizontalCopies.resizable
    (hall : ∀ bytes, HorizontalCopies { src with bytes } xIndex yIndex dst)
    (h : RowsHold src dst xIndex) (hch : dst.channels = src.channels) (hrows : src.height ≠ 0) :
    Resizable src dst xIndex := by
  have hheight : src.height.toNat ≠ 0 := fun hzero => hrows (UInt32.toNat_inj.mp hzero)
  have hwidth : dst.width.toNat < 2 ^ 32 - 32 := by
    by_contra hlong
    have hsame := (hall src.bytes).same
    rw [imgArchResizeHAvx2_stuck hrows (Nat.not_lt.mp hlong)] at hsame
    cases hsame
  refine ⟨hwidth, ?_, fun hbytes => ?_⟩
  · by_cases hzero : src.channels.toNat = 0
    · exact .inl (HorizontalCopies.no_vectors hall h hch hrows hwidth hzero)
    by_cases hshort : dst.width.toNat < 32
    · exact .inl hshort
    have hbytes : 1 ≤ dst.width.toNat * src.channels.toNat :=
      Nat.mul_pos (by omega) (Nat.pos_of_ne_zero hzero)
    obtain ⟨-, -, hvector⟩ := HorizontalCopies.cells hall h hch hrows hwidth hbytes
    -- the first row starts at 0 in both buffers
    refine (blocksAdvance_iff (d := 0) (s := 0) (by omega)).mpr fun x hx c hc => ?_
    have hcell := forall_pixelBytes_iff.mp (hvector 0 (by omega)) x hx c hc
    rw [hRowAvx2, rowStart_of_lt (by omega), rowStart_of_lt (by omega), columnSource,
      (pixelByte_div_mod x hc).1, (pixelByte_div_mod x hc).2] at hcell
    simpa only [Nat.zero_mul] using hcell
  · obtain ⟨hlast, hscalar, -⟩ := HorizontalCopies.cells hall h hch hrows hwidth hbytes
    refine ⟨?_, hlast⟩
    have hcell := hscalar (src.height.toNat - 1) (by omega) 0 hbytes
    rw [hRowScalar_cell hlast (by omega) hbytes, columnSource, Option.some.injEq, rowStart_eq]
      at hcell
    have := Nat.mod_lt ((src.height.toNat - 1) * src.stride.toNat) (Nat.two_pow_pos 32)
    omega

end Agreement

-- Each source is meant with every content of its bytes.
theorem imgResizeH_agree_iff (src dst : ImgBuffer) (xIndex : UInt32 → UInt32)
    (yIndex : Option (UInt32 → UInt32)) (hch : dst.channels = src.channels)
    (h : RowsHold src dst xIndex) :
    (∀ bytes, HorizontalCopies { src with bytes } xIndex yIndex dst) ↔
      src.height = 0 ∨ Resizable src dst xIndex := by
  by_cases hrows : src.height = 0
  · refine iff_of_true (fun bytes => ⟨?_, fun y hy => ?_⟩) (.inl hrows)
    · simp only [imgArchResizeHAvx2, Option.bind_some, hrows]
      rfl
    · rw [hrows] at hy
      exact absurd hy (Nat.not_lt_zero y)
  · constructor
    · exact fun hall => .inr (HorizontalCopies.resizable hall h hch hrows)
    · rintro (hzero | hr) bytes
      · exact absurd hzero hrows
      · have hr' : Resizable { src with bytes } dst xIndex := ⟨hr.1, hr.2, hr.3⟩
        exact hr'.horizontalCopies ⟨h.1, h.2, h.3, h.4⟩ hch

-- Two rows of 64 pixels of one byte, of which 32 are taken.

def grayRows : ImgBuffer where
  data := 4096
  bytes i := .ofNat i
  width := 64
  height := 2
  channels := 1
  stride := 64

def halfRows : ImgBuffer where
  data := 8192
  bytes _ := 0
  width := 32
  height := 2
  channels := 1
  stride := 32

theorem rowsHold_halfRows {xIndex : UInt32 → UInt32}
    (h : ∀ x < 32, (xIndex (.ofNat x)).toNat ≤ 32) : RowsHold grayRows halfRows xIndex where
  columns := by decide
  mapped x hx := by
    have := h x hx
    change _ * 1 + 1 ≤ 64
    omega
  stores x _ hx := by
    change x + 32 ≤ 32 at hx
    change x * 1 + 32 ≤ 32
    omega
  loads x _ hx := by
    change x + 32 ≤ 32 at hx
    have := h x (by omega)
    change _ * 1 + 32 ≤ 64
    omega

theorem imgResizeH_agree_shifted : HorizontalCopies grayRows (· + 1) none halfRows :=
  (imgResizeH_agree_iff grayRows halfRows (· + 1) none rfl (rowsHold_halfRows (by decide))).mpr
    (.inr ⟨by decide, .inr ⟨rfl, by decide⟩, by decide⟩) grayRows.bytes

-- The scalar kernel takes the first pixel 32 times and the vector the first 32 pixels.
theorem imgResizeH_blocks : halfRows.channels = grayRows.channels ∧
    RowsHold grayRows halfRows (fun _ => 0) ∧
    ¬HorizontalCopies grayRows (fun _ => 0) none halfRows := by
  refine ⟨rfl, rowsHold_halfRows (by decide), fun h => ?_⟩
  have hsame := congrArg (Option.map fun dst : ImgBuffer => dst.bytes 1) h.same
  exact absurd hsame (by decide)

end ImgEngine.Arch
