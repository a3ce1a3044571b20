import ImgEngine.Pipeline.Layout.Theorems
import ImgEngine.Pipeline.Picture

namespace ImgEngine.Pipeline

open ImgEngine.Library.Loop

def imgBlitScalar (dst src : ImgBuffer) (dstX dstY : UInt32) : ImgBuffer :=
  if dst.data = 0 ∨ src.data = 0 then dst
  else
    let rows := if dstY + src.height > dst.height then dst.height - dstY else src.height
    let cols := if dstX + src.width > dst.width then dst.width - dstX else src.width
    { dst with
      bytes := forRange rows.toNat (fun y (bytes : Bytes) =>
        bytes.memcpy ((dstY + .ofNat y).toNat * dst.stride.toNat + dstX.toNat * 3) src.bytes
          (y * src.stride.toNat) (cols * 3).toNat) dst.bytes }

-- A list of stores, when those to one place agree.

theorem foldl_stores_of_mem {stores : List (Nat × UInt8)} {i : Nat} {v : UInt8}
    (hmem : (i, v) ∈ stores) (hsame : ∀ store ∈ stores, store.1 = i → store.2 = v) (bytes : Bytes) :
    stores.foldl (fun bytes store => Function.update bytes store.1 store.2) bytes i = v := by
  induction stores using List.reverseRecOn with
  | nil => cases hmem
  | append_singleton stores store ih =>
      rw [List.foldl_append, List.foldl_cons, List.foldl_nil, Function.update_apply]
      split_ifs with hi
      · exact hsame store (by simp) hi.symm
      · refine ih ?_ fun other hother => hsame other (List.mem_append_left _ hother)
        refine (List.mem_append.mp hmem).resolve_right fun hlast => hi ?_
        exact congrArg Prod.fst (List.mem_singleton.mp hlast)

theorem foldl_stores_of_not_mem {stores : List (Nat × UInt8)} {i : Nat}
    (hne : ∀ store ∈ stores, store.1 ≠ i) (bytes : Bytes) :
    stores.foldl (fun bytes store => Function.update bytes store.1 store.2) bytes i = bytes i := by
  induction stores generalizing bytes with
  | nil => rfl
  | cons store stores ih =>
      rw [List.foldl_cons, ih fun other hother => hne other (List.mem_cons_of_mem _ hother)]
      exact Function.update_of_ne (hne store List.mem_cons_self).symm _ _

-- The places of one access in the two buffers, and its length.
structure BlitAccess where
  dst : Nat
  src : Nat
  size : Nat

-- What img_blit_avx2 copies byte by byte, and img_blit_scalar row by row.

def avx2Accesses (dst src : ImgBuffer) (dstX dstY : UInt32) : List BlitAccess :=
  if dst.data = 0 ∨ src.data = 0 then []
  else
    let rows := if dstY + src.height > dst.height then dst.height - dstY else src.height
    let cols := if dstX + src.width > dst.width then dst.width - dstX else src.width
    (List.range rows.toNat).flatMap fun y =>
      (rowOffsets (cols * 3)).map fun x =>
        ⟨(dstY + .ofNat y).toNat * dst.stride.toNat + dstX.toNat * 3 + x, y * src.stride.toNat + x, 1⟩

def scalarAccesses (dst src : ImgBuffer) (dstX dstY : UInt32) : List BlitAccess :=
  if dst.data = 0 ∨ src.data = 0 then []
  else
    let rows := if dstY + src.height > dst.height then dst.height - dstY else src.height
    let cols := if dstX + src.width > dst.width then dst.width - dstX else src.width
    (List.range rows.toNat).map fun y =>
      ⟨(dstY + .ofNat y).toNat * dst.stride.toNat + dstX.toNat * 3, y * src.stride.toNat,
        (cols * 3).toNat⟩

section Accesses

variable (dst src : ImgBuffer) (x y : UInt32)

theorem blitStores_eq_accesses :
    blitStores dst src x y = (avx2Accesses dst src x y).map fun a => (a.dst, src.bytes a.src) := by
  unfold blitStores avx2Accesses
  split_ifs
  all_goals simp only [List.map_nil, List.map_flatMap, List.map_map]
  all_goals rfl

theorem imgBlitScalar_eq_accesses : (imgBlitScalar dst src x y).bytes =
    (scalarAccesses dst src x y).foldl (fun bytes a => bytes.memcpy a.dst src.bytes a.src a.size)
      dst.bytes := by
  unfold imgBlitScalar scalarAccesses
  split_ifs
  · rfl
  all_goals
    simp only [forRange, List.foldl_map]

end Accesses

-- A block of rows, copied to a place in the other buffer.
structure RowsCopied (dst src : ImgBuffer) (x y cols rows : Nat) (bytes : Bytes) : Prop where
  inside : ∀ row < rows, ∀ o < 3 * cols,
    bytes ((y + row) * dst.stride.toNat + x * 3 + o) = src.bytes (row * src.stride.toNat + o)
  outside : ∀ i, (∀ row < rows, ∀ o < 3 * cols, i ≠ (y + row) * dst.stride.toNat + x * 3 + o) →
    bytes i = dst.bytes i

theorem RowsCopied.unique {dst src : ImgBuffer} {x y cols rows : Nat} {bytes bytes' : Bytes}
    (h : RowsCopied dst src x y cols rows bytes) (h' : RowsCopied dst src x y cols rows bytes') :
    bytes = bytes' := by
  funext i
  by_cases hin : ∃ row < rows, ∃ o < 3 * cols, i = (y + row) * dst.stride.toNat + x * 3 + o
  · obtain ⟨row, hrow, o, ho, rfl⟩ := hin
    rw [h.inside row hrow o ho, h'.inside row hrow o ho]
  · have hout : ∀ row < rows, ∀ o < 3 * cols, i ≠ (y + row) * dst.stride.toNat + x * 3 + o :=
      fun row hrow o ho heq => hin ⟨row, hrow, o, ho, heq⟩
    rw [h.outside i hout, h'.outside i hout]

-- The sums that clip the size do not wrap.
structure BlitRoom (dst src : ImgBuffer) (x y : UInt32) : Prop where
  raster : Raster dst
  dstData : dst.data ≠ 0
  srcData : src.data ≠ 0
  left : x.toNat ≤ dst.width.toNat
  top : y.toNat ≤ dst.height.toNat
  right : x.toNat + src.width.toNat < 2 ^ 32
  bottom : y.toNat + src.height.toNat < 2 ^ 32
  vector : 3 * dst.width.toNat + 32 < 2 ^ 32

-- The part of the source that falls inside the destination.

def blitCols (dst src : ImgBuffer) (x : UInt32) : Nat :=
  min src.width.toNat (dst.width.toNat - x.toNat)

def blitRows (dst src : ImgBuffer) (y : UInt32) : Nat :=
  min src.height.toNat (dst.height.toNat - y.toNat)

theorem clip_toNat {pos part whole : UInt32} (hpos : pos.toNat ≤ whole.toNat)
    (hsum : pos.toNat + part.toNat < 2 ^ 32) :
    (if pos + part > whole then whole - pos else part).toNat =
      min part.toNat (whole.toNat - pos.toNat) := by
  have hclip : pos + part > whole ↔ whole.toNat < pos.toNat + part.toNat := by
    rw [gt_iff_lt, UInt32.lt_iff_toNat_lt, uint32_toNat_add hsum]
  simp only [hclip]
  split_ifs with h
  · rw [uint32_toNat_sub hpos]
    omega
  · omega

section Copies

variable {dst src : ImgBuffer} {x y : UInt32}

theorem BlitRoom.row_toNat (h : BlitRoom dst src x y) {row : Nat} (hrow : row < blitRows dst src y) :
    (y + .ofNat row).toNat = y.toNat + row := by
  have hbottom := h.bottom
  have hheight := src.height.toNat_lt
  unfold blitRows at hrow
  have hindex : (UInt32.ofNat row).toNat = row := uint32_toNat_ofNat (by omega)
  rw [uint32_toNat_add (by omega), hindex]

theorem BlitRoom.size_toNat (h : BlitRoom dst src x y) :
    ((if x + src.width > dst.width then dst.width - x else src.width) * 3).toNat =
      3 * blitCols dst src x := by
  have hvector := h.vector
  have hclip := clip_toNat h.left h.right
  rw [uint32_toNat_mul_three, hclip]
  · rfl
  · omega

theorem mem_avx2Accesses (h : BlitRoom dst src x y) (a : BlitAccess) :
    a ∈ avx2Accesses dst src x y ↔ ∃ row < blitRows dst src y, ∃ o < 3 * blitCols dst src x,
      a = ⟨(y.toNat + row) * dst.stride.toNat + x.toNat * 3 + o, row * src.stride.toNat + o, 1⟩ := by
  have hvector := h.vector
  have hreach : reach ((if x + src.width > dst.width then dst.width - x else src.width) * 3) =
      3 * blitCols dst src x := by
    rw [reach, h.size_toNat, if_pos]
    unfold blitCols
    omega
  unfold avx2Accesses
  rw [if_neg (not_or.mpr ⟨h.dstData, h.srcData⟩)]
  dsimp only
  rw [clip_toNat h.top h.bottom, List.mem_flatMap]
  constructor
  · rintro ⟨row, hrow, ha⟩
    obtain ⟨o, ho, rfl⟩ := List.mem_map.mp ha
    have hrow := List.mem_range.mp hrow
    have ho := (mem_rowOffsets _ o).mp ho
    exact ⟨row, hrow, o, hreach ▸ ho, by rw [h.row_toNat hrow]⟩
  · rintro ⟨row, hrow, o, ho, rfl⟩
    refine ⟨row, List.mem_range.mpr hrow, List.mem_map.mpr ⟨o, ?_, by rw [h.row_toNat hrow]⟩⟩
    exact (mem_rowOffsets _ o).mpr (hreach ▸ ho)

theorem mem_scalarAccesses (h : BlitRoom dst src x y) (a : BlitAccess) :
    a ∈ scalarAccesses dst src x y ↔ ∃ row < blitRows dst src y,
      a = ⟨(y.toNat + row) * dst.stride.toNat + x.toNat * 3, row * src.stride.toNat,
        3 * blitCols dst src x⟩ := by
  unfold scalarAccesses
  rw [if_neg (not_or.mpr ⟨h.dstData, h.srcData⟩)]
  dsimp only
  rw [clip_toNat h.top h.bottom, h.size_toNat, List.mem_map]
  constructor
  · rintro ⟨row, hrow, rfl⟩
    have hrow := List.mem_range.mp hrow
    exact ⟨row, hrow, by rw [h.row_toNat hrow]⟩
  · rintro ⟨row, hrow, rfl⟩
    exact ⟨row, List.mem_range.mpr hrow, by rw [h.row_toNat hrow]⟩

-- A place in the rows that are copied determines its row and its place in the row.
theorem BlitRoom.place (h : BlitRoom dst src x y) {row row' o o' : Nat}
    (ho : o < 3 * blitCols dst src x) (ho' : o' < 3 * blitCols dst src x)
    (heq : (y.toNat + row) * dst.stride.toNat + x.toNat * 3 + o =
      (y.toNat + row') * dst.stride.toNat + x.toNat * 3 + o') : row = row' ∧ o = o' := by
  have hstride := h.raster.stride
  have hleft := h.left
  unfold blitCols at ho ho'
  rw [Nat.add_assoc, Nat.add_assoc] at heq
  obtain ⟨hrow, hplace⟩ := row_unique (by omega) (by omega) heq
  omega

theorem imgBlitAvx2_rows (h : BlitRoom dst src x y) :
    RowsCopied dst src x.toNat y.toNat (blitCols dst src x) (blitRows dst src y)
      (imgBlitAvx2 dst src x y).bytes := by
  have hstore : ∀ store ∈ blitStores dst src x y, ∃ row < blitRows dst src y,
      ∃ o < 3 * blitCols dst src x, store =
        ((y.toNat + row) * dst.stride.toNat + x.toNat * 3 + o,
          src.bytes (row * src.stride.toNat + o)) := by
    intro store hmem
    rw [blitStores_eq_accesses] at hmem
    obtain ⟨a, ha, rfl⟩ := List.mem_map.mp hmem
    obtain ⟨row, hrow, o, ho, rfl⟩ := (mem_avx2Accesses h a).mp ha
    exact ⟨row, hrow, o, ho, rfl⟩
  constructor
  · intro row hrow o ho
    refine foldl_stores_of_mem ?_ (fun store hmem heq => ?_) dst.bytes
    · rw [blitStores_eq_accesses]
      exact List.mem_map.mpr ⟨_, (mem_avx2Accesses h _).mpr ⟨row, hrow, o, ho, rfl⟩, rfl⟩
    · obtain ⟨row', -, o', ho', rfl⟩ := hstore store hmem
      obtain ⟨rfl, rfl⟩ := h.place ho' ho heq
      rfl
  · intro i hout
    refine foldl_stores_of_not_mem (fun store hmem heq => ?_) dst.bytes
    obtain ⟨row, hrow, o, ho, rfl⟩ := hstore store hmem
    exact hout row hrow o ho heq.symm

theorem imgBlitScalar_rows (h : BlitRoom dst src x y) :
    RowsCopied dst src x.toNat y.toNat (blitCols dst src x) (blitRows dst src y)
      (imgBlitScalar dst src x y).bytes := by
  have hstride := h.raster.stride
  have hleft := h.left
  have hcols : 3 * blitCols dst src x + 3 * x.toNat ≤ 3 * dst.width.toNat := by
    unfold blitCols
    omega
  unfold imgBlitScalar
  rw [if_neg (not_or.mpr ⟨h.dstData, h.srcData⟩)]
  dsimp only
  rw [clip_toNat h.top h.bottom, h.size_toNat]
  refine forRange_invariant (fun rows bytes => RowsCopied dst src x.toNat y.toNat
    (blitCols dst src x) rows bytes) ⟨fun row hrow => absurd hrow (Nat.not_lt_zero row),
      fun i _ => rfl⟩ ?_
  intro n hn bytes hbytes
  rw [h.row_toNat hn]
  constructor
  · intro row hrow o ho
    unfold Bytes.memcpy
    rcases Nat.lt_succ_iff_lt_or_eq.mp hrow with hlt | rfl
    · have hnext := row_le dst.stride.toNat (Nat.add_lt_add_left hlt y.toNat)
      rw [if_neg (by omega)]
      exact hbytes.inside row hlt o ho
    · rw [if_pos (by omega), Nat.add_sub_cancel_left]
  · intro i hout
    unfold Bytes.memcpy
    rw [if_neg]
    · exact hbytes.outside i fun row hrow => hout row (Nat.lt_succ_of_lt hrow)
    · rintro ⟨hlow, hhigh⟩
      exact hout n (Nat.lt_succ_self n) (i - ((y.toNat + n) * dst.stride.toNat + x.toNat * 3))
        (by omega) (by omega)

end Copies

-- What a blit is for: the pixels of the source that fall inside the destination, and
-- no other byte.
structure Blitted (dst src : ImgBuffer) (x y : UInt32) (out : ImgBuffer) : Prop where
  shape : out = { dst with bytes := out.bytes }
  pixels : ∀ i < src.width.toNat, ∀ j < src.height.toNat,
    x.toNat + i < dst.width.toNat → y.toNat + j < dst.height.toNat →
      out.pixel ((x.toNat + i : Nat), (y.toNat + j : Nat)) = src.pixel (i, j)
  rest : ∀ o, (∀ i < src.width.toNat, ∀ j < src.height.toNat,
    x.toNat + i < dst.width.toNat → y.toNat + j < dst.height.toNat →
      ∀ k < 3, o ≠ dst.offset (x.toNat + i : Nat) (y.toNat + j : Nat) + k) →
    out.bytes o = dst.bytes o

section Pixels

variable {dst src : ImgBuffer} {x y : UInt32}

theorem offset_natCast (buf : ImgBuffer) {i j : Nat} (hi : i < 2 ^ 32) (hj : j < 2 ^ 32) :
    buf.offset i j = j * buf.stride.toNat + i * 3 := by
  rw [ImgBuffer.offset, sizeT_of_nonneg (Int.natCast_nonneg _) (by omega),
    sizeT_of_nonneg (Int.natCast_nonneg _) (by omega), Int.toNat_natCast, Int.toNat_natCast]

theorem pixel_congr {buf other : ImgBuffer} {p q : Int × Int}
    (h : ∀ k < 3, buf.bytes (buf.offset p.1 p.2 + k) = other.bytes (other.offset q.1 q.2 + k)) :
    buf.pixel p = other.pixel q := by
  change Rgb.mk _ _ _ = Rgb.mk _ _ _
  rw [Rgb.mk.injEq]
  exact ⟨h 0 (by omega), h 1 (by omega), h 2 (by omega)⟩

theorem RowsCopied.blitted {bytes : Bytes}
    (h : RowsCopied dst src x.toNat y.toNat (blitCols dst src x) (blitRows dst src y) bytes) :
    Blitted dst src x y { dst with bytes } := by
  have hdstW := dst.width.toNat_lt
  have hdstH := dst.height.toNat_lt
  have hsrcW := src.width.toNat_lt
  have hsrcH := src.height.toNat_lt
  refine ⟨rfl, fun i hi j hj hx hy => pixel_congr fun k hk => ?_, fun o hout => ?_⟩
  · have hbyte := h.inside j (by unfold blitRows; omega) (i * 3 + k) (by unfold blitCols; omega)
    have hplace : (y.toNat + j) * dst.stride.toNat + (x.toNat + i) * 3 + k =
        (y.toNat + j) * dst.stride.toNat + x.toNat * 3 + (i * 3 + k) := by omega
    dsimp only
    rw [offset_natCast _ (by omega) (by omega), offset_natCast _ (by omega) (by omega)]
    dsimp only
    rw [hplace, hbyte, Nat.add_assoc]
  · refine h.outside o fun row hrow o' ho' heq => ?_
    unfold blitRows at hrow
    unfold blitCols at ho'
    refine hout (o' / 3) (by omega) row (by omega) (by omega) (by omega) (o' % 3) (by omega) ?_
    rw [heq, offset_natCast _ (by omega) (by omega)]
    omega

theorem imgBlitAvx2_blitted (h : BlitRoom dst src x y) :
    Blitted dst src x y (imgBlitAvx2 dst src x y) := (imgBlitAvx2_rows h).blitted

theorem imgBlitScalar_shape (dst src : ImgBuffer) (x y : UInt32) :
    imgBlitScalar dst src x y = { dst with bytes := (imgBlitScalar dst src x y).bytes } := by
  unfold imgBlitScalar
  split_ifs
  all_goals rfl

theorem imgBlitAvx2_eq_scalar (h : BlitRoom dst src x y) :
    imgBlitAvx2 dst src x y = imgBlitScalar dst src x y := by
  rw [imgBlitAvx2_shape, imgBlitScalar_shape, (imgBlitAvx2_rows h).unique (imgBlitScalar_rows h)]

-- An RGB buffer in a block of at most 2^31 bytes.
structure RgbBlock (buf : ImgBuffer) : Prop extends Raster buf where
  data : buf.data ≠ 0
  width_pos : 1 ≤ buf.width.toNat
  height_pos : 1 ≤ buf.height.toNat
  size : buf.height.toNat * buf.stride.toNat ≤ 2 ^ 31

theorem RgbBlock.small {buf : ImgBuffer} (h : RgbBlock buf) :
    3 * buf.width.toNat ≤ 2 ^ 31 ∧ 3 * buf.height.toNat ≤ 2 ^ 31 := by
  have hstride := h.stride
  have hwidth := h.width_pos
  have hsize := h.size
  have hrow : buf.stride.toNat ≤ buf.height.toNat * buf.stride.toNat :=
    Nat.le_mul_of_pos_left _ h.height_pos
  have hcol : buf.height.toNat * 3 ≤ buf.height.toNat * buf.stride.toNat :=
    Nat.mul_le_mul_left _ (by omega)
  omega

theorem RgbBlock.room (hdst : RgbBlock dst) (hsrc : RgbBlock src)
    (hx : x.toNat ≤ dst.width.toNat) (hy : y.toNat ≤ dst.height.toNat) : BlitRoom dst src x y := by
  obtain ⟨hdstW, hdstH⟩ := hdst.small
  obtain ⟨hsrcW, hsrcH⟩ := hsrc.small
  exact ⟨hdst.toRaster, hdst.data, hsrc.data, hx, hy, by omega, by omega, by omega⟩

def BlitAccess.Inside (dst src : ImgBuffer) (a : BlitAccess) : Prop :=
  a.dst + a.size ≤ dst.height.toNat * dst.stride.toNat ∧
    a.src + a.size ≤ src.height.toNat * src.stride.toNat

-- A part of a row that is copied lies in both buffers.
theorem BlitRoom.inside (h : BlitRoom dst src x y) (hsrc : Raster src) {row o size : Nat}
    (hrow : row < blitRows dst src y) (ho : o + size ≤ 3 * blitCols dst src x) :
    BlitAccess.Inside dst src
      ⟨(y.toNat + row) * dst.stride.toNat + x.toNat * 3 + o, row * src.stride.toNat + o, size⟩ := by
  have hdststride := h.raster.stride
  have hsrcstride := hsrc.stride
  have hleft := h.left
  unfold blitRows at hrow
  unfold blitCols at ho
  have hdstrow := row_le dst.stride.toNat (show y.toNat + row < dst.height.toNat by omega)
  have hsrcrow := row_le src.stride.toNat (show row < src.height.toNat by omega)
  unfold BlitAccess.Inside
  dsimp only
  omega

end Pixels

theorem imgBlit_agree {dst src : ImgBuffer} {x y : UInt32} (hdst : RgbBlock dst) (hsrc : RgbBlock src)
    (hx : x.toNat ≤ dst.width.toNat) (hy : y.toNat ≤ dst.height.toNat) :
    imgBlitAvx2 dst src x y = imgBlitScalar dst src x y ∧
      Blitted dst src x y (imgBlitAvx2 dst src x y) ∧
      (∀ a ∈ avx2Accesses dst src x y, a.Inside dst src) ∧
      ∀ a ∈ scalarAccesses dst src x y, a.Inside dst src := by
  have hroom := hdst.room hsrc hx hy
  refine ⟨imgBlitAvx2_eq_scalar hroom, imgBlitAvx2_blitted hroom, fun a ha => ?_, fun a ha => ?_⟩
  · obtain ⟨row, hrow, o, ho, rfl⟩ := (mem_avx2Accesses hroom a).mp ha
    exact hroom.inside hsrc.toRaster hrow ho
  · obtain ⟨row, hrow, rfl⟩ := (mem_scalarAccesses hroom a).mp ha
    exact hroom.inside hsrc.toRaster hrow (Nat.zero_add _).le

-- Two by two pixels of which one falls inside of an image with padded rows.

def paddedBlock (px : UInt8) : ImgBuffer where
  data := 64
  bytes _ := px
  width := 2
  height := 2
  channels := 3
  stride := 8

theorem imgBlit_agree_corner :
    imgBlitAvx2 (paddedBlock 0) (paddedBlock 255) 1 1 =
        imgBlitScalar (paddedBlock 0) (paddedBlock 255) 1 1 ∧
      (imgBlitAvx2 (paddedBlock 0) (paddedBlock 255) 1 1).pixel (1, 1) = ⟨255, 255, 255⟩ ∧
      (imgBlitAvx2 (paddedBlock 0) (paddedBlock 255) 1 1).bytes 14 = 0 := by
  have hblock : ∀ px, RgbBlock (paddedBlock px) := fun px =>
    ⟨⟨(by decide : 6 ≤ 8)⟩, (by decide : (64 : UInt64) ≠ 0), (by decide : 1 ≤ 2), (by decide : 1 ≤ 2),
      (by decide : 16 ≤ 2 ^ 31)⟩
  obtain ⟨hagree, hblitted, -⟩ := imgBlit_agree (x := 1) (y := 1) (hblock 0) (hblock 255)
    (by decide) (by decide)
  exact ⟨hagree, hblitted.pixels 0 (by decide) 0 (by decide) (by decide) (by decide),
    by decide +kernel⟩

end ImgEngine.Pipeline
