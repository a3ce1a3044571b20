import ImgEngine.Io.Decoder
import ImgEngine.Security.Theorems

namespace ImgEngine.Io

open ImgEngine.Memory ImgEngine.Security

theorem intToSize_toNat {x : Int32} (h : x.toUInt32.toNat < 2 ^ 31) :
    (intToSize x).toNat = x.toUInt32.toNat := by
  have hmsb : x.toBitVec.msb = false := by
    rw [BitVec.msb_eq_false_iff_two_mul_lt]
    change 2 * x.toUInt32.toNat < 2 ^ 32
    omega
  change (x.toBitVec.signExtend 64).toNat = x.toBitVec.toNat
  rw [BitVec.signExtend_eq_setWidth_of_msb_false hmsb, BitVec.toNat_setWidth]
  exact Nat.mod_eq_of_lt (Nat.lt_trans x.toBitVec.isLt (by decide))

theorem toInt32_toInt {x : UInt32} (h : x.toNat < 2 ^ 31) : x.toInt32.toInt = x.toNat := by
  change x.toBitVec.toInt = x.toBitVec.toNat
  apply BitVec.toInt_eq_toNat_of_lt
  change 2 * x.toNat < 2 ^ 32
  omega

theorem safeMul_eq {a b : UInt64} (h : a.toNat * b.toNat < 2 ^ 64) : safeMul a b = some (a * b) := by
  unfold safeMul
  split_ifs with hzero hwrap
  · rcases hzero with rfl | rfl <;> simp
  · rw [not_or, ← UInt64.toNat_inj, ← UInt64.toNat_inj] at hzero
    have hb : 0 < b.toNat := Nat.pos_of_ne_zero hzero.2
    rw [gt_iff_lt, UInt64.lt_iff_toNat_lt, UInt64.toNat_div, Nat.div_lt_iff_lt_mul hb] at hwrap
    change 2 ^ 64 - 1 < _ at hwrap
    omega
  · rfl

-- The size calculation for dimensions that pass the gate.
structure ExactSizes (w h : Int32) (stride required : UInt64) : Prop where
  width : 1 ≤ w.toUInt32.toNat ∧ w.toUInt32.toNat ≤ 16384
  height : 1 ≤ h.toUInt32.toNat ∧ h.toUInt32.toNat ≤ 16384
  safeStride : safeMul (intToSize w) 3 = some stride
  safeRequired : safeMul stride (intToSize h) = some required
  strideSize : stride.toNat = 3 * w.toUInt32.toNat
  requiredSize : required.toNat = 3 * w.toUInt32.toNat * h.toUInt32.toNat
  int : stride.toUInt32.toInt32.toInt = 3 * w.toInt
  word : stride.toUInt32.toNat = 3 * w.toUInt32.toNat

theorem exactSizes {w h : Int32} {size : UInt64}
    (hgate : imgSecurityValidateRequest w.toUInt32 h.toUInt32 size = .ok ()) :
    ∃ stride required, ExactSizes w h stride required := by
  obtain ⟨hw, hh, -⟩ := (imgSecurityValidateRequest_ok_iff _ _ _).mp hgate
  have hws : (intToSize w).toNat = w.toUInt32.toNat := intToSize_toNat (by omega)
  have hhs : (intToSize h).toNat = h.toUInt32.toNat := intToSize_toNat (by omega)
  have hstride : (intToSize w * 3).toNat = 3 * w.toUInt32.toNat := by
    rw [UInt64.toNat_mul, hws]
    change w.toUInt32.toNat * 3 % 2 ^ 64 = _
    omega
  have hmax : 3 * w.toUInt32.toNat * h.toUInt32.toNat ≤ 3 * 16384 * 16384 :=
    Nat.mul_le_mul (by omega) hh.2
  have hrequired : (intToSize w * 3 * intToSize h).toNat =
      3 * w.toUInt32.toNat * h.toUInt32.toNat := by
    rw [UInt64.toNat_mul, hstride, hhs]
    exact Nat.mod_eq_of_lt (by omega)
  have hword : (intToSize w * 3).toUInt32.toNat = 3 * w.toUInt32.toNat := by
    rw [UInt64.toNat_toUInt32, hstride]
    omega
  refine ⟨intToSize w * 3, intToSize w * 3 * intToSize h, hw, hh, safeMul_eq ?_, safeMul_eq ?_,
    hstride, hrequired, ?_, hword⟩
  · rw [hws]
    change w.toUInt32.toNat * 3 < 2 ^ 64
    omega
  · rw [hstride, hhs]
    omega
  · have hint : w.toInt = w.toUInt32.toNat := toInt32_toInt (x := w.toUInt32) (by omega)
    rw [toInt32_toInt (by omega), hword, hint]
    omega

theorem ImgCtx.alloc_some {ctx ctx' : ImgCtx} {mem : Ptr} (h : ctx.alloc = some (mem, ctx')) :
    ∃ heap heap', ctx = ⟨some heap⟩ ∧ ctx' = ⟨some heap'⟩ ∧ heap.alloc = some (mem, heap') := by
  obtain ⟨localPool⟩ := ctx
  cases localPool with
  | none => cases h
  | some heap =>
      simp only [ImgCtx.alloc, Option.map_eq_some_iff] at h
      obtain ⟨⟨block, heap'⟩, halloc, heq⟩ := h
      cases heq
      exact ⟨heap, heap', rfl, rfl, halloc⟩

section Decode

variable (tj : TurboJpeg) (ctx : ImgCtx) (input : Input) (out : ImgBuffer) {w h : Int32}
  {stride required : UInt64}

-- The buffer that a decode hands out.
def decodedBuffer (mem : Ptr) (bytes : Bytes) (w h : Int32) (stride : UInt64) : ImgBuffer where
  data := mem
  bytes := bytes
  width := w.toUInt32
  height := h.toUInt32
  channels := 3
  stride := stride.toUInt32

-- What is left to go wrong once the dimensions have passed the gate.
inductive PixelsCase (w h : Int32) (stride required : UInt64) : Decoded DecodeExit → Prop where
  | blockSize (hsize : ctx.blockSize < required) :
      PixelsCase w h stride required ⟨.error .blockSize, some ctx, some out⟩
  | noBlock (hsize : required ≤ ctx.blockSize) (halloc : ctx.alloc = none) :
      PixelsCase w h stride required ⟨.error .noBlock, some ctx, some out⟩
  | decompress {mem : Ptr} {ctx' : ImgCtx} (hsize : required ≤ ctx.blockSize)
      (halloc : ctx.alloc = some (mem, ctx'))
      (htj : tj.decompress input.bytes w stride.toUInt32.toInt32 h = none) :
      PixelsCase w h stride required ⟨.error .decompress, some (ctx'.release mem), some out⟩
  | ok {mem : Ptr} {ctx' : ImgCtx} {pixels : Bytes} (hsize : required ≤ ctx.blockSize)
      (halloc : ctx.alloc = some (mem, ctx'))
      (htj : tj.decompress input.bytes w stride.toUInt32.toInt32 h = some pixels) :
      PixelsCase w h stride required ⟨.ok (), some ctx',
        some (decodedBuffer mem (writeRows (ctx.stale mem) pixels required) w h stride)⟩

theorem decodePixels_cases (sizes : ExactSizes w h stride required) :
    PixelsCase tj ctx input out w h stride required (decodePixels tj ctx input out w h) := by
  unfold decodePixels
  simp only [sizes.safeStride, sizes.safeRequired]
  split_ifs with hsize
  · exact .blockSize hsize
  · have hsize : required ≤ ctx.blockSize := UInt64.not_lt.mp hsize
    cases halloc : ctx.alloc with
    | none => exact .noBlock hsize halloc
    | some taken =>
        cases htj : tj.decompress input.bytes w stride.toUInt32.toInt32 h with
        | none => exact .decompress hsize halloc htj
        | some pixels =>
            simp only [imgBoundsCheck_self taken.1 hsize]
            exact .ok hsize halloc htj

end Decode

-- The calls that end before the size calculation, and the others.
inductive DecodeCase (tj : TurboJpeg) (input : Input) :
    Option ImgCtx → Option ImgBuffer → Decoded DecodeExit → Prop where
  | refused {ctx : Option ImgCtx} {out : Option ImgBuffer} (e : DecodeExit)
      (he : e = .arguments ∨ e = .init ∨ e = .header ∨ ∃ error, e = .gate error) :
      DecodeCase tj input ctx out ⟨.error e, ctx, out⟩
  | pixels {ctx : ImgCtx} {out : ImgBuffer} {w h : Int32} {stride required : UInt64}
      {result : Decoded DecodeExit} (hptr : input.ptr ≠ 0) (hsize : input.size ≠ 0)
      (hinit : tj.initDecompress = true)
      (hheader : tj.decompressHeader input.bytes = some (w, h))
      (hgate : imgSecurityValidateRequest w.toUInt32 h.toUInt32 input.size = .ok ())
      (sizes : ExactSizes w h stride required)
      (hcase : PixelsCase tj ctx input out w h stride required result) :
      DecodeCase tj input (some ctx) (some out) result

theorem imgDecodeToBuffer_cases (tj : TurboJpeg) (ctx : Option ImgCtx) (input : Input)
    (out : Option ImgBuffer) :
    DecodeCase tj input ctx out (imgDecodeToBuffer tj ctx input out) := by
  cases ctx with
  | none => exact .refused .arguments (.inl rfl)
  | some ctx =>
      cases out with
      | none => exact .refused .arguments (.inl rfl)
      | some out =>
          simp only [imgDecodeToBuffer, imgBoundsCheck_self input.ptr (UInt64.le_refl input.size),
            not_true_eq_false, if_false]
          split_ifs with hargs hinit
          · exact .refused .arguments (.inl rfl)
          · cases hheader : tj.decompressHeader input.bytes with
            | none => exact .refused .header (.inr (.inr (.inl rfl)))
            | some size =>
                obtain ⟨w, h⟩ := size
                simp only
                cases hgate : imgSecurityValidateRequest w.toUInt32 h.toUInt32 input.size with
                | error e => exact .refused (.gate e) (.inr (.inr (.inr ⟨e, rfl⟩)))
                | ok =>
                    obtain ⟨stride, required, sizes⟩ := exactSizes hgate
                    rw [not_or] at hargs
                    exact .pixels hargs.1 hargs.2 hinit hheader hgate sizes
                      (decodePixels_cases tj ctx input out sizes)
          · exact .refused .init (.inr (.inl rfl))

-- One block of the pool holds the image, and nothing else is taken.
structure InBlock (heap heap' : Heap) (buf : ImgBuffer) : Prop where
  taken : heap.pool.free = buf.data :: heap'.pool.free
  blockSize : heap'.pool.blockSize = heap.pool.blockSize
  width : 1 ≤ buf.width.toNat ∧ buf.width.toNat ≤ 16384
  height : 1 ≤ buf.height.toNat ∧ buf.height.toNat ≤ 16384
  channels : buf.channels = 3
  stride : buf.stride.toNat = 3 * buf.width.toNat
  size : buf.stride.toNat * buf.height.toNat ≤ heap.pool.blockSize.toNat
  pixel : ∀ x y : Nat, x < buf.width.toNat → y < buf.height.toNat →
    buf.offset x y + 3 ≤ heap.pool.blockSize.toNat

def poolOf (ctx : Option ImgCtx) : Option BlockPool :=
  (ctx.bind (·.localPool)).map (·.pool)

-- The last check and the guards of the products are never what fails.
def AllOrNothing (ctx : Option ImgCtx) (out : Option ImgBuffer) (result : Decoded DecodeExit) :
    Prop :=
  match result.ret with
  | .ok () => ∃ heap heap' buf, ctx = some ⟨some heap⟩ ∧ result.ctx = some ⟨some heap'⟩ ∧
      result.out = some buf ∧ InBlock heap heap' buf
  | .error e => result.out = out ∧ poolOf result.ctx = poolOf ctx ∧
      e ≠ .inputBounds ∧ e ≠ .strideWraps ∧ e ≠ .sizeWraps ∧ e ≠ .finalBounds

theorem decodedBuffer_inBlock {heap heap' : Heap} {mem : Ptr} {bytes : Bytes} {w h : Int32}
    {stride required : UInt64} (sizes : ExactSizes w h stride required)
    (halloc : heap.alloc = some (mem, heap')) (hsize : required ≤ heap.pool.blockSize) :
    InBlock heap heap' (decodedBuffer mem bytes w h stride) := by
  have hfit : 3 * w.toUInt32.toNat * h.toUInt32.toNat ≤ heap.pool.blockSize.toNat :=
    sizes.requiredSize ▸ UInt64.le_iff_toNat_le.mp hsize
  refine ⟨Heap.alloc_free halloc, (Heap.alloc_some halloc).2, sizes.width, sizes.height, rfl,
    sizes.word, ?_, ?_⟩
  · change stride.toUInt32.toNat * h.toUInt32.toNat ≤ _
    rwa [sizes.word]
  · intro x y hx hy
    change x < w.toUInt32.toNat at hx
    change y < h.toUInt32.toNat at hy
    have hwidth := sizes.width
    have hheight := sizes.height
    have hx' : sizeT x = x := by rw [sizeT_of_nonneg (by omega) (by omega)]; rfl
    have hy' : sizeT y = y := by rw [sizeT_of_nonneg (by omega) (by omega)]; rfl
    change sizeT y * stride.toUInt32.toNat + sizeT x * 3 + 3 ≤ _
    rw [hx', hy', sizes.word]
    calc
      y * (3 * w.toUInt32.toNat) + x * 3 + 3 ≤ (y + 1) * (3 * w.toUInt32.toNat) := by
        rw [Nat.succ_mul y]
        omega
      _ ≤ h.toUInt32.toNat * (3 * w.toUInt32.toNat) := Nat.mul_le_mul_right _ hy
      _ = 3 * w.toUInt32.toNat * h.toUInt32.toNat := Nat.mul_comm _ _
      _ ≤ heap.pool.blockSize.toNat := hfit

theorem PixelsCase.allOrNothing {tj : TurboJpeg} {ctx : ImgCtx} {input : Input} {out : ImgBuffer}
    {w h : Int32} {stride required : UInt64} {result : Decoded DecodeExit}
    (sizes : ExactSizes w h stride required)
    (hcase : PixelsCase tj ctx input out w h stride required result) :
    AllOrNothing (some ctx) (some out) result := by
  cases hcase with
  | blockSize _ => simp [AllOrNothing]
  | noBlock _ _ => simp [AllOrNothing]
  | decompress hsize halloc _ =>
      obtain ⟨heap, heap', rfl, rfl, htaken⟩ := ImgCtx.alloc_some halloc
      simp [AllOrNothing, poolOf, ImgCtx.release, Heap.release_alloc htaken]
  | ok hsize halloc _ =>
      obtain ⟨heap, heap', rfl, rfl, htaken⟩ := ImgCtx.alloc_some halloc
      exact ⟨heap, heap', _, rfl, rfl, rfl, decodedBuffer_inBlock sizes htaken hsize⟩

-- Whatever the header says.
def SizesExact (input : Input) : Prop :=
  ∀ w h, imgSecurityValidateRequest w.toUInt32 h.toUInt32 input.size = .ok () →
    ∃ stride required, ExactSizes w h stride required

theorem imgDecodeToBuffer_atomic (tj : TurboJpeg) (ctx : Option ImgCtx) (input : Input)
    (out : Option ImgBuffer) : AllOrNothing ctx out (imgDecodeToBuffer tj ctx input out) := by
  have hcase := imgDecodeToBuffer_cases tj ctx input out
  generalize imgDecodeToBuffer tj ctx input out = result at hcase ⊢
  cases hcase with
  | refused e he => rcases he with rfl | rfl | rfl | ⟨e, rfl⟩ <;> simp [AllOrNothing]
  | pixels _ _ _ _ _ sizes hcase => exact hcase.allOrNothing sizes

theorem imgDecodeToBuffer_allOrNothing (tj : TurboJpeg) (ctx : Option ImgCtx) (input : Input)
    (out : Option ImgBuffer) :
    AllOrNothing ctx out (imgDecodeToBuffer tj ctx input out) ∧ SizesExact input :=
  ⟨imgDecodeToBuffer_atomic tj ctx input out, fun _ _ hgate => exactSizes hgate⟩

-- There is an image in the bytes and room for it.
structure Decodable (tj : TurboJpeg) (ctx : Option ImgCtx) (input : Input) (out : Option ImgBuffer)
    (heap : Heap) (w h : Int32) : Prop where
  ctx : ctx = some ⟨some heap⟩
  out : out ≠ none
  ptr : input.ptr ≠ 0
  size : input.size ≠ 0
  init : tj.initDecompress = true
  header : tj.decompressHeader input.bytes = some (w, h)
  gate : imgSecurityValidateRequest w.toUInt32 h.toUInt32 input.size = .ok ()
  room : 3 * w.toUInt32.toNat * h.toUInt32.toNat ≤ heap.pool.blockSize.toNat
  free : heap.pool.free ≠ []
  decompress : tj.decompress input.bytes w (3 * w) h ≠ none

theorem ExactSizes.pitch {w h : Int32} {stride required : UInt64}
    (sizes : ExactSizes w h stride required) : stride.toUInt32.toInt32 = 3 * w := by
  have hw := sizes.width
  have hint : w.toInt = w.toUInt32.toNat := toInt32_toInt (x := w.toUInt32) (by omega)
  rw [← Int32.toInt_inj, sizes.int, Int32.toInt_mul]
  change _ = Int.bmod (3 * w.toInt) (2 ^ 32)
  rw [Int.bmod_eq_of_le (by omega) (by omega)]

theorem imgDecodeToBuffer_ok_iff (tj : TurboJpeg) (ctx : Option ImgCtx) (input : Input)
    (out : Option ImgBuffer) :
    (imgDecodeToBuffer tj ctx input out).ret = .ok () ↔
      ∃ heap w h, Decodable tj ctx input out heap w h := by
  constructor
  · intro hok
    have hcase := imgDecodeToBuffer_cases tj ctx input out
    generalize imgDecodeToBuffer tj ctx input out = decoded at hcase hok
    cases hcase with
    | refused e _ => cases hok
    | @pixels c o w h stride required _ hptr hsize hinit hheader hgate sizes hcase =>
        cases hcase with
        | blockSize _ => cases hok
        | noBlock _ _ => cases hok
        | decompress _ _ _ => cases hok
        | ok hroom halloc htj =>
            obtain ⟨heap, heap', rfl, rfl, htaken⟩ := ImgCtx.alloc_some halloc
            rw [sizes.pitch] at htj
            refine ⟨heap, w, h, rfl, by simp, hptr, hsize, hinit, hheader, hgate, ?_, ?_, ?_⟩
            · rw [← sizes.requiredSize]
              exact UInt64.le_iff_toNat_le.mp hroom
            · rw [Heap.alloc_free htaken]
              exact List.cons_ne_nil _ _
            · rw [htj]
              exact Option.some_ne_none _
  · rintro ⟨heap, w, h, rfl, hout, hptr, hsize, hinit, hheader, hgate, hroom, hfree, htj⟩
    obtain ⟨o, rfl⟩ := Option.ne_none_iff_exists'.mp hout
    have hargs : ¬(input.ptr = 0 ∨ input.size = 0) := not_or.mpr ⟨hptr, hsize⟩
    obtain ⟨stride, required, sizes⟩ := exactSizes hgate
    have hcase := decodePixels_cases tj ⟨some heap⟩ input o sizes
    simp only [imgDecodeToBuffer, imgBoundsCheck_self input.ptr (UInt64.le_refl input.size),
      not_true_eq_false, if_false, if_neg hargs, hinit, hheader, hgate]
    generalize decodePixels tj ⟨some heap⟩ input o w h = decoded at hcase
    cases hcase with
    | blockSize hsize =>
        have hsize := UInt64.lt_iff_toNat_lt.mp hsize
        rw [sizes.requiredSize] at hsize
        exact absurd hsize (Nat.not_lt.mpr hroom)
    | noBlock _ halloc =>
        simp only [ImgCtx.alloc, Option.map_eq_none_iff] at halloc
        exact absurd (Heap.alloc_eq_none_iff.mp halloc) hfree
    | decompress _ _ hnone =>
        rw [sizes.pitch] at hnone
        exact absurd hnone htj
    | ok _ _ _ => rfl

end ImgEngine.Io
