import ImgEngine.Io.Decoder.Theorems
import ImgEngine.Io.Stream

namespace ImgEngine.Io

open ImgEngine.Memory ImgEngine.Security

-- The caller's bytes are an object of their own, which no free block overlaps.
structure Apart (ctx : Option ImgCtx) (input : Input) : Prop where
  fits : input.ptr.toNat + input.bytes.length ≤ 2 ^ 64
  blocks : ∀ heap, ctx = some ⟨some heap⟩ → ∀ block ∈ heap.pool.free,
    block.toNat + heap.pool.blockSize.toNat ≤ input.ptr.toNat ∨
      input.ptr.toNat + input.bytes.length ≤ block.toNat

section Refused

variable {ctx : ImgCtx} {input : Input} {stream : ImgStream} {out : ImgBuffer} {w h : Int32}

theorem Input.size_toNat {ctx : Option ImgCtx} (hapart : Apart ctx input) (hptr : input.ptr ≠ 0) :
    input.size.toNat = input.bytes.length := by
  have hfits := hapart.fits
  rw [← UInt64.toNat_inj.ne] at hptr
  have hpos := Nat.pos_of_ne_zero hptr
  rw [Input.size, UInt64.toNat_ofNat']
  exact Nat.mod_eq_of_lt (by omega)

-- A block that was free does not lie in the caller's bytes.
theorem imgBoundsCheck_apart {heap : Heap} {tmp : Ptr} {n : UInt64}
    (hapart : Apart (some ⟨some heap⟩) input) (hptr : input.ptr ≠ 0) (htmp : tmp ∈ heap.pool.free)
    (hn : 0 < n.toNat) (hroom : n ≤ heap.pool.blockSize) :
    imgBoundsCheck tmp n input.ptr input.size = false := by
  have hsize := Input.size_toNat hapart hptr
  have hroom := UInt64.le_iff_toNat_le.mp hroom
  unfold imgBoundsCheck
  simp only
  split_ifs with hbelow hbehind
  · rfl
  · rfl
  · have hbelow := UInt64.le_iff_toNat_le.mp (UInt64.not_lt.mp hbelow)
    have hbehind := UInt64.le_iff_toNat_le.mp (UInt64.not_lt.mp hbehind)
    have hoffset : (tmp - input.ptr).toNat = tmp.toNat - input.ptr.toNat :=
      UInt64.toNat_sub_of_le _ _ (UInt64.le_iff_toNat_le.mpr hbelow)
    rw [decide_eq_false_iff_not, UInt64.le_iff_toNat_le,
      UInt64.toNat_sub_of_le _ _ (UInt64.le_iff_toNat_le.mpr hbehind)]
    have hblock := hapart.blocks heap rfl tmp htmp
    omega

theorem ExactSizes.streamed {stride required : UInt64} (sizes : ExactSizes w h stride required) :
    intToSize (w * 3) * intToSize h = required := by
  have hw := sizes.width
  have hh := sizes.height
  have hword : (w * 3).toUInt32.toNat = 3 * w.toUInt32.toNat := by
    rw [Int32.toUInt32_mul, UInt32.toNat_mul]
    change w.toUInt32.toNat * 3 % 2 ^ 32 = _
    omega
  have hstride : intToSize (w * 3) = stride := by
    rw [← UInt64.toNat_inj, intToSize_toNat (by omega), hword, sizes.strideSize]
  have hproduct : stride.toNat * (intToSize h).toNat < 2 ^ 64 := by
    rw [sizes.strideSize, intToSize_toNat (by omega)]
    exact Nat.lt_of_le_of_lt (Nat.mul_le_mul (Nat.mul_le_mul_left 3 hw.2) hh.2) (by decide)
  have hrequired := sizes.safeRequired
  rw [safeMul_eq hproduct] at hrequired
  rw [hstride]
  exact Option.some.inj hrequired

-- Whatever the decompressor would do, the check against the stream's memory ends
-- the call before it.
theorem decodeStreamPixels_refused {required : UInt64} (hapart : Apart (some ctx) input)
    (hptr : input.ptr ≠ 0) (hdata : stream.data = input.ptr) (hsize : stream.size = input.size)
    (hpos : 0 < required.toNat) (hroom : required ≤ ctx.blockSize) (out : ImgBuffer)
    (w h : Int32) (stride : UInt64) :
    ∃ ctx', ∀ tj, decodeStreamPixels tj ctx stream out w h stride required =
      ⟨.error (), some ctx', some out⟩ := by
  unfold decodeStreamPixels
  simp only
  cases hmem : ctx.alloc with
  | none => exact ⟨_, fun _ => rfl⟩
  | some taken =>
      obtain ⟨mem, ctx₁⟩ := taken
      obtain ⟨heap, heap₁, rfl, rfl, hfirst⟩ := ImgCtx.alloc_some hmem
      simp only
      cases htmp : (ImgCtx.mk (some heap₁)).alloc with
      | none => exact ⟨_, fun _ => rfl⟩
      | some taken =>
          obtain ⟨tmp, ctx₂⟩ := taken
          obtain ⟨_, heap₂, heq, rfl, hsecond⟩ := ImgCtx.alloc_some htmp
          cases heq
          have hfree : tmp ∈ heap.pool.free := by
            rw [Heap.alloc_free hfirst, Heap.alloc_free hsecond]
            simp
          have hcheck := imgBoundsCheck_apart hapart hptr hfree hpos hroom
          refine ⟨((ImgCtx.mk (some heap₂)).release tmp).release mem, fun tj => ?_⟩
          cases hread : (imgVfsRead stream required).ret with
          | error e => rfl
          | ok =>
              have hbytes : (imgVfsRead stream required).readBytes = required := by
                simp only [imgVfsRead] at hread ⊢
                split_ifs at hread ⊢ <;> simp_all
              simp only [hbytes, hdata, hsize, hcheck]
              rfl

end Refused

-- A decompressor with the same answers to all but the calls of tjDecompress2.
def SameHeaders (tj tj' : TurboJpeg) : Prop :=
  tj'.initDecompress = tj.initDecompress ∧ tj'.decompressHeader = tj.decompressHeader

-- The call ends at one of its checks or comes to the pixels, whatever tjDecompress2
-- would answer.
theorem imgDecodeStream_cases (tj : TurboJpeg) (ctx : Option ImgCtx) (stream : ImgStream)
    (out : Option ImgBuffer) :
    (∀ tj', SameHeaders tj tj' →
      imgDecodeStream tj' ctx (some stream) out = ⟨.error (), ctx, out⟩) ∨
    ∃ first given w h stride required, ctx = some first ∧ out = some given ∧
      ExactSizes w h stride required ∧ required ≤ first.blockSize ∧
      ∀ tj', SameHeaders tj tj' → imgDecodeStream tj' ctx (some stream) out =
        decodeStreamPixels tj' first (imgVfsRead stream HEADER_SIZE).stream given w h
          (intToSize (w * 3)) required := by
  cases ctx with
  | none => exact .inl fun _ _ => rfl
  | some first =>
      cases out with
      | none => exact .inl fun _ _ => rfl
      | some given =>
          simp only [imgDecodeStream]
          cases (imgVfsRead stream HEADER_SIZE).ret with
          | error _ => exact .inl fun _ _ => rfl
          | ok =>
              by_cases hinit : tj.initDecompress = true
              · cases hheader : tj.decompressHeader (imgVfsRead stream HEADER_SIZE).copied with
                | none =>
                    refine .inl fun tj' hsame => ?_
                    rw [hsame.1, hsame.2, hheader]
                    simp [hinit]
                | some dims =>
                    obtain ⟨w, h⟩ := dims
                    cases hgate : imgSecurityValidateRequest w.toUInt32 h.toUInt32 stream.size with
                    | error _ =>
                        refine .inl fun tj' hsame => ?_
                        rw [hsame.1, hsame.2, hheader]
                        simp [hinit, hgate]
                    | ok =>
                        obtain ⟨stride, required, sizes⟩ := exactSizes hgate
                        by_cases hroom : required > first.blockSize
                        · refine .inl fun tj' hsame => ?_
                          rw [hsame.1, hsame.2, hheader]
                          simp [hinit, hgate, sizes.streamed, hroom]
                        · refine .inr ⟨first, given, w, h, stride, required, rfl, rfl, sizes,
                            UInt64.not_lt.mp hroom, fun tj' hsame => ?_⟩
                          rw [hsame.1, hsame.2, hheader]
                          simp [hinit, hgate, sizes.streamed, hroom]
              · refine .inl fun tj' hsame => ?_
                rw [hsame.1]
                simp [hinit]

theorem imgDecodeStream_refused {ctx : Option ImgCtx} {input : Input} {stream : ImgStream}
    (hapart : Apart ctx input) (hopen : imgVfsOpenMem input = .ok stream) (tj : TurboJpeg)
    (out : Option ImgBuffer) :
    ∃ ctx', ∀ tj', SameHeaders tj tj' →
      imgDecodeStream tj' ctx (some stream) out = ⟨.error (), ctx', out⟩ := by
  unfold imgVfsOpenMem at hopen
  split_ifs at hopen with hargs
  have hstream := Except.ok.inj hopen
  rw [not_or] at hargs
  obtain hfails | ⟨first, given, w, h, stride, required, rfl, rfl, sizes, hroom, hpixels⟩ :=
    imgDecodeStream_cases tj ctx stream out
  · exact ⟨ctx, hfails⟩
  · have hdata : (imgVfsRead stream HEADER_SIZE).stream.data = input.ptr := by
      rw [← hstream]
      rfl
    have hsize : (imgVfsRead stream HEADER_SIZE).stream.size = input.size := by
      rw [← hstream]
      rfl
    have hpos : 0 < required.toNat := by
      rw [sizes.requiredSize]
      exact Nat.mul_pos (Nat.mul_pos (by decide) sizes.width.1) sizes.height.1
    obtain ⟨ctx', hrefused⟩ := decodeStreamPixels_refused hapart hargs.1 hdata hsize hpos hroom
      given w h (intToSize (w * 3))
    exact ⟨some ctx', fun tj' hsame => (hpixels tj' hsame).trans (hrefused tj')⟩

-- What the two decoders would have to agree on.
structure SameDecode (tj : TurboJpeg) (ctx : Option ImgCtx) (input : Input) (stream : ImgStream)
    (out : Option ImgBuffer) (streamed : Decoded Unit) (decoded : Decoded DecodeExit) : Prop where
  success : streamed.ret = .ok () ↔ decoded.ret = .ok ()
  image : streamed.ret = .ok () → ∃ buf buf', streamed.out = some buf ∧ decoded.out = some buf' ∧
    buf.width = buf'.width ∧ buf.height = buf'.height ∧ buf.channels = buf'.channels ∧
      buf.stride = buf'.stride ∧
      ∀ i < buf.stride.toNat * buf.height.toNat, buf.bytes i = buf'.bytes i
  pool : streamed.ret = .ok () → ∃ pool pool₁ pool₂ block₁ block₂, poolOf ctx = some pool ∧
    poolOf streamed.ctx = some pool₁ ∧ (block₁ :: pool₁.free).Perm pool.free ∧
    poolOf decoded.ctx = some pool₂ ∧ (block₂ :: pool₂.free).Perm pool.free
  -- what tjDecompress2 makes of other bytes than the whole string does not matter
  whole : ∀ tj', SameHeaders tj tj' →
    (∀ w pitch h, tj'.decompress input.bytes w pitch h = tj.decompress input.bytes w pitch h) →
      imgDecodeStream tj' ctx (some stream) out = streamed

theorem imgDecodeStream_same_iff (tj : TurboJpeg) (ctx : Option ImgCtx) (input : Input)
    (out : Option ImgBuffer) (hapart : Apart ctx input) :
    (∀ stream, imgVfsOpenMem input = .ok stream →
      SameDecode tj ctx input stream out (imgDecodeStream tj ctx (some stream) out)
        (imgDecodeToBuffer tj ctx input out)) ↔
      ¬∃ heap w h, Decodable tj ctx input out heap w h := by
  rw [← imgDecodeToBuffer_ok_iff]
  constructor
  · intro hsame hok
    obtain ⟨heap, w, h, hdecodable⟩ := (imgDecodeToBuffer_ok_iff tj ctx input out).mp hok
    have hopen : imgVfsOpenMem input = .ok ⟨input.ptr, input.bytes, input.size, 0⟩ :=
      if_neg (not_or.mpr ⟨hdecodable.ptr, hdecodable.size⟩)
    obtain ⟨ctx', hrefused⟩ := imgDecodeStream_refused hapart hopen tj out
    have hstreamed := (hsame _ hopen).success.mpr hok
    rw [hrefused tj ⟨rfl, rfl⟩] at hstreamed
    cases hstreamed
  · intro hfails stream hopen
    obtain ⟨ctx', hrefused⟩ := imgDecodeStream_refused hapart hopen tj out
    rw [hrefused tj ⟨rfl, rfl⟩]
    exact ⟨⟨nofun, fun hok => absurd hok hfails⟩, nofun, nofun, fun tj' hsame _ => hrefused tj' hsame⟩

-- A JPEG image of one pixel, followed by zeros up to 2000 bytes.
def onePixelJpeg : List UInt8 :=
  [0xff, 0xd8, 0xff, 0xdb, 0x00, 0x43, 0x00, 0x03, 0x02, 0x02, 0x02, 0x02, 0x02, 0x03, 0x02, 0x02,
    0x02, 0x03, 0x03, 0x03, 0x03, 0x04, 0x06, 0x04, 0x04, 0x04, 0x04, 0x04, 0x08, 0x06, 0x06, 0x05,
    0x06, 0x09, 0x08, 0x0a, 0x0a, 0x09, 0x08, 0x09, 0x09, 0x0a, 0x0c, 0x0f, 0x0c, 0x0a, 0x0b, 0x0e,
    0x0b, 0x09, 0x09, 0x0d, 0x11, 0x0d, 0x0e, 0x0f, 0x10, 0x10, 0x11, 0x10, 0x0a, 0x0c, 0x12, 0x13,
    0x12, 0x10, 0x13, 0x0f, 0x10, 0x10, 0x10, 0xff, 0xc9, 0x00, 0x0b, 0x08, 0x00, 0x01, 0x00, 0x01,
    0x01, 0x01, 0x11, 0x00, 0xff, 0xcc, 0x00, 0x06, 0x00, 0x10, 0x10, 0x05, 0xff, 0xda, 0x00, 0x08,
    0x01, 0x01, 0x00, 0x00, 0x3f, 0x00, 0xd2, 0xcf, 0x20, 0xff, 0xd9]

def paddedJpeg : Input where
  ptr := 64
  bytes := onePixelJpeg ++ List.replicate (2000 - onePixelJpeg.length) 0

-- A decompressor that knows this image, whatever follows it.
def onePixelTurboJpeg : TurboJpeg where
  initDecompress := true
  decompressHeader bytes := if onePixelJpeg <+: bytes then some (1, 1) else none
  decompress bytes _ _ _ := if onePixelJpeg <+: bytes then some fun _ => 0x80 else none

theorem paddedJpeg_decodable :
    Decodable onePixelTurboJpeg (some ⟨some apiHeap⟩) paddedJpeg (some .zero) apiHeap 1 1 := by
  have hstart : onePixelJpeg <+: paddedJpeg.bytes := List.prefix_append _ _
  have hheader : onePixelTurboJpeg.decompressHeader paddedJpeg.bytes = some (1, 1) := by
    simp only [onePixelTurboJpeg, if_pos hstart]
  have hpixels : onePixelTurboJpeg.decompress paddedJpeg.bytes 1 (3 * 1) 1 = some fun _ => 0x80 := by
    simp only [onePixelTurboJpeg, if_pos hstart]
  refine ⟨rfl, by simp, by decide, by decide +kernel, rfl, hheader, by decide +kernel, by decide,
    by decide, ?_⟩
  rw [hpixels]
  exact Option.some_ne_none _

theorem paddedJpeg_apart : Apart (some ⟨some apiHeap⟩) paddedJpeg := by
  have hptr : paddedJpeg.ptr.toNat = 64 := rfl
  have hlength : paddedJpeg.bytes.length = 2000 := by decide +kernel
  have hblocks : apiHeap.pool.free.all fun block =>
      block.toNat + apiHeap.pool.blockSize.toNat ≤ 64 ∨ 64 + 2000 ≤ block.toNat := by
    decide +kernel
  refine ⟨by omega, ?_⟩
  rintro heap ⟨⟩ block hblock
  rw [hptr, hlength]
  exact of_decide_eq_true (List.all_eq_true.mp hblocks block hblock)

theorem paddedJpeg_open :
    imgVfsOpenMem paddedJpeg = .ok ⟨64, paddedJpeg.bytes, paddedJpeg.size, 0⟩ :=
  if_neg (by decide +kernel)

theorem imgDecodeStream_same_iff_padded :
    ¬∀ stream, imgVfsOpenMem paddedJpeg = .ok stream →
      SameDecode onePixelTurboJpeg (some ⟨some apiHeap⟩) paddedJpeg stream (some .zero)
        (imgDecodeStream onePixelTurboJpeg (some ⟨some apiHeap⟩) (some stream) (some .zero))
        (imgDecodeToBuffer onePixelTurboJpeg (some ⟨some apiHeap⟩) paddedJpeg (some .zero)) := by
  rw [imgDecodeStream_same_iff _ _ _ _ paddedJpeg_apart]
  exact not_not.mpr ⟨apiHeap, 1, 1, paddedJpeg_decodable⟩

theorem imgDecodeStream_differs :
    ∃ stream, imgVfsOpenMem paddedJpeg = .ok stream ∧
      ¬((imgDecodeStream onePixelTurboJpeg (some ⟨some apiHeap⟩) (some stream) (some .zero)).ret =
          .ok () ↔
        (imgDecodeToBuffer onePixelTurboJpeg (some ⟨some apiHeap⟩) paddedJpeg (some .zero)).ret =
          .ok ()) := by
  refine ⟨_, paddedJpeg_open, ?_⟩
  have hok := (imgDecodeToBuffer_ok_iff _ _ _ _).mpr ⟨apiHeap, 1, 1, paddedJpeg_decodable⟩
  obtain ⟨ctx', hrefused⟩ := imgDecodeStream_refused paddedJpeg_apart paddedJpeg_open
    onePixelTurboJpeg (some .zero)
  rw [hrefused onePixelTurboJpeg ⟨rfl, rfl⟩, iff_true_right hok]
  nofun

end ImgEngine.Io
