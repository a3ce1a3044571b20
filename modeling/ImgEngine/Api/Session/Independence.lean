import ImgEngine.Api.Output
import ImgEngine.Api.Session.Theorems
import ImgEngine.Pipeline.Sheet.Independence

namespace ImgEngine.Api

open ImgEngine.Io ImgEngine.Memory ImgEngine.Pipeline ImgEngine.Security

variable {F Ctx : Type} [FloatType F]

-- What an encoder is given of a picture: its size and its rows.
def shown (buf : ImgBuffer) : UInt32 × UInt32 × List (List UInt8) :=
  (buf.width, buf.height, pixelRows buf)

section Rows

variable {buf other : ImgBuffer}

-- One of the three bytes of a color.
def colorByte (color : Rgb) (i : Nat) : UInt8 :=
  if i = 0 then color.r else if i = 1 then color.g else color.b

theorem colorByte_getRgb (bytes : Bytes) (i : Nat) {k : Nat} (hk : k < 3) :
    colorByte (bytes.getRgb i) k = bytes (i + k) := by
  match k, hk with
  | 0, _ => rfl
  | 1, _ => rfl
  | 2, _ => rfl

-- The rows are those of the pixels.
theorem pixelRows_pixel (h : Raster buf) :
    pixelRows buf = (List.range buf.height.toNat).map fun y : Nat =>
      (List.range (3 * buf.width.toNat)).map fun k : Nat =>
        colorByte (buf.pixel ((k / 3 : Nat), y)) (k % 3) := by
  refine List.map_congr_left fun y hy => List.map_congr_left fun k hk => ?_
  have hy : y < buf.height.toNat := List.mem_range.mp hy
  have hk : k < 3 * buf.width.toNat := List.mem_range.mp hk
  have hstride := h.stride
  have hin : picture.domain (picture.shape buf) (((k / 3 : Nat) : Int), (y : Int)) :=
    mem_domain.mpr ⟨Int.natCast_nonneg _, Int.ofNat_lt.mpr (by omega), Int.natCast_nonneg _,
      Int.ofNat_lt.mpr hy⟩
  have hpitch : (if buf.stride = 0 then 3 * buf.width.toNat else buf.stride.toNat) =
      buf.stride.toNat := by
    split_ifs with hzero
    · rw [hzero] at hstride
      have hnone : (0 : UInt32).toNat = 0 := rfl
      omega
    · rfl
  rw [hpitch, ImgBuffer.pixel, h.offset hin, colorByte_getRgb _ _ (Nat.mod_lt _ (by decide))]
  congr 1
  dsimp only [Int.toNat_natCast]
  omega

theorem shown_of_same (h : SamePicture buf other) (hbuf : Raster buf) (hother : Raster other) :
    shown buf = shown other := by
  have hrows : pixelRows buf = pixelRows other := by
    rw [pixelRows_pixel hbuf, pixelRows_pixel hother, h.width, h.height]
    refine List.map_congr_left fun y hy => List.map_congr_left fun k hk => ?_
    have hy : y < other.height.toNat := List.mem_range.mp hy
    have hk : k < 3 * other.width.toNat := List.mem_range.mp hk
    rw [h.pixel]
    rw [mem_domain, h.width, h.height]
    dsimp only
    omega
  rw [shown, shown, h.width, h.height, hrows]

-- The photos that the decoder gives out are not empty.
theorem same_of_rows (hbuf : Delivered buf) (hother : Delivered other)
    (hrows : pixelRows buf = pixelRows other) : SamePicture buf other := by
  rw [pixelRows_pixel hbuf.raster, pixelRows_pixel hother.raster] at hrows
  have hheight : buf.height.toNat = other.height.toNat := by
    simpa only [List.length_map, List.length_range] using congrArg List.length hrows
  have hrow : ∀ y < buf.height.toNat,
      ((List.range (3 * buf.width.toNat)).map fun k : Nat =>
        colorByte (buf.pixel ((k / 3 : Nat), (y : Nat))) (k % 3)) =
      (List.range (3 * other.width.toNat)).map fun k : Nat =>
        colorByte (other.pixel ((k / 3 : Nat), (y : Nat))) (k % 3) := by
    intro y hy
    rw [hheight] at hrows hy
    exact List.map_inj_left.mp hrows y (List.mem_range.mpr hy)
  have hwidth : buf.width.toNat = other.width.toNat := by
    have hlength := congrArg List.length (hrow 0 hbuf.height.1)
    simp only [List.length_map, List.length_range] at hlength
    omega
  have hbyte : ∀ y < buf.height.toNat, ∀ k < 3 * buf.width.toNat,
      colorByte (buf.pixel ((k / 3 : Nat), (y : Nat))) (k % 3) =
        colorByte (other.pixel ((k / 3 : Nat), (y : Nat))) (k % 3) := by
    intro y hy k hk
    have hline := hrow y hy
    rw [← hwidth] at hline
    exact List.map_inj_left.mp hline k (List.mem_range.mpr hk)
  refine ⟨UInt32.toNat_inj.mp hwidth, UInt32.toNat_inj.mp hheight, fun p hp => ?_⟩
  obtain ⟨hx, hx', hy, hy'⟩ := mem_domain.mp hp
  obtain ⟨x, hx⟩ := Int.eq_ofNat_of_zero_le hx
  obtain ⟨y, hy⟩ := Int.eq_ofNat_of_zero_le hy
  obtain rfl : p = ((x : Int), (y : Int)) := Prod.ext hx hy
  have hx' : x < buf.width.toNat := Int.ofNat_lt.mp hx'
  have hy' : y < buf.height.toNat := Int.ofNat_lt.mp hy'
  have hpart : ∀ c < 3, colorByte (buf.pixel (x, y)) c = colorByte (other.pixel (x, y)) c := by
    intro c hc
    have hpart := hbyte y hy' (3 * x + c) (by omega)
    rwa [show (3 * x + c) / 3 = x by omega, show (3 * x + c) % 3 = c by omega] at hpart
  have hr := hpart 0 (by decide)
  have hg := hpart 1 (by decide)
  have hb := hpart 2 (by decide)
  generalize buf.pixel (x, y) = color at *
  generalize other.pixel (x, y) = color' at *
  obtain ⟨r, g, b⟩ := color
  obtain ⟨r', g', b'⟩ := color'
  cases hr
  cases hg
  cases hb
  rfl

end Rows

-- A run of a job with room in the pool, seen from the outside.

-- Encoders that look at nothing but the picture.
structure SeesShown (outside : Outside) : Prop where
  encode : ∀ buf other, buf.data ≠ 0 → other.data ≠ 0 → shown buf = shown other →
    outside.encode buf = outside.encode other
  encodePdf : ∀ buf other dpi, buf.data ≠ 0 → other.data ≠ 0 → shown buf = shown other →
    outside.encodePdf buf dpi = outside.encodePdf other dpi

section Jobs

variable {job : ImgJob F} {blockSize : UInt64} {canvas canvas' : ImgCanvas}
  {photo photo' : ImgBuffer} {arena arena' : ImgArena} {heap heap' : Heap} {outside : Outside}

theorem layoutAndEncode_same (hsees : SeesShown outside) (hroom : Roomy 2 blockSize heap)
    (hroom' : Roomy 2 blockSize heap') (hblock : blockSize.toNat + 32 < 2 ^ 31)
    (hfits : JobFits job) (hcanvas : CanvasFor job blockSize canvas)
    (hcanvas' : CanvasFor job blockSize canvas') (h : SamePicture photo photo')
    (hphoto : Delivered photo) (hphoto' : Delivered photo') (harena : SameArena arena arena')
    (outputPath : List Char) :
    (layoutAndEncode outside arena outputPath job photo canvas heap).1 =
        (layoutAndEncode outside arena' outputPath job photo' canvas' heap').1 ∧
      (laidSheet arena job photo canvas heap).map shown =
        (laidSheet arena' job photo' canvas' heap').map shown := by
  have hlaid := imgLayoutGrid_same hroom hroom' hblock hfits hcanvas hcanvas' h hphoto hphoto'
    harena
  have hpage := hfits.page_block hcanvas hblock
  have hpage' := hfits.page_block hcanvas' hblock
  have hgrid := hfits.gridFits hcanvas
  rcases hlayout : imgLayoutGrid canvas photo job arena heap with ⟨e | laid, heap₁⟩
  all_goals
    rcases hlayout' : imgLayoutGrid canvas' photo' job arena' heap' with ⟨e' | laid', heap₁'⟩
  all_goals rw [hlayout, hlayout'] at hlaid
  · obtain rfl : e = e' := hlaid
    constructor
    · simp only [layoutAndEncode, hlayout, hlayout']
    · simp only [laidSheet, hlayout, hlayout']
  · exact hlaid.elim
  · exact hlaid.elim
  · have hlaid : SameLayout job canvas canvas' laid laid' := hlaid
    obtain ⟨hsame, hshape, hshape', hcells, hcells'⟩ := hlaid
    have hraster := (hpage.plain.of_shape hshape).intRaster
    have hraster' := (hpage'.plain.of_shape hshape').intRaster
    have hinside : ∀ n < job.rows.toNat * job.cols.toNat,
        CellInside laid.1.buf (gridCell canvas job n) := by
      intro n hn
      obtain ⟨hright, hbottom⟩ := (hgrid.coordinate hn).2.2
      exact CellInside.of_shape ⟨hcanvas.photoW_pos, hcanvas.photoH_pos, hright, hbottom⟩ hshape
    obtain ⟨sheet, sheet', hsheet, hsheet', hsheets, hkeep, hkeep'⟩ :=
      finishSheet_same job hsame hraster hraster' hcells hcells' hinside
    have hshown := shown_of_same hsheets (hraster.of_shape hkeep).toRaster
      (hraster'.of_shape hkeep').toRaster
    have hdata : sheet.data ≠ 0 := by
      rw [(shape_eq_iff.mp (hkeep.trans hshape)).1]
      exact hcanvas.data
    have hdata' : sheet'.data ≠ 0 := by
      rw [(shape_eq_iff.mp (hkeep'.trans hshape')).1]
      exact hcanvas'.data
    simp only [layoutAndEncode, laidSheet, hlayout, hlayout', hsheet, hsheet']
    refine ⟨?_, congrArg some hshown⟩
    simp only [encodeOutput, hsees.encode sheet sheet' hdata hdata' hshown,
      hsees.encodePdf sheet sheet' job.dpi hdata hdata' hshown]

-- The same file gives the same photo.

theorem decodeEntry_delivered {tj : TurboJpeg} {file : Input}
    (hdecode : decodeEntry tj file heap = (.ok photo, heap')) : Delivered photo := by
  unfold decodeEntry at hdecode
  simp only at hdecode
  cases hret : (imgDecodeToBuffer tj (some ⟨some heap⟩) file (some .zero)).ret with
  | error e =>
      rw [hret] at hdecode
      cases hdecode
  | ok =>
      rw [hret] at hdecode
      have hcase := imgDecodeToBuffer_atomic tj (some ⟨some heap⟩) file (some .zero)
      rw [AllOrNothing, hret] at hcase
      obtain ⟨-, -, buf, -, -, hbuf, -⟩ := hcase
      have hphoto := congrArg Prod.fst hdecode
      rw [hbuf] at hphoto
      cases hphoto
      exact imgDecodeToBuffer_delivered hret hbuf

theorem decodeEntry_roomy {k : Nat} {tj : TurboJpeg} {file : Input}
    (hroom : Roomy (k + 1) blockSize heap)
    (hdecode : decodeEntry tj file heap = (.ok photo, heap')) : Roomy k blockSize heap' := by
  have htakes := decodeEntry_takesOne tj file heap
  rw [hdecode] at htakes
  obtain ⟨mem, heap₁, halloc, hroom₁⟩ := hroom.alloc
  obtain ⟨-, rfl⟩ := Prod.mk.inj (Option.some.inj (halloc.symm.trans htakes))
  exact hroom₁

theorem decodeEntry_same (hroom : Roomy 1 blockSize heap) (hroom' : Roomy 1 blockSize heap')
    (tj : TurboJpeg) (file : Input) :
    Matches (fun photo photo' => SamePicture photo photo' ∧ Delivered photo ∧ Delivered photo')
      (decodeEntry tj file heap).1 (decodeEntry tj file heap').1 := by
  have hrows : (decodeEntry tj file heap).1.map pixelRows =
      (decodeEntry tj file heap').1.map pixelRows := by
    rw [decodeEntry_rows tj file (List.ne_nil_of_length_pos hroom.free),
      decodeEntry_rows tj file (List.ne_nil_of_length_pos hroom'.free), hroom.blockSize,
      hroom'.blockSize]
  rcases hdecode : decodeEntry tj file heap with ⟨e | photo, heap₁⟩
  all_goals rcases hdecode' : decodeEntry tj file heap' with ⟨e' | photo', heap₁'⟩
  all_goals rw [hdecode, hdecode'] at hrows
  · exact Except.error.inj hrows
  · cases hrows
  · cases hrows
  · have hphoto := decodeEntry_delivered hdecode
    have hphoto' := decodeEntry_delivered hdecode'
    exact ⟨same_of_rows hphoto hphoto' (Except.ok.inj hrows), hphoto, hphoto'⟩

theorem imgCanvasInit_same (hroom : Roomy 3 blockSize heap) (hroom' : Roomy 3 blockSize heap')
    (job : ImgJob F) : (imgCanvasInit heap job = none ∧ imgCanvasInit heap' job = none) ∨
      (∃ e, imgCanvasInit heap job = some (.error e, heap) ∧
        imgCanvasInit heap' job = some (.error e, heap')) ∨
      ∃ canvas canvas' heap₁ heap₁', imgCanvasInit heap job = some (.ok canvas, heap₁) ∧
        imgCanvasInit heap' job = some (.ok canvas', heap₁') ∧ Roomy 2 blockSize heap₁ ∧
        Roomy 2 blockSize heap₁' ∧ CanvasFor job blockSize canvas ∧
        CanvasFor job blockSize canvas' := by
  obtain ⟨mem, heap₁, halloc, hroom₁⟩ := hroom.alloc
  obtain ⟨mem', heap₁', halloc', hroom₁'⟩ := hroom'.alloc
  by_cases hzero : job.cols = 0 ∨ job.rows = 0
  · exact .inl ⟨if_pos hzero, if_pos hzero⟩
  · by_cases hlarge : rgbSize job.pageW job.pageH > blockSize
    · refine .inr (.inl ⟨.nomem, ?_, ?_⟩)
      · rw [imgCanvasInit, if_neg hzero, hroom.blockSize, if_pos hlarge]
      · rw [imgCanvasInit, if_neg hzero, hroom'.blockSize, if_pos hlarge]
    · have hinit : imgCanvasInit heap job =
          some (.ok (newCanvas job mem (heap.stale mem)), heap₁) := by
        rw [imgCanvasInit, if_neg hzero, hroom.blockSize, if_neg hlarge, halloc]
      have hinit' : imgCanvasInit heap' job =
          some (.ok (newCanvas job mem' (heap'.stale mem')), heap₁') := by
        rw [imgCanvasInit, if_neg hzero, hroom'.blockSize, if_neg hlarge, halloc']
      have hcanvas := (imgCanvasInit_canvas hinit).1
      have hcanvas' := (imgCanvasInit_canvas hinit').1
      rw [hroom.blockSize] at hcanvas
      rw [hroom'.blockSize] at hcanvas'
      exact .inr (.inr ⟨_, _, heap₁, heap₁', hinit, hinit', hroom₁, hroom₁', hcanvas, hcanvas'⟩)

theorem afterDecode_same (hsees : SeesShown outside) (hroom : Roomy 4 blockSize heap)
    (hroom' : Roomy 4 blockSize heap') (hblock : blockSize.toNat + 32 < 2 ^ 31)
    (hfits : JobFits job) (harena : SameArena arena arena') (tj : TurboJpeg) (file : Input)
    (outputPath : List Char) :
    (afterDecode outside arena outputPath job (decodeEntry tj file heap)).map Prod.fst =
        (afterDecode outside arena' outputPath job (decodeEntry tj file heap')).map Prod.fst ∧
      (decodedSheet arena job (decodeEntry tj file heap)).map shown =
        (decodedSheet arena' job (decodeEntry tj file heap')).map shown := by
  have hone : ∀ {heap : Heap}, Roomy 4 blockSize heap → Roomy 1 blockSize heap :=
    fun h => ⟨h.blockSize, (show 1 ≤ 4 by decide).trans h.free⟩
  have hphotos := decodeEntry_same (hone hroom) (hone hroom') tj file
  rcases hdecode : decodeEntry tj file heap with ⟨e | photo, heap₁⟩
  all_goals rcases hdecode' : decodeEntry tj file heap' with ⟨e' | photo', heap₁'⟩
  all_goals rw [hdecode, hdecode'] at hphotos
  · obtain rfl : e = e' := hphotos
    exact ⟨rfl, rfl⟩
  · exact hphotos.elim
  · exact hphotos.elim
  · obtain ⟨hsame, hphoto, hphoto'⟩ := hphotos
    have hcanvases := imgCanvasInit_same (decodeEntry_roomy hroom hdecode)
      (decodeEntry_roomy hroom' hdecode') job
    rcases hcanvases with ⟨hinit, hinit'⟩ | ⟨e, hinit, hinit'⟩ |
      ⟨canvas, canvas', heap₂, heap₂', hinit, hinit', hroom₂, hroom₂', hcanvas, hcanvas'⟩
    · simp only [afterDecode, decodedSheet, hinit, hinit', and_self]
    · simp only [afterDecode, decodedSheet, hinit, hinit', Option.map_some, and_self]
    · simp only [afterDecode, decodedSheet, hinit, hinit']
      obtain ⟨hanswer, hsheet⟩ := layoutAndEncode_same hsees hroom₂ hroom₂' hblock hfits hcanvas
        hcanvas' hsame hphoto hphoto' harena outputPath
      exact ⟨congrArg some hanswer, hsheet⟩

-- The calls outside of the engine, with what malloc finds for the arena, and the decoder.
def Outside.given (outside : Outside) (tj : TurboJpeg) (file : Input) (memory : Nat → UInt32) :
    Outside :=
  { outside with arenaMemory := some memory, decode := decodeEntry tj file }

theorem imgApiRunJob_same (hsees : SeesShown outside) (hroom : Roomy 4 blockSize heap)
    (hroom' : Roomy 4 blockSize heap') (hblock : blockSize.toNat + 32 < 2 ^ 31)
    (hfits : JobFits job) (tj : TurboJpeg) (file : Input) (memory memory' : Nat → UInt32)
    (engine : Ptr) (inputPath outputPath : Option (List Char)) :
    (imgApiRunJob (outside.given tj file memory) engine inputPath outputPath (some job) heap).map
          Prod.fst =
        (imgApiRunJob (outside.given tj file memory') engine inputPath outputPath (some job)
          heap').map Prod.fst ∧
      (jobSheet (outside.given tj file memory) job heap).map shown =
        (jobSheet (outside.given tj file memory') job heap').map shown := by
  have harena : ∀ memory, imgArenaCreate (outside.given tj file memory).arenaMemory
      (1 * 1024 * 1024) = some ⟨memory, align64 (1 * 1024 * 1024), 0⟩ := fun _ => rfl
  have hsame : SameArena ⟨memory, align64 (1 * 1024 * 1024), 0⟩
      ⟨memory', align64 (1 * 1024 * 1024), 0⟩ := ⟨rfl, rfl⟩
  have hafter := afterDecode_same hsees hroom hroom' hblock hfits hsame tj file
  refine ⟨?_, ?_⟩
  · cases inputPath with
    | none => rfl
    | some inputPath =>
        cases outputPath with
        | none => rfl
        | some outputPath =>
            have hanswer := (hafter outputPath).1
            rw [imgApiRunJob_eq, imgApiRunJob_eq]
            simp only [checked, harena]
            have hfile : ∀ memory, loadFileMmap (outside.given tj file memory) =
                loadFileMmap outside := fun _ => rfl
            simp only [hfile]
            split_ifs
            · rfl
            · rfl
            · cases loadFileMmap outside with
              | error e => rfl
              | ok fileSize =>
                  simp only
                  cases imgSecurityValidateRequest 16384 16384 fileSize with
                  | error e => rfl
                  | ok => exact hanswer
  · simp only [jobSheet, harena]
    exact (hafter []).2

end Jobs

-- With four blocks free, a job after any calls answers as it does on a fresh engine, and
-- the sheet that it encodes is the same, row by row, whatever the blocks and the arena
-- still hold of what ran before.
theorem session_job_alone (engine : Ptr) (start : Heap) (hlog : start.log = [])
    (hblock : start.pool.blockSize.toNat + 32 < 2 ^ 31) (calls : List (SessionCall F Ctx))
    {answers : List Answer} {s : EngineSession}
    (hrun : EngineSession.run engine ⟨start, []⟩ calls = some (answers, s))
    (hroom : s.kept.length + 4 ≤ start.pool.free.length) {outside : Outside}
    (hsees : SeesShown outside) {job : ImgJob F} (hfits : JobFits job) (tj : TurboJpeg)
    (file : Input) (memory memory' : Nat → UInt32) (inputPath outputPath : Option (List Char)) :
    let call (memory : Nat → UInt32) : SessionCall F Ctx :=
      .runJob tj file { outside with arenaMemory := some memory } inputPath outputPath (some job)
    (s.step engine (call memory)).map Prod.fst =
        (EngineSession.step engine ⟨start, []⟩ (call memory')).map Prod.fst ∧
      (jobSheet (outside.given tj file memory) job s.heap).map shown =
        (jobSheet (outside.given tj file memory') job start).map shown := by
  have hlength := bracket_length
    (run_bracket calls (Nat.le_refl _) (Bracket.enter start hlog) hrun)
  have hstart : Roomy 4 start.pool.blockSize start := ⟨rfl, by omega⟩
  have hheap : Roomy 4 start.pool.blockSize s.heap := ⟨run_blockSize calls hrun, by omega⟩
  obtain ⟨hanswer, hsheet⟩ := imgApiRunJob_same hsees hheap hstart hblock hfits tj file memory
    memory' engine inputPath outputPath
  refine ⟨?_, hsheet⟩
  have hanswer := congrArg (Option.map Answer.job) hanswer
  rw [Option.map_map, Option.map_map] at hanswer
  simp only [EngineSession.step, Option.map_map]
  exact hanswer

-- The job of the small sheet in fit mode, after the refused pixel.

def fitJob : ImgJob Float32 := { smallJob with mode := .fit }

theorem fitJob_fits : JobFits fitJob where
  grid := by
    obtain ⟨canvas, -, -, heap, -, -, hcanvas, -, hgrid, -⟩ := smallJob_sheet
    obtain ⟨-, -, -, mem, -, rfl⟩ := imgCanvasInit_ok hcanvas
    exact ⟨hgrid.right, hgrid.bottom⟩
  count := by decide
  page := by decide +kernel
  scaled hmode := by cases hmode

theorem session_job_alone_refusedPixel : ∃ answers s,
    EngineSession.run 1 ⟨apiHeap, []⟩ [refusedPixel] = some (answers, s) ∧
      (jobSheet (smallOutside.given onePixelTurboJpeg FastPath.longJpeg fun _ => 7) fitJob
          s.heap).map shown =
        (jobSheet (smallOutside.given onePixelTurboJpeg FastPath.longJpeg fun _ => 0) fitJob
          apiHeap).map shown := by
  obtain ⟨answers, s, hrun, hkept⟩ := @run_refusedPixel apiHeap (by decide) (by decide)
  have hsees : SeesShown smallOutside := ⟨fun _ _ _ _ _ => rfl, fun _ _ _ _ _ _ => rfl⟩
  have hfree : apiHeap.pool.free.length = 16 := by decide
  exact ⟨answers, s, hrun, (session_job_alone 1 apiHeap rfl (by decide) [refusedPixel] hrun
    (by omega) hsees fitJob_fits onePixelTurboJpeg FastPath.longJpeg (fun _ => 7) (fun _ => 0)
    (some ['a']) (some ['b'])).2⟩

end ImgEngine.Api
