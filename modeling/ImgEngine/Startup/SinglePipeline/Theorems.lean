import ImgEngine.Arch.Resize.Bounds
import ImgEngine.Arch.Resize.Theorems
import ImgEngine.Library.Strips
import ImgEngine.Pipeline.Dispatch.Theorems
import ImgEngine.Startup.EngineInit.Theorems
import ImgEngine.Startup.SinglePipeline

namespace ImgEngine.Startup

open ImgEngine.Arch ImgEngine.Library.LastGiven ImgEngine.Library.Loop ImgEngine.Library.Strips
open ImgEngine.Pipeline hiding lastGiven
open ImgEngine.Plugins

-- The kernels are for four opcodes, two of which are not exposed.
theorem startupTable_exposed (caps : UInt32) {opcode : UInt32} (hresize : opcode ≠ OP_RESIZE)
    (hgray : opcode ≠ OP_GRAYSCALE) (hh : opcode ≠ OP_RESIZE_H) (hv : opcode ≠ OP_RESIZE_V) :
    startupTable caps opcode = none := by
  unfold startupTable imgHwRegisterKernels imgJumpTableInit
  split_ifs
  all_goals simp only [Function.update_of_ne, ne_eq, hresize, hgray, hh, hv, not_false_eq_true]

-- The plugin takes the place of the kernel for its opcode, and of no other.
theorem jump_shipped (caps : UInt32) :
    ∃ tables, imgEngineInit true caps shippedPlugins = some tables ∧
      ∀ opcode, opcode ≠ OP_RESIZE_H → opcode ≠ OP_RESIZE_V → tables.jump opcode =
        if opcode = OP_RESIZE then (startupTable caps OP_RESIZE).map .kernel
        else if opcode = OP_GRAYSCALE then some .grayscaleExec
        else none := by
  have hnull : none ∉ shippedPlugins := by simp [shippedPlugins]
  have hsingles : singles shippedPlugins = [(OP_GRAYSCALE, .grayscaleExec)] := rfl
  have hjump : ∀ opcode, (kernelTables caps).jump opcode =
      (startupTable caps opcode).map .kernel := by
    intro opcode
    simp only [kernelTables, imgFusedInit]
    split_ifs <;> rfl
  obtain ⟨tables, hinit, htables⟩ := imgEngineInit_loaded caps hnull
  refine ⟨tables, hinit, fun opcode hh hv => ?_⟩
  rw [(htables opcode).1, hsingles, hjump]
  simp only [lastGiven, Option.none_or]
  by_cases hresize : opcode = OP_RESIZE
  · have hapart : OP_GRAYSCALE ≠ OP_RESIZE := by decide
    simp [hresize, hapart]
  · by_cases hgray : opcode = OP_GRAYSCALE
    · simp [hgray, show OP_GRAYSCALE ≠ OP_RESIZE by decide]
    · rw [startupTable_exposed caps hresize hgray hh hv]
      simp [hresize, hgray, Ne.symm hgray]

section Kernels

variable {block : Allocation} {buf buf' : ImgBuffer}

theorem StaysIn.refl (h : WellFormed block buf) : StaysIn block buf buf :=
  ⟨h, fun _ _ => rfl, rfl, rfl⟩

theorem StaysIn.trans {buf'' : ImgBuffer} (h : StaysIn block buf buf')
    (h' : StaysIn block buf' buf'') : StaysIn block buf buf'' :=
  ⟨h'.wellFormed, fun i hi => (h'.outside i hi).trans (h.outside i hi),
    h'.channels.trans h.channels, h'.stride.trans h.stride⟩

-- The pixels without the gaps between the rows are not more bytes than the block has.
theorem grayscaleExec_stays (h : WellFormed block buf) : StaysIn block buf (grayscaleExec buf) := by
  have hcount : (buf.width * buf.height * buf.channels).toNat ≤ block.size := by
    calc (buf.width * buf.height * buf.channels).toNat
        ≤ buf.width.toNat * buf.height.toNat * buf.channels.toNat := by
          rw [UInt32.toNat_mul, UInt32.toNat_mul]
          exact (Nat.mod_le _ _).trans (Nat.mul_le_mul_right _ (Nat.mod_le _ _))
      _ = buf.height.toNat * (buf.width.toNat * buf.channels.toNat) := by
          rw [Nat.mul_comm buf.width.toNat, Nat.mul_assoc]
      _ ≤ buf.height.toNat * buf.stride.toNat := Nat.mul_le_mul_left _ h.row
      _ ≤ block.size := h.rows
  refine ⟨⟨h.data, h.row, h.rows⟩, fun i hi => ?_, rfl, rfl⟩
  have hloop := @forRange_update _ buf.bytes 0
    (buf.width * buf.height * buf.channels).toNat grayByte
  simp only [Nat.zero_add] at hloop
  simp only [grayscaleExec, hloop]
  exact window_outside (.inr (by omega))

variable {caps : UInt32} {params : Option ResizeParams}

-- The kernel for the CPU ends and writes no byte behind the block.
theorem Harmless.returns (h : Harmless caps block buf params) (hwf : WellFormed block buf) :
    ∃ buf', (ResizeOp.table caps params).run buf = some buf' ∧
      ∀ i, block.size ≤ i → buf'.bytes i = buf.bytes i := by
  rw [ResizeOp.run, startupTable_resize]
  by_cases h512 : imgCpuHasAvx512 caps = true
  · obtain ⟨p, rfl⟩ := Option.isSome_iff_exists.mp (h.avx512 h512)
    rw [if_pos h512]
    exact ⟨_, rfl, fun _ _ => rfl⟩
  · rw [if_neg h512]
    by_cases h2 : imgCpuHasAvx2 caps = true
    · obtain ⟨src, hsource, hchannels, hends⟩ := h.avx2 h512 h2
      obtain ⟨p, rfl, hsrc⟩ := Option.bind_eq_some_iff.mp hsource
      obtain ⟨bytes, hreturns, houtside⟩ :=
        imgArchAvx2Resize_outside hsrc hchannels hwf.row hends
      rw [if_pos h2]
      exact ⟨_, hreturns, fun i hi => houtside i (hwf.rows.trans hi)⟩
    · rw [if_neg h2]
      cases params with
      | none => exact ⟨_, rfl, fun _ _ => rfl⟩
      | some p =>
          change ∃ buf', (if p.src.isNone then _ else _) = _ ∧ _
          split_ifs
          · exact ⟨_, rfl, fun _ _ => rfl⟩
          · exact ⟨_, rfl, fun _ _ => rfl⟩

theorem Harmless.run (h : Harmless caps block buf params) (hwf : WellFormed block buf) :
    ∃ buf', (ResizeOp.table caps params).run buf = some buf' ∧ StaysIn block buf buf' ∧
      (buf'.width, buf'.height) =
        (ResizeOp.table caps params).newSize.getD (buf.width, buf.height) := by
  obtain ⟨buf', hrun, houtside⟩ := h.returns hwf
  have hresizes := run_resizes hrun
  refine ⟨buf', hrun, ⟨?_, houtside, hresizes.channels, hresizes.stride⟩, hresizes.size⟩
  exact (run_wellFormed_iff hwf hrun).mpr fun size hsize => h.size _ _ hsize

-- What is harmless to an image stays so: channels and stride are kept, and where a
-- kernel looks at the width no kernel sets it.
theorem Harmless.of_staysIn (h : Harmless caps block buf params) (hstays : StaysIn block buf buf')
    (hsize : ¬imgCpuHasAvx512 caps → imgCpuHasAvx2 caps →
      (buf'.width, buf'.height) = (buf.width, buf.height)) :
    Harmless caps block buf' params := by
  constructor
  · rw [hstays.channels, hstays.stride]
    exact h.size
  · exact h.avx512
  · intro h512 h2
    obtain ⟨hwidth, hheight⟩ := Prod.mk.inj (hsize h512 h2)
    rw [hwidth, hheight, hstays.channels]
    exact h.avx2 h512 h2

end Kernels

section Operations

variable {Ctx : Type} (linked : Linked Ctx) (caps : UInt32)

theorem Linked.newSize_avx2 {caps : UInt32} (h512 : ¬imgCpuHasAvx512 caps) (h2 : imgCpuHasAvx2 caps)
    (op : ImgOpDesc) : linked.newSize caps op = none := by
  rw [Linked.newSize]
  split_ifs
  · generalize paramsAt linked.resizeParams op.params = params
    cases params with
    | none => rfl
    | some p => simp [ResizeOp.newSize, h512, h2]
  · rfl

variable {linked caps} {block : Allocation}

theorem Linked.exposedOp_stays {buf : ImgBuffer} (hwf : WellFormed block buf) {op : ImgOpDesc}
    (hharmless : op.opCode = OP_RESIZE →
      Harmless caps block buf (paramsAt linked.resizeParams op.params)) :
    ∃ buf', linked.exposedOp caps buf op = some buf' ∧ StaysIn block buf buf' ∧
      (buf'.width, buf'.height) = (linked.newSize caps op).getD (buf.width, buf.height) := by
  rw [Linked.exposedOp, Linked.newSize]
  split_ifs with hresize
  · exact (hharmless hresize).run hwf
  · exact ⟨_, rfl, grayscaleExec_stays hwf, rfl⟩
  · exact ⟨_, rfl, .refl hwf, rfl⟩

theorem Linked.exposedOps_stay {buf : ImgBuffer} (hwf : WellFormed block buf) {ops : List ImgOpDesc}
    (hharmless : ∀ op ∈ ops, op.opCode = OP_RESIZE →
      Harmless caps block buf (paramsAt linked.resizeParams op.params)) :
    ∃ buf', ops.foldlM (linked.exposedOp caps) buf = some buf' ∧ StaysIn block buf buf' ∧
      (buf'.width, buf'.height) =
        (ops.filterMap (linked.newSize caps)).getLast?.getD (buf.width, buf.height) := by
  induction ops generalizing buf with
  | nil => exact ⟨buf, rfl, .refl hwf, rfl⟩
  | cons op ops ih =>
      obtain ⟨next, hop, hnext, hsize⟩ :=
        linked.exposedOp_stays hwf (hharmless op List.mem_cons_self)
      have hkept : ¬imgCpuHasAvx512 caps → imgCpuHasAvx2 caps →
          (next.width, next.height) = (buf.width, buf.height) := by
        intro h512 h2
        rw [hsize, linked.newSize_avx2 h512 h2]
        rfl
      obtain ⟨buf', hops, hstays, hlast⟩ := ih hnext.wellFormed fun op hmem hresize =>
        (hharmless op (List.mem_cons_of_mem _ hmem) hresize).of_staysIn hnext hkept
      refine ⟨buf', ?_, hnext.trans hstays, ?_⟩
      · rw [List.foldlM_cons, hop]
        exact hops
      · rw [hlast, hsize]
        cases hnew : linked.newSize caps op with
        | none =>
            rw [List.filterMap_cons_none hnew]
            rfl
        | some size =>
            rw [List.filterMap_cons_some hnew, List.getLast?_cons]
            rfl

-- The entry of the table for an operation.
theorem Linked.dispatch_exposed {tables : Tables}
    (hjump : ∀ opcode, opcode ≠ OP_RESIZE_H → opcode ≠ OP_RESIZE_V → tables.jump opcode =
      if opcode = OP_RESIZE then (startupTable caps OP_RESIZE).map .kernel
      else if opcode = OP_GRAYSCALE then some .grayscaleExec
      else none)
    {op : ImgOpDesc} (htable : op.opCode < IMG_MAX_OPS) (hh : op.opCode ≠ OP_RESIZE_H)
    (hv : op.opCode ≠ OP_RESIZE_V) (ctx : Ctx) (image : Option ImgBuffer) :
    dispatch (linked.jumpTable tables) linked.call (ctx, image) op =
      (ctx, image.bind fun buf => linked.exposedOp caps buf op) := by
  simp only [dispatch, Linked.jumpTable, htable, if_true, hjump op.opCode hh hv, Linked.exposedOp]
  by_cases hresize : op.opCode = OP_RESIZE
  · obtain ⟨kernel, hkernel⟩ : ∃ kernel, startupTable caps OP_RESIZE = some kernel := by
      rw [startupTable_resize]
      split_ifs <;> exact ⟨_, rfl⟩
    simp only [hresize, if_true, hkernel, Option.map_some, Option.elim_some, linked.nonnull, if_false,
      linked.resize caps kernel hkernel, ResizeOp.run]
  · by_cases hgray : op.opCode = OP_GRAYSCALE
    · simp only [if_neg hresize, if_pos hgray, Option.elim_some, linked.nonnull, if_false,
        linked.grayscaleExec, Option.map_eq_bind]
      rfl
    · simp only [if_neg hresize, if_neg hgray, Option.elim_none, if_true]
      cases image <;> rfl

theorem foldl_bind {A S : Type} (f : S → A → Option S) (list : List A) (s : Option S) :
    list.foldl (fun s a => s.bind fun s => f s a) s = s.bind fun s => list.foldlM f s := by
  induction list generalizing s with
  | nil => cases s <;> rfl
  | cons a list ih =>
      rw [List.foldl_cons, ih]
      cases s <;> rfl

end Operations

-- After img_engine_init an exposed pipeline is run operation by operation: a grayscale is
-- the plugin's on every CPU, a resize is the kernel for the CPU, and the others do
-- nothing. When every resize is harmless to a well-formed image, the pipeline comes to
-- its end without a write behind the block, and the image has the size that the last
-- resize sets, which for AVX2 is none.
theorem singlePipeline_runs {Ctx : Type} (linked : Linked Ctx) (caps : UInt32)
    (pipe : ImgPipelineDesc) (hexposed : Exposed pipe) :
    ∃ tables, imgEngineInit true caps shippedPlugins = some tables ∧
      ∀ ctx buf,
        imgPipelineExecuteHot (linked.jumpTable tables) linked.call pipe.runtime (ctx, some buf) =
          some (pipe.ops.map ImgOpDesc.opCode,
            (ctx, pipe.ops.foldlM (linked.exposedOp caps) buf)) ∧
        ∀ block, WellFormed block buf →
          (∀ op ∈ pipe.ops, op.opCode = OP_RESIZE →
            Harmless caps block buf (paramsAt linked.resizeParams op.params)) →
          ∃ buf', pipe.ops.foldlM (linked.exposedOp caps) buf = some buf' ∧
            StaysIn block buf buf' ∧
            (buf'.width, buf'.height) =
              (linked.lastSize caps pipe).getD (buf.width, buf.height) := by
  obtain ⟨tables, hinit, hjump⟩ := jump_shipped caps
  refine ⟨tables, hinit, fun ctx buf => ⟨?_, fun block hwf hharmless => ?_⟩⟩
  · have hfold : ∀ image : Option ImgBuffer,
        pipe.ops.foldl (dispatch (linked.jumpTable tables) linked.call) (ctx, image) =
          (ctx, pipe.ops.foldl (fun image op =>
            image.bind fun buf => linked.exposedOp caps buf op) image) := by
      unfold Exposed at hexposed
      generalize pipe.ops = ops at hexposed
      intro image
      induction ops generalizing image with
      | nil => rfl
      | cons op ops ih =>
          obtain ⟨htable, hh, hv⟩ := hexposed op List.mem_cons_self
          rw [List.foldl_cons, linked.dispatch_exposed hjump htable hh hv]
          exact ih (fun op hmem => hexposed op (List.mem_cons_of_mem _ hmem)) _
    rw [imgPipelineExecuteHot, executeRuntime_runtime, hfold, foldl_bind]
    rfl
  · exact linked.exposedOps_stay hwf hharmless

-- The functions at addresses of their own, two sizes to resize to, and an image of 8 times
-- 6 grey pixels on a CPU without vectors.

def kernelAddress : Kernel → Ptr
  | .resizeScalar => 0x1000
  | .resizeAvx2 => 0x1100
  | .resizeAvx512 => 0x1200
  | _ => 0x1300

def kernelAt (fn : Ptr) : Option Kernel :=
  if fn = 0x1000 then some .resizeScalar
  else if fn = 0x1100 then some .resizeAvx2
  else if fn = 0x1200 then some .resizeAvx512
  else none

def sizeAt (params : Ptr) : ResizeParams where
  src := some ⟨id, 1, 16⟩
  targetW := if params = 16 then 4 else 2
  targetH := if params = 16 then 3 else 5
  scaleX := 0
  scaleY := 0

def plainLink : Linked Unit where
  address
    | .kernel kernel => kernelAddress kernel
    | .grayscaleExec => 0x2000
    | _ => 0x3000
  nonnull fn := by
    cases fn with
    | kernel kernel => cases kernel <;> simp [kernelAddress]
    | _ => simp
  beyond _ := 0
  resizeParams := sizeAt
  call fn params s :=
    if fn = 0x2000 then (s.1, s.2.map Plugins.grayscaleExec)
    else (s.1, s.2.bind (resizeKernel (kernelAt fn) (paramsAt sizeAt params)))
  resize caps kernel hkernel params s := by
    rw [startupTable_resize] at hkernel
    split_ifs at hkernel
    all_goals
      obtain rfl := Option.some_inj.mp hkernel
      rfl
  grayscaleExec _ _ := rfl

def resizeTwice : ImgPipelineDesc where
  ops := [⟨OP_RESIZE, 16⟩, ⟨OP_GRAYSCALE, 0⟩, ⟨OP_RESIZE, 32⟩, ⟨OP_BRIGHTNESS, 0⟩]
  countable := by decide

def greyImage : ImgBuffer where
  data := 0x8000
  bytes _ := 128
  width := 8
  height := 6
  channels := 1
  stride := 16

theorem sizeAt_harmless (params : Ptr) :
    Harmless 0 ⟨0x8000, 96⟩ greyImage (paramsAt sizeAt params) := by
  constructor
  · intro w h hsize
    rw [paramsAt] at hsize
    split_ifs at hsize
    · cases hsize
    · simp only [ResizeOp.newSize, sizeAt] at hsize
      split_ifs at hsize
      all_goals
        obtain ⟨rfl, rfl⟩ := Prod.mk.inj (Option.some.inj hsize)
        by_cases hfirst : params = 16
        · rw [if_pos hfirst, if_pos hfirst]
          decide
        · rw [if_neg hfirst, if_neg hfirst]
          decide
  · exact fun h => absurd h (by decide)
  · exact fun _ h => absurd h (by decide)

-- The image gets the second size, and the first 12 bytes have become grey.
theorem singlePipeline_runs_resizeTwice :
    ∃ tables buf', imgEngineInit true 0 shippedPlugins = some tables ∧
      imgPipelineExecuteHot (plainLink.jumpTable tables) plainLink.call resizeTwice.runtime
        ((), some greyImage) = some (resizeTwice.ops.map ImgOpDesc.opCode, ((), some buf')) ∧
      StaysIn ⟨0x8000, 96⟩ greyImage buf' ∧ (buf'.width, buf'.height) = (2, 5) := by
  obtain ⟨tables, hinit, hrun⟩ := singlePipeline_runs plainLink 0 resizeTwice (by decide)
  obtain ⟨hexecute, hstays⟩ := hrun () greyImage
  obtain ⟨buf', hfold, hstays, hsize⟩ := hstays ⟨0x8000, 96⟩ ⟨rfl, by decide, by decide⟩
    fun op _ _ => sizeAt_harmless op.params
  refine ⟨tables, buf', hinit, ?_, hstays, hsize⟩
  rw [hexecute, hfold]

example : ((resizeTwice.ops.foldlM (plainLink.exposedOp 0) greyImage).map fun buf =>
    (buf.bytes 0, buf.bytes 11, buf.bytes 12)) = some (38, 38, 128) := by
  decide

end ImgEngine.Startup
