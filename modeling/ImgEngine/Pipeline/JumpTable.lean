import ImgEngine.Pipeline.Dispatch

namespace ImgEngine.Pipeline

def OP_RESIZE_H : UInt32 := 0x10
def OP_RESIZE_V : UInt32 := 0x11

def CPU_CAP_AVX2 : UInt32 := (1 : UInt32) <<< 0
def CPU_CAP_AVX512 : UInt32 := (1 : UInt32) <<< 1
def CPU_CAP_NEON : UInt32 := (1 : UInt32) <<< 2

def imgCpuHasAvx2 (caps : UInt32) : Bool := caps &&& CPU_CAP_AVX2 ≠ 0
def imgCpuHasAvx512 (caps : UInt32) : Bool := caps &&& CPU_CAP_AVX512 ≠ 0
def imgCpuHasNeon (caps : UInt32) : Bool := caps &&& CPU_CAP_NEON ≠ 0

-- The kernels that are put into g_jump_table when the engine starts.
inductive Kernel where
  | resizeScalar
  | resizeAvx2
  | resizeAvx512
  | resizeHScalar
  | resizeHAvx2
  | resizeVScalar
  | resizeVAvx2
  | grayscaleScalar
  | grayscaleAvx2
deriving DecidableEq, Repr

-- A null pointer is none.
abbrev JumpTable := UInt32 → Option Kernel

def imgJumpTableInit (caps : UInt32) : JumpTable :=
  let table : JumpTable := fun _ => none
  if imgCpuHasAvx512 caps then Function.update table OP_RESIZE (some .resizeAvx512)
  else if imgCpuHasAvx2 caps then Function.update table OP_RESIZE (some .resizeAvx2)
  else Function.update table OP_RESIZE (some .resizeScalar)

def imgHwRegisterKernels (caps : UInt32) (table : JumpTable) : JumpTable :=
  if imgCpuHasAvx512 caps ∨ imgCpuHasAvx2 caps then
    let table := Function.update table OP_RESIZE_H (some .resizeHAvx2)
    let table := Function.update table OP_RESIZE_V (some .resizeVAvx2)
    Function.update table OP_GRAYSCALE (some .grayscaleAvx2)
  else if imgCpuHasNeon caps then
    let table := Function.update table OP_RESIZE_H (some .resizeHAvx2)
    Function.update table OP_RESIZE_V (some .resizeVAvx2)
  else
    let table := Function.update table OP_RESIZE_H (some .resizeHScalar)
    let table := Function.update table OP_RESIZE_V (some .resizeVScalar)
    Function.update table OP_GRAYSCALE (some .grayscaleScalar)

-- The table after both.
def startupTable (caps : UInt32) : JumpTable := imgHwRegisterKernels caps (imgJumpTableInit caps)

-- Only img_jump_table_init sets the entry for resize.
theorem startupTable_resize (caps : UInt32) :
    startupTable caps OP_RESIZE =
      if imgCpuHasAvx512 caps then some .resizeAvx512
      else if imgCpuHasAvx2 caps then some .resizeAvx2
      else some .resizeScalar := by
  have hkeep : ∀ table, imgHwRegisterKernels caps table OP_RESIZE = table OP_RESIZE := by
    intro table
    unfold imgHwRegisterKernels
    split_ifs
    all_goals
      simp only [Function.update_apply]
      rfl
  rw [startupTable, hkeep, imgJumpTableInit]
  split_ifs <;> rfl

end ImgEngine.Pipeline
