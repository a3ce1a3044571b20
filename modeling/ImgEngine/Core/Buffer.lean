import ImgEngine.Core.Word
import Mathlib.Logic.Function.Basic

namespace ImgEngine

-- img_result_t without IMG_SUCCESS, for which functions return Except.ok.
inductive ImgError where
  | nomem
  | format
  | security
  | io
  | hwUnsup
  | internal
deriving DecidableEq, Repr

-- The conversion to int32_t. Sums of int32_t are exact in this model: where one
-- overflows, the source has no meaning.
def int32 (x : UInt32) : Int := (x.toNat : Int).bmod (2 ^ 32)

theorem int32_of_lt {x : UInt32} (h : x.toNat < 2 ^ 31) : int32 x = x.toNat :=
  Int.bmod_eq_of_le (by omega) (by omega)

theorem bmod_neg {n : Nat} (h : 2 ^ 31 ≤ n) (hlt : n < 2 ^ 32) : (n : Int).bmod (2 ^ 32) < 0 := by
  have hmod : (n : Int) % ((2 ^ 32 : Nat) : Int) = n := Int.emod_eq_of_lt (by omega) (by omega)
  rw [Int.bmod_def, hmod, if_neg (by omega)]
  omega

theorem int32_neg {x : UInt32} (h : 2 ^ 31 ≤ x.toNat) : int32 x < 0 := bmod_neg h x.toNat_lt

-- The conversion of an int32_t to size_t.
def sizeT (x : Int) : Nat := (x % 2 ^ 64).toNat

theorem sizeT_of_nonneg {x : Int} (h : 0 ≤ x) (hlt : x < 2 ^ 32) : sizeT x = x.toNat := by
  rw [sizeT, Int.emod_eq_of_lt h (by omega)]

structure Rgb where
  r : UInt8
  g : UInt8
  b : UInt8
deriving DecidableEq, Repr

def Rgb.black : Rgb := ⟨0, 0, 0⟩

-- Bytes by their offset from the start of a block.
abbrev Bytes := Nat → UInt8

namespace Bytes

def setRgb (bytes : Bytes) (i : Nat) (color : Rgb) : Bytes :=
  Function.update (Function.update (Function.update bytes i color.r) (i + 1) color.g) (i + 2) color.b

def getRgb (bytes : Bytes) (i : Nat) : Rgb := ⟨bytes i, bytes (i + 1), bytes (i + 2)⟩

def memcpy (dst : Bytes) (dstOffset : Nat) (src : Bytes) (srcOffset size : Nat) : Bytes := fun i =>
  if dstOffset ≤ i ∧ i < dstOffset + size then src (srcOffset + (i - dstOffset)) else dst i

theorem getRgb_setRgb (bytes : Bytes) (i : Nat) (color : Rgb) :
    (bytes.setRgb i color).getRgb i = color := by
  simp [setRgb, getRgb]

theorem getRgb_setRgb_of_apart (bytes : Bytes) {i j : Nat} (color : Rgb)
    (h : i + 3 ≤ j ∨ j + 3 ≤ i) : (bytes.setRgb i color).getRgb j = bytes.getRgb j := by
  simp only [setRgb, getRgb, Function.update_apply, Rgb.mk.injEq]
  refine ⟨?_, ?_, ?_⟩
  all_goals rw [if_neg (by omega), if_neg (by omega), if_neg (by omega)]

-- A pixel in what is copied, and one outside of it.

theorem getRgb_memcpy (dst src : Bytes) {dstOffset i : Nat} (srcOffset : Nat) {size : Nat}
    (h : dstOffset ≤ i) (h' : i + 3 ≤ dstOffset + size) :
    (dst.memcpy dstOffset src srcOffset size).getRgb i = src.getRgb (srcOffset + (i - dstOffset)) := by
  simp only [memcpy, getRgb, Rgb.mk.injEq]
  rw [if_pos (by omega), if_pos (by omega), if_pos (by omega)]
  refine ⟨rfl, ?_, ?_⟩
  all_goals
    congr 1
    omega

theorem getRgb_memcpy_of_apart (dst src : Bytes) {dstOffset i : Nat} (srcOffset : Nat) {size : Nat}
    (h : i + 3 ≤ dstOffset ∨ dstOffset + size ≤ i) :
    (dst.memcpy dstOffset src srcOffset size).getRgb i = dst.getRgb i := by
  simp only [memcpy, getRgb, Rgb.mk.injEq]
  refine ⟨?_, ?_, ?_⟩
  all_goals rw [if_neg (by omega)]

end Bytes

-- A buffer owns the bytes of the block that data points to.
structure ImgBuffer where
  data : Ptr
  bytes : Bytes
  width : UInt32
  height : UInt32
  channels : UInt32
  stride : UInt32

namespace ImgBuffer

-- {0}
def zero : ImgBuffer where
  data := 0
  bytes _ := 0
  width := 0
  height := 0
  channels := 0
  stride := 0

def offset (buf : ImgBuffer) (x y : Int) : Nat := sizeT y * buf.stride.toNat + sizeT x * 3

def pixel (buf : ImgBuffer) (p : Int × Int) : Rgb := buf.bytes.getRgb (buf.offset p.1 p.2)

def setPixel (buf : ImgBuffer) (x y : Int) (color : Rgb) : ImgBuffer :=
  { buf with bytes := buf.bytes.setRgb (buf.offset x y) color }

def copyPixel (buf : ImgBuffer) (dst src : Nat) : ImgBuffer :=
  { buf with bytes := buf.bytes.setRgb dst (buf.bytes.getRgb src) }

end ImgBuffer

end ImgEngine
