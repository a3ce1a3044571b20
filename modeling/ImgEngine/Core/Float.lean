namespace ImgEngine

-- The float operations of the source. No law is assumed of them, so that what is
-- proved holds for every rounding. The conversion to an integer is undefined in
-- the source outside of the range, and here it has some value.
class FloatType (F : Type) extends Add F, Mul F, Div F, OfScientific F where
  lt : F → F → Bool
  ofUInt32 : UInt32 → F
  toUInt32 : F → UInt32

export FloatType (ofUInt32 toUInt32)

-- Floats with the test that a condition makes of them. A float whose bytes are all
-- zero does not pass it.
class FloatTest (F : Type) extends FloatType F where
  zero : F
  isZero : F → Bool
  isZero_zero : isZero zero = true

instance : FloatType Float32 where
  lt x y := x < y
  ofUInt32 := UInt32.toFloat32
  toUInt32 := Float32.toUInt32

end ImgEngine
