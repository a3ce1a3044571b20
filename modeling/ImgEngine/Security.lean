import ImgEngine.Core.Buffer

namespace ImgEngine.Security

def MAX_PIXELS : UInt64 := 16384 * 16384

def MAX_RATIO : UInt64 := 400

def imgSecurityValidateRequest (w h : UInt32) (fileSize : UInt64) : Except ImgError Unit :=
  if w = 0 ∨ h = 0 then .error .security
  else if w > 16384 ∨ h > 16384 then .error .security
  else
    let pixels := w.toUInt64 * h.toUInt64
    if pixels = 0 ∨ pixels > MAX_PIXELS then .error .security
    -- compression bombs
    else if fileSize = 0 then .error .security
    else if pixels > fileSize * MAX_RATIO then .error .security
    else
      let required := pixels * 4
      if required > (1 : UInt64) <<< 32 then .error .security
      else .ok ()

-- Addresses and sizes are words.
def imgBoundsCheck (ptr : Ptr) (size : UInt64) (base : Ptr) (limit : UInt64) : Bool :=
  if ptr < base then false
  else
    let offset := ptr - base
    if offset > limit then false
    else size ≤ limit - offset

-- What the gate lets through. The product of the size and the ratio wraps.
structure Admitted (w h : UInt32) (fileSize : UInt64) : Prop where
  width : 1 ≤ w.toNat ∧ w.toNat ≤ 16384
  height : 1 ≤ h.toNat ∧ h.toNat ≤ 16384
  ratio : w.toNat * h.toNat ≤ (fileSize * MAX_RATIO).toNat

end ImgEngine.Security
