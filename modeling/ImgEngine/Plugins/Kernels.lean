import ImgEngine.Core.Buffer
import ImgEngine.Library.Loop

namespace ImgEngine.Plugins

open ImgEngine.Library.Loop

-- The product is an int, of which the result is one byte.
def grayByte (px : UInt8) : UInt8 := ((px.toUInt32 * 77) >>> 8).toUInt8

-- grayscale_exec of plugin_grayscale.c. The stride is not looked at, and n is computed
-- in 32 bits.
def grayscaleExec (buf : ImgBuffer) : ImgBuffer :=
  let n := buf.width * buf.height * buf.channels
  { buf with
    bytes := forRange n.toNat (fun i (bytes : Bytes) =>
      Function.update bytes i (grayByte (bytes i))) buf.bytes }

end ImgEngine.Plugins
