import ImgEngine.Pipeline.JumpTable
import ImgEngine.Runtime.Rpc

namespace ImgEngine.Runtime

open ImgEngine.Library.ByteStream ImgEngine.Pipeline

namespace Rpc

-- What the network and the peer do in one call of img_rpc_send. A call of send takes at
-- most so many bytes, a call of recv takes some of the reply, and none stands for the
-- result -1.
structure Peer where
  socket : Bool
  connect : Bool
  sendHeader : Option Nat
  sendPixels : Option Nat
  reply : List UInt8
  recvHeader : Option Receive
  recvPixels : Option Receive

-- How many bytes a call of send or recv was asked for, and its result.
structure Transfer where
  asked : Nat
  done : Option Nat
deriving DecidableEq

def Transfer.Whole (transfer : Transfer) : Prop := transfer.done = some transfer.asked

instance (transfer : Transfer) : Decidable transfer.Whole := inferInstanceAs (Decidable (_ = _))

structure Taken where
  bytes : List UInt8
  transfer : Transfer

def sendUpTo (limit : Option Nat) (bytes : List UInt8) : Taken where
  bytes := bytes.take (limit.getD 0)
  transfer := ⟨bytes.length, limit.map fun most => min most bytes.length⟩

structure Received where
  memory : Bytes
  rest : List UInt8
  transfer : Transfer

def recvInto (receive : Option Receive) (asked : Nat) (old : Bytes) (stream : List UInt8) :
    Received :=
  match receive with
  | none => ⟨old, stream, asked, none⟩
  | some receive =>
      let (memory, rest) := receive.recv asked old stream
      ⟨memory, rest, asked, some (receive.size asked stream.length)⟩

-- A call of img_exec_dispatch: its result, what the network took and what the calls of
-- send and recv returned, the response, the number of bytes that recv stored at data, and
-- the buffer.
structure Outcome where
  ret : Int
  sent : List UInt8
  transfers : List Transfer
  response : Option ImgRpcPacket
  stored : Nat
  buf : ImgBuffer

-- Nothing went over the network.
def Outcome.silent (ret : Int) (buf : ImgBuffer) : Outcome where
  ret
  sent := []
  transfers := []
  response := none
  stored := 0
  buf

def imgRpcSend (peer : Peer) (old : Uninitialised) (opCode : UInt32) (buf : ImgBuffer) : Outcome :=
  if ¬peer.socket then .silent (-1) buf
  else if ¬peer.connect then .silent (-1) buf
  else
    let req := request opCode old.params buf
    let header := sendUpTo peer.sendHeader (packetBytes req.words)
    let pixels := sendUpTo peer.sendPixels (pixelBytes req.buffer.dataSize.toNat buf.bytes)
    -- the second size is the peer's
    let gotHeader := recvInto peer.recvHeader 28 old.response peer.reply
    let res := ImgRpcPacket.ofMemory gotHeader.memory
    let gotPixels := recvInto peer.recvPixels res.buffer.dataSize.toNat buf.bytes gotHeader.rest
    { ret := 0
      sent := header.bytes ++ pixels.bytes
      transfers := [header.transfer, pixels.transfer, gotHeader.transfer, gotPixels.transfer]
      response := some res
      stored := gotPixels.transfer.done.getD 0
      buf := { buf with bytes := gotPixels.memory } }

end Rpc

open Rpc

-- img_exec_mode_t
inductive ImgExecMode where
  | execLocal
  | execRemote
deriving DecidableEq

def imgExecRoute (opCode : UInt32) : ImgExecMode :=
  if opCode = OP_RESIZE ∨ opCode = OP_RESIZE_H ∨ opCode = OP_RESIZE_V ∨ opCode = OP_GRAYSCALE ∨
    opCode = OP_BRIGHTNESS then .execLocal
  else .execRemote

-- The jump table by what its kernels do to the buffer. A null pointer is none.
def imgExecDispatch (table : UInt32 → Option (ImgBuffer → ImgBuffer)) (peer : Peer)
    (old : Uninitialised) (opCode : UInt32) (buf : ImgBuffer) : Outcome :=
  match imgExecRoute opCode with
  | .execLocal =>
      match table opCode with
      | none => .silent (-1) buf
      | some kernel => .silent 0 (kernel buf)
  | .execRemote => imgRpcSend peer old opCode buf

end ImgEngine.Runtime
