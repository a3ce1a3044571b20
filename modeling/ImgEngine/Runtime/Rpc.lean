import ImgEngine.Core.Buffer
import ImgEngine.Library.ByteStream

namespace ImgEngine.Runtime

open ImgEngine.Library.ByteStream

-- img_rpc_buffer_t
structure ImgRpcBuffer where
  width : UInt32
  height : UInt32
  channels : UInt32
  stride : UInt32
  dataSize : UInt32
  params : UInt32
deriving DecidableEq

-- img_rpc_request_t and img_rpc_response_t. The first word is op_code in a request and
-- status in a response.
structure ImgRpcPacket where
  first : UInt32
  buffer : ImgRpcBuffer
deriving DecidableEq

namespace ImgRpcPacket

-- The 28 bytes of a packet.

def words (packet : ImgRpcPacket) : List UInt32 :=
  [packet.first, packet.buffer.width, packet.buffer.height, packet.buffer.channels,
    packet.buffer.stride, packet.buffer.dataSize, packet.buffer.params]

def ofMemory (mem : Bytes) : ImgRpcPacket where
  first := wordAt mem 0
  buffer :=
    { width := wordAt mem 4
      height := wordAt mem 8
      channels := wordAt mem 12
      stride := wordAt mem 16
      dataSize := wordAt mem 20
      params := wordAt mem 24 }

end ImgRpcPacket

namespace Rpc

-- The four calls of recv in an exchange, two of the server and two of the client.
structure Delivery where
  requestHeader : Receive
  requestPixels : Receive
  responseHeader : Receive
  responsePixels : Receive

-- What is not initialised: req.buffer.params of the client, and the memory that the
-- server and the client receive into, apart from the client's buffer.
structure Uninitialised where
  params : UInt32
  request : Bytes
  block : Bytes
  response : Bytes

-- The block that malloc finds, and what g_jump_table[op_code] does to a buffer.
structure Server where
  data : Ptr
  kernel : UInt32 → ImgBuffer → ImgBuffer

-- `size` bytes, and nothing that can be looked at behind them.
def block (size : Nat) (bytes : Bytes) : Bytes := fun i => if i < size then bytes i else 0

def pixelBytes (size : Nat) (bytes : Bytes) : List UInt8 := (List.range size).map bytes

-- A packet and the pixels behind it, sent one after the other.
def send (packet : ImgRpcPacket) (bytes : Bytes) : List UInt8 :=
  packetBytes packet.words ++ pixelBytes packet.buffer.dataSize.toNat bytes

-- The request of img_rpc_send.
def request (opCode params : UInt32) (buf : ImgBuffer) : ImgRpcPacket where
  first := opCode
  buffer :=
    { width := buf.width
      height := buf.height
      channels := buf.channels
      stride := buf.stride
      dataSize := buf.height * buf.stride
      params }

-- What start_rpc_server has in req and in data before it calls the kernel.
def serverReceives (delivery : Delivery) (old : Uninitialised) (stream : List UInt8) :
    ImgRpcPacket × Bytes :=
  let (header, stream) := delivery.requestHeader.recv 28 old.request stream
  let req := ImgRpcPacket.ofMemory header
  let size := req.buffer.dataSize.toNat
  let (data, _) := delivery.requestPixels.recv size old.block stream
  (req, block size data)

-- What it sends back. The response repeats the buffer of the request, whatever the
-- kernel did.
def serverAnswers (server : Server) (req : ImgRpcPacket) (data : Bytes) : ImgRpcPacket × Bytes :=
  let buf : ImgBuffer :=
    { data := server.data
      bytes := data
      width := req.buffer.width
      height := req.buffer.height
      channels := req.buffer.channels
      stride := req.buffer.stride }
  ({ first := 0, buffer := req.buffer }, (server.kernel req.first buf).bytes)

-- The response and the buffer of img_rpc_send when it returns.
def clientReceives (delivery : Delivery) (old : Uninitialised) (buf : ImgBuffer)
    (stream : List UInt8) : ImgRpcPacket × ImgBuffer :=
  let (header, stream) := delivery.responseHeader.recv 28 old.response stream
  let res := ImgRpcPacket.ofMemory header
  let (bytes, _) := delivery.responsePixels.recv res.buffer.dataSize.toNat buf.bytes stream
  (res, { buf with bytes })

-- An exchange over one connection. Both sides have sent all of their bytes.
structure Exchange where
  sentRequest : ImgRpcPacket
  gotRequest : ImgRpcPacket
  gotPixels : Bytes
  sentResponse : ImgRpcPacket
  sentResult : Bytes
  gotResponse : ImgRpcPacket
  gotBuf : ImgBuffer

def exchange (server : Server) (delivery : Delivery) (old : Uninitialised) (opCode : UInt32)
    (buf : ImgBuffer) : Exchange :=
  let req := request opCode old.params buf
  let got := serverReceives delivery old (send req buf.bytes)
  let answer := serverAnswers server got.1 got.2
  let result := clientReceives delivery old buf (send answer.1 answer.2)
  { sentRequest := req
    gotRequest := got.1
    gotPixels := got.2
    sentResponse := answer.1
    sentResult := answer.2
    gotResponse := result.1
    gotBuf := result.2 }

-- Both messages arrive as they were sent.
structure Survives (buf : ImgBuffer) (e : Exchange) : Prop where
  request : e.gotRequest = e.sentRequest
  pixels : ∀ i < e.sentRequest.buffer.dataSize.toNat, e.gotPixels i = buf.bytes i
  response : e.gotResponse = e.sentResponse
  result : ∀ i < e.sentResponse.buffer.dataSize.toNat, e.gotBuf.bytes i = e.sentResult i

section Whole

variable (server : Server) (delivery : Delivery) (opCode : UInt32) (buf : ImgBuffer)

-- The pixels that a server sends back for this buffer.
def answer : Bytes :=
  (serverAnswers server (request opCode 0 buf)
    (block (buf.height * buf.stride).toNat buf.bytes)).2

-- Every call of recv takes all that it is asked for. The last one may leave out bytes
-- that the client's buffer holds already.
structure Whole : Prop where
  requestHeader : delivery.requestHeader.size 28 (28 + (buf.height * buf.stride).toNat) = 28
  requestPixels : delivery.requestPixels.size (buf.height * buf.stride).toNat
    (buf.height * buf.stride).toNat = (buf.height * buf.stride).toNat
  responseHeader : delivery.responseHeader.size 28 (28 + (buf.height * buf.stride).toNat) = 28
  responsePixels : ∀ i, delivery.responsePixels.size (buf.height * buf.stride).toNat
    (buf.height * buf.stride).toNat ≤ i → i < (buf.height * buf.stride).toNat →
    buf.bytes i = answer server opCode buf i

end Whole

end Rpc

end ImgEngine.Runtime
