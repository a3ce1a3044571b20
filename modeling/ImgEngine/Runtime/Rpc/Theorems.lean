import ImgEngine.Runtime.Rpc
import Mathlib.Data.List.GetD

namespace ImgEngine.Runtime.Rpc

open ImgEngine.Library.ByteStream

-- A packet that arrives.

section Packets

variable {packet : ImgRpcPacket} {bytes mem : Bytes} {size : Nat}

theorem ofMemory_eq_iff :
    ImgRpcPacket.ofMemory mem = packet ↔ ∀ i < 28, mem i = packetByte packet.words i := by
  have hlength : 28 = 4 * packet.words.length := rfl
  rw [hlength, ← words_eq_iff]
  constructor
  · intro h k hk
    subst h
    change k < 7 at hk
    obtain rfl | rfl | rfl | rfl | rfl | rfl | rfl :
      k = 0 ∨ k = 1 ∨ k = 2 ∨ k = 3 ∨ k = 4 ∨ k = 5 ∨ k = 6 := by omega
    all_goals rfl
  · intro h
    have hword : ∀ k, (hk : k < 7) → wordAt mem (4 * k) = packet.words[k] := by
      intro k hk
      rw [h k hk]
      exact List.getD_eq_getElem _ _ hk
    obtain ⟨first, buffer⟩ := packet
    obtain ⟨width, height, channels, stride, dataSize, params⟩ := buffer
    simp only [ImgRpcPacket.ofMemory, ImgRpcPacket.mk.injEq, ImgRpcBuffer.mk.injEq]
    exact ⟨hword 0 (by omega), hword 1 (by omega), hword 2 (by omega), hword 3 (by omega),
      hword 4 (by omega), hword 5 (by omega), hword 6 (by omega)⟩

@[simp] theorem pixelBytes_length (size : Nat) (bytes : Bytes) :
    (pixelBytes size bytes).length = size := by
  simp [pixelBytes]

theorem getD_pixelBytes {i : Nat} (hi : i < size) : (pixelBytes size bytes).getD i 0 = bytes i := by
  simp [pixelBytes, hi]

theorem send_length (packet : ImgRpcPacket) (bytes : Bytes) :
    (send packet bytes).length = 28 + packet.buffer.dataSize.toNat := by
  simp [send, ImgRpcPacket.words]

theorem getD_send {i : Nat} (hi : i < 28) :
    (send packet bytes).getD i 0 = packetByte packet.words i := by
  have hlength : i < (packetBytes packet.words).length := by simpa [ImgRpcPacket.words] using hi
  rw [send, List.getD_append _ _ _ _ hlength, List.getD_eq_getElem _ _ hlength]
  simp [packetBytes]

-- The header arrives whatever was there before exactly if recv takes all of it.
theorem header_iff (receive : Receive) (packet : ImgRpcPacket) (bytes : Bytes) :
    (∀ old, ImgRpcPacket.ofMemory (receive.recv 28 old (send packet bytes)).1 = packet) ↔
      receive.size 28 (28 + packet.buffer.dataSize.toNat) = 28 := by
  rw [← send_length packet bytes]
  simp only [ofMemory_eq_iff]
  exact recv_eq_iff receive fun i hi => getD_send hi

theorem header_rest {receive : Receive} (old : Bytes)
    (hwhole : receive.size 28 (28 + packet.buffer.dataSize.toNat) = 28) :
    (receive.recv 28 old (send packet bytes)).2 = pixelBytes packet.buffer.dataSize.toNat bytes := by
  rw [← send_length packet bytes] at hwhole
  change (send packet bytes).drop (receive.size 28 (send packet bytes).length) = _
  rw [hwhole, send]
  exact List.drop_left' (by simp [ImgRpcPacket.words])

theorem pixels_iff (receive : Receive) (size : Nat) (bytes : Bytes) :
    (∀ old, ∀ i < size, (receive.recv size old (pixelBytes size bytes)).1 i = bytes i) ↔
      receive.size size size = size := by
  have hiff : _ ↔ receive.size size (pixelBytes size bytes).length = size :=
    recv_eq_iff receive fun i hi => getD_pixelBytes hi
  rw [pixelBytes_length] at hiff
  exact hiff

end Packets

-- An exchange, one side after the other.

section Sides

variable (server : Server) (delivery : Delivery) (old : Uninitialised) (opCode : UInt32)
  (buf : ImgBuffer)

theorem block_congr {size : Nat} {bytes bytes' : Bytes} (h : ∀ i < size, bytes i = bytes' i) :
    block size bytes = block size bytes' := by
  funext i
  unfold block
  split_ifs with hi
  · exact h i hi
  · rfl

theorem serverReceives_header (req : ImgRpcPacket) (bytes : Bytes)
    (hwhole : delivery.requestHeader.size 28 (28 + req.buffer.dataSize.toNat) = 28) :
    serverReceives delivery old (send req bytes) =
      (req, block req.buffer.dataSize.toNat
        (delivery.requestPixels.recv req.buffer.dataSize.toNat old.block
          (pixelBytes req.buffer.dataSize.toNat bytes)).1) := by
  have hheader := (header_iff delivery.requestHeader req bytes).mpr hwhole old.request
  simp only [serverReceives, header_rest old.request hwhole, hheader]

theorem clientReceives_header (res : ImgRpcPacket) (bytes : Bytes)
    (hwhole : delivery.responseHeader.size 28 (28 + res.buffer.dataSize.toNat) = 28) :
    clientReceives delivery old buf (send res bytes) =
      (res, { buf with bytes := (delivery.responsePixels.recv res.buffer.dataSize.toNat buf.bytes
        (pixelBytes res.buffer.dataSize.toNat bytes)).1 }) := by
  have hheader := (header_iff delivery.responseHeader res bytes).mpr hwhole old.response
  simp only [clientReceives, header_rest old.response hwhole, hheader]

-- The last recv writes over the pixels that the client sent.
theorem result_iff (receive : Receive) (size : Nat) (kept bytes : Bytes) :
    (∀ i < size, (receive.recv size kept (pixelBytes size bytes)).1 i = bytes i) ↔
      ∀ i, receive.size size size ≤ i → i < size → kept i = bytes i := by
  constructor
  · intro h i hle hi
    have hstored := h i hi
    rwa [recv_of_le kept (by rwa [pixelBytes_length])] at hstored
  · intro h i hi
    by_cases hlt : i < receive.size size size
    · rw [recv_of_lt kept (by rwa [pixelBytes_length]), getD_pixelBytes hi]
    · rw [recv_of_le kept (by rw [pixelBytes_length]; omega)]
      exact h i (Nat.le_of_not_lt hlt) hi

structure RequestWhole : Prop where
  header : delivery.requestHeader.size 28 (28 + (buf.height * buf.stride).toNat) = 28
  pixels : delivery.requestPixels.size (buf.height * buf.stride).toNat
    (buf.height * buf.stride).toNat = (buf.height * buf.stride).toNat

-- An exchange whose request has arrived. The server's answer is then a function of the
-- client's buffer.
theorem exchange_of_request (h : RequestWhole delivery buf) :
    exchange server delivery old opCode buf =
      let req := request opCode old.params buf
      let res : ImgRpcPacket := { first := 0, buffer := req.buffer }
      let result := clientReceives delivery old buf (send res (answer server opCode buf))
      { sentRequest := req
        gotRequest := req
        gotPixels := block (buf.height * buf.stride).toNat buf.bytes
        sentResponse := res
        sentResult := answer server opCode buf
        gotResponse := result.1
        gotBuf := result.2 } := by
  have hserver : serverReceives delivery old (send (request opCode old.params buf) buf.bytes) =
      (request opCode old.params buf, block (buf.height * buf.stride).toNat buf.bytes) := by
    rw [serverReceives_header delivery old _ _ h.header]
    refine Prod.ext rfl (block_congr ?_)
    exact (pixels_iff delivery.requestPixels _ buf.bytes).mpr h.pixels old.block
  rw [exchange, hserver]
  rfl

variable {server delivery opCode buf}

theorem requestWhole_of_survives
    (h : ∀ old, Survives buf (exchange server delivery old opCode buf)) :
    RequestWhole delivery buf := by
  have hheader : delivery.requestHeader.size 28 (28 + (buf.height * buf.stride).toNat) = 28 := by
    apply (header_iff delivery.requestHeader (request opCode 0 buf) buf.bytes).mp
    intro mem
    exact (h ⟨0, mem, mem, mem⟩).request
  refine ⟨hheader, ?_⟩
  apply (pixels_iff delivery.requestPixels _ buf.bytes).mp
  intro mem i hi
  have hgot := (h ⟨0, mem, mem, mem⟩).pixels i hi
  change (serverReceives _ _ (send (request opCode 0 buf) buf.bytes)).2 i = _ at hgot
  rw [serverReceives_header delivery _ _ _ hheader] at hgot
  exact (if_pos hi).symm.trans hgot

end Sides

-- For every server, delivery, opcode and buffer: whatever the uninitialised memory
-- holds, both messages survive exactly if no call of recv falls short.
theorem exchange_survives_iff (server : Server) (delivery : Delivery) (opCode : UInt32)
    (buf : ImgBuffer) :
    (∀ old, Survives buf (exchange server delivery old opCode buf)) ↔
      Whole server delivery opCode buf := by
  constructor
  · intro h
    have hrequest := requestWhole_of_survives h
    let res : ImgRpcPacket := { first := 0, buffer := (request opCode 0 buf).buffer }
    have hheader : delivery.responseHeader.size 28 (28 + (buf.height * buf.stride).toNat) = 28 := by
      apply (header_iff delivery.responseHeader res (answer server opCode buf)).mp
      intro mem
      have hgot := (h ⟨0, mem, mem, mem⟩).response
      rw [exchange_of_request _ _ _ _ _ hrequest] at hgot
      exact hgot
    refine ⟨hrequest.header, hrequest.pixels, hheader, ?_⟩
    apply (result_iff delivery.responsePixels _ buf.bytes (answer server opCode buf)).mp
    let old : Uninitialised := ⟨0, buf.bytes, buf.bytes, buf.bytes⟩
    have hresult := (h old).result
    rw [exchange_of_request _ _ _ _ _ hrequest] at hresult
    have hclient := clientReceives_header delivery old buf res (answer server opCode buf) hheader
    intro i hi
    exact (congrArg (fun r => r.2.bytes i) hclient).symm.trans (hresult i hi)
  · intro h old
    have hrequest : RequestWhole delivery buf := ⟨h.requestHeader, h.requestPixels⟩
    rw [exchange_of_request _ _ _ _ _ hrequest]
    let res : ImgRpcPacket := { first := 0, buffer := (request opCode old.params buf).buffer }
    have hclient := clientReceives_header delivery old buf res (answer server opCode buf)
      h.responseHeader
    constructor
    · rfl
    · intro i hi
      exact if_pos hi
    · exact congrArg Prod.fst hclient
    · intro i hi
      have hresult := (result_iff delivery.responsePixels _ buf.bytes
        (answer server opCode buf)).mpr h.responsePixels i hi
      exact (congrArg (fun r => r.2.bytes i) hclient).trans hresult

-- Six pixel bytes that come in segments of at most four.

section Segments

def atMostFour : Receive where
  size asked available := min 4 (min asked available)
  le_asked asked available := by omega
  le_available asked available := by omega
  pos := by
    intro asked available hasked havailable
    omega

def segmented : Delivery where
  requestHeader := .whole
  requestPixels := atMostFour
  responseHeader := .whole
  responsePixels := .whole

def twoPixels : ImgBuffer where
  data := 64
  bytes i := .ofNat (i + 1)
  width := 2
  height := 1
  channels := 3
  stride := 6

def sameServer : Server where
  data := 4096
  kernel _ buf := buf

def zeroed : Uninitialised where
  params := 0
  request _ := 0
  block _ := 0
  response _ := 0

-- The server takes two bytes of its new block for pixels.
theorem exchange_losesPixels :
    (exchange sameServer segmented zeroed 1 twoPixels).gotPixels 4 = 0 ∧ twoPixels.bytes 4 = 5 ∧
      ¬∀ old, Survives twoPixels (exchange sameServer segmented old 1 twoPixels) := by
  have hgot : (exchange sameServer segmented zeroed 1 twoPixels).gotPixels 4 = 0 := by
    decide +kernel
  refine ⟨hgot, rfl, fun h => ?_⟩
  have hsent := (h zeroed).pixels 4 (by decide)
  rw [hgot] at hsent
  exact absurd hsent (by decide)

end Segments

end ImgEngine.Runtime.Rpc
