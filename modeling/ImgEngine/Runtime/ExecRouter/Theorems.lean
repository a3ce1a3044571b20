import ImgEngine.Runtime.ExecRouter
import ImgEngine.Runtime.Rpc.Theorems

namespace ImgEngine.Runtime

open ImgEngine.Library.ByteStream Rpc

namespace Rpc

-- An exchange that is neither truncated nor failed: each call moved all it was asked for,
-- and the response is not one with which the peer reports a failure. Which ones those are
-- the source does not say.
structure Outcome.Complete (rejected : ImgRpcPacket → Prop) (outcome : Outcome) : Prop where
  answered : ∃ res, outcome.response = some res ∧ ¬rejected res
  whole : ∀ transfer ∈ outcome.transfers, transfer.Whole

-- No byte is stored behind the image, and an exchange that is not complete is reported
-- and leaves the image as it was.
structure Outcome.Guarded (rejected : ImgRpcPacket → Prop) (buf : ImgBuffer) (outcome : Outcome) :
    Prop where
  bounded : outcome.stored ≤ buf.height.toNat * buf.stride.toNat
  reported : ¬outcome.Complete rejected → outcome.ret ≠ 0 ∧
    ∀ i < buf.height.toNat * buf.stride.toNat, outcome.buf.bytes i = buf.bytes i

-- The header that the reply starts with.
def Peer.header (peer : Peer) : ImgRpcPacket := .ofMemory fun i => peer.reply.getD i 0

def Takes (limit : Option Nat) (asked : Nat) : Prop := ∃ most, limit = some most ∧ asked ≤ most

def Fills (receive : Option Receive) (asked available : Nat) : Prop :=
  ∃ r, receive = some r ∧ r.size asked available = asked

-- The network takes the whole request, and the peer answers with a header and with as
-- many bytes as the header says, which are no more than the image has.
structure Peer.Answers (rejected : ImgRpcPacket → Prop) (peer : Peer) (buf : ImgBuffer) : Prop where
  sendHeader : Takes peer.sendHeader 28
  sendPixels : Takes peer.sendPixels (buf.height * buf.stride).toNat
  recvHeader : Fills peer.recvHeader 28 peer.reply.length
  accepted : ¬rejected peer.header
  recvPixels : Fills peer.recvPixels peer.header.buffer.dataSize.toNat (peer.reply.length - 28)
  fits : peer.header.buffer.dataSize.toNat ≤ buf.height.toNat * buf.stride.toNat

section Transfers

variable {limit : Option Nat} {bytes stream : List UInt8} {receive : Option Receive} {asked : Nat}

theorem sendUpTo_whole_iff :
    (sendUpTo limit bytes).transfer.Whole ↔ Takes limit bytes.length := by
  cases limit with
  | none => simp [sendUpTo, Transfer.Whole, Takes]
  | some most => simp [sendUpTo, Transfer.Whole, Takes]

theorem recvInto_whole_iff {old : Bytes} :
    (recvInto receive asked old stream).transfer.Whole ↔ Fills receive asked stream.length := by
  cases receive with
  | none => simp [recvInto, Transfer.Whole, Fills]
  | some r => simp [recvInto, Transfer.Whole, Fills]

theorem recvInto_stored {old : Bytes} (h : (recvInto receive asked old stream).transfer.Whole) :
    (recvInto receive asked old stream).transfer.done.getD 0 = asked := by
  rw [h]
  cases receive with
  | none => rfl
  | some r => rfl

-- What has been received in full is the front of the stream.
theorem recvInto_front (h : Fills receive asked stream.length) (old : Bytes) {i : Nat}
    (hi : i < asked) : (recvInto receive asked old stream).memory i = stream.getD i 0 := by
  obtain ⟨r, rfl, hsize⟩ := h
  exact recv_of_lt old (by rwa [hsize])

theorem recvInto_rest (h : Fills receive asked stream.length) (old : Bytes) :
    (recvInto receive asked old stream).rest = stream.drop asked := by
  obtain ⟨r, rfl, hsize⟩ := h
  change stream.drop (r.size asked stream.length) = _
  rw [hsize]

theorem ofMemory_congr {mem mem' : Bytes} (h : ∀ i < 28, mem i = mem' i) :
    ImgRpcPacket.ofMemory mem = ImgRpcPacket.ofMemory mem' := by
  rw [ofMemory_eq_iff]
  intro i hi
  rw [h i hi]
  exact ofMemory_eq_iff.mp rfl i hi

-- The second size is the one in the reply only if the header arrived in full.
theorem recvInto_header {peer : Peer} (h : Fills peer.recvHeader 28 peer.reply.length)
    (old : Bytes) :
    ImgRpcPacket.ofMemory (recvInto peer.recvHeader 28 old peer.reply).memory = peer.header :=
  ofMemory_congr fun _ hi => recvInto_front h old hi

end Transfers

section Client

variable {rejected : ImgRpcPacket → Prop} {peer : Peer} {buf : ImgBuffer}

theorem silent_guarded {ret : Int} (h : ret ≠ 0) (rejected : ImgRpcPacket → Prop)
    (buf : ImgBuffer) : (Outcome.silent ret buf).Guarded rejected buf :=
  ⟨Nat.zero_le _, fun _ => ⟨h, fun _ _ => rfl⟩⟩

-- Past the connection the result is always 0.
theorem imgRpcSend_ret (hconnected : peer.socket ∧ peer.connect) (old : Uninitialised)
    (opCode : UInt32) (buf : ImgBuffer) : (imgRpcSend peer old opCode buf).ret = 0 := by
  simp [imgRpcSend, hconnected]

-- The four transfers of a complete exchange, the last one of the size in the reply.
theorem imgRpcSend_complete_iff (hconnected : peer.socket ∧ peer.connect) (old : Uninitialised)
    (opCode : UInt32) :
    ((imgRpcSend peer old opCode buf).Complete rejected ∧
      (imgRpcSend peer old opCode buf).stored ≤ buf.height.toNat * buf.stride.toNat) ↔
      peer.Answers rejected buf := by
  have hrequest : (packetBytes (request opCode old.params buf).words).length = 28 :=
    packetBytes_length _
  have hpixels : (pixelBytes (request opCode old.params buf).buffer.dataSize.toNat
      buf.bytes).length = (buf.height * buf.stride).toNat := pixelBytes_length _ _
  rw [imgRpcSend, if_neg (not_not.mpr hconnected.1), if_neg (not_not.mpr hconnected.2)]
  dsimp only
  constructor
  · rintro ⟨⟨⟨res, hres, haccepted⟩, hwhole⟩, hstored⟩
    simp only [List.forall_mem_cons, List.not_mem_nil, false_implies, implies_true, and_true]
      at hwhole
    obtain ⟨hsend, hsend', hrecv, hrecv'⟩ := hwhole
    cases hres
    have hheader := recvInto_whole_iff.mp hrecv
    have hrest := recvInto_rest hheader old.response
    rw [recvInto_header hheader] at haccepted hrecv' hstored
    rw [recvInto_stored hrecv'] at hstored
    rw [recvInto_whole_iff, hrest, List.length_drop] at hrecv'
    rw [sendUpTo_whole_iff, hrequest] at hsend
    rw [sendUpTo_whole_iff, hpixels] at hsend'
    exact ⟨hsend, hsend', hheader, haccepted, hrecv', hstored⟩
  · intro h
    have hrest := recvInto_rest h.recvHeader old.response
    rw [recvInto_header h.recvHeader]
    have hrecv : (recvInto peer.recvPixels peer.header.buffer.dataSize.toNat buf.bytes
        (recvInto peer.recvHeader 28 old.response peer.reply).rest).transfer.Whole := by
      rw [recvInto_whole_iff, hrest, List.length_drop]
      exact h.recvPixels
    refine ⟨⟨⟨_, rfl, h.accepted⟩, ?_⟩, ?_⟩
    · simp only [List.forall_mem_cons, List.not_mem_nil, false_implies, implies_true, and_true]
      refine ⟨?_, ?_, recvInto_whole_iff.mpr h.recvHeader, hrecv⟩
      · rw [sendUpTo_whole_iff, hrequest]
        exact h.sendHeader
      · rw [sendUpTo_whole_iff, hpixels]
        exact h.sendPixels
    · rw [recvInto_stored hrecv]
      exact h.fits

theorem imgRpcSend_guarded_iff (rejected : ImgRpcPacket → Prop) (peer : Peer) (old : Uninitialised)
    (opCode : UInt32) (buf : ImgBuffer) :
    (imgRpcSend peer old opCode buf).Guarded rejected buf ↔
      ¬(peer.socket ∧ peer.connect) ∨ peer.Answers rejected buf := by
  by_cases hconnected : peer.socket ∧ peer.connect
  · rw [or_iff_right (not_not.mpr hconnected), ← imgRpcSend_complete_iff hconnected old opCode]
    constructor
    · intro h
      refine ⟨?_, h.bounded⟩
      by_contra hbroken
      exact (h.reported hbroken).1 (imgRpcSend_ret hconnected old opCode buf)
    · intro h
      exact ⟨h.2, fun hbroken => absurd h.1 hbroken⟩
  · refine iff_of_true ?_ (.inl hconnected)
    have hfailed : imgRpcSend peer old opCode buf = .silent (-1) buf := by
      by_cases hsocket : peer.socket
      · rw [imgRpcSend, if_neg (not_not.mpr hsocket),
          if_pos fun hconnect => hconnected ⟨hsocket, hconnect⟩]
      · exact if_pos hsocket
    rw [hfailed]
    exact silent_guarded (by decide) rejected buf

-- The other side of an exchange with a server, over a network that takes all that the
-- client sends.
def Peer.serving (delivery : Delivery) (e : Exchange) : Peer where
  socket := true
  connect := true
  sendHeader := some 28
  sendPixels := some e.sentRequest.buffer.dataSize.toNat
  reply := send e.sentResponse e.sentResult
  recvHeader := some delivery.responseHeader
  recvPixels := some delivery.responsePixels

theorem imgRpcSend_serving (server : Server) (delivery : Delivery) (old : Uninitialised)
    (opCode : UInt32) (buf : ImgBuffer) :
    let e := exchange server delivery old opCode buf
    let outcome := imgRpcSend (.serving delivery e) old opCode buf
    outcome.sent = send e.sentRequest buf.bytes ∧ outcome.response = some e.gotResponse ∧
      outcome.buf = e.gotBuf := by
  refine ⟨?_, rfl, rfl⟩
  change (packetBytes (request opCode old.params buf).words).take 28 ++
    (pixelBytes (buf.height * buf.stride).toNat buf.bytes).take (buf.height * buf.stride).toNat = _
  have hheader : (packetBytes (request opCode old.params buf).words).length ≤ 28 :=
    (packetBytes_length _).le
  rw [List.take_of_length_le hheader, List.take_of_length_le (pixelBytes_length _ _).le]
  rfl

end Client

end Rpc

-- An opcode that is not executed here guards the image exactly if there is no connection
-- or the peer behaves.
theorem imgExecDispatch_guarded_iff (table : UInt32 → Option (ImgBuffer → ImgBuffer))
    (rejected : ImgRpcPacket → Prop) (peer : Peer) (old : Uninitialised) (opCode : UInt32)
    (buf : ImgBuffer) (hremote : imgExecRoute opCode = .execRemote) :
    (imgExecDispatch table peer old opCode buf).Guarded rejected buf ↔
      ¬(peer.socket ∧ peer.connect) ∨ peer.Answers rejected buf := by
  rw [imgExecDispatch, hremote]
  exact imgRpcSend_guarded_iff rejected peer old opCode buf

section OnePixel

-- An image of one pixel, and a peer that answers with a size and some bytes.

def onePixel : ImgBuffer where
  data := 64
  bytes _ := 0
  width := 1
  height := 1
  channels := 3
  stride := 3

def answering (reply : List UInt8) : Peer where
  socket := true
  connect := true
  sendHeader := some 28
  sendPixels := some 3
  reply
  recvHeader := some .whole
  recvPixels := some .whole

theorem imgExecDispatch_guarded_onePixel :
    (imgExecDispatch (fun _ => none) (answering (packetBytes [0, 1, 1, 3, 3, 3, 0] ++ [7, 8, 9]))
      zeroed 2 onePixel).Guarded (fun res => res.first ≠ 0) onePixel :=
  (imgExecDispatch_guarded_iff (fun _ => none) (fun res => res.first ≠ 0) _ zeroed 2 onePixel
    (by decide)).mpr (.inr ⟨⟨28, rfl, le_rfl⟩, ⟨3, rfl, by decide⟩, ⟨_, rfl, by decide⟩, by decide,
      ⟨_, rfl, by decide⟩, by decide⟩)

-- A peer that answers with a byte too many, and one that closes the connection without an
-- answer.
theorem imgExecDispatch_unguarded :
    imgExecRoute 2 = .execRemote ∧
      (∀ rejected, ¬(imgExecDispatch (fun _ => none)
        (answering (packetBytes [0, 1, 1, 3, 3, 4, 0] ++ [6, 7, 8, 9])) zeroed 2 onePixel).Guarded
          rejected onePixel) ∧
      ∀ rejected, ¬(imgExecDispatch (fun _ => none) (answering []) zeroed 2 onePixel).Guarded
        rejected onePixel := by
  refine ⟨by decide, fun rejected h => ?_, fun rejected h => ?_⟩
  · have hstored : (imgExecDispatch (fun _ => none)
        (answering (packetBytes [0, 1, 1, 3, 3, 4, 0] ++ [6, 7, 8, 9])) zeroed 2 onePixel).stored = 4 :=
      by decide +kernel
    have hbounded := h.bounded
    rw [hstored] at hbounded
    exact absurd hbounded (by decide)
  · refine (h.reported fun hcomplete => ?_).1 rfl
    have hheader := hcomplete.whole ⟨28, some 0⟩ (.tail _ (.tail _ (.head _)))
    exact absurd hheader (by decide)

end OnePixel

end ImgEngine.Runtime
