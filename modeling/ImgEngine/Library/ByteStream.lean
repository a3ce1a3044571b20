import Mathlib.Algebra.Group.Nat.Defs
import Mathlib.Data.List.Basic

namespace ImgEngine.Library.ByteStream

-- Words of 32 bits as four bytes each, the lowest first.

def wordByte (word : UInt32) (i : Nat) : UInt8 := UInt8.ofNat (word.toNat / 256 ^ i)

def wordAt (mem : Nat → UInt8) (offset : Nat) : UInt32 :=
  UInt32.ofNat ((mem offset).toNat + 256 * ((mem (offset + 1)).toNat +
    256 * ((mem (offset + 2)).toNat + 256 * (mem (offset + 3)).toNat)))

theorem wordAt_eq_iff {mem : Nat → UInt8} {offset : Nat} {word : UInt32} :
    wordAt mem offset = word ↔ ∀ i < 4, mem (offset + i) = wordByte word i := by
  have h₀ := (mem offset).toNat_lt
  have h₁ := (mem (offset + 1)).toNat_lt
  have h₂ := (mem (offset + 2)).toNat_lt
  have h₃ := (mem (offset + 3)).toNat_lt
  have hword := word.toNat_lt
  have hbytes : (∀ i < 4, mem (offset + i) = wordByte word i) ↔
      (mem offset).toNat = word.toNat % 256 ∧
      (mem (offset + 1)).toNat = word.toNat / 256 % 256 ∧
      (mem (offset + 2)).toNat = word.toNat / 65536 % 256 ∧
      (mem (offset + 3)).toNat = word.toNat / 16777216 % 256 := by
    constructor
    · intro h
      have hbyte := fun i hi => congrArg UInt8.toNat (h i hi)
      simp only [wordByte, UInt8.toNat_ofNat'] at hbyte
      exact ⟨by simpa using hbyte 0 (by omega), by simpa using hbyte 1 (by omega),
        by simpa using hbyte 2 (by omega), by simpa using hbyte 3 (by omega)⟩
    · intro ⟨hb₀, hb₁, hb₂, hb₃⟩ i hi
      apply UInt8.toNat_inj.mp
      rw [wordByte, UInt8.toNat_ofNat']
      obtain rfl | rfl | rfl | rfl : i = 0 ∨ i = 1 ∨ i = 2 ∨ i = 3 := by omega
      · simpa using hb₀
      · simpa using hb₁
      · simpa using hb₂
      · simpa using hb₃
  rw [hbytes, ← UInt32.toNat_inj, wordAt, UInt32.toNat_ofNat']
  omega

-- A packet of words. Bytes behind the last word are those of the word zero.

def packetByte (words : List UInt32) (i : Nat) : UInt8 := wordByte (words.getD (i / 4) 0) (i % 4)

def packetBytes (words : List UInt32) : List UInt8 :=
  (List.range (4 * words.length)).map (packetByte words)

@[simp] theorem packetBytes_length (words : List UInt32) :
    (packetBytes words).length = 4 * words.length := by
  simp [packetBytes]

theorem words_eq_iff {mem : Nat → UInt8} {words : List UInt32} :
    (∀ k < words.length, wordAt mem (4 * k) = words.getD k 0) ↔
      ∀ i < 4 * words.length, mem i = packetByte words i := by
  constructor
  · intro h i hi
    have hword := wordAt_eq_iff.mp (h (i / 4) (by omega)) (i % 4) (Nat.mod_lt _ (by omega))
    rw [Nat.div_add_mod] at hword
    exact hword
  · intro h k hk
    refine wordAt_eq_iff.mpr fun i hi => ?_
    rw [h (4 * k + i) (by omega), packetByte]
    have hdiv : (4 * k + i) / 4 = k := by omega
    have hmod : (4 * k + i) % 4 = i := by omega
    rw [hdiv, hmod]

-- How much one call of recv takes, by what it is asked for and what is there.
structure Receive where
  size : Nat → Nat → Nat
  le_asked : ∀ asked available, size asked available ≤ asked
  le_available : ∀ asked available, size asked available ≤ available
  pos : ∀ {asked available}, 0 < asked → 0 < available → 0 < size asked available

-- It stores the beginning of the stream over the old bytes and leaves the rest.
def Receive.recv (receive : Receive) (asked : Nat) (old : Nat → UInt8) (stream : List UInt8) :
    (Nat → UInt8) × List UInt8 :=
  let size := receive.size asked stream.length
  (fun i => if i < size then stream.getD i (old i) else old i, stream.drop size)

-- A call that takes all it is asked for.
def Receive.whole : Receive where
  size asked available := min asked available
  le_asked := Nat.min_le_left
  le_available := Nat.min_le_right
  pos := by
    intro asked available hasked havailable
    omega

variable {receive : Receive} {asked : Nat} {stream : List UInt8}

theorem recv_of_lt (old : Nat → UInt8) {i : Nat} (hi : i < receive.size asked stream.length) :
    (receive.recv asked old stream).1 i = stream.getD i 0 := by
  have hlt : i < stream.length := Nat.lt_of_lt_of_le hi (receive.le_available asked stream.length)
  rw [Receive.recv]
  change (if i < receive.size asked stream.length then _ else _) = _
  rw [if_pos hi, List.getD_eq_getElem?_getD, List.getD_eq_getElem?_getD,
    List.getElem?_eq_getElem hlt, Option.getD_some, Option.getD_some]

theorem recv_of_le (old : Nat → UInt8) {i : Nat} (hi : receive.size asked stream.length ≤ i) :
    (receive.recv asked old stream).1 i = old i :=
  if_neg (Nat.not_lt.mpr hi)

theorem succ_ne (byte : UInt8) : byte + 1 ≠ byte := by
  intro h
  have hnat := congrArg UInt8.toNat h
  have hlt := byte.toNat_lt
  rw [UInt8.toNat_add] at hnat
  change (byte.toNat + 1) % 256 = _ at hnat
  omega

-- Whatever was there before, the bytes asked for arrive only with a call that takes
-- all of them.
theorem recv_eq_iff (receive : Receive) {sent : Nat → UInt8}
    (hsent : ∀ i < asked, stream.getD i 0 = sent i) :
    (∀ old, ∀ i < asked, (receive.recv asked old stream).1 i = sent i) ↔
      receive.size asked stream.length = asked := by
  constructor
  · intro h
    by_contra hne
    have hshort := Nat.lt_of_le_of_ne (receive.le_asked asked stream.length) hne
    have hold := h (fun i => sent i + 1) _ hshort
    rw [recv_of_le _ (Nat.le_refl _)] at hold
    exact succ_ne _ hold
  · intro hwhole old i hi
    have hlt : i < receive.size asked stream.length := by
      rw [hwhole]
      exact hi
    rw [recv_of_lt old hlt, hsent i hi]

end ImgEngine.Library.ByteStream
