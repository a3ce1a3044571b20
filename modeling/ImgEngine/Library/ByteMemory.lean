import Mathlib.Data.List.Basic
import Mathlib.Data.Nat.Digits.Lemmas
import Mathlib.Logic.Function.Basic

namespace ImgEngine.Library.ByteMemory

-- Byte-addressed memory of 64-bit addresses, with little-endian words.

abbrev Memory := UInt64 → UInt8

def byteOf (word : UInt64) (i : Nat) : UInt8 := UInt8.ofNat (word.toNat / 256 ^ i)

def load64 (mem : Memory) (addr : UInt64) : UInt64 :=
  UInt64.ofNat (Nat.ofDigits 256 ((List.range 8).map fun i => (mem (addr + UInt64.ofNat i)).toNat))

def store64 (mem : Memory) (addr word : UInt64) : Memory := fun a =>
  if a - addr < 8 then byteOf word (a - addr).toNat else mem a

-- The narrower words.

def load16 (mem : Memory) (addr : UInt64) : UInt16 :=
  UInt16.ofNat (Nat.ofDigits 256 ((List.range 2).map fun i => (mem (addr + UInt64.ofNat i)).toNat))

def load32 (mem : Memory) (addr : UInt64) : UInt32 :=
  UInt32.ofNat (Nat.ofDigits 256 ((List.range 4).map fun i => (mem (addr + UInt64.ofNat i)).toNat))

def store32 (mem : Memory) (addr : UInt64) (word : UInt32) : Memory := fun a =>
  if a - addr < 4 then UInt8.ofNat (word.toNat / 256 ^ (a - addr).toNat) else mem a

theorem load64_congr {mem mem' : Memory} {addr : UInt64}
    (h : ∀ i < 8, mem' (addr + UInt64.ofNat i) = mem (addr + UInt64.ofNat i)) :
    load64 mem' addr = load64 mem addr := by
  unfold load64
  congr 2
  apply List.map_congr_left
  intro i hi
  rw [h i (List.mem_range.mp hi)]

theorem ofDigits_bytes (n k : Nat) :
    Nat.ofDigits 256 ((List.range k).map fun i => n / 256 ^ i % 256) = n % 256 ^ k := by
  induction k with
  | zero => simp [Nat.mod_one]
  | succ k ih =>
      rw [List.range_succ, List.map_append, Nat.ofDigits_append, ih, Nat.mod_pow_succ]
      simp

theorem load64_store64 (mem : Memory) (addr word : UInt64) :
    load64 (store64 mem addr word) addr = word := by
  have hbyte : ∀ i ∈ List.range 8, (store64 mem addr word (addr + UInt64.ofNat i)).toNat =
      word.toNat / 256 ^ i % 256 := by
    intro i hi
    have hi := List.mem_range.mp hi
    have hdiff : addr + UInt64.ofNat i - addr = UInt64.ofNat i := by
      rw [UInt64.add_comm, UInt64.add_sub_cancel]
    have hnat : (UInt64.ofNat i).toNat = i := by
      rw [UInt64.toNat_ofNat', Nat.mod_eq_of_lt (by omega)]
    have hlt : UInt64.ofNat i < 8 := by
      rw [UInt64.lt_iff_toNat_lt, hnat]
      exact hi
    rw [store64, hdiff, if_pos hlt, hnat, byteOf, UInt8.toNat_ofNat']
  have hlt : word.toNat < 256 ^ 8 := word.toNat_lt
  rw [load64, List.map_congr_left hbyte, ofDigits_bytes, Nat.mod_eq_of_lt hlt, UInt64.ofNat_toNat]

-- The narrower words are the low and the high half of the wide ones.

theorem load32_congr {mem mem' : Memory} {addr : UInt64}
    (h : ∀ i < 4, mem' (addr + UInt64.ofNat i) = mem (addr + UInt64.ofNat i)) :
    load32 mem' addr = load32 mem addr := by
  unfold load32
  congr 2
  apply List.map_congr_left
  intro i hi
  rw [h i (List.mem_range.mp hi)]

theorem load32_toNat (mem : Memory) (addr : UInt64) :
    (load32 mem addr).toNat =
      Nat.ofDigits 256 ((List.range 4).map fun i => (mem (addr + UInt64.ofNat i)).toNat) := by
  rw [load32, UInt32.toNat_ofNat']
  apply Nat.mod_eq_of_lt
  have hlt := Nat.ofDigits_lt_base_pow_length (b := 256) (by omega)
    (l := (List.range 4).map fun i => (mem (addr + UInt64.ofNat i)).toNat) (by
      intro byte hbyte
      obtain ⟨i, -, rfl⟩ := List.mem_map.mp hbyte
      exact UInt8.toNat_lt _)
  simpa using hlt

theorem load64_eq (mem : Memory) (addr : UInt64) :
    load64 mem addr =
      UInt64.ofNat ((load32 mem addr).toNat + 2 ^ 32 * (load32 mem (addr + 4)).toNat) := by
  have hhigh : ∀ i, addr + 4 + UInt64.ofNat i = addr + UInt64.ofNat (4 + i) := by
    intro i
    rw [UInt64.add_assoc, UInt64.ofNat_add]
    rfl
  have hsplit : List.range 8 = List.range 4 ++ (List.range 4).map (4 + ·) := by decide
  rw [load64, hsplit, List.map_append, Nat.ofDigits_append, List.length_map, List.length_range,
    List.map_map, load32_toNat, load32_toNat]
  simp only [Function.comp_def, hhigh]
  norm_num

theorem load32_store32 (mem : Memory) (addr : UInt64) (word : UInt32) :
    load32 (store32 mem addr word) addr = word := by
  have hbyte : ∀ i ∈ List.range 4, (store32 mem addr word (addr + UInt64.ofNat i)).toNat =
      word.toNat / 256 ^ i % 256 := by
    intro i hi
    have hi := List.mem_range.mp hi
    have hdiff : addr + UInt64.ofNat i - addr = UInt64.ofNat i := by
      rw [UInt64.add_comm, UInt64.add_sub_cancel]
    have hnat : (UInt64.ofNat i).toNat = i := by
      rw [UInt64.toNat_ofNat', Nat.mod_eq_of_lt (by omega)]
    have hlt : UInt64.ofNat i < 4 := by
      rw [UInt64.lt_iff_toNat_lt, hnat]
      exact hi
    rw [store32, hdiff, if_pos hlt, hnat, UInt8.toNat_ofNat']
  have hlt : word.toNat < 256 ^ 4 := word.toNat_lt
  rw [load32, List.map_congr_left hbyte, ofDigits_bytes, Nat.mod_eq_of_lt hlt, UInt32.ofNat_toNat]

theorem load64_toUInt32 (mem : Memory) (addr : UInt64) :
    (load64 mem addr).toUInt32 = load32 mem addr := by
  have hword := congrArg UInt64.toNat (load64_eq mem addr)
  rw [UInt64.toNat_ofNat'] at hword
  have := (load32 mem addr).toNat_lt
  apply UInt32.toNat_inj.mp
  rw [UInt64.toNat_toUInt32, hword]
  omega

theorem load32_store64 (mem : Memory) (addr word : UInt64) :
    load32 (store64 mem addr word) addr = word.toUInt32 := by
  rw [← load64_toUInt32, load64_store64]

-- Bytes outside of a stored word stay.

theorem store64_of_apart {mem : Memory} {addr a word : UInt64} (hroom : addr.toNat + 8 ≤ 2 ^ 64)
    (h : a.toNat < addr.toNat ∨ addr.toNat + 8 ≤ a.toNat) : store64 mem addr word a = mem a := by
  refine if_neg ?_
  have := a.toNat_lt
  rw [UInt64.lt_iff_toNat_lt, UInt64.toNat_sub]
  change ¬_ < 8
  omega

theorem store32_of_apart {mem : Memory} {addr a : UInt64} {word : UInt32}
    (hroom : addr.toNat + 4 ≤ 2 ^ 64)
    (h : a.toNat < addr.toNat ∨ addr.toNat + 4 ≤ a.toNat) : store32 mem addr word a = mem a := by
  refine if_neg ?_
  have := a.toNat_lt
  rw [UInt64.lt_iff_toNat_lt, UInt64.toNat_sub]
  change ¬_ < 4
  omega

-- Two words are apart when neither address lies within the other's bytes.
theorem load64_store64_of_apart {mem : Memory} {addr addr' word : UInt64}
    (h : addr.toNat + 8 ≤ addr'.toNat ∨ addr'.toNat + 8 ≤ addr.toNat)
    (haddr : addr.toNat + 8 ≤ 2 ^ 64) (haddr' : addr'.toNat + 8 ≤ 2 ^ 64) :
    load64 (store64 mem addr' word) addr = load64 mem addr := by
  apply load64_congr
  intro i hi
  refine if_neg ?_
  have hnat : (addr + UInt64.ofNat i).toNat = addr.toNat + i := by
    rw [UInt64.toNat_add, UInt64.toNat_ofNat', Nat.mod_eq_of_lt (a := i) (by omega),
      Nat.mod_eq_of_lt (by omega)]
  rw [UInt64.lt_iff_toNat_lt, UInt64.toNat_sub, hnat]
  change ¬_ < 8
  omega

theorem load32_store32_of_apart {mem : Memory} {addr addr' : UInt64} {word : UInt32}
    (h : addr.toNat + 4 ≤ addr'.toNat ∨ addr'.toNat + 4 ≤ addr.toNat)
    (haddr : addr.toNat + 4 ≤ 2 ^ 64) (haddr' : addr'.toNat + 4 ≤ 2 ^ 64) :
    load32 (store32 mem addr' word) addr = load32 mem addr := by
  refine load32_congr fun i hi => ?_
  have hnat : (addr + UInt64.ofNat i).toNat = addr.toNat + i := by
    rw [UInt64.toNat_add, UInt64.toNat_ofNat', Nat.mod_eq_of_lt (a := i) (by omega),
      Nat.mod_eq_of_lt (by omega)]
  exact store32_of_apart haddr' (by omega)

theorem load64_update_of_apart {mem : Memory} {addr a : UInt64} (b : UInt8)
    (h : a.toNat < addr.toNat ∨ addr.toNat + 8 ≤ a.toNat) (haddr : addr.toNat + 8 ≤ 2 ^ 64) :
    load64 (Function.update mem a b) addr = load64 mem addr := by
  apply load64_congr
  intro i hi
  refine Function.update_of_ne (fun he => ?_) _ _
  have hnat : (addr + UInt64.ofNat i).toNat = addr.toNat + i := by
    rw [UInt64.toNat_add, UInt64.toNat_ofNat', Nat.mod_eq_of_lt (a := i) (by omega),
      Nat.mod_eq_of_lt (by omega)]
  have := congrArg UInt64.toNat he
  omega

-- The nodes of a linked list whose links are the first words of the nodes. The
-- list ends at the null pointer.
def Chain (mem : Memory) : UInt64 → List UInt64 → Prop
  | first, [] => first = 0
  | first, node :: rest => first = node ∧ node ≠ 0 ∧ Chain mem (load64 mem node) rest

theorem Chain.congr {mem mem' : Memory} {first : UInt64} {nodes : List UInt64}
    (h : Chain mem first nodes) (hlink : ∀ node ∈ nodes, load64 mem' node = load64 mem node) :
    Chain mem' first nodes := by
  induction nodes generalizing first with
  | nil => exact h
  | cons node rest ih =>
      obtain ⟨hfirst, hnull, hrest⟩ := h
      refine ⟨hfirst, hnull, ?_⟩
      rw [hlink node (List.mem_cons_self ..)]
      exact ih hrest fun other hm => hlink other (List.mem_cons_of_mem _ hm)

theorem Chain.first_eq_zero_iff {mem : Memory} {first : UInt64} {nodes : List UInt64}
    (h : Chain mem first nodes) : first = 0 ↔ nodes = [] := by
  cases nodes with
  | nil => exact ⟨fun _ => rfl, fun _ => h⟩
  | cons node rest => exact ⟨fun hzero => absurd (h.1.symm.trans hzero) h.2.1, nofun⟩

-- Linking a node in at the front.
theorem Chain.cons {mem : Memory} {first node : UInt64} {nodes : List UInt64}
    (h : Chain mem first nodes) (hnull : node ≠ 0) (hnode : node.toNat + 8 ≤ 2 ^ 64)
    (happart : ∀ other ∈ nodes, other.toNat + 8 ≤ 2 ^ 64 ∧
      (other.toNat + 8 ≤ node.toNat ∨ node.toNat + 8 ≤ other.toNat)) :
    Chain (store64 mem node first) node (node :: nodes) := by
  refine ⟨rfl, hnull, ?_⟩
  rw [load64_store64]
  exact h.congr fun other hm =>
    load64_store64_of_apart (happart other hm).2 (happart other hm).1 hnode

end ImgEngine.Library.ByteMemory
