import Mathlib.Data.List.TakeWhile
import Mathlib.Data.Nat.Digits.Lemmas

namespace ImgEngine.Library.Decimal

-- Numbers in decimal, with the character codes of the digits.

def decimal (n : Nat) : List UInt8 :=
  if n = 0 then [48] else (Nat.digits 10 n).reverse.map fun digit => .ofNat (48 + digit)

-- at least `width` digits
def padded (width n : Nat) : List UInt8 :=
  List.replicate (width - (decimal n).length) 48 ++ decimal n

def isDigit (c : UInt8) : Bool := 48 ≤ c ∧ c ≤ 57

-- The number that a text starts with.
def number (text : List UInt8) : Nat :=
  (text.takeWhile isDigit).foldl (fun n c => 10 * n + (c.toNat - 48)) 0

theorem isDigit_ofNat {digit : Nat} (h : digit < 10) :
    isDigit (.ofNat (48 + digit)) = true ∧ (UInt8.ofNat (48 + digit)).toNat - 48 = digit := by
  have hcode : (UInt8.ofNat (48 + digit)).toNat = 48 + digit := by
    rw [UInt8.toNat_ofNat']
    omega
  simp only [isDigit, UInt8.le_iff_toNat_le, hcode, decide_eq_true_eq]
  refine ⟨⟨?_, ?_⟩, by omega⟩
  · change 48 ≤ 48 + digit
    omega
  · change 48 + digit ≤ 57
    omega

theorem number_digits {digits : List Nat} (h : ∀ digit ∈ digits, digit < 10) :
    number (digits.reverse.map fun digit => .ofNat (48 + digit)) = Nat.ofDigits 10 digits := by
  have hall : (digits.reverse.map fun digit => UInt8.ofNat (48 + digit)).takeWhile isDigit =
      digits.reverse.map fun digit => .ofNat (48 + digit) := by
    apply List.takeWhile_eq_self_iff.mpr
    intro c hc
    obtain ⟨digit, hdigit, rfl⟩ := List.mem_map.mp hc
    exact (isDigit_ofNat (h digit (List.mem_reverse.mp hdigit))).1
  rw [number, hall, List.foldl_map, List.foldl_reverse, Nat.ofDigits_eq_foldr]
  clear hall
  induction digits with
  | nil => rfl
  | cons first rest ih =>
      rw [List.foldr_cons, List.foldr_cons, ih fun digit hm => h digit (List.mem_cons_of_mem _ hm),
        (isDigit_ofNat (h first List.mem_cons_self)).2]
      exact Nat.add_comm _ _

theorem decimal_eq (n : Nat) :
    ∃ digits, (∀ digit ∈ digits, digit < 10) ∧ Nat.ofDigits 10 digits = n ∧
      decimal n = digits.reverse.map fun digit => .ofNat (48 + digit) := by
  by_cases hzero : n = 0
  · exact ⟨[0], by simp, by simp [hzero], by rw [decimal, if_pos hzero]; rfl⟩
  · exact ⟨Nat.digits 10 n, fun digit hm => Nat.digits_lt_base (by decide) hm,
      Nat.ofDigits_digits 10 n, by rw [decimal, if_neg hzero]⟩

-- A text of digits only and its number.
def Denotes (text : List UInt8) (n : Nat) : Prop := (∀ c ∈ text, isDigit c = true) ∧ number text = n

theorem denotes_digits {digits : List Nat} (h : ∀ digit ∈ digits, digit < 10) :
    Denotes (digits.reverse.map fun digit => .ofNat (48 + digit)) (Nat.ofDigits 10 digits) := by
  refine ⟨fun c hc => ?_, number_digits h⟩
  obtain ⟨digit, hdigit, rfl⟩ := List.mem_map.mp hc
  exact (isDigit_ofNat (h digit (List.mem_reverse.mp hdigit))).1

theorem denotes_decimal (n : Nat) : Denotes (decimal n) n := by
  obtain ⟨digits, hdigits, rfl, heq⟩ := decimal_eq n
  rw [heq]
  exact denotes_digits hdigits

example : decimal 405 = [52, 48, 53] := by decide +kernel

-- Zeros in front do not count.
theorem denotes_padded (width n : Nat) : Denotes (padded width n) n := by
  obtain ⟨digits, hdigits, hvalue, heq⟩ := decimal_eq n
  have hpadded : padded width n = (digits ++ List.replicate (width - (decimal n).length) 0).reverse.map
      fun digit => .ofNat (48 + digit) := by
    rw [padded, heq, List.reverse_append, List.map_append, List.reverse_replicate,
      List.map_replicate]
    rfl
  have hall : ∀ digit ∈ digits ++ List.replicate (width - (decimal n).length) 0, digit < 10 := by
    intro digit hm
    rcases List.mem_append.mp hm with hm | hm
    · exact hdigits digit hm
    · rw [List.eq_of_mem_replicate hm]
      decide
  have hdenotes := denotes_digits hall
  rwa [← hpadded, Nat.ofDigits_append_replicate_zero, hvalue] at hdenotes

theorem length_decimal_le {width n : Nat} (hwidth : 0 < width) (h : n < 10 ^ width) :
    (decimal n).length ≤ width := by
  unfold decimal
  split_ifs
  · exact hwidth
  · rw [List.length_map, List.length_reverse]
    exact (Nat.digits_length_le_iff (by decide) n).mpr h

theorem length_padded {width n : Nat} (hwidth : 0 < width) (h : n < 10 ^ width) :
    (padded width n).length = width := by
  have hlength := length_decimal_le hwidth h
  rw [padded, List.length_append, List.length_replicate]
  omega

end ImgEngine.Library.Decimal
