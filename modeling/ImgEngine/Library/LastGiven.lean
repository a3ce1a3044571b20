import Mathlib.Logic.Function.Basic
import Mathlib.Tactic.SplitIfs

namespace ImgEngine.Library.LastGiven

-- Settings that are applied in order, so that a later one overrides an earlier one
-- with the same key.

variable {K V S A : Type} [DecidableEq K]

def lastGiven (key : K) : List (K × V) → Option V
  | [] => none
  | (key', value) :: rest => (lastGiven key rest).or (if key' = key then some value else none)

-- A part of the state that one key sets and the others leave alone.
structure SetBy (apply : S → K × V → S) (key : K) (value : V → A) (part : S → A) : Prop where
  same : ∀ s v, part (apply s (key, v)) = value v
  other : ∀ s key' v, key' ≠ key → part (apply s (key', v)) = part s

variable {apply : S → K × V → S} {key : K} {value : V → A} {part : S → A}

-- After all of the settings the part is what the last one with its key gave it.
theorem SetBy.foldl (h : SetBy apply key value part) (settings : List (K × V)) (s : S) :
    part (settings.foldl apply s) = ((lastGiven key settings).map value).getD (part s) := by
  induction settings generalizing s with
  | nil => rfl
  | cons setting rest ih =>
      obtain ⟨key', v⟩ := setting
      rw [List.foldl_cons, ih, lastGiven]
      cases lastGiven key rest with
      | some last => rfl
      | none =>
          rw [Option.none_or]
          split_ifs with hkey
          · subst hkey
            exact h.same s v
          · exact h.other s key' v hkey

-- A table of which a step sets at most one entry.

def setEntry (table : K → Option V) : Option (K × V) → K → Option V
  | none => table
  | some (key, v) => Function.update table key (some v)

theorem foldl_lastGiven {E : Type} {step : S → E → S} {given : E → Option (K × V)}
    (part : S → K → Option V) (h : ∀ s e, part (step s e) = setEntry (part s) (given e))
    (steps : List E) (s : S) (key : K) :
    part (steps.foldl step s) key = (lastGiven key (steps.filterMap given)).or (part s key) := by
  induction steps generalizing s with
  | nil => rfl
  | cons e steps ih =>
      rw [List.foldl_cons, ih, h]
      cases hgiven : given e with
      | none =>
          rw [List.filterMap_cons_none hgiven]
          rfl
      | some setting =>
          obtain ⟨key', v⟩ := setting
          rw [List.filterMap_cons_some hgiven, lastGiven, Option.or_assoc, setEntry]
          congr 1
          by_cases hkey : key' = key
          · subst hkey
            simp
          · simp [hkey, Function.update_of_ne (Ne.symm hkey)]

theorem lastGiven_isSome {settings : List (K × V)} (h : key ∈ settings.map Prod.fst) :
    (lastGiven key settings).isSome := by
  induction settings with
  | nil => cases h
  | cons setting rest ih =>
      obtain ⟨key', v⟩ := setting
      rw [lastGiven, Option.isSome_or]
      obtain rfl | hrest := List.mem_cons.mp h
      · simp
      · rw [ih hrest, Bool.true_or]

theorem lastGiven_eq_none {settings : List (K × V)} (h : key ∉ settings.map Prod.fst) :
    lastGiven key settings = none := by
  induction settings with
  | nil => rfl
  | cons setting rest ih =>
      obtain ⟨key', v⟩ := setting
      rw [List.map_cons, List.mem_cons, not_or] at h
      rw [lastGiven, ih h.2, if_neg (Ne.symm h.1)]
      rfl

-- Settings that come again are overridden.
theorem lastGiven_or_of_subset {earlier later : List (K × V)}
    (h : earlier.map Prod.fst ⊆ later.map Prod.fst) (o : Option V) :
    (lastGiven key later).or ((lastGiven key earlier).or o) = (lastGiven key later).or o := by
  by_cases hkey : key ∈ later.map Prod.fst
  · obtain ⟨v, hv⟩ := Option.isSome_iff_exists.mp (lastGiven_isSome hkey)
    rw [hv, Option.some_or, Option.some_or]
  · rw [lastGiven_eq_none fun hmem => hkey (h hmem), Option.none_or]

end ImgEngine.Library.LastGiven
