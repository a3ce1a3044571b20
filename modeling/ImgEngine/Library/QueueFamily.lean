import Mathlib.Algebra.Order.Ring.Nat
import Mathlib.Data.List.Basic
import Mathlib.Logic.Function.Basic

namespace ImgEngine.Library.QueueFamily

variable {Id Item : Type} [DecidableEq Id]

-- Queues of their own, each with a capacity. An item that finds its queue full is not
-- kept. Items are taken off the front, several at a time.

inductive Event (Id Item : Type) where
  | put (id : Id) (item : Item) (kept : Bool)
  | take (id : Id) (n : Nat)

-- The items that a queue kept, and how many of them were taken.

def keptBy (id : Id) : Event Id Item → Option Item
  | .put id' item true => if id' = id then some item else none
  | _ => none

def accepted (id : Id) (events : List (Event Id Item)) : List Item := events.filterMap (keptBy id)

def takenFrom (id : Id) : Event Id Item → Nat
  | .take id' n => if id' = id then n else 0
  | _ => 0

def taken (id : Id) (events : List (Event Id Item)) : Nat := (events.map (takenFrom id)).sum

inductive Run (capacity : Id → Nat) : List (Event Id Item) → (Id → List Item) → Prop where
  | start : Run capacity [] fun _ => []
  | keep {events queues} {id : Id} (item : Item) (h : Run capacity events queues)
      (hroom : (queues id).length < capacity id) :
      Run capacity (events ++ [.put id item true])
        (Function.update queues id (queues id ++ [item]))
  | drop {events queues} {id : Id} (item : Item) (h : Run capacity events queues)
      (hfull : (queues id).length = capacity id) :
      Run capacity (events ++ [.put id item false]) queues
  | take {events queues} {id : Id} {n : Nat} (h : Run capacity events queues)
      (hn : n ≤ (queues id).length) :
      Run capacity (events ++ [.take id n]) (Function.update queues id ((queues id).drop n))

section Histories

variable {id id' : Id} {events : List (Event Id Item)}

@[simp] theorem accepted_keep (item : Item) :
    accepted id (events ++ [.put id' item true]) =
      accepted id events ++ if id' = id then [item] else [] := by
  by_cases h : id' = id <;> simp [accepted, keptBy, h]

@[simp] theorem accepted_drop (item : Item) :
    accepted id (events ++ [.put id' item false]) = accepted id events := by
  simp [accepted, keptBy]

@[simp] theorem accepted_take (n : Nat) :
    accepted id (events ++ [.take id' n]) = accepted id events := by
  simp [accepted, keptBy]

@[simp] theorem taken_put (item : Item) (kept : Bool) :
    taken id (events ++ [.put id' item kept]) = taken id events := by
  simp [taken, takenFrom]

@[simp] theorem taken_take (n : Nat) :
    taken id (events ++ [.take id' n]) = taken id events + if id' = id then n else 0 := by
  simp [taken, takenFrom]

end Histories

variable {capacity : Id → Nat} {events : List (Event Id Item)} {queues : Id → List Item}

-- No more is taken than was accepted, and a queue holds the rest in order.
theorem Run.contents (run : Run capacity events queues) (id : Id) :
    taken id events ≤ (accepted id events).length ∧
      queues id = (accepted id events).drop (taken id events) := by
  induction run with
  | start => exact ⟨Nat.le_refl _, rfl⟩
  | @keep events queues id' item _ _ ih =>
      rw [accepted_keep, taken_put, List.length_append, List.drop_append_of_le_length ih.1, ← ih.2]
      refine ⟨by omega, ?_⟩
      by_cases h : id' = id
      · subst h
        rw [Function.update_self, if_pos rfl]
      · rw [Function.update_of_ne (Ne.symm h), if_neg h, List.append_nil]
  | drop _ _ _ ih =>
      rw [accepted_drop, taken_put]
      exact ih
  | @take events queues id' n _ hn ih =>
      rw [accepted_take, taken_take]
      by_cases h : id' = id
      · subst h
        rw [ih.2, List.length_drop] at hn
        rw [Function.update_self, if_pos rfl, ih.2, List.drop_drop]
        exact ⟨by omega, rfl⟩
      · rw [Function.update_of_ne (Ne.symm h), if_neg h, Nat.add_zero]
        exact ih

theorem Run.bounded (run : Run capacity events queues) (id : Id) :
    (queues id).length ≤ capacity id := by
  induction run with
  | start => exact Nat.zero_le _
  | @keep events queues id' item _ hroom ih =>
      by_cases h : id' = id
      · subst h
        rw [Function.update_self, List.length_append, List.length_singleton]
        omega
      · rw [Function.update_of_ne (Ne.symm h)]
        exact ih
  | drop _ _ _ ih => exact ih
  | @take events queues id' n _ _ ih =>
      by_cases h : id' = id
      · subst h
        rw [Function.update_self, List.length_drop]
        omega
      · rw [Function.update_of_ne (Ne.symm h)]
        exact ih

end ImgEngine.Library.QueueFamily
