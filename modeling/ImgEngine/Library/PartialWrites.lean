import Mathlib.Data.List.TakeDrop

namespace ImgEngine.Library.PartialWrites

variable {A : Type}

-- A file layer whose calls may fall short. A write takes some beginning of its text,
-- and a close that fails keeps some beginning of the file.
structure Layer (A : Type) where
  -- by the number of the write and its text
  accepts : Nat → List A → Nat
  closes : Bool
  kept : Nat

def Layer.perfect : Layer A where
  accepts _ text := text.length
  closes := true
  kept := 0

-- What a file holds, and the texts of all writes to it.
structure Output (A : Type) where
  data : List A
  texts : List (List A)

def Output.empty : Output A where
  data := []
  texts := []

def Output.write (layer : Layer A) (out : Output A) (text : List A) : Output A where
  data := out.data ++ text.take (layer.accepts out.texts.length text)
  texts := out.texts ++ [text]

def Output.close (layer : Layer A) (out : Output A) : List A :=
  if layer.closes then out.data else out.data.take layer.kept

-- The layer takes each of these texts as a whole.
def Layer.Takes (layer : Layer A) (texts : List (List A)) : Prop :=
  ∀ k text, texts[k]? = some text → text.length ≤ layer.accepts k text

-- It also keeps all of the file.
def Layer.Keeps (layer : Layer A) (size : Nat) : Prop := layer.closes = true ∨ size ≤ layer.kept

variable {layer : Layer A} {out ideal : Output A} {text text' : List A}

@[simp] theorem write_perfect_data (out : Output A) (text : List A) :
    (out.write .perfect text).data = out.data ++ text := by
  simp [Output.write, Layer.perfect]

@[simp] theorem close_perfect (out : Output A) : out.close .perfect = out.data := rfl

theorem takes_nil (layer : Layer A) : layer.Takes [] := by
  intro k text h
  cases h

theorem takes_concat {texts : List (List A)} :
    layer.Takes (texts ++ [text]) ↔
      layer.Takes texts ∧ text.length ≤ layer.accepts texts.length text := by
  constructor
  · intro h
    refine ⟨fun k text' hk => h k text' ?_, h _ text ?_⟩
    · rw [List.getElem?_append_left (List.getElem?_eq_some_iff.mp hk).1]
      exact hk
    · exact List.getElem?_concat_length
  · intro ⟨htexts, htext⟩ k text' hk
    by_cases hlt : k < texts.length
    · rw [List.getElem?_append_left hlt] at hk
      exact htexts k text' hk
    · have hle : k < (texts ++ [text]).length := (List.getElem?_eq_some_iff.mp hk).1
      obtain rfl : k = texts.length := by
        rw [List.length_append, List.length_singleton] at hle
        omega
      rw [List.getElem?_concat_length] at hk
      cases hk
      exact htext

-- A file beside the one that a perfect layer makes. It is the same as long as the
-- layer takes every text, and shorter from the first text on that it does not take.
structure Lags (layer : Layer A) (out ideal : Output A) : Prop where
  count : out.texts.length = ideal.texts.length
  state : out = ideal ∧ layer.Takes ideal.texts ∨
    out.data.length < ideal.data.length ∧ ¬layer.Takes ideal.texts

theorem lags_empty (layer : Layer A) : Lags layer .empty .empty :=
  ⟨rfl, .inl ⟨rfl, takes_nil layer⟩⟩

-- What a program writes may depend on what came of its writes before.
theorem Lags.write (h : Lags layer out ideal) (hsame : out = ideal → text = text')
    (hlength : text.length ≤ text'.length) :
    Lags layer (out.write layer text) (ideal.write .perfect text') := by
  refine ⟨by simp [Output.write, h.count], ?_⟩
  change _ ∨ _ ∧ ¬layer.Takes (ideal.texts ++ [text'])
  rw [takes_concat]
  obtain ⟨rfl, htakes⟩ | ⟨hshort, hnot⟩ := h.state
  · obtain rfl := hsame rfl
    by_cases hfits : text.length ≤ layer.accepts out.texts.length text
    · refine .inl ⟨?_, takes_concat.mpr ⟨htakes, hfits⟩⟩
      simp [Output.write, Layer.perfect, List.take_of_length_le hfits]
    · refine .inr ⟨?_, fun htakes => hfits htakes.2⟩
      rw [write_perfect_data]
      simp only [Output.write, List.length_append, List.length_take]
      omega
  · refine .inr ⟨?_, fun htakes => hnot htakes.1⟩
    rw [write_perfect_data]
    simp only [Output.write, List.length_append, List.length_take]
    omega

theorem Lags.eq_of_write (h : Lags layer out ideal) (hlength : text.length ≤ text'.length)
    (hwrite : out.write layer text = ideal.write .perfect text') : out = ideal := by
  obtain ⟨heq, -⟩ | ⟨hshort, -⟩ := h.state
  · exact heq
  · have hdata := congrArg (fun o => o.data.length) hwrite
    simp only [write_perfect_data] at hdata
    simp only [Output.write, List.length_append, List.length_take] at hdata
    omega

-- A shortfall is never made up for, neither by later writes nor by the close.
theorem Lags.close_eq_iff (h : Lags layer out ideal) :
    out.close layer = ideal.data ↔
      layer.Takes ideal.texts ∧ layer.Keeps ideal.data.length := by
  unfold Output.close Layer.Keeps
  obtain ⟨rfl, htakes⟩ | ⟨hshort, hnot⟩ := h.state
  · split_ifs with hcloses
    · simp [htakes, hcloses]
    · simp [htakes, hcloses, List.take_eq_self_iff]
  · constructor
    · intro heq
      have hlength := congrArg List.length heq
      split_ifs at hlength
      · omega
      · rw [List.length_take] at hlength
        omega
    · intro ⟨htakes, _⟩
      exact absurd htakes hnot

end ImgEngine.Library.PartialWrites
