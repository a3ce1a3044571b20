import ImgEngine.Library.Loop

namespace ImgEngine.Library.Painting

open ImgEngine.Library.Loop

-- Drawing on a surface. What a surface shows is a color at each point of a
-- domain that depends on its shape, and drawing keeps the shape.
structure Surface (S P V Shape : Type) where
  shape : S → Shape
  view : S → P → V
  domain : Shape → P → Prop

variable {S P V Shape : Type} {C : Surface S P V Shape} {a b c : S} {W W' : P → V → Prop}

-- From a to b the points that occur in W have taken one of their colors in W, and
-- the other points have kept theirs.
def Painted (C : Surface S P V Shape) (W : P → V → Prop) (a b : S) : Prop :=
  C.shape b = C.shape a ∧ ∀ p, C.domain (C.shape a) p →
    W p (C.view b p) ∨ (∀ v, ¬W p v) ∧ C.view b p = C.view a p

theorem Painted.refl (h : ∀ p, C.domain (C.shape a) p → ∀ v, ¬W p v) : Painted C W a a :=
  ⟨rfl, fun p hp => .inr ⟨h p hp, rfl⟩⟩

theorem Painted.congr (h : Painted C W a b)
    (hiff : ∀ p, C.domain (C.shape a) p → ∀ v, W p v ↔ W' p v) : Painted C W' a b := by
  refine ⟨h.1, fun p hp => ?_⟩
  rcases h.2 p hp with hw | ⟨hnone, heq⟩
  · exact .inl ((hiff p hp _).mp hw)
  · exact .inr ⟨fun v hv => hnone v ((hiff p hp v).mpr hv), heq⟩

theorem Painted.trans (h : Painted C W a b) (h' : Painted C W' b c) :
    Painted C (fun p v => W p v ∨ W' p v) a c := by
  refine ⟨h'.1.trans h.1, fun p hp => ?_⟩
  rcases h'.2 p (h.1 ▸ hp) with hw | ⟨hnone', heq'⟩
  · exact .inl (.inr hw)
  · rcases h.2 p hp with hw | ⟨hnone, heq⟩
    · exact .inl (.inl (heq' ▸ hw))
    · exact .inr ⟨fun v hv => hv.elim (hnone v) (hnone' v), heq'.trans heq⟩

theorem Painted.kept (h : Painted C W a b) {p : P} (hp : C.domain (C.shape a) p)
    (hnone : ∀ v, ¬W p v) : C.view b p = C.view a p :=
  (h.2 p hp).elim (fun hw => absurd hw (hnone _)) And.right

theorem Painted.taken (h : Painted C W a b) {p : P} (hp : C.domain (C.shape a) p) {v : V}
    (hv : W p v) : W p (C.view b p) :=
  (h.2 p hp).elim id fun hnone => absurd hv (hnone.1 v)

-- The colors of a point whose colors in W agree.
theorem Painted.color (h : Painted C W a b) {p : P} (hp : C.domain (C.shape a) p) {v : V}
    (hv : W p v) (hunique : ∀ v', W p v' → v' = v) : C.view b p = v :=
  hunique _ (h.taken hp hv)

-- A surface as a part of a state.
def Surface.comap {T : Type} (C : Surface S P V Shape) (f : T → S) : Surface T P V Shape where
  shape t := C.shape (f t)
  view t := C.view (f t)
  domain := C.domain

-- Two surfaces that show the same.
def Surface.Same (C : Surface S P V Shape) (a b : S) : Prop :=
  C.shape a = C.shape b ∧ ∀ p, C.domain (C.shape a) p → C.view a p = C.view b p

-- Two surfaces that show the same on the same domain, whatever else their shapes hold.
structure Surface.Alike (C : Surface S P V Shape) (a b : S) : Prop where
  domain : ∀ p, C.domain (C.shape a) p ↔ C.domain (C.shape b) p
  view : ∀ p, C.domain (C.shape a) p → C.view a p = C.view b p

-- From a to b every point has taken the color that the point src p has in a.
def Copied (C : Surface S P V Shape) (src : P → P) (a b : S) : Prop :=
  C.shape b = C.shape a ∧ ∀ p, C.domain (C.shape a) p →
    C.domain (C.shape a) (src p) ∧ C.view b p = C.view a (src p)

theorem Copied.refl (a : S) : Copied C id a a := ⟨rfl, fun _ hp => ⟨hp, rfl⟩⟩

theorem Copied.trans {src src' : P → P} (h : Copied C src a b) (h' : Copied C src' b c) :
    Copied C (src ∘ src') a c := by
  refine ⟨h'.1.trans h.1, fun p hp => ?_⟩
  obtain ⟨hsrc', hcolor'⟩ := h'.2 p (h.1.symm ▸ hp)
  obtain ⟨hsrc, hcolor⟩ := h.2 (src' p) (h.1 ▸ hsrc')
  exact ⟨hsrc, hcolor'.trans hcolor⟩

section Alike

-- The same drawing on two surfaces that are alike.

variable {a' b' : S}

theorem Painted.alike (h : Painted C W a b) (h' : Painted C W a' b') (halike : C.Alike a a')
    (hunique : ∀ p v v', W p v → W p v' → v = v') : C.Alike b b' := by
  refine ⟨fun p => by rw [h.1, h'.1, halike.domain], fun p hp => ?_⟩
  rw [h.1] at hp
  have hp' := (halike.domain p).mp hp
  rcases h.2 p hp with hw | ⟨hnone, hkept⟩
  · exact hunique p _ _ hw (h'.taken hp' hw)
  · rw [hkept, h'.kept hp' hnone]
    exact halike.view p hp

theorem Copied.alike {src : P → P} (h : Copied C src a b) (h' : Copied C src a' b')
    (halike : C.Alike a a') : C.Alike b b' := by
  refine ⟨fun p => by rw [h.1, h'.1, halike.domain], fun p hp => ?_⟩
  rw [h.1] at hp
  obtain ⟨hsrc, hcolor⟩ := h.2 p hp
  rw [hcolor, (h'.2 p ((halike.domain p).mp hp)).2]
  exact halike.view (src p) hsrc

end Alike

-- Where the colors come from after n passes, the last of which is looked up first.
def sources (src : Nat → P → P) : Nat → P → P
  | 0 => id
  | n + 1 => sources src n ∘ src n

theorem sources_id (n : Nat) : sources (fun _ => (id : P → P)) n = id := by
  induction n with
  | zero => rfl
  | succ n ih => rw [sources, ih, Function.comp_id]

theorem Copied.forRange {n : Nat} {body : Nat → S → S} (src : Nat → P → P)
    (hstep : ∀ i < n, ∀ s, C.shape s = C.shape a → Copied C (src i) s (body i s)) :
    Copied C (sources src n) a (forRange n body a) := by
  apply forRange_invariant (fun i s => Copied C (sources src i) a s)
  · exact .refl a
  · intro i hi s hs
    exact hs.trans (hstep i hi s hs.1)

section Ink

-- Passes that paint a region with one color.

variable {ink : V} {R M : P → Prop} {src : P → P} {p : P}

theorem Painted.inked (h : Painted C (fun p v => R p ∧ v = ink) a b)
    (hp : C.domain (C.shape a) p) (hR : R p) : C.view b p = ink :=
  h.color hp ⟨hR, rfl⟩ fun _ hv => hv.2

theorem Painted.plain (h : Painted C (fun p v => R p ∧ v = ink) a b)
    (hp : C.domain (C.shape a) p) (hR : ¬R p) : C.view b p = C.view a p :=
  h.kept hp fun _ hv => hR hv.1

-- A region painted before the colors are copied, or after all else. At a point that
-- the other region leaves, the first shows the ink where the source lies in the
-- region, and the second where the point itself does.
theorem paint_first_same_iff {d b' c' d' : S}
    (hpaint : Painted C (fun p v => R p ∧ v = ink) a b) (hcopy : Copied C src b c)
    (hover : Painted C (fun p v => M p ∧ v = ink) c d) (hcopy' : Copied C src a b')
    (hover' : Painted C (fun p v => M p ∧ v = ink) b' c')
    (hpaint' : Painted C (fun p v => R p ∧ v = ink) c' d') :
    C.Same d d' ↔ ∀ p, C.domain (C.shape a) p → ¬M p →
      (R p ↔ R (src p)) ∨ C.view a (src p) = ink := by
  have hb := hpaint.1
  have hc := hcopy.1.trans hb
  have hd := hover.1.trans hc
  have hb' := hcopy'.1
  have hc' := hover'.1.trans hb'
  have hd' := hpaint'.1.trans hc'
  have hmarked : ∀ p, C.domain (C.shape a) p → M p → C.view d p = C.view d' p := by
    intro p hp hM
    rw [hover.inked (hc.symm ▸ hp) hM]
    by_cases hR : R p
    · rw [hpaint'.inked (hc'.symm ▸ hp) hR]
    · rw [hpaint'.plain (hc'.symm ▸ hp) hR, hover'.inked (hb'.symm ▸ hp) hM]
  have hview : ∀ p, C.domain (C.shape a) p → ¬M p → C.view d p = C.view b (src p) := by
    intro p hp hM
    rw [hover.plain (hc.symm ▸ hp) hM, (hcopy.2 p (hb.symm ▸ hp)).2]
  have hview' : ∀ p, C.domain (C.shape a) p → ¬M p → ¬R p → C.view d' p = C.view a (src p) := by
    intro p hp hM hR
    rw [hpaint'.plain (hc'.symm ▸ hp) hR, hover'.plain (hb'.symm ▸ hp) hM, (hcopy'.2 p hp).2]
  have hpoint : ∀ p, C.domain (C.shape a) p → ¬M p →
      (C.view d p = C.view d' p ↔ (R p ↔ R (src p)) ∨ C.view a (src p) = ink) := by
    intro p hp hM
    have hsrc := (hcopy'.2 p hp).1
    rw [hview p hp hM]
    by_cases hR : R p
    · rw [hpaint'.inked (hc'.symm ▸ hp) hR]
      by_cases hRs : R (src p)
      · simp [hpaint.inked hsrc hRs, hR, hRs]
      · simp [hpaint.plain hsrc hRs, hR, hRs]
    · rw [hview' p hp hM hR]
      by_cases hRs : R (src p)
      · simp [hpaint.inked hsrc hRs, hR, hRs, eq_comm]
      · simp [hpaint.plain hsrc hRs, hR, hRs]
  constructor
  · intro h p hp hM
    exact (hpoint p hp hM).mp (h.2 p (hd.symm ▸ hp))
  · intro h
    refine ⟨hd.trans hd'.symm, fun p hp => ?_⟩
    by_cases hM : M p
    · exact hmarked p (hd ▸ hp) hM
    · exact (hpoint p (hd ▸ hp) hM).mpr (h p (hd ▸ hp) hM)

end Ink

section Loops

theorem Painted.forRange {n : Nat} {body : Nat → S → S} (W : Nat → P → V → Prop)
    (hstep : ∀ i < n, ∀ s, Painted C (fun p v => ∃ j < i, W j p v) a s →
      Painted C (W i) s (body i s)) :
    Painted C (fun p v => ∃ i < n, W i p v) a (forRange n body a) := by
  apply forRange_invariant (fun i s => Painted C (fun p v => ∃ j < i, W j p v) a s)
  · exact .refl fun p _ v ⟨j, hj, _⟩ => absurd hj (Nat.not_lt_zero j)
  · intro i hi s hs
    refine (hs.trans (hstep i hi s hs)).congr fun p _ v => ?_
    constructor
    · rintro (⟨j, hj, hw⟩ | hw)
      · exact ⟨j, Nat.lt_succ_of_lt hj, hw⟩
      · exact ⟨i, Nat.lt_succ_self i, hw⟩
    · rintro ⟨j, hj, hw⟩
      rcases Nat.lt_succ_iff_lt_or_eq.mp hj with hj | rfl
      · exact .inl ⟨j, hj, hw⟩
      · exact .inr hw

variable {lo hi : Int}

-- An integer between two bounds as an offset from the lower one.
theorem exists_offset {Q : Int → Prop} :
    (∃ i < (hi - lo).toNat, Q (lo + i)) ↔ ∃ i, lo ≤ i ∧ i < hi ∧ Q i := by
  constructor
  · rintro ⟨i, hi, h⟩
    exact ⟨lo + i, by omega, by omega, h⟩
  · rintro ⟨i, hlo, hhi, h⟩
    refine ⟨(i - lo).toNat, by omega, ?_⟩
    rwa [show lo + ((i - lo).toNat : Int) = i by omega]

theorem exists_offset_lt {i : Nat} {Q : Int → Prop} :
    (∃ j < i, Q (lo + (j : Int))) ↔ ∃ j, lo ≤ j ∧ j < lo + i ∧ Q j := by
  have h := @exists_offset lo (lo + i) Q
  rwa [show (lo + (i : Int) - lo).toNat = i by omega] at h

theorem Painted.forUp {body : Int → S → S} (W : Int → P → V → Prop)
    (hstep : ∀ i, lo ≤ i → i < hi → ∀ s,
      Painted C (fun p v => ∃ j, lo ≤ j ∧ j < i ∧ W j p v) a s → Painted C (W i) s (body i s)) :
    Painted C (fun p v => ∃ i, lo ≤ i ∧ i < hi ∧ W i p v) a (forUp lo hi body a) := by
  have h : Painted C (fun p v => ∃ i < (hi - lo).toNat, W (lo + i) p v) a
      (Loop.forUp lo hi body a) := by
    apply Painted.forRange (fun i => W (lo + i))
    intro i hi' s hs
    exact hstep (lo + i) (by omega) (by omega) s
      (hs.congr fun p _ v => exists_offset_lt (Q := fun j => W j p v))
  exact h.congr fun p _ v => exists_offset (Q := fun i => W i p v)

-- Where the loop breaks, the rounds left out would have painted nothing.
theorem Painted.breakFrom {body : Nat → S → Option S} (W : Nat → P → V → Prop) (n : Nat)
    (hstep : ∀ i < n, ∀ s, Painted C (fun p v => ∃ j < i, W j p v) a s →
      match body i s with
      | none => ∀ p, C.domain (C.shape a) p → ∀ v, ∀ j, i ≤ j → j < n → ¬W j p v
      | some s' => Painted C (W i) s s')
    {count i : Nat} (hcount : i + count = n) {s : S}
    (hs : Painted C (fun p v => ∃ j < i, W j p v) a s) :
    Painted C (fun p v => ∃ j < n, W j p v) a (breakFrom body count i s) := by
  induction count generalizing i s with
  | zero =>
      rw [Nat.add_zero] at hcount
      exact hcount ▸ hs
  | succ count ih =>
      have h := hstep i (by omega) s hs
      rw [Loop.breakFrom]
      cases hbody : body i s with
      | none =>
          rw [hbody] at h
          refine hs.congr fun p hp v => ⟨?_, ?_⟩
          · rintro ⟨j, hj, hw⟩
            exact ⟨j, by omega, hw⟩
          · rintro ⟨j, hj, hw⟩
            refine ⟨j, ?_, hw⟩
            by_contra hij
            exact h p hp v j (by omega) hj hw
      | some s' =>
          rw [hbody] at h
          refine ih (by omega) ((hs.trans h).congr fun p _ v => ⟨?_, ?_⟩)
          · rintro (⟨j, hj, hw⟩ | hw)
            · exact ⟨j, Nat.lt_succ_of_lt hj, hw⟩
            · exact ⟨i, Nat.lt_succ_self i, hw⟩
          · rintro ⟨j, hj, hw⟩
            rcases Nat.lt_succ_iff_lt_or_eq.mp hj with hj | rfl
            · exact .inl ⟨j, hj, hw⟩
            · exact .inr hw

theorem Painted.forUpBreak {body : Int → S → Option S} (W : Int → P → V → Prop)
    (hstep : ∀ i, lo ≤ i → i < hi → ∀ s,
      Painted C (fun p v => ∃ j, lo ≤ j ∧ j < i ∧ W j p v) a s →
      match body i s with
      | none => ∀ p, C.domain (C.shape a) p → ∀ v, ∀ j, i ≤ j → j < hi → ¬W j p v
      | some s' => Painted C (W i) s s') :
    Painted C (fun p v => ∃ i, lo ≤ i ∧ i < hi ∧ W i p v) a (forUpBreak lo hi body a) := by
  have h : Painted C (fun p v => ∃ i < (hi - lo).toNat, W (lo + i) p v) a
      (Loop.forUpBreak lo hi body a) := by
    refine Painted.breakFrom (fun i => W (lo + i)) _ ?_ (Nat.zero_add _)
      (.refl fun p _ v ⟨j, hj, _⟩ => absurd hj (Nat.not_lt_zero j))
    intro i hi' s hs
    have hround := hstep (lo + i) (by omega) (by omega) s
      (hs.congr fun p _ v => exists_offset_lt (Q := fun j => W j p v))
    cases hbody : body (lo + i) s with
    | none =>
        rw [hbody] at hround
        intro p hp v j hij hj
        exact hround p hp v (lo + j) (by omega) (by omega)
    | some s' =>
        rw [hbody] at hround
        exact hround
  exact h.congr fun p _ v => exists_offset (Q := fun i => W i p v)

end Loops

end ImgEngine.Library.Painting
