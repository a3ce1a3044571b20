import ImgEngine.Pipeline.Bleed
import ImgEngine.Pipeline.Picture

namespace ImgEngine.Pipeline

open ImgEngine.Library.Loop ImgEngine.Library.Painting

variable {buf : ImgBuffer} {cx cy cw2 ch2 bp : Int}

-- The check against the end of the buffer never fails on the canvas.
theorem IntRaster.offset_end (h : IntRaster buf) {p : Int × Int}
    (hp : picture.domain (picture.shape buf) p) : ¬buf.offset p.1 p.2 + 3 > bufEnd buf := by
  have hheight := h.height
  rw [bufEnd, int32_of_lt hheight, sizeT_of_nonneg (by omega) (by omega), Int.toNat_natCast]
  exact Nat.not_lt.mpr (h.offset_le hp)

theorem bleedRow_painted (h : IntRaster buf) {srcY ty : Int} (hsrc : 0 ≤ srcY ∧ srcY < buf.height.toNat)
    (hty : 0 ≤ ty ∧ ty < buf.height.toNat) (hne : ty ≠ srcY) :
    Painted picture (fun p v => InRect cx ty cw2 1 p ∧ v = buf.pixel (p.1, srcY)) buf
      (bleedRow buf cx cw2 srcY ty) := by
  have hloop : Painted picture
      (fun p v => ∃ x, cx ≤ x ∧ x < cx + cw2 ∧ p = (x, ty) ∧ v = buf.pixel (x, srcY)) buf
      (bleedRow buf cx cw2 srcY ty) := by
    unfold bleedRow
    rw [int32_of_lt h.width]
    refine Painted.forUp (fun x p v => p = (x, ty) ∧ v = buf.pixel (x, srcY)) ?_
    intro x _ _ s hs
    have hplain := h.of_shape hs.1
    obtain ⟨-, hsw, hsh, -⟩ := shape_eq_iff.mp hs.1
    split_ifs with hx
    · refine .refl fun p hp v hv => ?_
      rw [hv.1] at hp
      have := mem_domain.mp hp
      rw [hsw] at this
      omega
    · have hp : picture.domain (picture.shape s) (x, ty) := by
        rw [mem_domain, hsw, hsh]
        omega
      have hcolor : s.pixel (x, srcY) = buf.pixel (x, srcY) := by
        refine hs.kept (mem_domain.mpr ?_) ?_
        · dsimp only
          omega
        · rintro v ⟨j, _, _, heq, _⟩
          exact hne (congrArg Prod.snd heq).symm
      dsimp only
      rw [if_neg (hplain.offset_end hp), ← hcolor]
      exact copyPixel_painted hplain.toRaster hp _
  refine hloop.congr fun p _ v => ?_
  constructor
  · rintro ⟨x, hx, hx', rfl, rfl⟩
    exact ⟨⟨hx, hx', Int.le_refl _, by dsimp only; omega⟩, rfl⟩
  · rintro ⟨⟨hx, hx', hy, hy'⟩, rfl⟩
    exact ⟨p.1, hx, hx', Prod.ext rfl (by dsimp only; omega), rfl⟩

-- Rows on one side of srcY, nearest first. The rounds read row srcY, which no round
-- writes, and after the edge of the canvas no round would write to it.
theorem bleedRows_painted (h : IntRaster buf) {srcY : Int} (hsrc : 0 ≤ srcY ∧ srcY < buf.height.toNat)
    (row : Int → Int) (hrow : ∀ b, 1 ≤ b → row b ≠ srcY) (stop : Int → Prop) [DecidablePred stop]
    (hstop : ∀ b, 1 ≤ b → (¬stop b ↔ 0 ≤ row b ∧ row b < buf.height.toNat))
    (hmono : ∀ b j, stop b → b ≤ j → stop j) :
    Painted picture
      (fun p v => ∃ b, 1 ≤ b ∧ b < bp + 1 ∧ InRect cx (row b) cw2 1 p ∧ v = buf.pixel (p.1, srcY))
      buf (forUpBreak 1 (bp + 1) (fun b s =>
        if stop b then none else some (bleedRow s cx cw2 srcY (row b))) buf) := by
  refine Painted.forUpBreak (fun b p v => InRect cx (row b) cw2 1 p ∧ v = buf.pixel (p.1, srcY)) ?_
  intro b hb _ s hs
  obtain ⟨-, hsw, hsh, -⟩ := shape_eq_iff.mp hs.1
  by_cases hend : stop b
  · rw [if_pos hend]
    intro p hp v j hj _ hw
    obtain ⟨-, -, hy, hy'⟩ := mem_domain.mp hp
    obtain ⟨⟨-, -, hlow, hhigh⟩, -⟩ := hw
    exact (hstop j (by omega)).mpr (by omega) (hmono b j hend hj)
  · rw [if_neg hend]
    have hty := (hstop b hb).mp hend
    rw [← hsh] at hty hsrc
    refine (bleedRow_painted (h.of_shape hs.1) hsrc hty (hrow b hb)).congr fun p hp v => ?_
    have hcolor : s.pixel (p.1, srcY) = buf.pixel (p.1, srcY) := by
      refine hs.kept ?_ ?_
      · obtain ⟨hx, hx', -⟩ := mem_domain.mp hp
        rw [mem_domain, ← hsw, ← hsh]
        exact ⟨hx, hx', hsrc⟩
      · rintro v ⟨j, hj, _, ⟨-, -, hlow, hhigh⟩, _⟩
        have := hrow j hj
        dsimp only at hlow hhigh
        omega
    rw [hcolor]

theorem bleedTop_painted (h : IntRaster buf) (cx cw2 bp : Int) {cy : Int}
    (hcy : 0 ≤ cy ∧ cy < buf.height.toNat) :
    Painted picture (fun p v => InRect cx (cy - bp) cw2 bp p ∧ v = buf.pixel (p.1, cy)) buf
      (bleedTop buf cx cy cw2 bp) := by
  refine (bleedRows_painted h hcy (fun b => cy - b) (fun b _ => by omega) (fun b => cy - b < 0)
    (fun b _ => by omega) (fun b j _ _ => by omega)).congr fun p _ v => ?_
  constructor
  · rintro ⟨b, hb, hb', ⟨hx, hx', hy, hy'⟩, rfl⟩
    exact ⟨⟨hx, hx', by omega, by omega⟩, rfl⟩
  · rintro ⟨⟨hx, hx', hy, hy'⟩, rfl⟩
    exact ⟨cy - p.2, by omega, by omega, ⟨hx, hx', by omega, by omega⟩, rfl⟩

theorem bleedBottom_painted (h : IntRaster buf) (cx cw2 bp : Int) {cy ch2 : Int}
    (hcy : 0 ≤ cy + ch2 - 1 ∧ cy + ch2 - 1 < buf.height.toNat) :
    Painted picture
      (fun p v => InRect cx (cy + ch2) cw2 bp p ∧ v = buf.pixel (p.1, cy + ch2 - 1)) buf
      (bleedBottom buf cx cy cw2 ch2 bp) := by
  unfold bleedBottom
  rw [int32_of_lt h.height]
  refine (bleedRows_painted h hcy (fun b => cy + ch2 - 1 + b) (fun b _ => by omega)
    (fun b => cy + ch2 - 1 + b ≥ buf.height.toNat)
    (fun b _ => by omega) (fun b j _ _ => by omega)).congr fun p _ v => ?_
  constructor
  · rintro ⟨b, hb, hb', ⟨hx, hx', hy, hy'⟩, rfl⟩
    exact ⟨⟨hx, hx', by omega, by omega⟩, rfl⟩
  · rintro ⟨⟨hx, hx', hy, hy'⟩, rfl⟩
    exact ⟨p.2 - (cy + ch2 - 1), by omega, by omega, ⟨hx, hx', by omega, by omega⟩, rfl⟩

-- Pixels on one side of column sx, within one row.
theorem bleedPixels_painted (h : IntRaster buf) {sx py : Int} (hsx : 0 ≤ sx ∧ sx < buf.width.toNat)
    (hpy : 0 ≤ py ∧ py < buf.height.toNat) (col : Int → Int) (hcol : ∀ b, 1 ≤ b → col b ≠ sx)
    (stop : Int → Prop) [DecidablePred stop]
    (hstop : ∀ b, 1 ≤ b → (¬stop b ↔ 0 ≤ col b ∧ col b < buf.width.toNat))
    (hmono : ∀ b j, stop b → b ≤ j → stop j) :
    Painted picture
      (fun p v => ∃ b, 1 ≤ b ∧ b < bp + 1 ∧ p = (col b, py) ∧ v = buf.pixel (sx, py)) buf
      (forUpBreak 1 (bp + 1) (fun b s =>
        if stop b then none
        else if s.offset (col b) py + 3 > bufEnd s then none
        else some (s.copyPixel (s.offset (col b) py) (buf.offset sx py))) buf) := by
  refine Painted.forUpBreak (fun b p v => p = (col b, py) ∧ v = buf.pixel (sx, py)) ?_
  intro b hb _ s hs
  obtain ⟨-, hsw, hsh, -, hstride⟩ := shape_eq_iff.mp hs.1
  by_cases hend : stop b
  · rw [if_pos hend]
    rintro p hp v j hj _ ⟨rfl, _⟩
    obtain ⟨hx, hx', -⟩ := mem_domain.mp hp
    exact (hstop j (by omega)).mpr ⟨hx, hx'⟩ (hmono b j hend hj)
  · have hplain := h.of_shape hs.1
    have hp : picture.domain (picture.shape s) (col b, py) := by
      rw [mem_domain, hsw, hsh]
      exact ⟨((hstop b hb).mp hend).1, ((hstop b hb).mp hend).2, hpy⟩
    have hcolor : s.bytes.getRgb (buf.offset sx py) = buf.pixel (sx, py) := by
      have hoffset : buf.offset sx py = s.offset sx py := by
        rw [ImgBuffer.offset, ImgBuffer.offset, hstride]
      rw [hoffset]
      refine hs.kept (p := (sx, py)) (mem_domain.mpr ⟨hsx.1, hsx.2, hpy⟩) ?_
      rintro v ⟨j, hj, _, heq, _⟩
      exact hcol j hj (congrArg Prod.fst heq).symm
    rw [if_neg hend, if_neg (hplain.offset_end hp), ← hcolor]
    exact copyPixel_painted hplain.toRaster hp _

theorem bleedLeft_painted (h : IntRaster buf) (bp : Int) {py : Int} (hcx : 0 ≤ cx ∧ cx < buf.width.toNat)
    (hpy : 0 ≤ py ∧ py < buf.height.toNat) :
    Painted picture (fun p v => InRect (cx - bp) py bp 1 p ∧ v = buf.pixel (cx, py)) buf
      (bleedLeft buf cx py bp) := by
  unfold bleedLeft
  rw [int32_of_lt h.width, if_pos hcx]
  refine (bleedPixels_painted h hcx hpy (fun b => cx - b) (fun b _ => by omega)
    (fun b => cx - b < 0) (fun b _ => by omega) (fun b j _ _ => by omega)).congr fun p _ v => ?_
  constructor
  · rintro ⟨b, hb, hb', rfl, rfl⟩
    exact ⟨⟨by dsimp only; omega, by dsimp only; omega, Int.le_refl _, by dsimp only; omega⟩, rfl⟩
  · rintro ⟨⟨hx, hx', hy, hy'⟩, rfl⟩
    exact ⟨cx - p.1, by omega, by omega, Prod.ext (by dsimp only; omega) (by dsimp only; omega), rfl⟩

theorem bleedRight_painted (h : IntRaster buf) (bp : Int) {rx py : Int} (hrx : 0 ≤ rx ∧ rx < buf.width.toNat)
    (hpy : 0 ≤ py ∧ py < buf.height.toNat) :
    Painted picture (fun p v => InRect (rx + 1) py bp 1 p ∧ v = buf.pixel (rx, py)) buf
      (bleedRight buf rx py bp) := by
  unfold bleedRight
  rw [int32_of_lt h.width]
  dsimp only
  rw [if_pos hrx]
  refine (bleedPixels_painted h hrx hpy (fun b => rx + b) (fun b _ => by omega)
    (fun b => rx + b ≥ buf.width.toNat) (fun b _ => by omega)
    (fun b j _ _ => by omega)).congr fun p _ v => ?_
  constructor
  · rintro ⟨b, hb, hb', rfl, rfl⟩
    exact ⟨⟨by dsimp only; omega, by dsimp only; omega, Int.le_refl _, by dsimp only; omega⟩, rfl⟩
  · rintro ⟨⟨hx, hx', hy, hy'⟩, rfl⟩
    exact ⟨p.1 - rx, by omega, by omega, Prod.ext (by dsimp only; omega) (by dsimp only; omega), rfl⟩

-- A cell on the canvas, in integers.
structure OnCanvas (buf : ImgBuffer) (cx cy cw2 ch2 : Int) : Prop where
  left : 0 ≤ cx
  width : 1 ≤ cw2
  right : cx + cw2 ≤ buf.width.toNat
  top : 0 ≤ cy
  height : 1 ≤ ch2
  bottom : cy + ch2 ≤ buf.height.toNat

theorem OnCanvas.of_shape {other : ImgBuffer} (h : OnCanvas buf cx cy cw2 ch2)
    (hshape : picture.shape other = picture.shape buf) : OnCanvas other cx cy cw2 ch2 := by
  obtain ⟨-, hwidth, hheight, -⟩ := shape_eq_iff.mp hshape
  exact ⟨h.left, h.width, by rw [hwidth]; exact h.right, h.top, h.height,
    by rw [hheight]; exact h.bottom⟩

-- The colors of the points beside a cell, in the row of their own.
def Beside (cx cw2 bp : Int) (buf : ImgBuffer) (p : Int × Int) (v : Rgb) : Prop :=
  cx - bp ≤ p.1 ∧ p.1 < cx ∧ v = buf.pixel (cx, p.2) ∨
    cx + cw2 ≤ p.1 ∧ p.1 < cx + cw2 + bp ∧ v = buf.pixel (cx + cw2 - 1, p.2)

theorem bleedLeftRight_painted (h : IntRaster buf) (hcell : OnCanvas buf cx cy cw2 ch2) {py : Int}
    (hpy : 0 ≤ py ∧ py < buf.height.toNat) :
    Painted picture (fun p v => p.2 = py ∧ Beside cx cw2 bp buf p v) buf
      (bleedRight (bleedLeft buf cx py bp) (cx + cw2 - 1) py bp) := by
  obtain ⟨hleft, hwidth, hright, -, -, -⟩ := hcell
  have hfirst : Painted picture (fun p v => InRect (cx - bp) py bp 1 p ∧ v = buf.pixel (cx, py)) buf
      (bleedLeft buf cx py bp) := bleedLeft_painted h bp ⟨hleft, by omega⟩ hpy
  obtain ⟨-, hsw, hsh, -⟩ := shape_eq_iff.mp hfirst.1
  have hrx : 0 ≤ cx + cw2 - 1 ∧ cx + cw2 - 1 < (bleedLeft buf cx py bp).width.toNat := by
    rw [hsw]
    omega
  have hsecond := bleedRight_painted (h.of_shape hfirst.1) bp hrx (by rw [hsh]; exact hpy)
  have hcolor : (bleedLeft buf cx py bp).pixel (cx + cw2 - 1, py) = buf.pixel (cx + cw2 - 1, py) := by
    refine hfirst.kept (p := (cx + cw2 - 1, py)) (mem_domain.mpr ?_) ?_
    · dsimp only
      omega
    · rintro v ⟨⟨hx, hx', -⟩, -⟩
      dsimp only at hx hx'
      omega
  refine (hfirst.trans hsecond).congr fun p _ v => ?_
  rw [hcolor]
  unfold Beside InRect
  constructor
  · rintro (⟨⟨hx, hx', hy, hy'⟩, rfl⟩ | ⟨⟨hx, hx', hy, hy'⟩, rfl⟩)
    · obtain rfl : p.2 = py := by omega
      exact ⟨rfl, .inl ⟨hx, by omega, rfl⟩⟩
    · obtain rfl : p.2 = py := by omega
      exact ⟨rfl, .inr ⟨by omega, by omega, rfl⟩⟩
  · rintro ⟨rfl, ⟨hx, hx', rfl⟩ | ⟨hx, hx', rfl⟩⟩
    · exact .inl ⟨⟨hx, by omega, Int.le_refl _, by omega⟩, rfl⟩
    · exact .inr ⟨⟨by omega, by omega, Int.le_refl _, by omega⟩, rfl⟩

theorem bleedSides_painted (h : IntRaster buf) (hcell : OnCanvas buf cx cy cw2 ch2) (bp : Int) :
    Painted picture (fun p v => cy - bp ≤ p.2 ∧ p.2 < cy + ch2 + bp ∧ Beside cx cw2 bp buf p v) buf
      (bleedSides buf cx cy cw2 ch2 bp) := by
  unfold bleedSides
  rw [int32_of_lt h.height]
  dsimp only
  have hloop : Painted picture
      (fun p v => ∃ py, (if cy - bp < 0 then 0 else cy - bp) ≤ py ∧
        py < (if cy + ch2 + bp > buf.height.toNat then (buf.height.toNat : Int) else cy + ch2 + bp) ∧
        p.2 = py ∧ Beside cx cw2 bp buf p v) buf
      (forUp (if cy - bp < 0 then 0 else cy - bp)
        (if cy + ch2 + bp > buf.height.toNat then (buf.height.toNat : Int) else cy + ch2 + bp)
        (fun py canvas => bleedRight (bleedLeft canvas cx py bp) (cx + cw2 - 1) py bp) buf) := by
    refine Painted.forUp (fun py p v => p.2 = py ∧ Beside cx cw2 bp buf p v) ?_
    intro py hlow hhigh s hs
    obtain ⟨-, hsw, hsh, -⟩ := shape_eq_iff.mp hs.1
    have hpy : 0 ≤ py ∧ py < buf.height.toNat := by
      split_ifs at hlow hhigh <;> omega
    refine (bleedLeftRight_painted (h.of_shape hs.1) (hcell.of_shape hs.1)
      (by rw [hsh]; exact hpy)).congr fun p _ v => and_congr_right fun hrow => ?_
    -- the rows before this one are other rows
    have hcolor : ∀ x : Int, 0 ≤ x → x < buf.width.toNat → s.pixel (x, p.2) = buf.pixel (x, p.2) := by
      intro x hx hx'
      refine hs.kept (p := (x, p.2)) (mem_domain.mpr ⟨hx, hx', by rw [hrow]; exact hpy⟩) ?_
      rintro v ⟨j, _, hj, heq, _⟩
      dsimp only at heq
      omega
    obtain ⟨hleft, hwidth, hright, -, -, -⟩ := hcell
    unfold Beside
    rw [hcolor cx hleft (by omega), hcolor (cx + cw2 - 1) (by omega) (by omega)]
  refine hloop.congr fun p hp v => ?_
  obtain ⟨-, -, hy, hy'⟩ := mem_domain.mp hp
  constructor
  · rintro ⟨py, hlow, hhigh, rfl, hbeside⟩
    refine ⟨?_, ?_, hbeside⟩
    · split_ifs at hlow <;> omega
    · split_ifs at hhigh <;> omega
  · rintro ⟨hlow, hhigh, hbeside⟩
    refine ⟨p.2, ?_, ?_, rfl, hbeside⟩
    · split_ifs <;> omega
    · split_ifs <;> omega

-- The nearest point of a cell.
def clampTo (cx cy cw2 ch2 : Int) (p : Int × Int) : Int × Int :=
  (max cx (min (cx + cw2 - 1) p.1), max cy (min (cy + ch2 - 1) p.2))

-- The ring around a cell, with the colors of the cell's edge.
def OnRing (cx cy cw2 ch2 bp : Int) (p : Int × Int) : Prop :=
  InRect (cx - bp) (cy - bp) (cw2 + 2 * bp) (ch2 + 2 * bp) p ∧ ¬InRect cx cy cw2 ch2 p

theorem clampTo_eq {p q : Int × Int} (hx : max cx (min (cx + cw2 - 1) p.1) = q.1)
    (hy : max cy (min (cy + ch2 - 1) p.2) = q.2) : clampTo cx cy cw2 ch2 p = q := Prod.ext hx hy

-- The rows above and below a cell, with the colors of its first and its last row.
def AboveOrBelow (cx cy cw2 ch2 bp : Int) (buf : ImgBuffer) (p : Int × Int) (v : Rgb) : Prop :=
  InRect cx (cy - bp) cw2 bp p ∧ v = buf.pixel (p.1, cy) ∨
    InRect cx (cy + ch2) cw2 bp p ∧ v = buf.pixel (p.1, cy + ch2 - 1)

theorem bleedTopBottom_painted (h : IntRaster buf) (hcell : OnCanvas buf cx cy cw2 ch2) (bp : Int) :
    Painted picture (AboveOrBelow cx cy cw2 ch2 bp buf) buf
      (bleedBottom (bleedTop buf cx cy cw2 bp) cx cy cw2 ch2 bp) := by
  obtain ⟨-, -, -, htop, hheight, hbottom⟩ := hcell
  have hcy : 0 ≤ cy ∧ cy < buf.height.toNat := ⟨htop, by omega⟩
  have hfirst := bleedTop_painted h cx cw2 bp hcy
  generalize bleedTop buf cx cy cw2 bp = top at hfirst ⊢
  obtain ⟨-, -, hheights, -⟩ := shape_eq_iff.mp hfirst.1
  have hrow : 0 ≤ cy + ch2 - 1 ∧ cy + ch2 - 1 < top.height.toNat := by
    rw [hheights]
    omega
  have hsecond := bleedBottom_painted (h.of_shape hfirst.1) cx cw2 bp hrow
  refine (hfirst.trans hsecond).congr fun p hp v => ?_
  obtain ⟨hx, hx', -, -⟩ := mem_domain.mp hp
  -- the last row of the cell is not above the cell
  have hlast : top.pixel (p.1, cy + ch2 - 1) = buf.pixel (p.1, cy + ch2 - 1) := by
    refine hfirst.kept (p := (p.1, cy + ch2 - 1)) (mem_domain.mpr ⟨hx, hx', ?_⟩) ?_
    · dsimp only
      omega
    · rintro v ⟨⟨-, -, -, hy⟩, -⟩
      dsimp only at hy
      omega
  rw [hlast]
  rfl

-- The columns of the cell then have the color of its nearest point up to bp above and
-- below it.
theorem AboveOrBelow.column {other : ImgBuffer}
    (hpainted : Painted picture (AboveOrBelow cx cy cw2 ch2 bp buf) buf other)
    (hcell : OnCanvas buf cx cy cw2 ch2) {x y : Int} (hx : cx ≤ x ∧ x < cx + cw2)
    (hy : 0 ≤ y ∧ y < buf.height.toNat) (hnear : cy - bp ≤ y ∧ y < cy + ch2 + bp) :
    other.pixel (x, y) = buf.pixel (clampTo cx cy cw2 ch2 (x, y)) := by
  obtain ⟨hleft, -, hright, -, hheight, -⟩ := hcell
  have hp : picture.domain (picture.shape buf) (x, y) :=
    mem_domain.mpr ⟨by dsimp only; omega, by dsimp only; omega, hy⟩
  rcases lt_or_ge y cy with habove | habove
  · have hclamp : clampTo cx cy cw2 ch2 (x, y) = (x, cy) :=
      clampTo_eq (by dsimp only; omega) (by dsimp only; omega)
    rw [hclamp]
    refine hpainted.color hp (.inl ⟨⟨hx.1, hx.2, hnear.1, by dsimp only; omega⟩, rfl⟩) ?_
    rintro v (⟨-, rfl⟩ | ⟨⟨-, -, hbelow, -⟩, -⟩)
    · rfl
    · dsimp only at hbelow
      omega
  · rcases lt_or_ge y (cy + ch2) with hbelow | hbelow
    · have hclamp : clampTo cx cy cw2 ch2 (x, y) = (x, y) :=
        clampTo_eq (by dsimp only; omega) (by dsimp only; omega)
      rw [hclamp]
      refine hpainted.kept hp ?_
      rintro v (⟨⟨-, -, -, hy⟩, -⟩ | ⟨⟨-, -, hy, -⟩, -⟩)
      · dsimp only at hy
        omega
      · dsimp only at hy
        omega
    · have hclamp : clampTo cx cy cw2 ch2 (x, y) = (x, cy + ch2 - 1) :=
        clampTo_eq (by dsimp only; omega) (by dsimp only; omega)
      rw [hclamp]
      refine hpainted.color hp (.inr ⟨⟨hx.1, hx.2, hbelow, by dsimp only; omega⟩, rfl⟩) ?_
      rintro v (⟨⟨-, -, -, habove⟩, -⟩ | ⟨-, rfl⟩)
      · dsimp only at habove
        omega
      · rfl

theorem bleedCell_painted (h : IntRaster buf) (hcell : OnCanvas buf cx cy cw2 ch2) (hbp : 0 ≤ bp) :
    Painted picture
      (fun p v => OnRing cx cy cw2 ch2 bp p ∧ v = buf.pixel (clampTo cx cy cw2 ch2 p)) buf
      (bleedSides (bleedBottom (bleedTop buf cx cy cw2 bp) cx cy cw2 ch2 bp) cx cy cw2 ch2 bp) := by
  have hrows := bleedTopBottom_painted h hcell bp
  generalize bleedBottom (bleedTop buf cx cy cw2 bp) cx cy cw2 ch2 bp = rows at hrows ⊢
  have hsides := bleedSides_painted (h.of_shape hrows.1) (hcell.of_shape hrows.1) bp
  refine (hrows.trans hsides).congr fun p hp v => ?_
  obtain ⟨-, -, hpy⟩ := mem_domain.mp hp
  have hcell' := hcell
  obtain ⟨hleft, hwidth, hright, htop, hheight, hbottom⟩ := hcell'
  -- what the sides copy from is a column of the cell
  have hcolumn : ∀ x, cx ≤ x → x < cx + cw2 → cy - bp ≤ p.2 → p.2 < cy + ch2 + bp →
      rows.pixel (x, p.2) = buf.pixel (clampTo cx cy cw2 ch2 (x, p.2)) :=
    fun x hx hx' hlow hhigh => AboveOrBelow.column hrows hcell ⟨hx, hx'⟩ hpy ⟨hlow, hhigh⟩
  have hclamp : ∀ x, max cx (min (cx + cw2 - 1) p.1) = max cx (min (cx + cw2 - 1) x) →
      clampTo cx cy cw2 ch2 (x, p.2) = clampTo cx cy cw2 ch2 p :=
    fun x hx => (clampTo_eq (q := clampTo cx cy cw2 ch2 (x, p.2)) hx rfl).symm
  unfold AboveOrBelow Beside OnRing InRect
  constructor
  · rintro ((⟨⟨hx, hx', hy, hy'⟩, rfl⟩ | ⟨⟨hx, hx', hy, hy'⟩, rfl⟩) |
      ⟨hlow, hhigh, ⟨hx, hx', rfl⟩ | ⟨hx, hx', rfl⟩⟩)
    · refine ⟨by omega, ?_⟩
      rw [clampTo_eq (q := (p.1, cy)) (by dsimp only; omega) (by dsimp only; omega)]
    · refine ⟨by omega, ?_⟩
      rw [clampTo_eq (q := (p.1, cy + ch2 - 1)) (by dsimp only; omega) (by dsimp only; omega)]
    · refine ⟨by omega, ?_⟩
      rw [hcolumn cx (by omega) (by omega) hlow hhigh, hclamp cx (by omega)]
    · refine ⟨by omega, ?_⟩
      rw [hcolumn (cx + cw2 - 1) (by omega) (by omega) hlow hhigh,
        hclamp (cx + cw2 - 1) (by omega)]
  · rintro ⟨⟨⟨hx, hx', hy, hy'⟩, hout⟩, rfl⟩
    rcases lt_or_ge p.1 cx with hside | hside
    · refine .inr ⟨hy, by omega, .inl ⟨hx, hside, ?_⟩⟩
      rw [hcolumn cx (by omega) (by omega) hy (by omega), hclamp cx (by omega)]
    · rcases lt_or_ge p.1 (cx + cw2) with hside' | hside'
      · rcases lt_or_ge p.2 cy with habove | habove
        · refine .inl (.inl ⟨⟨hside, hside', hy, by omega⟩, ?_⟩)
          rw [clampTo_eq (q := (p.1, cy)) (by dsimp only; omega) (by dsimp only; omega)]
        · refine .inl (.inr ⟨⟨hside, hside', by omega, by omega⟩, ?_⟩)
          rw [clampTo_eq (q := (p.1, cy + ch2 - 1)) (by dsimp only; omega) (by dsimp only; omega)]
      · refine .inr ⟨hy, by omega, .inr ⟨hside', by omega, ?_⟩⟩
        rw [hcolumn (cx + cw2 - 1) (by omega) (by omega) hy (by omega),
          hclamp (cx + cw2 - 1) (by omega)]

end ImgEngine.Pipeline
