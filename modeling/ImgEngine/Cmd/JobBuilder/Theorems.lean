import ImgEngine.Cmd.JobBuilder

namespace ImgEngine.Cmd

open ImgEngine.Library.LastGiven
open ImgEngine.Pipeline

variable {F : Type} {atoi : List Char → Int32} {atof : List Char → F}
  {args : List (LongOpt × List Char)}

-- What the parser has noted of a field.

def CountField.noted (opts : ImgCliOptions F) : CountField → UInt32
  | .cols => opts.cols
  | .rows => opts.rows
  | .gap => opts.gap
  | .padding => opts.padding
  | .dpi => opts.dpi
  | .border => opts.border
  | .bleed => opts.bleed
  | .cropMark => opts.cropMark
  | .cropThickness => opts.cropThickness
  | .cropOffset => opts.cropOffset

def LengthField.noted (opts : ImgCliOptions F) : LengthField → F
  | .width => opts.photoWCm
  | .height => opts.photoHCm

-- Each option sets its own part of the struct.

section SetBy

def applyOption (atoi : List Char → Int32) (atof : List Char → F) (opts : ImgCliOptions F)
    (arg : LongOpt × List Char) : ImgCliOptions F :=
  handleOption atoi atof opts arg.1.val arg.2

theorem count_setBy (field : CountField) :
    SetBy (applyOption atoi atof) field.opt (fun text => (atoi text).toUInt32) field.noted where
  same := by
    intro opts text
    cases field <;> rfl
  other := by
    intro opts opt text hne
    cases field <;> cases opt <;> first | rfl | exact absurd rfl hne

theorem length_setBy (field : LengthField) :
    SetBy (applyOption atoi atof) field.opt atof field.noted where
  same := by
    intro opts text
    cases field <;> rfl
  other := by
    intro opts opt text hne
    cases field <;> cases opt <;> first | rfl | exact absurd rfl hne

theorem inputPath_setBy :
    SetBy (applyOption atoi atof) .input some ImgCliOptions.inputPath where
  same _ _ := rfl
  other := by
    intro opts opt text hne
    cases opt <;> first | rfl | exact absurd rfl hne

theorem outputPath_setBy :
    SetBy (applyOption atoi atof) .output some ImgCliOptions.outputPath where
  same _ _ := rfl
  other := by
    intro opts opt text hne
    cases opt <;> first | rfl | exact absurd rfl hne

end SetBy

variable [FloatTest F]

theorem count_noted (field : CountField) :
    field.noted (handleOptions atoi atof args) =
      ((lastGiven field.opt args).map fun text => (atoi text).toUInt32).getD 0 := by
  have hzero : field.noted (ImgCliOptions.zero : ImgCliOptions F) = 0 := by cases field <;> rfl
  rw [← hzero]
  exact (count_setBy field).foldl args .zero

theorem length_noted (field : LengthField) :
    field.noted (handleOptions atoi atof args) =
      ((lastGiven field.opt args).map atof).getD FloatTest.zero := by
  have hzero : field.noted (ImgCliOptions.zero : ImgCliOptions F) = FloatTest.zero := by
    cases field <;> rfl
  rw [← hzero]
  exact (length_setBy field).foldl args .zero

-- With both paths the parser succeeds, and the default number of threads changes no
-- field of the job.
theorem imgParseArgs_some (atoi : List Char → Int32) (atof : List Char → F) (line : CommandLine) :
    ∃ opts, imgParseArgs atoi atof line.args = some opts ∧
      imgBuildJob opts = imgBuildJob (handleOptions atoi atof line.args) := by
  have hinput : (handleOptions atoi atof line.args).inputPath ≠ none := by
    obtain ⟨text, hlast⟩ := Option.isSome_iff_exists.mp (lastGiven_isSome line.input)
    have hpath : (handleOptions atoi atof line.args).inputPath = _ :=
      inputPath_setBy.foldl line.args .zero
    rw [hpath, hlast]
    exact Option.some_ne_none text
  have houtput : (handleOptions atoi atof line.args).outputPath ≠ none := by
    obtain ⟨text, hlast⟩ := Option.isSome_iff_exists.mp (lastGiven_isSome line.output)
    have hpath : (handleOptions atoi atof line.args).outputPath = _ :=
      outputPath_setBy.foldl line.args .zero
    rw [hpath, hlast]
    exact Option.some_ne_none text
  refine ⟨_, if_neg (not_or.mpr ⟨hinput, houtput⟩), ?_⟩
  split_ifs
  · rfl
  · rfl

-- What the builder makes of it.

theorem count_imgBuildJob (opts : ImgCliOptions F) (field : CountField) :
    field.get (imgBuildJob opts) =
      orDefault (field.noted opts) (field.get (imgJobDefaults : ImgJob F)) := by
  cases field <;> rfl

theorem length_imgBuildJob (opts : ImgCliOptions F) (field : LengthField) :
    field.get (imgBuildJob opts) =
      lengthOrDefault (field.noted opts) (field.get (imgJobDefaults : ImgJob F)) := by
  cases field <;> rfl

theorem count_default_ne_zero (field : CountField) :
    field.get (imgJobDefaults : ImgJob F) ≠ 0 := by
  cases field <;> simp [CountField.get, imgJobDefaults]

-- A count is as it was written unless it is zero, which leaves the default, or
-- negative, which wraps.
theorem orDefault_eq_iff {default : UInt32} (hdefault : default ≠ 0) (given : Int32) :
    ((orDefault given.toUInt32 default).toNat : Int) = given.toInt ↔ 0 < given.toInt := by
  have hgiven : given.toInt = (given.toUInt32.toNat : Int).bmod (2 ^ 32) := by
    rw [← Int32.toNat_toBitVec]
    exact BitVec.toInt_eq_toNat_bmod _
  have hlt := given.toUInt32.toNat_lt
  generalize given.toUInt32 = stored at hgiven hlt ⊢
  rw [hgiven, orDefault]
  split_ifs with hne
  · have hpos : 0 < stored.toNat := Nat.pos_of_ne_zero fun h => hne (UInt32.toNat_inj.mp h)
    by_cases hsmall : stored.toNat < 2 ^ 31
    · rw [Int.bmod_eq_of_le (by omega) (by omega)]
      omega
    · have hneg := bmod_neg (Nat.le_of_not_lt hsmall) hlt
      omega
  · have hzero : stored = 0 := not_not.mp hne
    have hpos : 0 < default.toNat := Nat.pos_of_ne_zero fun h => hdefault (UInt32.toNat_inj.mp h)
    rw [hzero, UInt32.toNat_zero, Int.natCast_zero, Int.zero_bmod]
    omega

theorem lengthOrDefault_eq_iff (given default : F) :
    lengthOrDefault given default = given ↔ FloatTest.isZero given = false ∨ given = default := by
  unfold lengthOrDefault
  split_ifs with hzero
  · rw [hzero]
    simp [eq_comm]
  · simp [hzero]

-- The command line decides the job exactly if every count given last is positive and
-- every length given last is not zero.
theorem imgBuildJob_decided_iff (atoi : List Char → Int32) (atof : List Char → F)
    (line : CommandLine) : ∃ opts, imgParseArgs atoi atof line.args = some opts ∧
      (Decided atoi atof line.args (imgBuildJob opts) ↔ PositiveGiven atoi atof line.args) := by
  obtain ⟨opts, hparse, hjob⟩ := imgParseArgs_some atoi atof line
  refine ⟨opts, hparse, ?_⟩
  rw [hjob]
  have hcount : ∀ (field : CountField) text, lastGiven field.opt line.args = some text →
      (((field.get (imgBuildJob (handleOptions atoi atof line.args))).toNat : Int) =
        (atoi text).toInt ↔ 0 < (atoi text).toInt) := by
    intro field text hlast
    rw [count_imgBuildJob, count_noted, hlast]
    exact orDefault_eq_iff (count_default_ne_zero field) (atoi text)
  have hlength : ∀ (field : LengthField) text, lastGiven field.opt line.args = some text →
      (field.get (imgBuildJob (handleOptions atoi atof line.args)) = atof text ↔
        FloatTest.isZero (atof text) = false ∨
          atof text = field.get (imgJobDefaults : ImgJob F)) := by
    intro field text hlast
    rw [length_imgBuildJob, length_noted, hlast]
    exact lengthOrDefault_eq_iff _ _
  constructor
  · intro hdecided
    constructor
    · intro field text hlast
      exact (hcount field text hlast).mp (hdecided.count field text hlast)
    · intro field text hlast
      exact (hlength field text hlast).mp (hdecided.length field text hlast)
  · intro hpositive
    constructor
    · intro field text hlast
      exact (hcount field text hlast).mpr (hpositive.count field text hlast)
    · intro field hnone
      rw [count_imgBuildJob, count_noted, hnone]
      rfl
    · intro field text hlast
      exact (hlength field text hlast).mpr (hpositive.length field text hlast)
    · intro field hnone
      rw [length_imgBuildJob, length_noted, hnone]
      exact if_pos FloatTest.isZero_zero

-- What the worker service passes with its own defaults, among them no bleed.

section Service

instance : FloatTest Rat where
  lt x y := x < y
  ofUInt32 x := x.toNat
  toUInt32 x := x.floor.toNat.toUInt32
  zero := 0
  isZero x := x = 0
  isZero_zero := by decide

def digits (text : List Char) : Nat := text.foldl (fun n c => 10 * n + (c.toNat - 48)) 0

def readInt (text : List Char) : Int32 := .ofNat (digits text)

-- One digit after the point.
def readTenths (text : List Char) : Rat := digits (text.filter Char.isDigit) / 10

def serviceArgs : CommandLine where
  args := [(.input, ['a']), (.output, ['b']), (.cols, ['6']), (.rows, ['6']), (.gap, ['1', '5']),
    (.dpi, ['3', '0', '0']), (.border, ['2']), (.padding, ['2', '0']), (.cropMark, ['1', '5']),
    (.cropThickness, ['2']), (.bleed, ['0']), (.cropOffset, ['8']), (.width, ['4', '.', '5']),
    (.height, ['3', '.', '5'])]
  input := by decide
  output := by decide

theorem imgBuildJob_keepsBleed : ∃ opts : ImgCliOptions Rat,
    imgParseArgs readInt readTenths serviceArgs.args = some opts ∧
    (imgBuildJob opts).bleedPx = 10 ∧
    ¬Decided readInt readTenths serviceArgs.args (imgBuildJob opts) := by
  refine ⟨_, rfl, rfl, ?_⟩
  intro hdecided
  have hbleed := hdecided.count .bleed ['0'] rfl
  exact absurd hbleed (by decide)

end Service

end ImgEngine.Cmd
