import ImgEngine.Cmd.Args
import ImgEngine.Pipeline.Job

namespace ImgEngine.Cmd

open ImgEngine.Library.LastGiven
open ImgEngine.Pipeline

variable {F : Type} [FloatTest F]

-- What replaces a default, which is nothing if the option is zero.

def orDefault (given default : UInt32) : UInt32 := if given ≠ 0 then given else default

def lengthOrDefault (given default : F) : F := if FloatTest.isZero given then default else given

-- Both pointers are valid.
def imgBuildJob (opts : ImgCliOptions F) : ImgJob F :=
  let job := imgJobDefaults
  { job with
    cols := orDefault opts.cols job.cols
    rows := orDefault opts.rows job.rows
    gap := orDefault opts.gap job.gap
    padding := orDefault opts.padding job.padding
    photoWCm := lengthOrDefault opts.photoWCm job.photoWCm
    photoHCm := lengthOrDefault opts.photoHCm job.photoHCm
    dpi := orDefault opts.dpi job.dpi
    borderPx := orDefault opts.border job.borderPx
    bleedPx := orDefault opts.bleed job.bleedPx
    cropMarkPx := orDefault opts.cropMark job.cropMarkPx
    cropThickness := orDefault opts.cropThickness job.cropThickness
    cropOffsetPx := orDefault opts.cropOffset job.cropOffsetPx }

-- The fields of a job that an option sets, counts of cells and of pixels first.

inductive CountField where
  | cols
  | rows
  | gap
  | padding
  | dpi
  | border
  | bleed
  | cropMark
  | cropThickness
  | cropOffset
deriving DecidableEq

inductive LengthField where
  | width
  | height
deriving DecidableEq

def CountField.opt : CountField → LongOpt
  | .cols => .cols
  | .rows => .rows
  | .gap => .gap
  | .padding => .padding
  | .dpi => .dpi
  | .border => .border
  | .bleed => .bleed
  | .cropMark => .cropMark
  | .cropThickness => .cropThickness
  | .cropOffset => .cropOffset

def LengthField.opt : LengthField → LongOpt
  | .width => .width
  | .height => .height

omit [FloatTest F]

def CountField.get (job : ImgJob F) : CountField → UInt32
  | .cols => job.cols
  | .rows => job.rows
  | .gap => job.gap
  | .padding => job.padding
  | .dpi => job.dpi
  | .border => job.borderPx
  | .bleed => job.bleedPx
  | .cropMark => job.cropMarkPx
  | .cropThickness => job.cropThickness
  | .cropOffset => job.cropOffsetPx

def LengthField.get (job : ImgJob F) : LengthField → F
  | .width => job.photoWCm
  | .height => job.photoHCm

section Decided

variable [FloatTest F] (atoi : List Char → Int32) (atof : List Char → F)
  (args : List (LongOpt × List Char))

-- The command line decides the job: what was given last counts as it was written, and
-- what was not given has its default.
structure Decided (job : ImgJob F) : Prop where
  count : ∀ (field : CountField) text, lastGiven field.opt args = some text →
    ((field.get job).toNat : Int) = (atoi text).toInt
  countDefault : ∀ field : CountField, lastGiven field.opt args = none →
    field.get job = field.get (imgJobDefaults : ImgJob F)
  length : ∀ (field : LengthField) text, lastGiven field.opt args = some text →
    field.get job = atof text
  lengthDefault : ∀ field : LengthField, lastGiven field.opt args = none →
    field.get job = field.get (imgJobDefaults : ImgJob F)

structure PositiveGiven : Prop where
  count : ∀ (field : CountField) text, lastGiven field.opt args = some text →
    0 < (atoi text).toInt
  length : ∀ (field : LengthField) text, lastGiven field.opt args = some text →
    FloatTest.isZero (atof text) = false ∨
      atof text = field.get (imgJobDefaults : ImgJob F)

end Decided

-- Long options with an input and an output path among them.
structure CommandLine where
  args : List (LongOpt × List Char)
  input : LongOpt.input ∈ args.map Prod.fst
  output : LongOpt.output ∈ args.map Prod.fst

end ImgEngine.Cmd
