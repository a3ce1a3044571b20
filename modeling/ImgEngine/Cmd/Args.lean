import ImgEngine.Core.Float
import ImgEngine.Library.LastGiven

namespace ImgEngine.Cmd

-- The options of long_opts.
inductive LongOpt where
  | input
  | output
  | cols
  | rows
  | gap
  | padding
  | width
  | height
  | dpi
  | border
  | bleed
  | cropMark
  | cropThickness
  | cropOffset
  | threads
  | verbose
deriving DecidableEq

-- The val of an option's entry. The letters i, o, t and v are 105, 111, 116 and 118.
def LongOpt.val : LongOpt → Nat
  | .input => 105
  | .output => 111
  | .cols => 1
  | .rows => 2
  | .gap => 3
  | .padding => 4
  | .width => 5
  | .height => 6
  | .dpi => 7
  | .border => 8
  | .bleed => 9
  | .cropMark => 10
  | .cropThickness => 11
  | .cropOffset => 12
  | .threads => 116
  | .verbose => 118

-- img_cli_options_t
structure ImgCliOptions (F : Type) where
  inputPath : Option (List Char)
  outputPath : Option (List Char)
  cols : UInt32
  rows : UInt32
  gap : UInt32
  padding : UInt32
  photoWCm : F
  photoHCm : F
  dpi : UInt32
  border : UInt32
  bleed : UInt32
  cropMark : UInt32
  cropThickness : UInt32
  cropOffset : UInt32
  threads : UInt32
  verbose : Bool

variable {F : Type} [FloatTest F]

-- The struct after memset.
def ImgCliOptions.zero : ImgCliOptions F where
  inputPath := none
  outputPath := none
  cols := 0
  rows := 0
  gap := 0
  padding := 0
  photoWCm := FloatTest.zero
  photoHCm := FloatTest.zero
  dpi := 0
  border := 0
  bleed := 0
  cropMark := 0
  cropThickness := 0
  cropOffset := 0
  threads := 0
  verbose := false

section Parse

-- What atoi and atof make of an argument. The double of atof is stored as a float.
variable (atoi : List Char → Int32) (atof : List Char → F)

omit [FloatTest F] in
-- The switch on what getopt_long returns, with optarg.
def handleOption (opts : ImgCliOptions F) (opt : Nat) (optarg : List Char) : ImgCliOptions F :=
  match opt with
  | 105 => { opts with inputPath := some optarg }
  | 111 => { opts with outputPath := some optarg }
  | 1 => { opts with cols := (atoi optarg).toUInt32 }
  | 2 => { opts with rows := (atoi optarg).toUInt32 }
  | 3 => { opts with gap := (atoi optarg).toUInt32 }
  | 4 => { opts with padding := (atoi optarg).toUInt32 }
  | 5 => { opts with photoWCm := atof optarg }
  | 6 => { opts with photoHCm := atof optarg }
  | 7 => { opts with dpi := (atoi optarg).toUInt32 }
  | 8 => { opts with border := (atoi optarg).toUInt32 }
  | 9 => { opts with bleed := (atoi optarg).toUInt32 }
  | 10 => { opts with cropMark := (atoi optarg).toUInt32 }
  | 11 => { opts with cropThickness := (atoi optarg).toUInt32 }
  | 12 => { opts with cropOffset := (atoi optarg).toUInt32 }
  | 116 => { opts with threads := (atoi optarg).toUInt32 }
  | 118 => { opts with verbose := true }
  | _ => opts

def handleOptions (args : List (LongOpt × List Char)) : ImgCliOptions F :=
  args.foldl (fun opts arg => handleOption atoi atof opts arg.1.val arg.2) .zero

-- getopt_long returns the options in order. The result -1 is none.
def imgParseArgs (args : List (LongOpt × List Char)) : Option (ImgCliOptions F) :=
  let opts := handleOptions atoi atof args
  if opts.inputPath = none ∨ opts.outputPath = none then none
  else some (if opts.threads = 0 then { opts with threads := 1 } else opts)

end Parse

end ImgEngine.Cmd
