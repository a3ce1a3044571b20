import ImgEngine.Cmd.Argv
import ImgEngine.Service.Worker

namespace ImgEngine.Service

open ImgEngine.Cmd

-- What run_engine reads of the job dictionary. The numbers of width and height are those
-- of Python.
structure EngineJob (G : Type) where
  input : List Char
  output : List Char
  cols : Int
  rows : Int
  gap : Int
  dpi : Int
  border : Int
  padding : Int
  cropMark : Int
  cropThickness : Int
  bleed : Int
  cropOffset : Int
  width : G
  height : G

-- str of an int
def strInt : Int → List Char
  | .ofNat n => Nat.toDigits 10 n
  | .negSucc n => '-' :: Nat.toDigits 10 (n + 1)

variable {G : Type}

-- The options in the order of cmd, with their texts.
def EngineJob.options (strFloat : G → List Char) (job : EngineJob G) :
    List (LongOpt × List Char) :=
  [(.input, job.input),
    (.output, job.output),
    (.cols, strInt job.cols),
    (.rows, strInt job.rows),
    (.gap, strInt job.gap),
    (.dpi, strInt job.dpi),
    (.border, strInt job.border),
    (.padding, strInt job.padding),
    (.cropMark, strInt job.cropMark),
    (.cropThickness, strInt job.cropThickness),
    (.bleed, strInt job.bleed),
    (.cropOffset, strInt job.cropOffset),
    (.width, strFloat job.width),
    (.height, strFloat job.height)]

def EngineJob.cmd (strFloat : G → List Char) (job : EngineJob G) : List (List Char) :=
  ['i', 'm', 'g', 'e', 'n', 'g', 'i', 'n', 'e', '_', 'c', 'l', 'i'] ::
    (job.options strFloat).flatMap fun option => ['-' :: '-' :: option.1.name, option.2]

-- What main reads in cmd, and its exit code, which subprocess.run waits for. The output
-- is some texts. The program is installed and exits by itself.

structure EngineProgram (F G : Type) where
  engine : Engine F
  atof : List Char → F
  strFloat : G → List Char
  texts : List (List Char) → String × String

-- subprocess.run raises ValueError on a null character.
def runEngine {F : Type} [FloatTest F] (program : EngineProgram F G) (job : EngineJob G) :
    EngineOutcome :=
  let cmd := job.cmd program.strFloat
  if ∃ word ∈ cmd, Char.ofNat 0 ∈ word then .raised "embedded null byte"
  else .returned
    { returncode := cliMain program.engine program.atof cmd
      stdout := (program.texts cmd).1
      stderr := (program.texts cmd).2 }

-- The setting of a field in the dictionary.

def EngineJob.count (job : EngineJob G) : CountField → Int
  | .cols => job.cols
  | .rows => job.rows
  | .gap => job.gap
  | .padding => job.padding
  | .dpi => job.dpi
  | .border => job.border
  | .bleed => job.bleed
  | .cropMark => job.cropMark
  | .cropThickness => job.cropThickness
  | .cropOffset => job.cropOffset

def EngineJob.length (job : EngineJob G) : LengthField → G
  | .width => job.width
  | .height => job.height

end ImgEngine.Service
