import ImgEngine.Cmd.JobBuilder
import ImgEngine.Library.LongOptions

namespace ImgEngine.Cmd

open ImgEngine.Library.LongOptions
open ImgEngine.Pipeline

def LongOpt.name : LongOpt → List Char
  | .input => ['i', 'n', 'p', 'u', 't']
  | .output => ['o', 'u', 't', 'p', 'u', 't']
  | .cols => ['c', 'o', 'l', 's']
  | .rows => ['r', 'o', 'w', 's']
  | .gap => ['g', 'a', 'p']
  | .padding => ['p', 'a', 'd', 'd', 'i', 'n', 'g']
  | .width => ['w', 'i', 'd', 't', 'h']
  | .height => ['h', 'e', 'i', 'g', 'h', 't']
  | .dpi => ['d', 'p', 'i']
  | .border => ['b', 'o', 'r', 'd', 'e', 'r']
  | .bleed => ['b', 'l', 'e', 'e', 'd']
  | .cropMark => ['c', 'r', 'o', 'p', '-', 'm', 'a', 'r', 'k']
  | .cropThickness =>
      ['c', 'r', 'o', 'p', '-', 't', 'h', 'i', 'c', 'k', 'n', 'e', 's', 's']
  | .cropOffset => ['c', 'r', 'o', 'p', '-', 'o', 'f', 'f', 's', 'e', 't']
  | .threads => ['t', 'h', 'r', 'e', 'a', 'd', 's']
  | .verbose => ['v', 'e', 'r', 'b', 'o', 's', 'e']

def LongOpt.entry (opt : LongOpt) : LongOption where
  name := opt.name
  argument := opt ≠ .verbose
  val := opt.val

-- long_opts without its last entry.
def longOpts : List LongOpt :=
  [.input, .output, .cols, .rows, .gap, .padding, .width, .height, .dpi, .border, .bleed,
    .cropMark, .cropThickness, .cropOffset, .threads, .verbose]

-- With the short options "i:o:w:h:t:bv?".
def cliOptions : Options where
  long := longOpts.map LongOpt.entry
  short := [('i', true), ('o', true), ('w', true), ('h', true), ('t', true), ('b', false),
    ('v', false), ('?', false)]

variable {F : Type} [FloatTest F]

-- img_parse_args with getopt_long, on the words of a command line.
def imgParseArgv (atoi : List Char → Int32) (atof : List Char → F) (argv : List (List Char)) :
    Option (ImgCliOptions F) :=
  let opts := (cliOptions.getoptLong argv.tail).foldl
    (fun opts found => handleOption atoi atof opts found.1 found.2) .zero
  if opts.inputPath = none ∨ opts.outputPath = none then none
  else some (if opts.threads = 0 then { opts with threads := 1 } else opts)

-- atoi is strtol with the result as an int.

def isSpace (c : Char) : Bool := c.toNat = 32 ∨ (9 ≤ c.toNat ∧ c.toNat ≤ 13)

def clampLong (n : Int) : Int := max (-2 ^ 63) (min n (2 ^ 63 - 1))

def unsigned (text : List Char) : Int := Nat.ofDigitChars 10 (text.takeWhile Char.isDigit) 0

def strtol (text : List Char) : Int :=
  match text.dropWhile isSpace with
  | '-' :: text => clampLong (-unsigned text)
  | '+' :: text => clampLong (unsigned text)
  | text => clampLong (unsigned text)

def atoi (text : List Char) : Int32 := .ofInt (strtol text)

-- The engine as main uses it: whether img_api_init succeeds, and img_api_run_job.
structure Engine (F : Type) where
  init : UInt32 → Bool
  runJob : List Char → List Char → ImgJob F → Except ImgError Unit

-- The exit code of the program. io_uring only gets set up and torn down.
def cliMain (engine : Engine F) (atof : List Char → F) (argv : List (List Char)) : Int :=
  match imgParseArgv atoi atof argv with
  | none => 1
  | some opts =>
      if engine.init opts.threads = false then 1
      else
        match engine.runJob (opts.inputPath.getD []) (opts.outputPath.getD [])
            (imgBuildJob opts) with
        | .ok () => 0
        | .error _ => 1

end ImgEngine.Cmd
