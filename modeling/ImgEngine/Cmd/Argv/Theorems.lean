import ImgEngine.Cmd.Argv
import ImgEngine.Cmd.JobBuilder.Theorems

namespace ImgEngine.Cmd

open ImgEngine.Library.LongOptions

variable {F : Type} {atoi : List Char → Int32} {atof : List Char → F}

-- The case of the switch that a return value of getopt_long takes.
def caseOf (val : Nat) : Option LongOpt := longOpts.find? fun opt => opt.val = val

omit F in
theorem caseOf_val (opt : LongOpt) : caseOf opt.val = some opt := by
  cases opt <;> rfl

theorem handleOption_of_none {val : Nat} (h : caseOf val = none) (opts : ImgCliOptions F)
    (optarg : List Char) : handleOption atoi atof opts val optarg = opts := by
  unfold handleOption
  split <;> first | rfl | exact absurd h (by decide)

theorem handleOption_of_some {val : Nat} {opt : LongOpt} (h : caseOf val = some opt) :
    opt.val = val := by
  simpa using List.find?_some h

-- What an item of a command line means for the program. The operands and what getopt_long
-- does not recognise mean nothing.
def meaning (item : Item cliOptions) : List (LongOpt × List Char) :=
  item.found.filterMap fun found => (caseOf found.1).map (·, found.2)

theorem foldl_found (found : List Found) (opts : ImgCliOptions F) :
    found.foldl (fun opts found => handleOption atoi atof opts found.1 found.2) opts =
      (found.filterMap fun found => (caseOf found.1).map (·, found.2)).foldl
        (fun opts arg => handleOption atoi atof opts arg.1.val arg.2) opts := by
  induction found generalizing opts with
  | nil => rfl
  | cons first found ih =>
      rw [List.foldl_cons, ih]
      cases hcase : caseOf first.1 with
      | none =>
          rw [handleOption_of_none hcase, List.filterMap_cons_none (by rw [hcase]; rfl)]
      | some opt =>
          rw [List.filterMap_cons_some (by rw [hcase]; rfl), List.foldl_cons,
            handleOption_of_some hcase]

variable [FloatTest F]

theorem handleOptions_items (items : List (Item cliOptions)) :
    (cliOptions.getoptLong (items.flatMap Item.words)).foldl
        (fun opts found => handleOption atoi atof opts found.1 found.2) .zero =
      handleOptions atoi atof (items.flatMap meaning) := by
  rw [getoptLong_words, foldl_found, handleOptions, List.filterMap_flatMap]
  rfl

-- However the options of a command line are written, in full or as far as they are
-- unambiguous, with their arguments behind them or in the next word, as long or as short
-- ones, which may share a word, and whatever stands between them, img_parse_args reads the
-- options that were meant.
theorem imgParseArgv_words (atoi : List Char → Int32) (atof : List Char → F) (bin : List Char)
    (items : List (Item cliOptions)) :
    imgParseArgv atoi atof (bin :: items.flatMap Item.words) =
      imgParseArgs atoi atof (items.flatMap meaning) := by
  rw [imgParseArgv, List.tail_cons, handleOptions_items, imgParseArgs]

end ImgEngine.Cmd
