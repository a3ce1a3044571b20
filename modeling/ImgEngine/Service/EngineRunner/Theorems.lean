import ImgEngine.Cmd.Argv.Theorems
import ImgEngine.Service.EngineRunner
import ImgEngine.Service.Worker.Theorems

namespace ImgEngine.Service

open ImgEngine.Cmd
open ImgEngine.Library.LastGiven
open ImgEngine.Library.LongOptions
open ImgEngine.Pipeline

-- The text of an int is read back as that int.

theorem takeWhile_toDigits (n : Nat) :
    (Nat.toDigits 10 n).takeWhile Char.isDigit = Nat.toDigits 10 n :=
  List.takeWhile_eq_self_iff.mpr fun _ hc =>
    Nat.isDigit_of_mem_toDigits (by decide) (by decide) hc

theorem unsigned_toDigits (n : Nat) : unsigned (Nat.toDigits 10 n) = n := by
  rw [unsigned, takeWhile_toDigits, Nat.ofDigitChars_ten_toDigits]

-- Its first character is neither a space nor a sign, or it is the minus sign.
theorem strtol_of_digit {c : Char} {text : List Char} (h : c.isDigit = true) :
    strtol (c :: text) = clampLong (unsigned (c :: text)) := by
  obtain ⟨hlo, hhi⟩ := Char.isDigit_iff_toNat.mp h
  have hspace : isSpace c = false := by
    have h0 : '0'.toNat = 48 := rfl
    simp [isSpace]
    omega
  have hminus : c ≠ '-' := by
    rintro rfl
    exact absurd hlo (by decide)
  have hplus : c ≠ '+' := by
    rintro rfl
    exact absurd hlo (by decide)
  rw [strtol, List.dropWhile_cons_of_neg (by simp [hspace])]
  split <;> simp_all

theorem strtol_strInt (n : Int) : strtol (strInt n) = clampLong n := by
  cases n with
  | ofNat n =>
      obtain ⟨c, text, htext⟩ := List.exists_cons_of_ne_nil (Nat.toDigits_ne_nil (n := n) (b := 10))
      have hdigit : c.isDigit = true :=
        Nat.isDigit_of_mem_toDigits (by decide) (by decide) (htext ▸ List.mem_cons_self)
      rw [strInt, htext, strtol_of_digit hdigit, ← htext, unsigned_toDigits]
      rfl
  | negSucc n =>
      change clampLong (-unsigned (Nat.toDigits 10 (n + 1))) = _
      rw [unsigned_toDigits]
      rfl

-- So a setting of zero leaves the default, and any other one arrives modulo 2 ^ 32.
theorem orDefault_setting (n : Int) (default : UInt32) :
    ((orDefault (atoi (strInt n)).toUInt32 default).toNat : Int) =
      if clampLong n % 2 ^ 32 = 0 then (default.toNat : Int) else clampLong n % 2 ^ 32 := by
  have hword : ((atoi (strInt n)).toUInt32.toNat : Int) = clampLong n % 2 ^ 32 := by
    rw [atoi, strtol_strInt, ← Int32.toNat_toBitVec, Int32.toBitVec_ofInt, BitVec.toNat_ofInt]
    exact Int.toNat_of_nonneg (Int.emod_nonneg _ (by decide))
  rw [orDefault, ← hword]
  by_cases hzero : (atoi (strInt n)).toUInt32 = 0
  · simp [hzero]
  · have hne : ((atoi (strInt n)).toUInt32.toNat : Int) ≠ 0 := by
      intro h
      exact hzero (UInt32.toNat_inj.mp (by simpa using h))
    rw [if_pos hzero, if_neg hne]

-- The command line of the worker is read back as the options it was made of.

section Cmd

variable {F G : Type} [FloatTest F] {atof : List Char → F} {strFloat : G → List Char}

theorem spelling_full (opt : LongOpt) :
    cliOptions.named opt.name = some opt.entry ∧ opt.name ≠ [] ∧ '=' ∉ opt.name := by
  cases opt <;> decide

theorem exists_items (args : List (LongOpt × List Char)) (h : ∀ arg ∈ args, arg.1 ≠ .verbose) :
    ∃ items : List (Item cliOptions),
      items.flatMap Item.words = args.flatMap (fun arg => ['-' :: '-' :: arg.1.name, arg.2]) ∧
      items.flatMap meaning = args := by
  induction args with
  | nil => exact ⟨[], rfl, rfl⟩
  | cons arg args ih =>
      obtain ⟨opt, text⟩ := arg
      obtain ⟨items, hwords, hmeaning⟩ := ih fun arg harg => h arg (List.mem_cons_of_mem _ harg)
      obtain ⟨hnamed, hne, heq⟩ := spelling_full opt
      have htakes : opt.entry.argument = true := by
        simpa [LongOpt.entry] using h _ List.mem_cons_self
      let item : Item cliOptions := .long opt.entry ⟨opt.name, hnamed, hne, heq⟩ text false htakes
      have hitem : meaning item = [(opt, text)] := by
        simp [meaning, item, Item.found, LongOpt.entry, caseOf_val]
      refine ⟨item :: items, ?_, ?_⟩
      · rw [List.flatMap_cons, List.flatMap_cons, hwords]
        rfl
      · rw [List.flatMap_cons, hitem, hmeaning]
        rfl

theorem options_ne_verbose (strFloat : G → List Char) (job : EngineJob G) :
    ∀ arg ∈ job.options strFloat, arg.1 ≠ .verbose := by
  simp [EngineJob.options]

-- Each setting comes once, and there are no threads among them.

theorem lastGiven_count (job : EngineJob G) (field : CountField) :
    lastGiven field.opt (job.options strFloat) = some (strInt (job.count field)) := by
  cases field <;> rfl

theorem lastGiven_length (job : EngineJob G) (field : LengthField) :
    lastGiven field.opt (job.options strFloat) = some (strFloat (job.length field)) := by
  cases field <;> rfl

theorem inputPath_options (atof : List Char → F) (strFloat : G → List Char) (job : EngineJob G) :
    (handleOptions atoi atof (job.options strFloat)).inputPath = some job.input := rfl

theorem outputPath_options (atof : List Char → F) (strFloat : G → List Char) (job : EngineJob G) :
    (handleOptions atoi atof (job.options strFloat)).outputPath = some job.output := rfl

theorem threads_options (atof : List Char → F) (strFloat : G → List Char) (job : EngineJob G) :
    (handleOptions atoi atof (job.options strFloat)).threads = 0 := rfl

theorem imgParseArgv_cmd (atof : List Char → F) (strFloat : G → List Char) (job : EngineJob G) :
    ∃ opts, imgParseArgv atoi atof (job.cmd strFloat) = some opts ∧
      opts.inputPath = some job.input ∧ opts.outputPath = some job.output ∧ opts.threads = 1 ∧
      imgBuildJob opts = imgBuildJob (handleOptions atoi atof (job.options strFloat)) := by
  obtain ⟨items, hwords, hmeaning⟩ := exists_items _ (options_ne_verbose strFloat job)
  have hinput := inputPath_options atof strFloat job
  have houtput := outputPath_options atof strFloat job
  have hthreads := threads_options atof strFloat job
  rw [imgParseArgv, EngineJob.cmd, List.tail_cons, ← hwords, handleOptions_items, hmeaning]
  generalize handleOptions atoi atof (job.options strFloat) = opts at hinput houtput hthreads ⊢
  refine ⟨{ opts with threads := 1 }, ?_, hinput, houtput, rfl, rfl⟩
  simp [hinput, houtput, hthreads]

-- The program succeeds if the engine starts with one thread and runs the job.
theorem cliMain_cmd (engine : Engine F) (atof : List Char → F) (strFloat : G → List Char)
    (job : EngineJob G) :
    cliMain engine atof (job.cmd strFloat) = 0 ↔
      engine.init 1 = true ∧ engine.runJob job.input job.output
        (imgBuildJob (handleOptions atoi atof (job.options strFloat))) = .ok () := by
  obtain ⟨opts, hparse, hinput, houtput, hthreads, hjob⟩ := imgParseArgv_cmd atof strFloat job
  rw [cliMain, hparse]
  simp only [hinput, houtput, hthreads, hjob, Option.getD_some]
  cases hinit : engine.init 1 with
  | false => simp
  | true =>
      simp only [Bool.true_eq_false, if_false, true_and]
      split
      · next hrun => simp [hrun]
      · next hrun => simp [hrun]

theorem runEngine_status (program : EngineProgram F G) (job : EngineJob G) :
    (runEngine program job).status = .completed ↔
      (∀ word ∈ job.cmd program.strFloat, Char.ofNat 0 ∉ word) ∧
        cliMain program.engine program.atof (job.cmd program.strFloat) = 0 := by
  rw [runEngine]
  split_ifs with hnull
  · obtain ⟨word, hmem, hword⟩ := hnull
    simp only [EngineOutcome.status, reduceCtorEq, false_iff]
    exact fun h => h.1 word hmem hword
  · have hwords : ∀ word ∈ job.cmd program.strFloat, Char.ofNat 0 ∉ word :=
      fun word hmem hword => hnull ⟨word, hmem, hword⟩
    simpa [EngineOutcome.status] using fun _ => hwords

-- From the dictionary of a task to the record of the job. The engine runs with each
-- positive count as it was set, and an attempt ends completed exactly if it succeeds.
theorem processImage_runEngine (program : EngineProgram F G) (job : EngineJob G) (jobs : Jobs)
    (jobId : String) (record : Job) (h : jobs jobId = some record) :
    ∃ imgJob : ImgJob F,
      (∀ field : CountField, ((field.get imgJob).toNat : Int) =
        if clampLong (job.count field) % 2 ^ 32 = 0 then
          ((field.get (imgJobDefaults : ImgJob F)).toNat : Int)
        else clampLong (job.count field) % 2 ^ 32) ∧
      (∀ field : LengthField, field.get imgJob =
        lengthOrDefault (program.atof (program.strFloat (job.length field)))
          (field.get (imgJobDefaults : ImgJob F))) ∧
      ∃ record', (processImage jobs jobId (runEngine program job)).1 jobId = some record' ∧
        (record'.status = .completed ↔
          (∀ word ∈ job.cmd program.strFloat, Char.ofNat 0 ∉ word) ∧
            program.engine.init 1 = true ∧
            program.engine.runJob job.input job.output imgJob = .ok ()) := by
  refine ⟨imgBuildJob (handleOptions atoi program.atof (job.options program.strFloat)), ?_, ?_, ?_⟩
  · intro field
    rw [count_imgBuildJob, count_noted, lastGiven_count]
    exact orDefault_setting (job.count field) _
  · intro field
    rw [length_imgBuildJob, length_noted, lastGiven_length]
    rfl
  · obtain ⟨record', hrecord', hstatus⟩ := processImage_status h (runEngine program job)
    refine ⟨record', hrecord', ?_⟩
    rw [hstatus, runEngine_status, cliMain_cmd]

-- A program with whole centimetres whose engine always succeeds, and settings of which
-- the gap is zero.

def plainProgram : EngineProgram Rat Nat where
  engine := { init := fun _ => true, runJob := fun _ _ _ => .ok () }
  atof text := unsigned text
  strFloat n := strInt n
  texts _ := ("done", "")

def gaplessJob : EngineJob Nat where
  input := ['a']
  output := ['b']
  cols := 6
  rows := 6
  gap := 0
  dpi := 300
  border := 2
  padding := 20
  cropMark := 15
  cropThickness := 2
  bleed := 5
  cropOffset := 8
  width := 4
  height := 3

theorem processImage_runEngine_gapless :
    ∃ imgJob : ImgJob Rat, imgJob.gap = 15 ∧ imgJob.bleedPx = 5 ∧
      ∃ record', (processImage oneJob "job" (runEngine plainProgram gaplessJob)).1 "job" =
        some record' ∧ record'.status = .completed := by
  obtain ⟨imgJob, hcount, -, record', hrecord', hstatus⟩ :=
    processImage_runEngine plainProgram gaplessJob oneJob "job" queuedJob rfl
  have hgap : ((imgJob.gap).toNat : Int) = 15 := hcount .gap
  have hbleed : ((imgJob.bleedPx).toNat : Int) = 5 := hcount .bleed
  refine ⟨imgJob, ?_, ?_, record', hrecord', hstatus.mpr ⟨by decide, rfl, rfl⟩⟩
  · exact UInt32.toNat_inj.mp (Int.ofNat_inj.mp hgap)
  · exact UInt32.toNat_inj.mp (Int.ofNat_inj.mp hbleed)

end Cmd

end ImgEngine.Service
