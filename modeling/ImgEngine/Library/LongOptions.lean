import Mathlib.Data.List.TakeWhile

namespace ImgEngine.Library.LongOptions

-- getopt_long, with the operands anywhere among the options, as it takes them without
-- POSIXLY_CORRECT in the environment and with short options that start with neither + nor -.

-- What it returns for the option is val.
structure LongOption where
  name : List Char
  argument : Bool
  val : Nat
deriving DecidableEq

-- The short options are letters, each with whether it takes an argument.
structure Options where
  long : List LongOption
  short : List (Char × Bool)

-- A return value with optarg. The question mark stands for an error.

abbrev Found := Nat × List Char

def unrecognised : Found := ('?'.toNat, [])

namespace Options

-- The option of that name, or else the only one that starts with it. Several that mean
-- the same count as one.
def named (options : Options) (name : List Char) : Option LongOption :=
  match options.long.find? fun option => option.name = name with
  | some option => some option
  | none =>
      match options.long.filter fun option => name.isPrefixOf option.name with
      | [] => none
      | option :: others =>
          if others.all fun other => other.argument = option.argument ∧ other.val = option.val then
            some option
          else none

-- What one word has, and the value of its last option if the next word is the argument.

inductive Word where
  | operand
  | stop
  | found (found : List Found) (pending : Option Nat)
deriving DecidableEq

def after (first : Found) (others : List Found × Option Nat) : List Found × Option Nat :=
  (first :: others.1, others.2)

def readLetters (options : Options) : List Char → List Found × Option Nat
  | [] => ([], none)
  | letter :: letters =>
      match options.short.lookup letter with
      | none => after unrecognised (options.readLetters letters)
      | some false => after (letter.toNat, []) (options.readLetters letters)
      | some true =>
          if letters = [] then ([], some letter.toNat) else ([(letter.toNat, letters)], none)

def argumentOf (text : List Char) : Option (List Char) :=
  match text.dropWhile (· ≠ '=') with
  | [] => none
  | _ :: argument => some argument

def readName (options : Options) (text : List Char) : List Found × Option Nat :=
  match options.named (text.takeWhile (· ≠ '=')) with
  | none => ([unrecognised], none)
  | some option =>
      match option.argument, argumentOf text with
      | true, some argument => ([(option.val, argument)], none)
      | true, none => ([], some option.val)
      | false, some _ => ([unrecognised], none)
      | false, none => ([(option.val, [])], none)

def read (options : Options) : List Char → Word
  | ['-', '-'] => .stop
  | '-' :: '-' :: text => .found (options.readName text).1 (options.readName text).2
  | '-' :: letter :: letters =>
      .found (options.readLetters (letter :: letters)).1 (options.readLetters (letter :: letters)).2
  | _ => .operand

-- The results of all calls but the last one, which is -1.
def getoptLong (options : Options) : List (List Char) → List Found
  | [] => []
  | word :: words =>
      match options.read word with
      | .stop => []
      | .operand => options.getoptLong words
      | .found found none => found ++ options.getoptLong words
      | .found found (some val) =>
          match words with
          | [] => found ++ [unrecognised]
          | argument :: words => found ++ (val, argument) :: options.getoptLong words

end Options

variable {options : Options}

-- How a long option may be written.
structure Spelling (options : Options) (option : LongOption) where
  name : List Char
  named : options.named name = some option
  nonempty : name ≠ []
  noEquals : '=' ∉ name

-- Short options without arguments.
structure Letters (options : Options) where
  letters : List Char
  noArgument : ∀ letter ∈ letters, options.short.lookup letter = some false
  noDash : '-' ∉ letters

def Letters.found (group : Letters options) : List Found :=
  group.letters.map fun letter => (letter.toNat, [])

-- The parts of a command line before a word "--". Letters without arguments may stand
-- together, and before one with an argument.
inductive Item (options : Options) where
  | long (option : LongOption) (spelling : Spelling options option) (argument : List Char)
      (joined : Bool) (takes : option.argument = true)
  | flag (option : LongOption) (spelling : Spelling options option)
      (takes : option.argument = false)
  | letter (group : Letters options) (letter : Char) (argument : List Char) (joined : Bool)
      (takes : options.short.lookup letter = some true) (nonempty : joined = true → argument ≠ [])
      (noDash : letter ≠ '-')
  | flags (group : Letters options) (nonempty : group.letters ≠ [])
  | operand (word : List Char) (h : options.read word = .operand)
  | unknown (word : List Char) (h : options.read word = .found [unrecognised] none)

def Item.words : Item options → List (List Char)
  | .long _ spelling argument true _ => ['-' :: '-' :: spelling.name ++ '=' :: argument]
  | .long _ spelling argument false _ => ['-' :: '-' :: spelling.name, argument]
  | .flag _ spelling _ => ['-' :: '-' :: spelling.name]
  | .letter group c argument true _ _ _ => ['-' :: group.letters ++ c :: argument]
  | .letter group c argument false _ _ _ => ['-' :: group.letters ++ [c], argument]
  | .flags group _ => ['-' :: group.letters]
  | .operand word _ | .unknown word _ => [word]

def Item.found : Item options → List Found
  | .long option _ argument _ _ => [(option.val, argument)]
  | .flag option _ _ => [(option.val, [])]
  | .letter group c argument _ _ _ _ => group.found ++ [(c.toNat, argument)]
  | .flags group _ => group.found
  | .operand _ _ => []
  | .unknown _ _ => [unrecognised]

section Read

variable {option : LongOption} (spelling : Spelling options option)

theorem ne_equals_of_mem {c : Char} (hc : c ∈ spelling.name) : c ≠ '=' := by
  rintro rfl
  exact spelling.noEquals hc

theorem takeWhile_name : spelling.name.takeWhile (· ≠ '=') = spelling.name :=
  List.takeWhile_eq_self_iff.mpr fun _ hc => by simpa using ne_equals_of_mem spelling hc

theorem argumentOf_name : Options.argumentOf spelling.name = none := by
  have hdrop : spelling.name.dropWhile (· ≠ '=') = [] :=
    List.dropWhile_eq_nil_iff.mpr fun _ hc => by simpa using ne_equals_of_mem spelling hc
  rw [Options.argumentOf, hdrop]

theorem takeWhile_joined (argument : List Char) :
    (spelling.name ++ '=' :: argument).takeWhile (· ≠ '=') = spelling.name := by
  rw [List.takeWhile_append_of_pos fun _ hc => by simpa using ne_equals_of_mem spelling hc]
  simp

theorem argumentOf_joined (argument : List Char) :
    Options.argumentOf (spelling.name ++ '=' :: argument) = some argument := by
  rw [Options.argumentOf,
    List.dropWhile_append_of_pos fun _ hc => by simpa using ne_equals_of_mem spelling hc]
  simp

-- A word of two dashes and more is a long option.
theorem read_long {text : List Char} (h : text ≠ []) :
    options.read ('-' :: '-' :: text) =
      .found (options.readName text).1 (options.readName text).2 := by
  cases text with
  | nil => exact absurd rfl h
  | cons c text => rfl

-- A word of a dash and letters, of which the first is no dash.
theorem read_letters {text : List Char} (h : text ≠ []) (hdash : text.head? ≠ some '-') :
    options.read ('-' :: text) =
      .found (options.readLetters text).1 (options.readLetters text).2 := by
  cases text with
  | nil => exact absurd rfl h
  | cons letter letters =>
      have hletter : letter ≠ '-' := by simpa using hdash
      unfold Options.read
      split <;> simp_all

-- The letters without arguments are found first.
theorem readLetters_append (group : Letters options) (letters : List Char) :
    options.readLetters (group.letters ++ letters) =
      (group.found ++ (options.readLetters letters).1, (options.readLetters letters).2) := by
  have hall := group.noArgument
  rw [Letters.found]
  generalize group.letters = flags at hall
  induction flags with
  | nil => rfl
  | cons flag flags ih =>
      rw [List.cons_append, Options.readLetters, hall flag List.mem_cons_self]
      simp only [ih fun letter hmem => hall letter (List.mem_cons_of_mem _ hmem)]
      rfl

theorem Letters.head_ne (group : Letters options) {letters : List Char}
    (h : letters.head? ≠ some '-') : (group.letters ++ letters).head? ≠ some '-' := by
  have hdash := group.noDash
  cases hgroup : group.letters with
  | nil => exact h
  | cons flag flags =>
      rw [hgroup] at hdash
      simp only [List.cons_append, List.head?_cons, ne_eq, Option.some_inj]
      rintro rfl
      exact hdash List.mem_cons_self

end Read

theorem readName_of_named {option : LongOption} {text : List Char}
    (h : options.named (text.takeWhile (· ≠ '=')) = some option) :
    options.readName text =
      match option.argument, Options.argumentOf text with
      | true, some argument => ([(option.val, argument)], none)
      | true, none => ([], some option.val)
      | false, some _ => ([unrecognised], none)
      | false, none => ([(option.val, [])], none) := by
  rw [Options.readName, h]

theorem getoptLong_of_found {word : List Char} {found : List Found}
    (h : options.read word = .found found none) (words : List (List Char)) :
    options.getoptLong (word :: words) = found ++ options.getoptLong words := by
  rw [Options.getoptLong, h]

theorem getoptLong_of_pending {word : List Char} {found : List Found} {val : Nat}
    (h : options.read word = .found found (some val)) (argument : List Char)
    (words : List (List Char)) :
    options.getoptLong (word :: argument :: words) =
      found ++ (val, argument) :: options.getoptLong words := by
  rw [Options.getoptLong, h]

-- What an item says is found, whatever the words behind it are.
theorem getoptLong_item (item : Item options) (words : List (List Char)) :
    options.getoptLong (item.words ++ words) = item.found ++ options.getoptLong words := by
  cases item with
  | long option spelling argument joined takes =>
      cases joined with
      | true =>
          refine getoptLong_of_found ?_ words
          rw [List.cons_append, List.cons_append, read_long (by simp),
            readName_of_named ((takeWhile_joined spelling argument).symm ▸ spelling.named), takes,
            argumentOf_joined]
          rfl
      | false =>
          refine @getoptLong_of_pending _ _ [] _ ?_ argument words
          rw [read_long spelling.nonempty,
            readName_of_named ((takeWhile_name spelling).symm ▸ spelling.named), takes,
            argumentOf_name]
  | flag option spelling takes =>
      refine getoptLong_of_found ?_ words
      rw [read_long spelling.nonempty,
        readName_of_named ((takeWhile_name spelling).symm ▸ spelling.named), takes,
        argumentOf_name]
      rfl
  | letter group letter argument joined takes nonempty noDash =>
      cases joined with
      | true =>
          refine getoptLong_of_found ?_ words
          rw [List.cons_append, read_letters (by simp) (group.head_ne (by simpa using noDash)),
            readLetters_append, Options.readLetters, takes]
          simp only [if_neg (nonempty rfl)]
          rfl
      | false =>
          have hread : options.read ('-' :: group.letters ++ [letter]) =
              .found group.found (some letter.toNat) := by
            rw [List.cons_append, read_letters (by simp) (group.head_ne (by simpa using noDash)),
              readLetters_append, Options.readLetters, takes]
            simp
          refine (getoptLong_of_pending hread argument words).trans ?_
          exact (List.append_assoc group.found [(letter.toNat, argument)] _).symm
  | flags group nonempty =>
      refine getoptLong_of_found ?_ words
      have hdash : (group.letters ++ []).head? ≠ some '-' := group.head_ne (by simp)
      have hletters := readLetters_append group []
      rw [List.append_nil] at hdash hletters
      rw [read_letters nonempty hdash, hletters]
      simp only [Options.readLetters, List.append_nil]
      rfl
  | operand word h =>
      change options.getoptLong (word :: words) = options.getoptLong words
      rw [Options.getoptLong, h]
  | unknown word h => exact getoptLong_of_found h words

-- Reading a command line gives back the options that it was written from.
theorem getoptLong_words (items : List (Item options)) :
    options.getoptLong (items.flatMap Item.words) = items.flatMap Item.found := by
  induction items with
  | nil => rfl
  | cons item items ih => rw [List.flatMap_cons, List.flatMap_cons, getoptLong_item, ih]

end ImgEngine.Library.LongOptions
