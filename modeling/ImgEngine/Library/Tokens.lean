import Mathlib.Algebra.Order.Ring.Nat
import Mathlib.Data.List.Basic
import Mathlib.Logic.Function.Basic

namespace ImgEngine.Library.Tokens

variable {Key Row Place Choice : Type}

-- A key enters with a row and one token. A token that moves may change the row of its
-- key and goes on as the tokens at the places of `next`, which is none when it does not
-- have the choice.
structure Protocol (Key Row Place Choice : Type) where
  firstRow : Row
  firstPlace : Place
  act : Key → Place → Choice → (Key → Option Row) → Key → Option Row
  next : Place → Choice → Option (List Place)
  act_other : ∀ {key other} place choice rows, other ≠ key →
    act key place choice rows other = rows other
  act_own : ∀ {key} place choice {rows rows'}, rows key = rows' key →
    act key place choice rows key = act key place choice rows' key
  act_isSome : ∀ {key} place choice {rows}, (rows key).isSome →
    (act key place choice rows key).isSome

structure State (Key Row Place : Type) where
  rows : Key → Option Row
  tokens : List (Key × Place)

inductive Move (Place Choice : Type) where
  | enter
  | go (place : Place) (choice : Choice)

def State.empty : State Key Row Place := ⟨fun _ => none, []⟩

variable [DecidableEq Key] [DecidableEq Place]

def Protocol.step (protocol : Protocol Key Row Place Choice) (state : State Key Row Place)
    (key : Key) : Move Place Choice → Option (State Key Row Place)
  | .enter =>
      match state.rows key with
      | some _ => none
      | none => some
          { rows := Function.update state.rows key (some protocol.firstRow)
            tokens := (key, protocol.firstPlace) :: state.tokens }
  | .go place choice =>
      if (key, place) ∈ state.tokens then
        (protocol.next place choice).map fun places =>
          { rows := protocol.act key place choice state.rows
            tokens := places.map (key, ·) ++ state.tokens.erase (key, place) }
      else none

-- The moves of all keys one after the other, in any order.
def Protocol.run (protocol : Protocol Key Row Place Choice) (state : State Key Row Place) :
    List (Key × Move Place Choice) → Option (State Key Row Place)
  | [] => some state
  | (key, move) :: moves => (protocol.step state key move).bind (protocol.run · moves)

-- What one key sees of a run: its row, its tokens and its own moves.

-- What a list of things with a key each has for one key.
def ofKey {α : Type} (key : Key) (things : List (Key × α)) : List α :=
  things.filterMap fun thing => if thing.1 = key then some thing.2 else none

structure Solo (Row Place : Type) where
  row : Option Row
  places : List Place

def State.solo (state : State Key Row Place) (key : Key) : Solo Row Place :=
  ⟨state.rows key, ofKey key state.tokens⟩

omit [DecidableEq Key] in
def Protocol.soloStep (protocol : Protocol Key Row Place Choice) (key : Key)
    (solo : Solo Row Place) : Move Place Choice → Option (Solo Row Place)
  | .enter =>
      match solo.row with
      | some _ => none
      | none => some ⟨some protocol.firstRow, protocol.firstPlace :: solo.places⟩
  | .go place choice =>
      if place ∈ solo.places then
        (protocol.next place choice).map fun places =>
          ⟨protocol.act key place choice (fun _ => solo.row) key,
            places ++ solo.places.erase place⟩
      else none

omit [DecidableEq Key] in
def Protocol.soloRun (protocol : Protocol Key Row Place Choice) (key : Key)
    (solo : Solo Row Place) : List (Move Place Choice) → Option (Solo Row Place)
  | [] => some solo
  | move :: moves => (protocol.soloStep key solo move).bind (protocol.soloRun key · moves)

variable {protocol : Protocol Key Row Place Choice} {state state' : State Key Row Place}
  {key other : Key} {place : Place} {move : Move Place Choice}
  {moves : List (Key × Move Place Choice)}

section OfKey

variable {α : Type} {thing : α} {things : List (Key × α)}

theorem mem_ofKey : thing ∈ ofKey key things ↔ (key, thing) ∈ things := by
  simp only [ofKey, List.mem_filterMap, Option.ite_none_right_eq_some, Option.some.injEq]
  constructor
  · intro ⟨tagged, hmem, hkey, hthing⟩
    rwa [← hkey, ← hthing]
  · intro hmem
    exact ⟨(key, thing), hmem, rfl, rfl⟩

theorem ofKey_cons_self (thing : α) (things : List (Key × α)) :
    ofKey key ((key, thing) :: things) = thing :: ofKey key things :=
  List.filterMap_cons_some (if_pos rfl)

theorem ofKey_cons_other (h : other ≠ key) (thing : α) (things : List (Key × α)) :
    ofKey other ((key, thing) :: things) = ofKey other things :=
  List.filterMap_cons_none (if_neg h.symm)

theorem ofKey_append (things things' : List (Key × α)) :
    ofKey key (things ++ things') = ofKey key things ++ ofKey key things' :=
  List.filterMap_append

theorem ofKey_map_self (new : List α) : ofKey key (new.map (key, ·)) = new := by
  induction new with
  | nil => rfl
  | cons thing new ih => rw [List.map_cons, ofKey_cons_self, ih]

theorem ofKey_map_other (h : other ≠ key) (new : List α) : ofKey other (new.map (key, ·)) = [] := by
  induction new with
  | nil => rfl
  | cons thing new ih => rw [List.map_cons, ofKey_cons_other h, ih]

-- A thing that is taken away is one less for its own key and for no other.

variable [DecidableEq α]

theorem ofKey_erase_self (thing : α) (things : List (Key × α)) :
    ofKey key (things.erase (key, thing)) = (ofKey key things).erase thing := by
  induction things with
  | nil => rfl
  | cons tagged things ih =>
      obtain ⟨first, here⟩ := tagged
      by_cases hkey : first = key
      · subst hkey
        by_cases hthing : here = thing
        · subst hthing
          rw [List.erase_cons_head, ofKey_cons_self, List.erase_cons_head]
        · have htagged : (first, here) ≠ (first, thing) := fun h => hthing (congrArg Prod.snd h)
          rw [List.erase_cons_tail (not_beq_of_ne htagged), ofKey_cons_self,
            ofKey_cons_self, List.erase_cons_tail (not_beq_of_ne hthing), ih]
      · have htagged : (first, here) ≠ (key, thing) := fun h => hkey (congrArg Prod.fst h)
        rw [List.erase_cons_tail (not_beq_of_ne htagged), ofKey_cons_other (Ne.symm hkey),
          ofKey_cons_other (Ne.symm hkey), ih]

theorem ofKey_erase_other (h : other ≠ key) (thing : α) (things : List (Key × α)) :
    ofKey other (things.erase (key, thing)) = ofKey other things := by
  induction things with
  | nil => rfl
  | cons tagged things ih =>
      obtain ⟨first, here⟩ := tagged
      by_cases htagged : (first, here) = (key, thing)
      · rw [htagged, List.erase_cons_head, ofKey_cons_other h]
      · rw [List.erase_cons_tail (not_beq_of_ne htagged)]
        by_cases hfirst : other = first
        · rw [← hfirst, ofKey_cons_self, ofKey_cons_self, ih]
        · rw [ofKey_cons_other hfirst, ofKey_cons_other hfirst, ih]

end OfKey

theorem step_go {choice : Choice} (h : protocol.step state key (.go place choice) = some state') :
    (key, place) ∈ state.tokens ∧ ∃ places, protocol.next place choice = some places ∧
      state' = { rows := protocol.act key place choice state.rows
                 tokens := places.map (key, ·) ++ state.tokens.erase (key, place) } := by
  simp only [Protocol.step, Option.ite_none_right_eq_some, Option.map_eq_some_iff] at h
  obtain ⟨hmem, places, hnext, rfl⟩ := h
  exact ⟨hmem, places, hnext, rfl⟩

theorem step_enter (h : protocol.step state key .enter = some state') :
    state.rows key = none ∧
      state' = { rows := Function.update state.rows key (some protocol.firstRow)
                 tokens := (key, protocol.firstPlace) :: state.tokens } := by
  simp only [Protocol.step] at h
  split at h
  · cases h
  · next hrow =>
    cases h
    exact ⟨hrow, rfl⟩

-- A move is a move of its own key alone, and no other key sees it.

theorem step_solo (h : protocol.step state key move = some state') :
    protocol.soloStep key (state.solo key) move = some (state'.solo key) := by
  cases move with
  | enter =>
      obtain ⟨hrow, rfl⟩ := step_enter h
      simp only [Protocol.soloStep, State.solo, hrow, Function.update_self, ofKey_cons_self]
  | go place choice =>
      obtain ⟨hmem, places, hnext, rfl⟩ := step_go h
      have hact : protocol.act key place choice (fun _ => state.rows key) key =
          protocol.act key place choice state.rows key := protocol.act_own place choice rfl
      simp only [Protocol.soloStep, State.solo, mem_ofKey, if_pos hmem, hnext, Option.map_some,
        hact, ofKey_append, ofKey_map_self, ofKey_erase_self]

theorem step_solo_other (h : protocol.step state key move = some state') (hother : other ≠ key) :
    state'.solo other = state.solo other := by
  cases move with
  | enter =>
      obtain ⟨-, rfl⟩ := step_enter h
      simp only [State.solo, Function.update_of_ne hother, ofKey_cons_other hother]
  | go place choice =>
      obtain ⟨-, places, -, rfl⟩ := step_go h
      simp only [State.solo, protocol.act_other place choice state.rows hother,
        ofKey_append, ofKey_map_other hother, List.nil_append,
        ofKey_erase_other hother]

-- In any order of the moves of all keys, a key fares as by its own moves alone.
theorem run_solo (h : protocol.run state moves = some state') (key : Key) :
    protocol.soloRun key (state.solo key) (ofKey key moves) = some (state'.solo key) := by
  induction moves generalizing state with
  | nil =>
      cases h
      rfl
  | cons move moves ih =>
      obtain ⟨mover, move⟩ := move
      obtain ⟨middle, hstep, hrun⟩ := Option.bind_eq_some_iff.mp h
      have hrest := ih hrun
      by_cases hkey : mover = key
      · subst hkey
        rw [ofKey_cons_self, Protocol.soloRun, step_solo hstep]
        exact hrest
      · rw [ofKey_cons_other (Ne.symm hkey), ← step_solo_other hstep (Ne.symm hkey)]
        exact hrest

-- A key whose tokens are all through makes no more moves.
omit [DecidableEq Key] in
theorem soloRun_through {solo solo' : Solo Row Place} {moves : List (Move Place Choice)} {row : Row}
    (h : protocol.soloRun key solo moves = some solo') (hrow : solo.row = some row)
    (hplaces : solo.places = []) : moves = [] ∧ solo' = solo := by
  cases moves with
  | nil => exact ⟨rfl, (Option.some.inj h).symm⟩
  | cons move moves =>
      obtain ⟨middle, hstep, -⟩ := Option.bind_eq_some_iff.mp h
      cases move with
      | enter => simp [Protocol.soloStep, hrow] at hstep
      | go place choice => simp [Protocol.soloStep, hplaces] at hstep

section Invariant

variable {invariant : List (Move Place Choice) → Row → List Place → Prop}

-- What is kept of a key that has not entered, and of one that has.
def Solo.Holds (invariant : List (Move Place Choice) → Row → List Place → Prop)
    (moves : List (Move Place Choice)) (solo : Solo Row Place) : Prop :=
  match solo.row with
  | none => moves = [] ∧ solo.places = []
  | some row => invariant moves row solo.places

omit [DecidableEq Key] in
theorem soloStep_holds {solo solo' : Solo Row Place} {moves : List (Move Place Choice)}
    (henter : invariant [.enter] protocol.firstRow [protocol.firstPlace])
    (hgo : ∀ {moves row places place choice new row'}, invariant moves row places →
      place ∈ places → protocol.next place choice = some new →
      protocol.act key place choice (fun _ => some row) key = some row' →
      invariant (moves ++ [.go place choice]) row' (new ++ places.erase place))
    (h : solo.Holds invariant moves) (hstep : protocol.soloStep key solo move = some solo') :
    solo'.Holds invariant (moves ++ [move]) := by
  obtain ⟨row, places⟩ := solo
  cases row with
  | none =>
      obtain ⟨rfl, rfl⟩ : moves = [] ∧ places = [] := h
      cases move with
      | enter =>
          cases hstep
          exact henter
      | go place choice => simp [Protocol.soloStep] at hstep
  | some row =>
      cases move with
      | enter => cases hstep
      | go place choice =>
          simp only [Protocol.soloStep, Option.ite_none_right_eq_some,
            Option.map_eq_some_iff] at hstep
          obtain ⟨hmem, new, hnext, rfl⟩ := hstep
          have hkept : (protocol.act key place choice (fun _ => some row) key).isSome :=
            protocol.act_isSome place choice rfl
          obtain ⟨row', hact⟩ := Option.isSome_iff_exists.mp hkept
          simp only [Solo.Holds, hact]
          exact hgo h hmem hnext hact

omit [DecidableEq Key] in
theorem soloRun_holds {solo solo' : Solo Row Place} {done moves : List (Move Place Choice)}
    (hstep : ∀ {moves solo move solo'}, Solo.Holds invariant moves solo →
      protocol.soloStep key solo move = some solo' → Solo.Holds invariant (moves ++ [move]) solo')
    (h : solo.Holds invariant done) (hrun : protocol.soloRun key solo moves = some solo') :
    solo'.Holds invariant (done ++ moves) := by
  induction moves generalizing solo done with
  | nil =>
      cases hrun
      rwa [List.append_nil]
  | cons move moves ih =>
      obtain ⟨middle, hfirst, hrest⟩ := Option.bind_eq_some_iff.mp hrun
      rw [List.append_cons]
      exact ih (hstep h hfirst) hrest

-- What entering sets up and every move of a token keeps is true of each key that has
-- entered, whatever the other keys do.
theorem run_invariant (key : Key)
    (henter : invariant [.enter] protocol.firstRow [protocol.firstPlace])
    (hgo : ∀ {moves row places place choice new row'}, invariant moves row places →
      place ∈ places → protocol.next place choice = some new →
      protocol.act key place choice (fun _ => some row) key = some row' →
      invariant (moves ++ [.go place choice]) row' (new ++ places.erase place))
    (hrun : protocol.run .empty moves = some state) :
    (state.solo key).Holds invariant (ofKey key moves) := by
  have hfresh : (State.empty.solo key).Holds invariant [] := ⟨rfl, rfl⟩
  exact soloRun_holds (soloStep_holds henter hgo) hfresh (run_solo hrun key)

-- The same while every move of the key is one of the allowed ones.
theorem run_invariant_of {allowed : Place → Choice → Prop} (key : Key)
    (henter : invariant [.enter] protocol.firstRow [protocol.firstPlace])
    (hgo : ∀ {moves row places place choice new row'}, invariant moves row places →
      place ∈ places → allowed place choice → protocol.next place choice = some new →
      protocol.act key place choice (fun _ => some row) key = some row' →
      invariant (moves ++ [.go place choice]) row' (new ++ places.erase place))
    (hrun : protocol.run .empty moves = some state)
    (hallowed : ∀ place choice, (key, .go place choice) ∈ moves → allowed place choice) :
    (state.solo key).Holds invariant (ofKey key moves) := by
  have hholds : (state.solo key).Holds (fun moves row places =>
      (∀ place choice, .go place choice ∈ moves → allowed place choice) →
        invariant moves row places) (ofKey key moves) := by
    refine run_invariant key (fun _ => henter) ?_ hrun
    intro moves row places place choice new row' hinvariant hmem hnext hact hmoves
    refine hgo (hinvariant fun place choice hmove => ?_) hmem ?_ hnext hact
    · exact hmoves place choice (List.mem_append_left _ hmove)
    · exact hmoves place choice (List.mem_append_right _ (List.mem_singleton.mpr rfl))
  simp only [Solo.Holds] at hholds ⊢
  split at hholds
  · exact hholds
  · exact hholds fun place choice hmove => hallowed place choice (mem_ofKey.mp hmove)

end Invariant

-- A budget bounds the moves of one kind that a key makes: each such move spends one,
-- and no token leaves others more than it has itself.

def Move.is (kind : Place → Choice → Bool) : Move Place Choice → Bool
  | .enter => false
  | .go place choice => kind place choice

theorem run_countP_le {allowed : Place → Choice → Prop} (kind : Place → Choice → Bool)
    (budget : Place → Nat) (key : Key)
    (h : ∀ {place choice new}, allowed place choice → protocol.next place choice = some new →
      (kind place choice).toNat + (new.map budget).sum ≤ budget place)
    (hrun : protocol.run .empty moves = some state)
    (hallowed : ∀ place choice, (key, .go place choice) ∈ moves → allowed place choice) :
    (ofKey key moves).countP (Move.is kind) + ((ofKey key state.tokens).map budget).sum ≤
      budget protocol.firstPlace := by
  have hholds : (state.solo key).Holds (fun moves _ places =>
      moves.countP (Move.is kind) + (places.map budget).sum ≤ budget protocol.firstPlace)
      (ofKey key moves) := by
    refine run_invariant_of key (by simp [Move.is]) ?_ hrun hallowed
    intro moves row places place choice new row' hbound hmem hchoice hnext _
    have hplaces := ((List.perm_cons_erase hmem).map budget).sum_nat
    have hspent := h hchoice hnext
    have hmove : [Move.go place choice].countP (Move.is kind) = (kind place choice).toNat := by
      cases hkind : kind place choice <;> simp [Move.is, hkind]
    simp only [List.countP_append, hmove, List.map_append, List.sum_append, List.map_cons,
      List.sum_cons] at hplaces ⊢
    omega
  simp only [Solo.Holds, State.solo] at hholds
  split at hholds
  · simp [hholds]
  · exact hholds

-- With no kind of move to count, a budget bounds the tokens.
theorem run_budget_le {allowed : Place → Choice → Prop} (budget : Place → Nat) (key : Key)
    (h : ∀ {place choice new}, allowed place choice → protocol.next place choice = some new →
      (new.map budget).sum ≤ budget place)
    (hrun : protocol.run .empty moves = some state)
    (hallowed : ∀ place choice, (key, .go place choice) ∈ moves → allowed place choice) :
    ((ofKey key state.tokens).map budget).sum ≤ budget protocol.firstPlace := by
  have hbound := run_countP_le (fun _ _ => false) budget key
    (fun hchoice hnext => by simpa using h hchoice hnext) hrun hallowed
  omega

end ImgEngine.Library.Tokens
