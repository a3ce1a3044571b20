import ImgEngine.Library.Interleaving

namespace ImgEngine.Library.Interleaving

variable {Shared Op Pc Result Choice : Type}

-- Calls made one after the other, each of them legal and alone, with their results.
inductive Program.Calls (program : Program Shared Op Pc Result Choice) (legal : Op → Prop)
    (first : Shared) : List (Op × Result) → Shared → Prop
  | none : Calls program legal first [] first
  | call {log shared op next result} (calls : Calls program legal first log shared)
      (hlegal : legal op) (hreturn : program.Returns shared (program.start op) next result) :
      Calls program legal first (log ++ [(op, result)]) next

-- A call that no other interrupts comes to its end when the choice is the same at
-- each access.
def Program.Finishes (program : Program Shared Op Pc Result Choice) (choice : Choice)
    (shared : Shared) (pc : Pc) : Prop :=
  ∃ fuel next result, program.alone choice fuel shared pc = some (next, result)

section Calls

variable {program : Program Shared Op Pc Result Choice} {legal : Op → Prop} {first shared : Shared}
  {log : List (Op × Result)} {choice : Choice} {pc : Pc}

theorem Program.Calls.invariant {I : List (Op × Result) → Shared → Prop}
    (calls : program.Calls legal first log shared) (hfirst : I [] first)
    (hcall : ∀ log shared op next result, I log shared → legal op →
      program.Returns shared (program.start op) next result → I (log ++ [(op, result)]) next) :
    I log shared := by
  induction calls with
  | none => exact hfirst
  | call calls hlegal hreturn ih => exact hcall _ _ _ _ _ ih hlegal hreturn

theorem Program.Finishes.returns (h : program.Finishes choice shared pc) :
    ∃ next result, program.Returns shared pc next result := by
  obtain ⟨fuel, next, result, halone⟩ := h
  exact ⟨next, result, Program.returns_of_alone halone⟩

theorem Program.finishes_step {next : Shared} {pc' : Pc}
    (haccess : program.access shared pc choice = (next, .inl pc'))
    (hnext : program.Finishes choice next pc') : program.Finishes choice shared pc := by
  obtain ⟨fuel, last, result, halone⟩ := hnext
  exact ⟨fuel + 1, last, result, (Program.alone_step haccess fuel).trans halone⟩

theorem Program.finishes_stop {next : Shared} {result : Result}
    (haccess : program.access shared pc choice = (next, .inr result)) :
    program.Finishes choice shared pc :=
  ⟨1, next, result, Program.alone_stop haccess 0⟩

end Calls

variable {Part PartOp PartPc PartResult PartChoice : Type}

-- One program inside another. At the places `wrap pc` the outer program makes the
-- accesses of the inner one to a part of its state, and goes on with `next` when the
-- inner one returns.
structure Program.Embeds (outer : Program Shared Op Pc Result Choice)
    (inner : Program Part PartOp PartPc PartResult PartChoice) (within : PartPc → Prop)
    (wrap : PartPc → Pc) (get : Shared → Part) (put : Shared → Part → Shared)
    (choose : Choice → PartChoice) (next : PartResult → Pc ⊕ Result) : Prop where
  get_put : ∀ shared part, get (put shared part) = part
  put_put : ∀ shared part part', put (put shared part) part' = put shared part'
  access : ∀ shared pc choice, within pc → outer.access shared (wrap pc) choice =
    (put shared (inner.access (get shared) pc (choose choice)).1,
      (inner.access (get shared) pc (choose choice)).2.elim (fun pc => .inl (wrap pc)) next)
  closed : ∀ part pc choice pc', within pc → (inner.access part pc choice).2 = .inl pc' →
    within pc'

section Embeds

variable {outer : Program Shared Op Pc Result Choice}
  {inner : Program Part PartOp PartPc PartResult PartChoice} {within : PartPc → Prop}
  {wrap : PartPc → Pc} {get : Shared → Part} {put : Shared → Part → Shared}
  {choose : Choice → PartChoice} {next : PartResult → Pc ⊕ Result}

-- A call that returns from inside the inner program has returned from it first.
theorem Program.Embeds.returns (h : outer.Embeds inner within wrap get put choose next)
    {shared shared' : Shared} {p : Pc} {result : Result}
    (hreturn : outer.Returns shared p shared' result) :
    ∀ pc : PartPc, p = wrap pc → within pc →
      ∃ part partResult, inner.Returns (get shared) pc part partResult ∧
        ((next partResult = .inr result ∧ shared' = put shared part) ∨
          ∃ p', next partResult = .inl p' ∧ outer.Returns (put shared part) p' shared' result) := by
  induction hreturn with
  | @last shared p shared' result choice haccess =>
      rintro pc rfl hwithin
      rw [h.access shared pc choice hwithin] at haccess
      cases hinner : inner.access (get shared) pc (choose choice) with
      | mk part outcome =>
          rw [hinner] at haccess
          cases outcome with
          | inl pc' => cases (Prod.mk.inj haccess).2
          | inr partResult =>
              obtain ⟨rfl, hnext⟩ := Prod.mk.inj haccess
              exact ⟨part, partResult, .last (choose choice) hinner, .inl ⟨hnext, rfl⟩⟩
  | @more shared p target p' shared' result choice haccess rest ih =>
      rintro pc rfl hwithin
      rw [h.access shared pc choice hwithin] at haccess
      cases hinner : inner.access (get shared) pc (choose choice) with
      | mk part outcome =>
          rw [hinner] at haccess
          cases outcome with
          | inl pc' =>
              obtain ⟨rfl, hwrap⟩ := Prod.mk.inj haccess
              have hwithin' := h.closed (get shared) pc (choose choice) pc' hwithin
                (congrArg Prod.snd hinner)
              obtain ⟨last, partResult, hreturn, hend⟩ := ih pc' (Sum.inl.inj hwrap).symm hwithin'
              rw [h.get_put] at hreturn
              rw [h.put_put] at hend
              exact ⟨last, partResult, .more (choose choice) hinner hreturn, hend⟩
          | inr partResult =>
              obtain ⟨rfl, hnext⟩ := Prod.mk.inj haccess
              exact ⟨part, partResult, .last (choose choice) hinner, .inr ⟨p', hnext, rest⟩⟩

-- Where the outer program returns as soon as the inner one does.
theorem Program.Embeds.returns_of_ends {ends : PartResult → Result}
    (h : outer.Embeds inner within wrap get put choose fun partResult => .inr (ends partResult))
    {shared shared' : Shared} {pc : PartPc} {result : Result} (hwithin : within pc)
    (hreturn : outer.Returns shared (wrap pc) shared' result) :
    ∃ part partResult, inner.Returns (get shared) pc part partResult ∧
      result = ends partResult ∧ shared' = put shared part := by
  obtain ⟨part, partResult, hinner, hend⟩ := h.returns hreturn pc rfl hwithin
  obtain ⟨hstop, rfl⟩ | ⟨p, hgo, -⟩ := hend
  · exact ⟨part, partResult, hinner, (Sum.inr.inj hstop).symm, rfl⟩
  · cases hgo

-- A call comes to its end if the inner program does, and the outer one after that.
theorem Program.Embeds.finishes (h : outer.Embeds inner within wrap get put choose next)
    {choice : Choice} {fuel : Nat} {part : Part} {partResult : PartResult} :
    ∀ {shared : Shared} (pc : PartPc), within pc →
      inner.alone (choose choice) fuel (get shared) pc = some (part, partResult) →
      (∀ p, next partResult = .inl p → outer.Finishes choice (put shared part) p) →
      outer.Finishes choice shared (wrap pc) := by
  induction fuel with
  | zero =>
      intro shared pc _ halone
      cases halone
  | succ fuel ih =>
      intro shared pc hwithin halone hrest
      have haccess := h.access shared pc choice hwithin
      rw [Program.alone] at halone
      cases hinner : inner.access (get shared) pc (choose choice) with
      | mk target outcome =>
          rw [hinner] at halone haccess
          cases outcome with
          | inl pc' =>
              have hwithin' := h.closed (get shared) pc (choose choice) pc' hwithin
                (congrArg Prod.snd hinner)
              refine Program.finishes_step haccess (ih pc' hwithin' ?_ ?_)
              · rw [h.get_put]
                exact halone
              · rw [h.put_put]
                exact hrest
          | inr partResult' =>
              cases halone
              cases hnext : next partResult with
              | inl p =>
                  have hgo : outer.access shared (wrap pc) choice = (put shared part, .inl p) := by
                    rw [haccess]
                    exact congrArg (Prod.mk (put shared part)) hnext
                  exact Program.finishes_step hgo (hrest p hnext)
              | inr result =>
                  have hstop : outer.access shared (wrap pc) choice =
                      (put shared part, .inr result) := by
                    rw [haccess]
                    exact congrArg (Prod.mk (put shared part)) hnext
                  exact Program.finishes_stop hstop

end Embeds

end ImgEngine.Library.Interleaving
