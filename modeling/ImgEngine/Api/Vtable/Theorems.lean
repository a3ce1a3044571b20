import ImgEngine.Api.RunJob.Theorems
import ImgEngine.Api.Vtable

namespace ImgEngine.Api

open ImgEngine.Memory ImgEngine.Pipeline ImgEngine.Security

variable {F : Type} [FloatType F]

theorem imgApiRunJobSlots_eq (outside : Outside) (engine : Ptr)
    (inputPath outputPath : Option (List Char)) (job : Option (ImgJob F)) (heap : Heap) :
    imgApiRunJobSlots outside engine inputPath outputPath job heap =
      match checked outside engine inputPath outputPath job with
      | .error _ => []
      | .ok (arena, outputPath, job) =>
          .decode :: decodedSlots arena outputPath job (outside.decode heap) := by
  cases inputPath with
  | none => rfl
  | some inputPath =>
      cases outputPath with
      | none => rfl
      | some outputPath =>
          cases job with
          | none => rfl
          | some job =>
              simp only [imgApiRunJobSlots, checked]
              split_ifs
              · rfl
              · rfl
              · cases loadFileMmap outside with
                | error e => rfl
                | ok fileSize =>
                    simp only
                    cases imgSecurityValidateRequest 16384 16384 fileSize with
                    | error e => rfl
                    | ok admitted =>
                        simp only
                        cases imgArenaCreate outside.arenaMemory (1 * 1024 * 1024) with
                        | none => rfl
                        | some arena => rfl

-- A job looks at the codecs of its slots only.

section Footprint

structure AgreeOn (slots : List Slot) (outside outside' : Outside) : Prop where
  file : loadFileMmap outside' = loadFileMmap outside
  arena : outside'.arenaMemory = outside.arenaMemory
  output : outside'.outputOpened = outside.outputOpened
  decode : .decode ∈ slots → outside'.decode = outside.decode
  encode : .encode ∈ slots → outside'.encode = outside.encode
  encodePdf : .encodePdf ∈ slots → outside'.encodePdf = outside.encodePdf

variable {outside outside' : Outside} {slots : List Slot}

theorem encodeOutput_stable {outputPath : List Char} (h : AgreeOn slots outside outside')
    (hslots : encodeSlots outputPath ⊆ slots) (canvas : ImgCanvas) (dpi : UInt32) :
    encodeOutput outside' outputPath canvas dpi = encodeOutput outside outputPath canvas dpi := by
  unfold encodeOutput
  unfold encodeSlots at hslots
  by_cases hpdf : isPdfOutput outputPath = true
  · rw [if_pos hpdf] at hslots ⊢
    rw [if_pos hpdf, h.encodePdf (hslots List.mem_cons_self)]
  · rw [if_neg hpdf] at hslots ⊢
    rw [if_neg hpdf, h.encode (hslots List.mem_cons_self), h.output]

theorem layoutAndEncode_stable {arena : ImgArena} {outputPath : List Char} {job : ImgJob F}
    {photo : ImgBuffer} {canvas : ImgCanvas} {heap : Heap} (h : AgreeOn slots outside outside')
    (hslots : layoutAndEncodeSlots arena outputPath job photo canvas heap ⊆ slots) :
    layoutAndEncode outside' arena outputPath job photo canvas heap =
      layoutAndEncode outside arena outputPath job photo canvas heap := by
  simp only [layoutAndEncode, layoutAndEncodeSlots] at hslots ⊢
  cases hlaid : (imgLayoutGrid canvas photo job arena heap).1 with
  | error e => rfl
  | ok laid =>
      rw [hlaid] at hslots
      simp only at hslots ⊢
      cases hfinish : finishSheet laid.1.buf laid.2 job with
      | error e => rfl
      | ok buf =>
          rw [hfinish] at hslots
          simp only at hslots ⊢
          rw [encodeOutput_stable h hslots]

omit [FloatType F] in
theorem checked_stable {engine : Ptr} {inputPath outputPath : Option (List Char)}
    {job : Option (ImgJob F)} (h : AgreeOn slots outside outside') :
    checked outside' engine inputPath outputPath job =
      checked outside engine inputPath outputPath job := by
  simp only [checked, h.file, h.arena]

theorem afterDecode_stable {arena : ImgArena} {outputPath : List Char} {job : ImgJob F}
    {decoded : Except ImgError ImgBuffer × Heap} (h : AgreeOn slots outside outside')
    (hslots : decodedSlots arena outputPath job decoded ⊆ slots) :
    afterDecode outside' arena outputPath job decoded =
      afterDecode outside arena outputPath job decoded := by
  obtain ⟨_ | photo, heap⟩ := decoded
  · rfl
  · simp only [afterDecode]
    split
    · rfl
    · rfl
    · next hinit =>
        simp only [decodedSlots, hinit] at hslots
        rw [layoutAndEncode_stable h hslots]

theorem imgApiRunJob_stable {engine : Ptr} {inputPath outputPath : Option (List Char)}
    {job : Option (ImgJob F)} {heap : Heap}
    (h : AgreeOn (imgApiRunJobSlots outside engine inputPath outputPath job heap)
      outside outside') :
    imgApiRunJob outside' engine inputPath outputPath job heap =
      imgApiRunJob outside engine inputPath outputPath job heap := by
  rw [imgApiRunJob_eq, imgApiRunJob_eq, checked_stable h]
  rw [imgApiRunJobSlots_eq] at h
  cases hchecked : checked outside engine inputPath outputPath job with
  | error e => rfl
  | ok passed =>
      rw [hchecked] at h
      simp only at h ⊢
      rw [h.decode List.mem_cons_self]
      exact afterDecode_stable h (List.subset_cons_self _ _)

end Footprint

-- The decoder comes first.

section Slots

omit [FloatType F] in
theorem runJobAdmitted_iff {outside : Outside} {engine : Ptr}
    {inputPath outputPath : Option (List Char)} {job : Option (ImgJob F)} :
    Call.RunJobAdmitted outside engine inputPath outputPath job ↔
      ∃ passed, checked outside engine inputPath outputPath job = .ok passed := by
  constructor
  · intro h
    obtain ⟨path, hpath⟩ := Option.isSome_iff_exists.mp h.outputPath
    obtain ⟨given, hgiven, habi⟩ := h.job
    obtain ⟨memory, hmemory⟩ := Option.isSome_iff_exists.mp h.arena
    obtain ⟨arena, harena⟩ :
        ∃ arena, imgArenaCreate outside.arenaMemory (1 * 1024 * 1024) = some arena := by
      rw [hmemory]
      exact ⟨_, rfl⟩
    exact ⟨(arena, path, given), checked_ok_iff.mpr
      ⟨h.engine, h.inputPath, hpath, hgiven, habi, h.file, harena⟩⟩
  · intro h
    obtain ⟨⟨arena, path, given⟩, hchecked⟩ := h
    obtain ⟨hengine, hinput, hpath, hgiven, habi, hfile, harena⟩ :=
      checked_ok_iff.mp hchecked
    refine ⟨hengine, hinput, Option.isSome_iff_exists.mpr ⟨path, hpath⟩, ⟨given, hgiven, habi⟩,
      hfile, ?_⟩
    cases hmemory : outside.arenaMemory with
    | none =>
        rw [hmemory] at harena
        cases harena
    | some memory => rfl

theorem imgApiRunJobSlots_cases (outside : Outside) (engine : Ptr)
    (inputPath outputPath : Option (List Char)) (job : Option (ImgJob F)) (heap : Heap) :
    (Call.RunJobAdmitted outside engine inputPath outputPath job ∧
      (imgApiRunJobSlots outside engine inputPath outputPath job heap).head? = some .decode) ∨
    (¬Call.RunJobAdmitted outside engine inputPath outputPath job ∧
      imgApiRunJobSlots outside engine inputPath outputPath job heap = []) := by
  rw [runJobAdmitted_iff, imgApiRunJobSlots_eq]
  cases checked outside engine inputPath outputPath job with
  | error e => exact .inr ⟨by simp, rfl⟩
  | ok passed => exact .inl ⟨⟨passed, rfl⟩, rfl⟩

theorem slots_of_admitted {call : Call F} (h : call.Admitted) :
    ∃ rest, call.slots = .decode :: rest := by
  apply List.head?_eq_some_iff.mp
  cases call with
  | runJob outside engine inputPath outputPath job heap =>
      obtain ⟨-, hhead⟩ | ⟨hnot, -⟩ :=
        imgApiRunJobSlots_cases outside engine inputPath outputPath job heap
      · exact hhead
      · exact absurd h hnot
  | processRaw call =>
      simp only [Call.slots, imgApiProcessRawSlots]
      rw [if_neg (by simpa using h.1), h.2]
      cases call.decodes <;> rfl
  | processFast call =>
      simp only [Call.slots, imgApiProcessFastSlots]
      rw [if_neg (by simpa using h.1), h.2]
      rfl
  | init sandbox workers slab => exact absurd h not_false
  | shutdown engine => exact absurd h not_false
  | encodedFree ptr => exact absurd h not_false

theorem slots_of_not_admitted {call : Call F} (h : ¬call.Admitted) : call.slots = [] := by
  cases call with
  | runJob outside engine inputPath outputPath job heap =>
      obtain ⟨hadmitted, -⟩ | ⟨-, hnil⟩ :=
        imgApiRunJobSlots_cases outside engine inputPath outputPath job heap
      · exact absurd hadmitted h
      · exact hnil
  | processRaw call =>
      simp only [Call.slots, imgApiProcessRawSlots]
      by_cases hnull : call.engine = 0 ∨ call.input = 0 ∨ call.output = 0 ∨ call.outputSize = 0
      · rw [if_pos hnull]
      · rw [if_neg hnull]
        cases hgate : imgSecurityValidateRequest 4096 4096 call.inputSize with
        | error e => rfl
        | ok admitted => exact absurd ⟨by simpa using hnull, hgate⟩ h
  | processFast call =>
      simp only [Call.slots, imgApiProcessFastSlots]
      split_ifs with hnull
      · rfl
      · cases hgate : imgSecurityValidateRequest 4096 4096 call.inputSize with
        | error e => rfl
        | ok admitted => exact absurd ⟨by simpa using hnull, hgate⟩ h
  | init sandbox workers slab => rfl
  | shutdown engine => rfl
  | encodedFree ptr => rfl

end Slots

section Runs

variable {globals : Globals}

omit [FloatType F] in
theorem step_vtable (globals : Globals) (call : Call F) :
    (call.step globals).vtable = globals.vtable := by
  unfold Call.step
  split <;> rfl

-- img_api_init leaves the table as it finds it, which is empty.
theorem runCalls_nonnull_iff (hempty : globals.vtable = Globals.zero.vtable)
    (calls : List (Call F)) :
    (∀ fn ∈ runCalls globals calls, fn ≠ 0) ↔ ∀ call ∈ calls, ¬call.Admitted := by
  induction calls generalizing globals with
  | nil => simp [runCalls]
  | cons call calls ih =>
      rw [List.forall_mem_cons, runCalls, hempty]
      by_cases hadmitted : call.Admitted
      · obtain ⟨rest, hslots⟩ := slots_of_admitted hadmitted
        have hcrash : callThrough Globals.zero.vtable (.decode :: rest) = ([0], false) := rfl
        rw [hslots, hcrash]
        simp [hadmitted]
      · have hquiet : callThrough Globals.zero.vtable [] = ([], true) := rfl
        rw [slots_of_not_admitted hadmitted, hquiet]
        have hnext := ih ((step_vtable globals call).trans hempty)
        simpa [hadmitted] using hnext

theorem session_nonnull_iff (session : Session F) :
    (∀ fn ∈ runCalls .zero session.calls, fn ≠ 0) ↔ ∀ call ∈ session.calls, ¬call.Admitted :=
  runCalls_nonnull_iff rfl session.calls

-- With the table that img_engine_init leaves, no program calls a null pointer.

theorem callThrough_nonnull {vtable : ImgIoVtable} (hvtable : ∀ slot, vtable.fn slot ≠ 0)
    (slots : List Slot) : ∀ fn ∈ (callThrough vtable slots).1, fn ≠ 0 := by
  induction slots with
  | nil => simp [callThrough]
  | cons slot slots ih =>
      rw [callThrough, if_neg (hvtable slot)]
      exact List.forall_mem_cons.mpr ⟨hvtable slot, ih⟩

theorem runCalls_nonnull (hvtable : ∀ slot, globals.vtable.fn slot ≠ 0) (calls : List (Call F)) :
    ∀ fn ∈ runCalls globals calls, fn ≠ 0 := by
  induction calls generalizing globals with
  | nil => simp [runCalls]
  | cons call calls ih =>
      have hnext : ∀ slot, (call.step globals).vtable.fn slot ≠ 0 := by
        rw [step_vtable]
        exact hvtable
      rw [runCalls]
      intro fn hmem
      obtain hmem | hmem := List.mem_append.mp hmem
      · exact callThrough_nonnull hvtable call.slots fn hmem
      · split_ifs at hmem
        · exact ih hnext fn hmem
        · cases hmem

theorem runCalls_imgEngineInit_nonnull (codecs : Codecs) (calls : List (Call F)) :
    ∀ fn ∈ runCalls (imgEngineInit codecs globals) calls, fn ≠ 0 := by
  apply runCalls_nonnull
  intro slot
  cases slot with
  | decode => exact codecs.decode_ne
  | encode => exact codecs.encode_ne
  | encodePdf => exact codecs.encodePdf_ne

end Runs

-- The calls that the main program makes, with one worker.
def mainSession : Session Float32 where
  calls := [.init true 1 true,
    .runJob smallOutside 1 (some ['a']) (some ['b']) (some imgJobDefaults) apiHeap, .shutdown 1]
  starts := rfl
  beforeShutdown := rfl

theorem mainSession_callsNull :
    ¬∀ fn ∈ runCalls .zero mainSession.calls, fn ≠ 0 := by
  intro hnonnull
  have hcalled : runCalls .zero mainSession.calls = [0] := by decide +kernel
  rw [hcalled] at hnonnull
  exact hnonnull 0 List.mem_cons_self rfl

end ImgEngine.Api
