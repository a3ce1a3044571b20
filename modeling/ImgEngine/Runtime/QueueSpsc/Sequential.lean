import ImgEngine.Runtime.QueueSpsc.Theorems

namespace ImgEngine.Runtime.ImgSpsc

open ImgEngine.Library.Interleaving

variable {k : Nat} {q q' : ImgQueue} {result : Result}

-- A ring that no thread enters while another is in it is a bounded queue.

theorem access_loadTail (q : ImgQueue) (data : Ptr) (choice : Unit) :
    imgSpsc.access q (imgSpsc.start (.push data)) choice =
      (q, .inl (.push (.loadHead data q.tail))) := rfl

theorem access_full (hfull : q.next q.tail = q.head) (data : Ptr) (choice : Unit) :
    imgSpsc.access q (.push (.loadHead data q.tail)) choice = (q, .inr .full) := by
  simp [imgQueuePush, hfull]

theorem access_room (hroom : q.next q.tail ≠ q.head) (data : Ptr) (choice : Unit) :
    imgSpsc.access q (.push (.loadHead data q.tail)) choice =
      (q, .inl (.push (.writeSlot data q.tail))) := by
  simp [imgQueuePush, hroom]

theorem access_loadHead (q : ImgQueue) (choice : Unit) :
    imgSpsc.access q (imgSpsc.start .pop) choice = (q, .inl (.pop (.loadTail q.head))) := rfl

theorem access_empty (hempty : q.head = q.tail) (choice : Unit) :
    imgSpsc.access q (.pop (.loadTail q.head)) choice = (q, .inr .empty) := by
  simp [imgQueuePop, hempty]

theorem access_item (hne : q.head ≠ q.tail) (choice : Unit) :
    imgSpsc.access q (.pop (.loadTail q.head)) choice = (q, .inl (.pop (.readSlot q.head))) := by
  simp [imgQueuePop, hne]

theorem Ready.push_returns (h : Ready k q) {data : Ptr}
    (hreturn : imgSpsc.Returns q (imgSpsc.start (.push data)) q' result) :
    ((contents k q).length = 2 ^ k - 1 ∧ result = .full ∧ q' = q) ∨
    ((contents k q).length ≠ 2 ^ k - 1 ∧ result = .pushed ∧ Ready k q' ∧
      contents k q' = contents k q ++ [data]) := by
  have hload := hreturn.step (access_loadTail q data)
  by_cases hfull : q.next q.tail = q.head
  · obtain ⟨rfl, rfl⟩ := hload.stop (access_full hfull data)
    exact .inl ⟨h.full_iff.mp hfull, rfl, rfl⟩
  · have hwrite := hload.step (access_room hfull data)
    obtain ⟨rfl, rfl⟩ := (hwrite.step fun _ => rfl).stop fun _ => rfl
    let filled := { q with buffer := Function.update q.buffer q.tail data }
    have hfilled : Ready k filled := { h with }
    have hcontents : contents k filled = contents k q := h.writeSlot data (UInt32.le_refl _)
    have hslot : filled.buffer filled.tail = data := Function.update_self ..
    refine .inr ⟨fun hlength => hfull (h.full_iff.mpr hlength), rfl,
      imgQueuePush_ready hfilled (.storeTail data q.tail), ?_⟩
    exact (hfilled.storeTail hfull).trans (by rw [hcontents, hslot])

theorem Ready.pop_returns (h : Ready k q)
    (hreturn : imgSpsc.Returns q (imgSpsc.start .pop) q' result) :
    (contents k q = [] ∧ result = .empty ∧ q' = q) ∨
    ∃ item items, contents k q = item :: items ∧ result = .popped item ∧ Ready k q' ∧
      contents k q' = items := by
  have hload := hreturn.step (access_loadHead q)
  by_cases hempty : q.head = q.tail
  · obtain ⟨rfl, rfl⟩ := hload.stop (access_empty hempty)
    exact .inl ⟨h.empty_iff.mp hempty, rfl, rfl⟩
  · have hread := hload.step (access_item hempty)
    obtain ⟨rfl, rfl⟩ := (hread.step fun _ => rfl).stop fun _ => rfl
    exact .inr ⟨_, _, h.storeHead hempty, rfl,
      imgQueuePop_ready h (.storeHead q.head (q.buffer q.head)), rfl⟩

-- Either call returns after four accesses at most.
theorem alone_returns (q : ImgQueue) (op : Op) :
    ∃ next result, imgSpsc.alone () 4 q (imgSpsc.start op) = some (next, result) := by
  cases op with
  | push data =>
      by_cases hfull : q.next q.tail = q.head
      · exact ⟨q, .full, Program.alone_stop (access_full hfull data ()) 2⟩
      · exact ⟨_, .pushed, Program.alone_step (access_room hfull data ()) 2⟩
  | pop =>
      by_cases hempty : q.head = q.tail
      · exact ⟨q, .empty, Program.alone_stop (access_empty hempty ()) 2⟩
      · exact ⟨_, .popped (q.buffer q.head), Program.alone_step (access_item hempty ()) 2⟩

end ImgEngine.Runtime.ImgSpsc
