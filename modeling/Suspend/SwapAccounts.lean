import Suspend.Foundation.Supply
import Suspend.Fragments
import Suspend.SwapSupply

set_option autoImplicit false

namespace Suspend

open Foundation.Cells Foundation.Supply

theorem getSwapPage_takes (offset : Int) (rest : Grants) :
    Takes getSwapPage (· = 0) (offset :: rest) [offset] where
  split := rfl
  enough := fun _ => rfl
  fewer := by
    intro part short different
    cases part with
    | nil => rfl
    | cons first others =>
        obtain ⟨rfl, tail⟩ := List.cons_prefix_cons.mp short
        rw [List.prefix_nil.mp tail] at different
        exact absurd rfl different

/-- An allocation as a call to the kernel. -/
def Allocation.answer (result : Allocation) : (Int × Table × Int) × Grants :=
  ((result.ret, result.table, result.size), result.grants)

theorem allocLoop_more {page : PageSize} {total size : Int} {count : Nat}
    (more : size < total ∧ count ≤ page.maxExtents) (grants : Grants) (table : Table) :
    allocLoop page total grants table count size =
      if (getSwapPage grants).1 = 0 then ⟨-ENOSPC, table, total, (getSwapPage grants).2⟩
      else allocLoop page total (getSwapPage grants).2
        (enterPage page table count (getSwapPage grants).1).1
        (enterPage page table count (getSwapPage grants).1).2 (size + page.bytes) := by
  cases grants with
  | nil => rw [allocLoop, if_pos more]; rfl
  | cons offset rest => rw [allocLoop, if_pos more]; rfl

theorem allocLoop_stop {page : PageSize} {total size : Int} {count : Nat}
    (done : ¬ (size < total ∧ count ≤ page.maxExtents)) (table : Table) (grants : Grants) :
    (allocLoop page total grants table count size).answer =
    (((count : Int), table, size), grants) := by
  cases grants <;> rw [allocLoop, if_neg done] <;> rfl

theorem allocLoop_takes (page : PageSize) (total : Int) {grants : Grants} {table : Table}
    {count : Nat} {size : Int} (success : 0 < (allocLoop page total grants table count size).ret) :
    ∃ used, Takes (fun grants => (allocLoop page total grants table count size).answer)
      (fun result => result.1 = -ENOSPC) grants used := by
  by_cases more : size < total ∧ count ≤ page.maxExtents
  · induction grants generalizing table count size with
    | nil =>
        rw [allocLoop, if_pos more] at success
        cases success
    | cons offset rest ih =>
        have refused : offset ≠ 0 := by
          rintro rfl
          rw [allocLoop, if_pos more, if_pos rfl] at success
          cases success
        rw [allocLoop, if_pos more, if_neg refused] at success
        have later : ∃ used, Takes (fun grants => (allocLoop page total grants
            (enterPage page table count offset).1 (enterPage page table count offset).2
              (size + page.bytes)).answer) (fun result => result.1 = -ENOSPC) rest used := by
          by_cases further : size + page.bytes < total ∧
              (enterPage page table count offset).2 ≤ page.maxExtents
          · exact ih success further
          · exact ⟨[], Takes.nothing (allocLoop_stop further _)⟩
        obtain ⟨used, later⟩ := later
        refine ⟨[offset] ++ used, Takes.congr ((getSwapPage_takes offset rest).bind
          (fun offset grants => (if offset = 0 then ⟨-ENOSPC, table, total, grants⟩ else
            allocLoop page total grants (enterPage page table count offset).1
              (enterPage page table count offset).2 (size + page.bytes) : Allocation).answer)
          ?_ (later.congr fun grants => congrArg Allocation.answer (if_neg refused))) ?_⟩
        · intro part none
          rw [if_pos none]
          rfl
        · exact fun grants => congrArg Allocation.answer (allocLoop_more more grants table)
  · exact ⟨[], Takes.nothing (allocLoop_stop more _)⟩

theorem allocSwap_takes (page : PageSize) {grants : Grants} {table : Table} {count : Nat}
    {size : Int} (success : 0 < (allocSwap page grants table count size).ret) :
    ∃ used, Takes (fun grants => (allocSwap page grants table count size).answer)
      (fun result => result.1 = -ENOSPC) grants used := by
  by_cases initial : count = 0
  · subst initial
    cases grants with
    | nil => cases success
    | cons offset rest =>
        have refused : offset ≠ 0 := by
          rintro rfl
          cases success
        have begun : allocSwap page (offset :: rest) table 0 size = allocLoop page size rest
            (Function.update table 0 ⟨offset, offset + page.bytes⟩) 1 page.bytes := if_neg refused
        rw [begun] at success
        obtain ⟨used, later⟩ := allocLoop_takes page size success
        refine ⟨[offset] ++ used, Takes.congr ((getSwapPage_takes offset rest).bind
          (fun offset grants => (if offset = 0 then ⟨-ENOSPC, table, size, grants⟩ else
            allocLoop page size grants (Function.update table 0 ⟨offset, offset + page.bytes⟩) 1
              page.bytes : Allocation).answer)
          ?_ (later.congr fun grants => congrArg Allocation.answer (if_neg refused))) ?_⟩
        · intro part none
          rw [if_pos none]
          rfl
        · exact fun grants => rfl
  · unfold allocSwap at success ⊢
    simp only [if_neg initial] at success ⊢
    exact allocLoop_takes page size success

namespace SwapWriter

variable {Page : Type} {page : PageSize} {doCompress : Bool}

/-- A call with a writer as a call to the kernel. -/
def drawing {Result : Type} (call : SwapWriter Page → Result × SwapWriter Page)
    (handle : SwapWriter Page) (grants : Grants) : (Result × SwapWriter Page) × Grants :=
  let result := call { handle with dev := grants }
  ((result.1, { result.2 with dev := [] }), result.2.dev)

theorem drawing_bind {Result Other : Type} {call : SwapWriter Page → Result × SwapWriter Page}
    (next : Result → SwapWriter Page → Other × SwapWriter Page) {handle : SwapWriter Page}
    (fails : Result → Prop) (failing : Other → Prop) {used more : Grants}
    (takes : Takes (drawing call handle) (fun result => fails result.1) handle.dev used)
    (stops : ∀ result writer, fails result → failing (next result writer).1)
    (later : Takes (drawing (next (call handle).1) (call handle).2)
      (fun result => failing result.1) (call handle).2.dev more) :
    Takes (drawing (fun handle => next (call handle).1 (call handle).2) handle)
      (fun result => failing result.1) handle.dev (used ++ more) :=
  takes.bind (fun result grants => drawing (next result.1) result.2 grants)
    (fun _ failed => stops _ _ failed) later

theorem preallocateSwap_takes {handle : SwapWriter Page}
    (success : (preallocateSwap page doCompress handle).1 ≠ 0) :
    ∃ used, Takes (drawing (preallocateSwap page doCompress) handle) (fun result => result.1 = 0)
      handle.dev used := by
  have more : ¬ handle.swapNeeded < page.bytes := by
    intro small
    rw [preallocateSwap, if_pos small] at success
    exact success rfl
  have allocated : 0 < (allocSwap page handle.dev handle.extents handle.nrExtents
      (request page doCompress handle.swapNeeded)).ret := by
    by_contra failed
    rw [preallocateSwap, if_neg more] at success
    exact success (congrArg Prod.fst (if_pos (by omega)))
  obtain ⟨used, takes⟩ := allocSwap_takes page allocated
  let view (result : Int × Table × Int) : Int × SwapWriter Page :=
    let handle := { handle with dev := [], extents := result.2.1 }
    if result.1 ≤ 0 then (0, handle)
    else ((result.2.1 0).start, { handle with
      nrExtents := min result.1.toNat page.maxExtents
      curExtentIdx := 0
      curOffset := (result.2.1 0).start })
  have mapped : Takes (fun grants => (view (allocSwap page grants handle.extents handle.nrExtents
      (request page doCompress handle.swapNeeded)).answer.1, (allocSwap page grants handle.extents
        handle.nrExtents (request page doCompress handle.swapNeeded)).answer.2))
      (fun result => result.1 = 0) handle.dev used := by
    apply takes.map
    intro result failed
    have none : result.1 ≤ 0 := by
      rw [failed]
      decide
    exact congrArg Prod.fst (if_pos none)
  refine ⟨used, mapped.congr fun grants => ?_⟩
  simp only [drawing, preallocateSwap, if_neg more, view, Allocation.answer]
  split <;> rfl

theorem saveExtents_takes {handle : SwapWriter Page}
    (success : (saveExtents page handle false).1 = 0) :
    ∃ offset, Takes (drawing (fun handle => saveExtents page handle false) handle)
      (fun result => result.1 ≠ 0) handle.dev [offset] := by
  obtain ⟨offset, rest, answers, some, -, -⟩ := saveExtents_success success
  let view (offset : Int) : Int × SwapWriter Page :=
    if offset = 0 then (-ENOSPC, { handle with dev := [] })
    else
      let table := Function.update handle.extents page.maxExtents
        { handle.extents page.maxExtents with start := offset }
      let written := handle.fd.writePage (.extents table) handle.extentsSpc
      (written.1,
      { handle with dev := [], extents := table, fd := written.2, extentsSpc := offset })
  have mapped : Takes (fun grants => (view (getSwapPage grants).1, (getSwapPage grants).2))
      (fun result => result.1 ≠ 0) handle.dev [offset] := by
    rw [answers]
    apply (getSwapPage_takes offset rest).map
    rintro _ rfl
    simp [view, ENOSPC]
  refine ⟨offset, mapped.congr fun grants => ?_⟩
  simp only [drawing, saveExtents, Bool.false_eq_true, ↓reduceIte, view]
  split <;> rfl

/-- The extent behind the table that is carried over to the next one, or an empty one. -/
def carried (handle : SwapWriter Page) : Extent :=
  let current := handle.extents handle.curExtentIdx
  if current.start < current.stop then current else Extent.zero

/-- The table that is saved before the next one is filled. -/
def cleared (handle : SwapWriter Page) : SwapWriter Page :=
  let current := handle.extents handle.curExtentIdx
  if current.start < current.stop then
    { handle with
      extents := Function.update handle.extents handle.curExtentIdx Extent.zero
      nrExtents := 1 }
  else { handle with nrExtents := 0 }

theorem nextTable_eq (handle : SwapWriter Page) : nextTable page doCompress handle =
    if (handle.cleared.saveExtents page false).1 ≠ 0 then
      (0, (handle.cleared.saveExtents page false).2)
    else
      preallocateSwap page doCompress { (handle.cleared.saveExtents page false).2 with
        extents := Function.update Table.zero 0 handle.carried } := rfl

theorem nextTable_takes {handle : SwapWriter Page}
    (success : (nextTable page doCompress handle).1 ≠ 0) :
    ∃ used, Takes (drawing (nextTable page doCompress) handle) (fun result => result.1 = 0)
      handle.dev used := by
  have saved : (handle.cleared.saveExtents page false).1 = 0 := by
    by_contra failed
    rw [nextTable_eq, if_pos failed] at success
    exact success rfl
  rw [nextTable_eq, if_neg (not_not_intro saved)] at success
  obtain ⟨offset, first⟩ := saveExtents_takes saved
  obtain ⟨used, second⟩ := preallocateSwap_takes success
  have same (grants : Grants) : ({ handle with dev := grants } : SwapWriter Page).cleared =
      { handle.cleared with dev := grants } := by
    unfold cleared
    dsimp only
    split <;> rfl
  have dev : handle.cleared.dev = handle.dev := by
    unfold cleared
    dsimp only
    split <;> rfl
  let next (result : Int) (writer : SwapWriter Page) : Int × SwapWriter Page :=
    if result ≠ 0 then (0, writer)
    else preallocateSwap page doCompress { writer with
      extents := Function.update Table.zero 0 handle.carried }
  have later : Takes (drawing (next (handle.cleared.saveExtents page false).1)
      (handle.cleared.saveExtents page false).2) (fun result => result.1 = 0)
      (handle.cleared.saveExtents page false).2.dev used := by
    apply second.congr
    intro grants
    simp only [drawing, next, saved, ne_eq, not_true_eq_false, ↓reduceIte]
  have bound := drawing_bind next (· ≠ 0) (· = 0) first
    (fun result writer failed => congrArg Prod.fst (if_pos failed)) later
  rw [dev] at bound
  refine ⟨[offset] ++ used, bound.congr fun grants => ?_⟩
  dsimp only [drawing]
  rw [nextTable_eq, same]
  rfl

theorem nextSwapPage_takes {handle : SwapWriter Page}
    (success : (nextSwapPage page doCompress handle).1 ≠ 0) :
    ∃ used, Takes (drawing (nextSwapPage page doCompress) handle) (fun result => result.1 = 0)
      handle.dev used := by
  by_cases same : handle.curOffset + page.bytes < (handle.extents handle.curExtentIdx).stop
  · have within (grants : Grants) : drawing (nextSwapPage page doCompress) handle grants =
        ((handle.curOffset + page.bytes,
          { handle with curOffset := handle.curOffset + page.bytes, dev := [] }), grants) := by
      simp only [drawing, nextSwapPage, if_pos same]
    exact ⟨[], Takes.nothing within⟩
  · by_cases inside : handle.curExtentIdx + 1 < handle.nrExtents
    · have forward (grants : Grants) : drawing (nextSwapPage page doCompress) handle grants =
          (((handle.extents (handle.curExtentIdx + 1)).start, { handle with
            curExtentIdx := handle.curExtentIdx + 1
            curOffset := (handle.extents (handle.curExtentIdx + 1)).start
            dev := [] }), grants) := by
        simp only [drawing, nextSwapPage, if_neg same, if_pos inside]
      exact ⟨[], Takes.nothing forward⟩
    · rw [nextSwapPage] at success
      dsimp only at success
      rw [if_neg same, if_neg inside] at success
      obtain ⟨used, takes⟩ := nextTable_takes success
      refine ⟨used, takes.congr fun grants => ?_⟩
      simp only [drawing, nextSwapPage, if_neg same, if_neg inside]

theorem savePage_takes {handle : SwapWriter Page} {src : Page}
    (success : (savePage page doCompress handle src).1 = 0) :
    ∃ used, Takes (drawing (fun handle => savePage page doCompress handle src) handle)
      (fun result => result.1 = -ENOSPC) handle.dev used := by
  obtain ⟨used, first⟩ := nextSwapPage_takes (savePage_success success).1
  have some := (savePage_success success).1
  let next (offset : Int) (writer : SwapWriter Page) : Int × SwapWriter Page :=
    if offset = 0 then (-ENOSPC, writer)
    else
      let written := writer.fd.writePage (.data src) offset
      if written.1 ≠ 0 then (written.1, { writer with fd := written.2 })
      else (0, { writer with
        fd := written.2
        swapNeeded := writer.swapNeeded - page.bytes
        writtenData := writer.writtenData + page.bytes })
  have writes (offset : Int) (writer : SwapWriter Page) (answers : Grants) :
      drawing (next offset) writer answers =
        (((next offset writer).1, { (next offset writer).2 with dev := [] }), answers) := by
    simp only [drawing, next]
    split
    · rfl
    · split <;> rfl
  have bound := drawing_bind next (· = 0) (· = -ENOSPC) first
    (fun result writer failed => congrArg Prod.fst (if_pos failed))
    (Takes.nothing (writes _ _))
  rw [List.append_nil] at bound
  exact ⟨used, bound⟩

theorem savePages_takes {handle : SwapWriter Page} {srcs : List Page}
    (success : (savePages page doCompress handle srcs).1 = 0) :
    ∃ used, Takes (drawing (fun handle => ((savePages page doCompress handle srcs).1,
        (savePages page doCompress handle srcs).2.2)) handle)
      (fun result => result.1 = -ENOSPC) handle.dev used := by
  induction srcs generalizing handle with
  | nil =>
      have none (grants : Grants) : drawing (fun handle => ((savePages page doCompress handle []).1,
          (savePages page doCompress handle []).2.2)) handle grants =
            ((0, { handle with dev := [] }), grants) := rfl
      exact ⟨[], Takes.nothing none⟩
  | cons src rest ih =>
      have saved : (savePage page doCompress handle src).1 = 0 := by
        by_contra failed
        rw [savePages] at success
        dsimp only at success
        rw [if_pos failed] at success
        exact failed success
      rw [savePages] at success
      dsimp only at success
      rw [if_neg (not_not_intro saved)] at success
      obtain ⟨used, first⟩ := savePage_takes saved
      obtain ⟨more, later⟩ := ih success
      let next (error : Int) (writer : SwapWriter Page) : Int × SwapWriter Page :=
        if error ≠ 0 then (error, writer)
        else ((savePages page doCompress writer rest).1,
          (savePages page doCompress writer rest).2.2)
      have second : Takes (drawing (next (savePage page doCompress handle src).1)
          (savePage page doCompress handle src).2) (fun result => result.1 = -ENOSPC)
          (savePage page doCompress handle src).2.dev more := by
        apply later.congr
        intro grants
        simp only [drawing, next, saved, ne_eq, not_true_eq_false, ↓reduceIte]
      have bound := drawing_bind next (· = -ENOSPC) (· = -ENOSPC) first
        (by
          rintro result writer rfl
          exact congrArg Prod.fst (if_pos (by decide))) second
      refine ⟨used ++ more, bound.congr fun grants => ?_⟩
      simp only [drawing, savePages, next]
      split <;> rfl

variable (page doCompress) in
/-- The writer that `next_swap_page` calls `preallocate_swap` with, if it gets there. -/
def refill (handle : SwapWriter Page) : Option (SwapWriter Page) :=
  let offset := handle.curOffset + page.bytes
  if offset < (handle.extents handle.curExtentIdx).stop then none
  else
    let index := handle.curExtentIdx + 1
    if index < handle.nrExtents then none
    else
      let handle := { handle with curExtentIdx := index, curOffset := offset }
      let saved := handle.cleared.saveExtents page false
      if saved.1 ≠ 0 then none
      else some { saved.2 with extents := Function.update Table.zero 0 handle.carried }

variable (page doCompress) in
/-- The number of pages that `alloc_swap` obtains when `preallocate_swap` calls it. -/
def obtains (handle : SwapWriter Page) : Nat :=
  handle.dev.length - (preallocateSwap page doCompress handle).2.dev.length

variable (page doCompress) in
/-- The number of pages that it obtains for all tables but the first one. -/
def obtained : SwapWriter Page → List Page → Nat
  | _, [] => 0
  | handle, src :: rest =>
      let saved := savePage page doCompress handle src
      (refill page handle).elim 0 (obtains page doCompress) +
        if saved.1 ≠ 0 then 0 else obtained saved.2 rest

theorem obtains_eq {handle : SwapWriter Page}
    (success : (preallocateSwap page doCompress handle).1 ≠ 0) :
    handle.dev.length = obtains page doCompress handle +
      (preallocateSwap page doCompress handle).2.dev.length := by
  obtain ⟨used, takes⟩ := preallocateSwap_takes success
  have split := congrArg List.length takes.split
  rw [List.length_append] at split
  have rest : (drawing (preallocateSwap page doCompress) handle handle.dev).2 =
      (preallocateSwap page doCompress handle).2.dev := rfl
  rw [rest] at split
  rw [obtains, split]
  omega

/-- What a call of `next_swap_page` takes: the pages of a batch, and one for its table. -/
theorem nextSwapPage_dev {handle : SwapWriter Page}
    (success : (nextSwapPage page doCompress handle).1 ≠ 0) :
    handle.dev.length + handle.fd.tablesWritten.length =
      (refill page handle).elim 0 (obtains page doCompress) +
        (nextSwapPage page doCompress handle).2.dev.length +
          (nextSwapPage page doCompress handle).2.fd.tablesWritten.length := by
  unfold nextSwapPage refill at *
  dsimp only at success ⊢
  by_cases same : handle.curOffset + page.bytes < (handle.extents handle.curExtentIdx).stop
  · simp only [if_pos same, Option.elim_none, Nat.zero_add]
  · simp only [if_neg same] at success ⊢
    by_cases inside : handle.curExtentIdx + 1 < handle.nrExtents
    · simp only [if_pos inside, Option.elim_none, Nat.zero_add]
    · simp only [if_neg inside] at success ⊢
      generalize hleft : { handle with
        curExtentIdx := handle.curExtentIdx + 1
        curOffset := handle.curOffset + page.bytes } = left at success ⊢
      have dev : left.cleared.dev = handle.dev := by
        subst hleft
        unfold cleared
        dsimp only
        split <;> rfl
      have fd : left.cleared.fd = handle.fd := by
        subst hleft
        unfold cleared
        dsimp only
        split <;> rfl
      rw [nextTable_eq] at success ⊢
      by_cases saved : (left.cleared.saveExtents page false).1 = 0
      · rw [if_neg (not_not_intro saved)] at success
        rw [if_neg (not_not_intro saved), if_neg (not_not_intro saved), Option.elim_some,
          preallocateSwap_fd]
        obtain ⟨offset, rest, answers, _, _, after⟩ := saveExtents_success saved
        have granted : handle.dev.length =
            (left.cleared.saveExtents page false).2.dev.length + 1 := by
          rw [after, ← dev, answers]
          rfl
        have written : (left.cleared.saveExtents page false).2.fd.tablesWritten.length =
            handle.fd.tablesWritten.length + 1 := by
          rw [after, ← fd]
          dsimp only
          rw [(Device.append_extents_written _ _ _).1, List.length_append, List.length_singleton]
        have counted := obtains_eq success
        dsimp only at counted ⊢
        rw [granted, written]
        omega
      · rw [if_pos saved] at success
        exact absurd rfl success

theorem savePages_dev {handle : SwapWriter Page} {srcs : List Page}
    (success : (savePages page doCompress handle srcs).1 = 0) :
    handle.dev.length + handle.fd.tablesWritten.length = obtained page doCompress handle srcs +
      (savePages page doCompress handle srcs).2.2.dev.length +
        (savePages page doCompress handle srcs).2.2.fd.tablesWritten.length := by
  induction srcs generalizing handle with
  | nil => simp only [savePages, obtained, Nat.zero_add]
  | cons src rest ih =>
      have saved : (savePage page doCompress handle src).1 = 0 := by
        by_contra failed
        rw [savePages] at success
        dsimp only at success
        rw [if_pos failed] at success
        exact failed success
      rw [savePages] at success ⊢
      rw [obtained]
      dsimp only at success ⊢
      rw [if_neg (not_not_intro saved)] at success
      rw [if_neg (not_not_intro saved), if_neg (not_not_intro saved)]
      dsimp only
      obtain ⟨handed, after⟩ := savePage_success saved
      have here := nextSwapPage_dev handed
      have later := ih success
      have dev := congrArg SwapWriter.dev after
      have tables := congrArg (fun writer => writer.fd.tablesWritten) after
      dsimp only at dev tables
      rw [(Device.append_data_written _ _ _).1] at tables
      rw [dev, tables] at later
      rw [here]
      omega

/-- A batch of an uncompressed save: at most the pages that are needed, and all of them unless the
table is full. -/
theorem preallocateSwap_plain {handle : SwapWriter Page} {left : Nat}
    (sorted : Sorted page handle.extents handle.nrExtents)
    (room : handle.nrExtents ≤ page.maxExtents)
    (empty : handle.extents page.maxExtents = Extent.zero)
    (aligned : ∀ offset ∈ handle.dev, 0 ≤ offset ∧ (page.bytes : Int) ∣ offset)
    (distinct : (handle.dev ++ tablePages page handle.extents handle.nrExtents).Nodup)
    (needed : handle.swapNeeded = page.offset left) (some : 0 < left)
    (success : (preallocateSwap page false handle).1 ≠ 0) :
    let after := (preallocateSwap page false handle).2
    (tablePages page after.extents after.nrExtents).length + (after.spare page).length =
        obtains page false handle + (tablePages page handle.extents handle.nrExtents).length ∧
      obtains page false handle ≤ left ∧
      ((after.spare page).length = 0 ∧ obtains page false handle = left ∨
        (after.spare page).length = 1) ∧
      ((after.spare page).length = 0 ↔ ∀ some ≤ left, fragments page (handle.dev.take some ++
        tablePages page handle.extents handle.nrExtents) ≤ page.maxExtents) := by
  have width : (0 : Int) < page.bytes := by exact_mod_cast page.bytes_pos
  have counted := obtains_eq success
  have more : ¬ handle.swapNeeded < page.bytes := by
    intro small
    rw [preallocateSwap, if_pos small] at success
    exact success rfl
  unfold preallocateSwap at success counted ⊢
  rw [if_neg more] at success counted ⊢
  have asked : request page false handle.swapNeeded = page.bytes * left := by
    rw [request, if_neg (by simp), needed, PageSize.offset]
  rw [asked] at success counted ⊢
  dsimp only at success counted ⊢
  by_cases failed : (allocSwap page handle.dev handle.extents handle.nrExtents
      (page.bytes * left)).ret ≤ 0
  · rw [if_pos failed] at success
    exact absurd rfl success
  rw [if_neg failed] at counted ⊢
  obtain ⟨taken, total, allocated⟩ := allocSwap_spec page handle.dev handle.extents
    handle.nrExtents (page.bytes * left) sorted room aligned distinct (by omega)
  obtain ⟨⟨reached, few, sized⟩, fits⟩ := allocSwap_room page some handle.dev handle.extents
    handle.nrExtents sorted room aligned distinct (by omega)
  generalize allocSwap page handle.dev handle.extents handle.nrExtents (page.bytes * left) =
    result at *
  dsimp only at counted ⊢
  have many : obtains page false handle = taken.length := by
    have split := congrArg List.length allocated.answers
    rw [List.length_append] at split
    omega
  have within : taken.length = reached := by
    have sizes := allocated.size
    rw [sized, Int.zero_add] at sizes
    exact_mod_cast (Int.eq_of_mul_eq_mul_left (Int.ne_of_gt width) sizes).symm
  have pages := allocated.pages.length_eq
  rw [List.length_append] at pages
  rw [allocated.ret, Int.toNat_natCast, many]
  rw [allocated.ret, Int.ofNat_le] at fits
  by_cases full : total = page.maxExtents + 1
  · obtain ⟨last, _, slot⟩ := allocated.overflow full
    have one : (Extent.pages page (result.table page.maxExtents)).length = 1 := by
      rw [slot, Extent.pages_single, List.length_singleton]
    rw [full, tablePages_succ, List.length_append] at pages
    rw [← fits, full, Nat.min_eq_right (Nat.le_succ _), spare]
    dsimp only
    exact ⟨pages, within ▸ few, Or.inr one, by omega⟩
  · have bounded := allocated.bounded
    have below : total ≤ page.maxExtents := by omega
    have none : (Extent.pages page (result.table page.maxExtents)).length = 0 := by
      rw [allocated.spare below, empty, Extent.zero_pages, List.length_nil]
    have all : left ≤ taken.length := by
      have enough := allocated.enough below
      rw [sized, within] at *
      exact_mod_cast Int.le_of_mul_le_mul_left enough width
    rw [← fits, Nat.min_eq_left below, spare]
    dsimp only
    rw [none]
    exact ⟨pages, within ▸ few, Or.inl ⟨rfl, by omega⟩, by simp [below]⟩

theorem Filled.full {handle : SwapWriter Page} (filled : Filled page handle)
    (one : (handle.spare page).length = 1) : handle.nrExtents = page.maxExtents := by
  rcases filled.slot with empty | ⟨full, _⟩
  · rw [spare, empty, Extent.zero_pages] at one
    cases one
  · exact full

/-- The table after a full one: the page that is carried over is not counted as one of those that
are needed. -/
theorem nextTable_plain {handle : SwapWriter Page} {left : Nat} (filled : Filled page handle)
    (behind : handle.curExtentIdx = handle.nrExtents) (one : (handle.spare page).length = 1)
    (aligned : ∀ offset ∈ handle.dev, 0 ≤ offset ∧ (page.bytes : Int) ∣ offset)
    (distinct : (handle.dev ++ handle.spare page).Nodup)
    (needed : handle.swapNeeded = page.offset left) (some : 0 < left)
    (success : (nextTable page false handle).1 ≠ 0) :
    let after := (nextTable page false handle).2
    after.swapNeeded = page.offset left ∧
      ((after.spare page).length = 1 ∧
          (tablePages page after.extents after.nrExtents).length ≤ left ∨
        (after.spare page).length = 0 ∧
          (tablePages page after.extents after.nrExtents).length = left + 1) := by
  have full := filled.full one
  obtain ⟨cleared, carried, count, shape, _, _, few, sorted, spared⟩ :=
    nextTable_carry false filled behind (by omega)
  have positive := page.maxExtents_pos
  rw [shape] at success ⊢
  dsimp only at success ⊢
  by_cases failed : ({ handle with extents := cleared, nrExtents := count }.saveExtents page
      false).1 = 0
  · rw [if_neg (not_not_intro failed)] at success ⊢
    obtain ⟨offset, rest, answers, _, _, saved⟩ := saveExtents_success failed
    dsimp only at answers
    rw [saved] at success ⊢
    dsimp only at success ⊢
    rw [answers] at aligned distinct
    have fresh : Function.update Table.zero 0 carried page.maxExtents = Extent.zero := by
      rw [Function.update_of_ne (by omega)]
      rfl
    generalize hopened : ({ handle with
      dev := rest
      extents := Function.update Table.zero 0 carried
      nrExtents := count
      fd := handle.fd.transfer.2.append (.write (.page handle.extentsSpc)
        (.extents (Function.update cleared page.maxExtents
          { cleared page.maxExtents with start := offset })))
      extentsSpc := offset } : SwapWriter Page) = opened at success ⊢
    have extents : opened.extents = Function.update Table.zero 0 carried := by rw [← hopened]
    have number : opened.nrExtents = count := by rw [← hopened]
    have dev : opened.dev = rest := by rw [← hopened]
    have need : opened.swapNeeded = page.offset left := by rw [← hopened, ← needed]
    have plain := @preallocateSwap_plain Page page opened left (by rwa [extents, number])
      (by omega) (by rwa [extents])
      (fun other member => aligned other (List.mem_cons_of_mem _ (dev ▸ member)))
      (by
        rw [extents, number, dev, spared]
        exact (List.nodup_cons.mp distinct).2)
      need some success
    rw [extents, number, spared, one] at plain
    obtain ⟨held, within, ⟨empty, all⟩ | again, _⟩ := plain
    · exact ⟨(preallocateSwap_needed _).trans need, Or.inr ⟨empty, by omega⟩⟩
    · exact ⟨(preallocateSwap_needed _).trans need, Or.inl ⟨again, by omega⟩⟩
  · rw [if_pos failed] at success
    exact absurd rfl success

/-- The number of pages that are left in the table. -/
def remaining (page : PageSize) (handle : SwapWriter Page) : Nat :=
  (ahead page handle.extents handle.nrExtents handle.curExtentIdx handle.curOffset).length

/-- What the writer holds against the `left` pages that are still needed: exactly as many, or, once
a page has been carried over, one more, unless the rest of them has to be obtained yet. -/
structure Balanced (page : PageSize) (left surplus : Nat) (handle : SwapWriter Page) : Prop where
  total : (handle.spare page).length = 0 ∧ handle.remaining page = left + surplus ∨
    surplus = 1 ∧ (handle.spare page).length = 1 ∧ handle.remaining page ≤ left
  needed : handle.swapNeeded = page.offset left

section Run

variable {grants : Grants} {start first : Int} {tables pages done : List Int}
  {handle : SwapWriter Page} {left surplus : Nat}

/-- Calls that stay in the table change its position only. -/
theorem nextSwapPage_within (laid : Laid page grants start first tables pages done handle)
    (more : 0 < handle.remaining page) :
    let after := (nextSwapPage page doCompress handle).2
    after.extents = handle.extents ∧ after.swapNeeded = handle.swapNeeded ∧
      after.remaining page + 1 = handle.remaining page ∧ ¬ handle.Leftover page := by
  unfold remaining at *
  cases pages : ahead page handle.extents handle.nrExtents handle.curExtentIdx
      handle.curOffset with
  | nil =>
      rw [pages] at more
      cases more
  | cons next later =>
      have some : ¬ handle.Leftover page := by
        rintro ⟨last, behind, _⟩
        rw [ahead_end last behind] at pages
        cases pages
      rcases laid.position.step laid.filled.sorted pages with ⟨same, rfl, _, tail⟩ |
          ⟨last, inside, rfl, _, tail⟩
      · simp only [nextSwapPage, same, ↓reduceIte, tail, List.length_cons, true_and]
        exact some
      · have past : ¬ handle.curOffset + page.bytes <
            (handle.extents handle.curExtentIdx).stop := by omega
        simp only [nextSwapPage, past, inside, ↓reduceIte, tail, List.length_cons, true_and]
        exact some

theorem Balanced.next (laid : Laid page grants start first tables pages done handle)
    (aligned : ∀ offset ∈ grants, 0 ≤ offset ∧ (page.bytes : Int) ∣ offset)
    (distinct : grants.Nodup)
    (balanced : Balanced page (left + 1) surplus handle)
    (success : (nextSwapPage page false handle).1 ≠ 0) :
    let after := (nextSwapPage page false handle).2
    ¬ handle.Leftover page ∧ after.swapNeeded = page.offset (left + 1) ∧
      ((after.spare page).length = 0 ∧ after.remaining page = left + surplus ∨
        surplus = 1 ∧ (after.spare page).length = 1 ∧ after.remaining page ≤ left) := by
  have total := balanced.total
  by_cases more : 0 < handle.remaining page
  · obtain ⟨extents, needed, fewer, clean⟩ := @nextSwapPage_within Page page false grants start
      first tables pages done handle laid more
    refine ⟨clean, needed.trans balanced.needed, ?_⟩
    rw [spare, extents]
    unfold spare at total
    omega
  · have one : surplus = 1 ∧ (handle.spare page).length = 1 := by omega
    have used : ahead page handle.extents handle.nrExtents handle.curExtentIdx
        handle.curOffset = [] := List.length_eq_zero_iff.mp (Nat.eq_zero_of_not_pos more)
    have clean : ¬ handle.Leftover page := by
      rintro ⟨_, behind, notFull, _⟩
      have full := laid.filled.full one.2
      omega
    obtain ⟨leaving, hleft, calls, filled, atEnd, alignedLeft, distinctLeft⟩ :=
      laid.leaves false aligned distinct used
    have after := laid.next_table aligned distinct clean used success
    have handed := congrArg List.length after.handed
    have before := congrArg List.length laid.handed
    simp only [used, List.length_append, List.length_nil, List.length_singleton] at handed before
    rw [calls] at success
    have spared : (leaving.spare page).length = 1 := by
      rw [← hleft]
      exact one.2
    have needed : leaving.swapNeeded = page.offset (left + 1) := by
      rw [← hleft]
      exact balanced.needed
    obtain ⟨need, held⟩ := nextTable_plain filled atEnd spared alignedLeft distinctLeft needed
      (Nat.succ_pos left) success
    rw [← calls] at need held
    refine ⟨clean, need, ?_⟩
    rw [remaining]
    omega

/-- All pages of an image that needs no more than it was said to need. -/
theorem Balanced.run (laid : Laid page grants start first tables pages done handle)
    (aligned : ∀ offset ∈ grants, 0 ≤ offset ∧ (page.bytes : Int) ∣ offset)
    (distinct : grants.Nodup)
    {srcs : List Page} (balanced : Balanced page srcs.length surplus handle)
    (success : (savePages page false handle srcs).1 = 0) :
    handle.NeverLeftover page false srcs ∧
      Balanced page 0 surplus (savePages page false handle srcs).2.2 := by
  induction srcs generalizing handle tables pages done with
  | nil => exact ⟨trivial, balanced⟩
  | cons src rest ih =>
      have saved : (savePage page false handle src).1 = 0 := by
        by_contra failed
        rw [savePages] at success
        dsimp only at success
        rw [if_pos failed] at success
        exact failed success
      rw [savePages] at success ⊢
      dsimp only at success ⊢
      rw [if_neg (not_not_intro saved)] at success ⊢
      obtain ⟨handed, after⟩ := savePage_success saved
      rw [List.length_cons] at balanced
      obtain ⟨clean, needed, total⟩ := Balanced.next laid aligned distinct balanced handed
      obtain ⟨tables, pages, advanced⟩ := laid.save aligned distinct clean saved
      have further : Balanced page rest.length surplus (savePage page false handle src).2 := by
        rw [after]
        refine ⟨total, ?_⟩
        dsimp only
        rw [needed, page.offset_succ, Int.add_sub_cancel]
      obtain ⟨never, finished⟩ := ih advanced further success
      exact ⟨⟨clean, never⟩, finished⟩

end Run

end SwapWriter

end Suspend
