import Suspend.Device

set_option autoImplicit false

namespace Suspend

/-- `struct swap_writer`, the fields that deal with swap. `cur_extent` is
`extents + curExtentIdx`. The snapshot device `dev` answers the allocation requests. -/
structure SwapWriter (Page : Type) where
  extents : Table
  nrExtents : Nat
  curExtentIdx : Nat
  curOffset : Int
  swapNeeded : Int
  writtenData : Int
  extentsSpc : Int
  dev : Grants
  fd : Device Page

namespace SwapWriter

variable {Page : Type} (page : PageSize) (doCompress : Bool)

/-- The number of bytes `preallocate_swap` asks for. -/
def request (swapNeeded : Int) : Int :=
  if doCompress ∧ (page.bytes : Int) < swapNeeded then swapNeeded / 2 else swapNeeded

/-- `preallocate_swap`. -/
def preallocateSwap (handle : SwapWriter Page) : Int × SwapWriter Page :=
  if handle.swapNeeded < page.bytes then (0, handle)
  else
    let allocation := allocSwap page handle.dev handle.extents handle.nrExtents
      (request page doCompress handle.swapNeeded)
    let handle := { handle with dev := allocation.grants, extents := allocation.table }
    if allocation.ret ≤ 0 then (0, handle)
    else
      let offset := (allocation.table 0).start
      (offset, { handle with
        nrExtents := min allocation.ret.toNat page.maxExtents
        curExtentIdx := 0
        curOffset := offset })

/-- `save_extents`. Unless `finish` is set, the start of the last slot becomes the swap
location of the next table. -/
def saveExtents (handle : SwapWriter Page) (finish : Bool) : Int × SwapWriter Page :=
  if finish then
    let written := handle.fd.writePage (.extents handle.extents) handle.extentsSpc
    (written.1, { handle with fd := written.2, extentsSpc := 0 })
  else
    let answer := getSwapPage handle.dev
    if answer.1 = 0 then (-ENOSPC, { handle with dev := answer.2 })
    else
      let table := Function.update handle.extents page.maxExtents
        { handle.extents page.maxExtents with start := answer.1 }
      let written := handle.fd.writePage (.extents table) handle.extentsSpc
      (written.1, { handle with
        dev := answer.2
        extents := table
        fd := written.2
        extentsSpc := answer.1 })

/-- The end of `next_swap_page`: `cur_extent` points behind the last extent in use. A nonempty
extent found there is carried over to the next table. -/
def nextTable (handle : SwapWriter Page) : Int × SwapWriter Page :=
  let current := handle.extents handle.curExtentIdx
  let carry := current.start < current.stop
  let handle := if carry then
      { handle with
        extents := Function.update handle.extents handle.curExtentIdx Extent.zero
        nrExtents := 1 }
    else { handle with nrExtents := 0 }
  let saved := handle.saveExtents page false
  if saved.1 ≠ 0 then (0, saved.2)
  else
    preallocateSwap page doCompress { saved.2 with
      extents := Function.update Table.zero 0 (if carry then current else Extent.zero) }

/-- `next_swap_page`. -/
def nextSwapPage (handle : SwapWriter Page) : Int × SwapWriter Page :=
  let offset := handle.curOffset + page.bytes
  if offset < (handle.extents handle.curExtentIdx).stop then
    (offset, { handle with curOffset := offset })
  else
    let index := handle.curExtentIdx + 1
    if index < handle.nrExtents then
      let offset := (handle.extents index).start
      (offset, { handle with curExtentIdx := index, curOffset := offset })
    else nextTable page doCompress { handle with curExtentIdx := index, curOffset := offset }

/-- `save_page`. -/
def savePage (handle : SwapWriter Page) (src : Page) : Int × SwapWriter Page :=
  let next := nextSwapPage page doCompress handle
  if next.1 = 0 then (-ENOSPC, next.2)
  else
    let written := next.2.fd.writePage (.data src) next.1
    if written.1 ≠ 0 then (written.1, { next.2 with fd := written.2 })
    else (0, { next.2 with
      fd := written.2
      swapNeeded := next.2.swapNeeded - page.bytes
      writtenData := next.2.writtenData + page.bytes })

/-- A zeroed table, and the swap page its extents will be saved to. -/
def blank (extentsSpc : Int) (dev : Grants) (fd : Device Page) : SwapWriter Page :=
  { extents := Table.zero
    nrExtents := 0
    curExtentIdx := 0
    curOffset := 0
    swapNeeded := 0
    writtenData := 0
    extentsSpc := extentsSpc
    dev := dev
    fd := fd }

/-- `init_swap_writer`, less its buffers: the swap page of the first extents table is taken. -/
def init (dev : Grants) (fd : Device Page) : Int × SwapWriter Page :=
  let answer := getSwapPage dev
  if answer.1 = 0 then (-ENOSPC, blank answer.1 answer.2 fd)
  else (0, blank answer.1 answer.2 fd)

/-- The save loop as the writer sees it: one `save_page` after the other until the first error.
Returns the error, the offsets handed out and the writer. -/
def savePages (handle : SwapWriter Page) : List Page → Int × List Int × SwapWriter Page
  | [] => (0, [], handle)
  | src :: rest =>
      let saved := savePage page doCompress handle src
      if saved.1 ≠ 0 then (saved.1, [], saved.2)
      else
        let later := savePages saved.2 rest
        (later.1, (nextSwapPage page doCompress handle).1 :: later.2.1, later.2.2)

section Success

variable {page doCompress} {handle : SwapWriter Page}

theorem preallocateSwap_fd (handle : SwapWriter Page) :
    (preallocateSwap page doCompress handle).2.fd = handle.fd := by
  unfold preallocateSwap
  split
  · rfl
  · dsimp only
    split <;> rfl

theorem preallocateSwap_needed (handle : SwapWriter Page) :
    (preallocateSwap page doCompress handle).2.swapNeeded = handle.swapNeeded := by
  unfold preallocateSwap
  split
  · rfl
  · dsimp only
    split <;> rfl

theorem saveExtents_success (success : (handle.saveExtents page false).1 = 0) :
    ∃ offset rest, handle.dev = offset :: rest ∧ offset ≠ 0 ∧ handle.extentsSpc ≠ 0 ∧
      (handle.saveExtents page false).2 = { handle with
        dev := rest
        extents := Function.update handle.extents page.maxExtents
          { handle.extents page.maxExtents with start := offset }
        fd := handle.fd.transfer.2.append (.write (.page handle.extentsSpc)
          (.extents (Function.update handle.extents page.maxExtents
            { handle.extents page.maxExtents with start := offset })))
        extentsSpc := offset } := by
  unfold saveExtents at success ⊢
  simp only [Bool.false_eq_true, ↓reduceIte] at success ⊢
  cases answers : handle.dev with
  | nil => simp [answers, getSwapPage, ENOSPC] at success
  | cons offset rest =>
      simp only [answers, getSwapPage] at success ⊢
      by_cases refused : offset = 0
      · simp [refused, ENOSPC] at success
      · simp only [refused, ↓reduceIte] at success ⊢
        obtain ⟨nonzero, written⟩ := Device.writePage_success success
        exact ⟨offset, rest, rfl, refused, nonzero, by rw [written]⟩

theorem saveExtents_finish (success : (handle.saveExtents page true).1 = 0) :
    handle.extentsSpc ≠ 0 ∧ (handle.saveExtents page true).2 = { handle with
      fd := handle.fd.transfer.2.append (.write (.page handle.extentsSpc)
        (.extents handle.extents))
      extentsSpc := 0 } := by
  simp only [saveExtents, ↓reduceIte] at success ⊢
  obtain ⟨nonzero, written⟩ := Device.writePage_success success
  exact ⟨nonzero, by rw [written]⟩

theorem savePage_success {src : Page} (success : (savePage page doCompress handle src).1 = 0) :
    (nextSwapPage page doCompress handle).1 ≠ 0 ∧ (savePage page doCompress handle src).2 =
      { (nextSwapPage page doCompress handle).2 with
        fd := (nextSwapPage page doCompress handle).2.fd.transfer.2.append
          (.write (.page (nextSwapPage page doCompress handle).1) (.data src))
        swapNeeded := (nextSwapPage page doCompress handle).2.swapNeeded - page.bytes
        writtenData := (nextSwapPage page doCompress handle).2.writtenData + page.bytes } := by
  unfold savePage at success ⊢
  by_cases none : (nextSwapPage page doCompress handle).1 = 0
  · simp [none, ENOSPC] at success
  · simp only [none, ↓reduceIte] at success ⊢
    by_cases written : ((nextSwapPage page doCompress handle).2.fd.writePage (.data src)
        (nextSwapPage page doCompress handle).1).1 = 0
    · simp only [written, ne_eq, not_true_eq_false, ↓reduceIte]
      exact ⟨none, by rw [(Device.writePage_success written).2]⟩
    · simp [written] at success

end Success

end SwapWriter

end Suspend
