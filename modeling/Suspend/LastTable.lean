import Suspend.StaleSlots
import Suspend.SaveAccounts

set_option autoImplicit false

namespace Suspend

variable {Page : Type} {page : PageSize} {doCompress : Bool}

namespace SwapWriter

/-- The swap pages that no extent may hold: those that are still to be granted, and those of the
tables. -/
def reserved (tables : List Int) (handle : SwapWriter Page) : List Int :=
  handle.dev ++ (tables ++ [handle.extentsSpc])

/-- All slots of the table keep away from these pages. -/
structure Supplied (page : PageSize) (tables : List Int) (handle : SwapWriter Page) : Prop where
  spared : ∀ index, Spared page (handle.reserved tables) (handle.extents index)
  aligned : ∀ offset ∈ handle.reserved tables, 0 ≤ offset ∧ (page.bytes : Int) ∣ offset
  distinct : (handle.reserved tables).Nodup

/-- A writer that `preallocate_swap` is about to be called with. -/
structure Opened (page : PageSize) (tables : List Int) (handle : SwapWriter Page) : Prop where
  supplied : Supplied page tables handle
  sorted : Sorted page handle.extents handle.nrExtents
  few : handle.nrExtents ≤ 1
  empty : handle.extents page.maxExtents = Extent.zero

/-- The batch that `preallocate_swap` asks for, with the extent that has been carried over, never
falls into more extents than the table has room for. -/
def HasRoom (page : PageSize) (doCompress : Bool) (handle : SwapWriter Page) : Prop :=
  ∀ some ≤ pagesFor page (request page doCompress handle.swapNeeded),
    fragments page (handle.dev.take some ++ tablePages page handle.extents handle.nrExtents) ≤
      page.maxExtents

instance (page : PageSize) (doCompress : Bool) (handle : SwapWriter Page) :
    Decidable (handle.HasRoom page doCompress) :=
  inferInstanceAs (Decidable (∀ some ≤ _, _))

/-- The writer that `preallocate_swap` was called with for the last table. -/
def lastBatch (page : PageSize) (doCompress : Bool) :
    SwapWriter Page → SwapWriter Page → List Page → SwapWriter Page
  | opened, _, [] => opened
  | opened, handle, src :: rest =>
      lastBatch page doCompress ((refill page handle).getD opened)
        (savePage page doCompress handle src).2 rest

section Batch

variable {handle : SwapWriter Page} {tables : List Int}

theorem Opened.pages_distinct (opened : Opened page tables handle) :
    (handle.dev ++ tablePages page handle.extents handle.nrExtents).Nodup := by
  apply List.nodup_append.mpr
  refine ⟨(List.nodup_append.mp opened.supplied.distinct).1, opened.sorted.pages_nodup, ?_⟩
  rintro offset granted other held rfl
  obtain ⟨_, index, _, inside⟩ := (opened.sorted.mem_pages offset).mp held
  exact (opened.supplied.spared index).apart offset (List.mem_append_left _ granted) inside

/-- What the batch gives: a table that is filled, and whose last slot is empty if there was room. -/
theorem Opened.fills (opened : Opened page tables handle)
    (success : (preallocateSwap page doCompress handle).1 ≠ 0) :
    ∃ dev table total, preallocateSwap page doCompress handle = ((table 0).start, { handle with
        dev := dev
        extents := table
        nrExtents := total
        curExtentIdx := 0
        curOffset := (table 0).start }) ∧
      Filled page (preallocateSwap page doCompress handle).2 ∧
      Supplied page tables (preallocateSwap page doCompress handle).2 ∧
      (table page.maxExtents = Extent.zero ↔ handle.HasRoom page doCompress) := by
  have aligned : ∀ offset ∈ handle.dev, 0 ≤ offset ∧ (page.bytes : Int) ∣ offset :=
    fun offset member => opened.supplied.aligned offset (List.mem_append_left _ member)
  have room : handle.nrExtents ≤ page.maxExtents := opened.few.trans page.maxExtents_pos
  have more : ¬ handle.swapNeeded < page.bytes := by
    intro small
    rw [preallocateSwap, if_pos small] at success
    exact success rfl
  have answered : ¬ (allocSwap page handle.dev handle.extents handle.nrExtents
      (request page doCompress handle.swapNeeded)).ret ≤ 0 := by
    intro failed
    unfold preallocateSwap at success
    rw [if_neg more] at success
    dsimp only at success
    rw [if_pos failed] at success
    exact success rfl
  have positive : 0 < request page doCompress handle.swapNeeded := by
    have large := page.bytes_large
    unfold request
    split <;> omega
  obtain ⟨_, _, _, _, _, _, _, filled, _⟩ := preallocateSwap_success doCompress handle
    opened.sorted room opened.empty aligned opened.pages_distinct success
  have result := preallocateSwap_of more rfl answered
  rw [result] at filled ⊢
  have spared := allocSwap_spared (request page doCompress handle.swapNeeded) handle.dev
    opened.sorted room opened.supplied.aligned opened.supplied.distinct opened.supplied.spared
  obtain ⟨taken, total, allocated⟩ := allocSwap_spec page handle.dev handle.extents
    handle.nrExtents (request page doCompress handle.swapNeeded) opened.sorted room aligned
    opened.pages_distinct (by omega)
  have shorter : ∀ offset, offset ∈ (allocSwap page handle.dev handle.extents handle.nrExtents
        (request page doCompress handle.swapNeeded)).grants ++ (tables ++ [handle.extentsSpc]) →
      offset ∈ handle.reserved tables := by
    intro offset member
    rw [reserved, allocated.answers, List.append_assoc]
    exact List.mem_append_right _ member
  have distinct := opened.supplied.distinct
  rw [reserved, allocated.answers, List.append_assoc] at distinct
  exact ⟨_, _, _, rfl, filled, ⟨spared, fun offset member =>
    opened.supplied.aligned offset (shorter offset member), (List.nodup_append.mp distinct).2.1⟩,
    allocSwap_slot positive handle.dev opened.sorted room opened.empty aligned
      opened.pages_distinct (by omega)⟩

/-- The page that a table gets is one more of its places. -/
theorem Supplied.moved {offset : Int} {rest : Grants} {after : SwapWriter Page}
    (supplied : Supplied page tables handle) (granted : handle.dev = offset :: rest)
    (left : after.dev = rest) (location : after.extentsSpc = offset)
    (held : ∀ index, ∃ source, after.extents index = Extent.zero ∨
      after.extents index = handle.extents source) :
    Supplied page (tables ++ [handle.extentsSpc]) after := by
  have perm : (after.reserved (tables ++ [handle.extentsSpc])).Perm (handle.reserved tables) := by
    rw [reserved, reserved, left, location, granted, ← List.append_assoc]
    exact List.perm_append_singleton offset _
  refine ⟨fun index => ?_, fun other member => ?_, perm.nodup_iff.mpr supplied.distinct⟩
  · obtain ⟨source, none | same⟩ := held index
    · rw [none]
      exact Spared.zero page _
    · rw [same]
      exact (supplied.spared source).mono perm.subset
  · exact supplied.aligned other (perm.subset member)

/-- What is saved of the table, and what is carried over. -/
theorem cleared_spec (handle : SwapWriter Page) : handle.cleared.dev = handle.dev ∧
    handle.cleared.fd = handle.fd ∧ handle.cleared.extentsSpc = handle.extentsSpc ∧
    (∀ index ≠ handle.curExtentIdx, handle.cleared.extents index = handle.extents index) ∧
    ¬ (handle.cleared.extents handle.curExtentIdx).start <
      (handle.cleared.extents handle.curExtentIdx).stop ∧
    (handle.cleared.nrExtents = 0 ∧ handle.carried = Extent.zero ∨
      handle.cleared.nrExtents = 1 ∧ handle.carried = handle.extents handle.curExtentIdx ∧
        handle.carried ≠ Extent.zero) := by
  unfold cleared carried
  dsimp only
  by_cases carry : (handle.extents handle.curExtentIdx).start <
      (handle.extents handle.curExtentIdx).stop
  · simp only [if_pos carry]
    refine ⟨trivial, trivial, trivial, fun index other => Function.update_of_ne other _ _, ?_,
      Or.inr ⟨trivial, trivial, ?_⟩⟩
    · rw [Function.update_self]
      decide
    · intro none
      rw [none] at carry
      exact absurd carry (by decide)
  · simp only [if_neg carry]
    exact ⟨trivial, trivial, trivial, fun _ _ => trivial, carry, Or.inl ⟨trivial, trivial⟩⟩

end Batch

/-- What holds between two calls of `save_page`, whatever a merge has left behind the extents in
use: `tables` have been written and chained, their extents are `pages`, and `done` has been handed
out of them and of the table in use. -/
structure Walked (page : PageSize) (first : Int) (tables pages done : List Int)
    (handle : SwapWriter Page) : Prop where
  filled : Filled page handle
  supplied : Supplied page tables handle
  position : Positioned page handle.extents handle.nrExtents handle.curExtentIdx handle.curOffset
  handed : pages ++ tablePages page handle.extents handle.nrExtents = done ++
    ahead page handle.extents handle.nrExtents handle.curExtentIdx handle.curOffset
  nonzero : handle.extentsSpc ≠ 0
  chain : Chain page handle.fd.content first tables pages handle.extentsSpc
  written : handle.fd.tablesWritten = tables

namespace Walked

variable {first : Int} {tables pages done : List Int} {handle : SwapWriter Page}

theorem away (walked : Walked page first tables pages done handle) :
    handle.extentsSpc ∉ tables := fun member =>
  (List.nodup_append.mp (List.nodup_append.mp walked.supplied.distinct).2.1).2.2 _ member _
    (List.mem_singleton_self _) rfl

theorem done_length (walked : Walked page first tables pages done handle) :
    pages.length ≤ done.length := by
  have handed := congrArg List.length walked.handed
  rw [List.length_append, List.length_append] at handed
  have few := walked.position.ahead_length
  omega

variable (doCompress) in
/-- The calls that stay in the table. -/
theorem within (walked : Walked page first tables pages done handle) {next : Int}
    {later : List Int} (more : ahead page handle.extents handle.nrExtents handle.curExtentIdx
      handle.curOffset = next :: later) :
    refill page handle = none ∧ (nextSwapPage page doCompress handle).1 = next ∧
      (nextSwapPage page doCompress handle).2.extents = handle.extents ∧ next ∉ tables ∧
      Walked page first tables pages (done ++ [next]) (nextSwapPage page doCompress handle).2 := by
  have handed : pages ++ tablePages page handle.extents handle.nrExtents =
      (done ++ [next]) ++ later := by
    rw [walked.handed, more, List.append_assoc]
    rfl
  have filled := walked.filled
  have supplied := walked.supplied
  have away {index : Nat} {offset : Int} (lower : (handle.extents index).start ≤ offset)
      (upper : offset < (handle.extents index).stop) : offset ∉ tables := fun member =>
    (supplied.spared index).apart offset
      (List.mem_append_right _ (List.mem_append_left _ member)) ⟨lower, upper⟩
  rcases walked.position.step walked.filled.sorted more with ⟨same, rfl, position, tail⟩ |
      ⟨last, inside, rfl, position, tail⟩
  · simp only [refill, nextSwapPage, same, ↓reduceIte, true_and]
    exact ⟨away walked.position.lower same,
      ⟨filled.sorted, filled.positive, filled.room, filled.slot⟩,
      ⟨supplied.spared, supplied.aligned, supplied.distinct⟩, position, by rw [handed, tail],
      walked.nonzero, walked.chain, walked.written⟩
  · have past : ¬ handle.curOffset + page.bytes <
        (handle.extents handle.curExtentIdx).stop := by omega
    have nonempty := (filled.sorted.whole _ inside).nonempty
    simp only [refill, nextSwapPage, past, inside, ↓reduceIte, true_and]
    exact ⟨away (Int.le_refl _) nonempty,
      ⟨filled.sorted, filled.positive, filled.room, filled.slot⟩,
      ⟨supplied.spared, supplied.aligned, supplied.distinct⟩, position, by rw [handed, tail],
      walked.nonzero, walked.chain, walked.written⟩

/-- The call that writes the table, and the writer with which it asks for the next batch. -/
theorem turns (walked : Walked page first tables pages done handle)
    (used : ahead page handle.extents handle.nrExtents handle.curExtentIdx handle.curOffset = [])
    (success : (nextSwapPage page doCompress handle).1 ≠ 0) :
    ∃ opened, refill page handle = some opened ∧
      nextSwapPage page doCompress handle = preallocateSwap page doCompress opened ∧
      Opened page (tables ++ [handle.extentsSpc]) opened ∧ opened.extentsSpc ≠ 0 ∧
      Chain page opened.fd.content first (tables ++ [handle.extentsSpc])
        (pages ++ tablePages page handle.extents handle.nrExtents) opened.extentsSpc ∧
      opened.fd.tablesWritten = tables ++ [handle.extentsSpc] := by
  obtain ⟨last, behind⟩ := walked.position.exhausted walked.filled.sorted used
  have past : ¬ handle.curOffset + page.bytes < (handle.extents handle.curExtentIdx).stop := by
    omega
  have beyond : ¬ handle.curExtentIdx + 1 < handle.nrExtents := by omega
  have room := walked.filled.room
  have positive := page.maxExtents_pos
  generalize hleft : ({ handle with
    curExtentIdx := handle.curExtentIdx + 1
    curOffset := handle.curOffset + page.bytes } : SwapWriter Page) = left at success ⊢
  have calls : nextSwapPage page doCompress handle = nextTable page doCompress left := by
    simp only [nextSwapPage, past, beyond, ↓reduceIte, hleft]
  have asks : refill page handle = if (left.cleared.saveExtents page false).1 ≠ 0 then none
      else some { (left.cleared.saveExtents page false).2 with
        extents := Function.update Table.zero 0 left.carried } := by
    simp only [refill, past, beyond, ↓reduceIte, hleft]
  rw [calls, nextTable_eq] at success ⊢
  by_cases failed : (left.cleared.saveExtents page false).1 ≠ 0
  · rw [if_pos failed] at success
    exact absurd rfl success
  rw [if_neg failed] at success asks ⊢
  obtain ⟨offset, rest, answers, nonzero, _, saved⟩ := saveExtents_success (not_not.mp failed)
  obtain ⟨dev, fd, location, kept, ends, carries⟩ := left.cleared_spec
  have same : left.extents = handle.extents := by rw [← hleft]
  have index : left.curExtentIdx = handle.nrExtents := by rw [← hleft, ← behind]
  have leftDev : left.dev = handle.dev := by rw [← hleft]
  have leftFd : left.fd = handle.fd := by rw [← hleft]
  have leftSpc : left.extentsSpc = handle.extentsSpc := by rw [← hleft]
  rw [same, index] at kept carries
  rw [index] at ends
  rw [dev, leftDev] at answers
  rw [fd, location, leftFd, leftSpc] at saved
  have inside : ∀ slot < handle.nrExtents, Function.update left.cleared.extents page.maxExtents
      { left.cleared.extents page.maxExtents with start := offset } slot =
        handle.extents slot := by
    intro slot inside
    rw [Function.update_of_ne (by omega), kept slot (by omega)]
  refine ⟨_, asks, rfl, ?_, ?_, ?_, ?_⟩
  · rw [saved]
    refine ⟨walked.supplied.moved answers rfl rfl fun slot => ?_, ?_, ?_, ?_⟩
    · by_cases first : slot = 0
      · rw [first]
        dsimp only
        rw [Function.update_self]
        rcases carries with ⟨_, none⟩ | ⟨_, carried, _⟩
        · exact ⟨0, Or.inl none⟩
        · exact ⟨_, Or.inr carried⟩
      · exact ⟨0, Or.inl (Function.update_of_ne first _ _)⟩
    · dsimp only
      rcases carries with ⟨none, _⟩ | ⟨one, carried, some⟩
      · rw [none]
        exact ⟨by omega, by omega⟩
      · rw [one]
        refine ⟨fun slot few => ?_, by omega⟩
        rw [Nat.lt_one_iff.mp few, Function.update_self]
        have spared := (walked.supplied.spared handle.nrExtents).whole
        rw [← carried] at spared
        exact spared.resolve_left some
    · dsimp only
      omega
    · exact Function.update_of_ne (by omega) _ _
  · rw [saved]
    exact nonzero
  · have away := walked.away
    rw [saved]
    have before := walked.chain.congr (handle.fd.transfer.2.append
        (.write (.page handle.extentsSpc) (.extents (Function.update left.cleared.extents
          page.maxExtents { left.cleared.extents page.maxExtents with start := offset })))).content
      (fun other member => Device.append_content_other _ _ (by rintro rfl; exact away member))
    have longer := before.snoc walked.nonzero (Device.append_content_same _ _ _)
      ⟨walked.filled.sorted.congr inside, walked.filled.positive, room, fun notFull => by
        rwa [Function.update_of_ne (by omega)]⟩
    rw [tablePages_congr inside, Function.update_self] at longer
    exact longer
  · rw [saved]
    dsimp only
    rw [(Device.append_extents_written _ _ _).1, walked.written]

theorem next {opened : SwapWriter Page} (walked : Walked page first tables pages done handle)
    (slot : handle.extents page.maxExtents = Extent.zero ↔ opened.HasRoom page doCompress)
    (success : (nextSwapPage page doCompress handle).1 ≠ 0) :
    ∃ tables pages, (nextSwapPage page doCompress handle).1 ∉ tables ∧
      Walked page first tables pages (done ++ [(nextSwapPage page doCompress handle).1])
        (nextSwapPage page doCompress handle).2 ∧
      ((nextSwapPage page doCompress handle).2.extents page.maxExtents = Extent.zero ↔
        ((refill page handle).getD opened).HasRoom page doCompress) := by
  cases used : ahead page handle.extents handle.nrExtents handle.curExtentIdx
      handle.curOffset with
  | nil =>
      obtain ⟨following, asks, calls, fresh, nonzero, chain, written⟩ := walked.turns used success
      rw [calls] at success ⊢
      obtain ⟨dev, table, total, after, filled, supplied, empty⟩ := fresh.fills success
      rw [after] at filled supplied ⊢
      have first := filled.sorted.whole 0 filled.positive
      rw [asks, Option.getD_some]
      refine ⟨_, _, fun member => ?_, ⟨filled, supplied, filled.sorted.positioned filled.positive,
        ?_, nonzero, chain, written⟩, empty⟩
      · exact (supplied.spared 0).apart _ (List.mem_append_right _ (List.mem_append_left _ member))
          ⟨Int.le_refl _, first.nonempty⟩
      · rw [walked.handed, used, filled.sorted.first_page filled.positive, List.append_nil,
          List.append_assoc]
        rfl
  | cons next later =>
      obtain ⟨stays, rfl, same, away, advanced⟩ := walked.within doCompress used
      rw [same, stays, Option.getD_none]
      exact ⟨_, _, away, advanced, slot⟩

theorem save {opened : SwapWriter Page} (walked : Walked page first tables pages done handle)
    (slot : handle.extents page.maxExtents = Extent.zero ↔ opened.HasRoom page doCompress)
    {src : Page} (success : (savePage page doCompress handle src).1 = 0) :
    ∃ tables pages,
      Walked page first tables pages (done ++ [(nextSwapPage page doCompress handle).1])
        (savePage page doCompress handle src).2 ∧
      ((savePage page doCompress handle src).2.extents page.maxExtents = Extent.zero ↔
        ((refill page handle).getD opened).HasRoom page doCompress) := by
  obtain ⟨handedOut, saved⟩ := savePage_success success
  obtain ⟨tables, pages, away, advanced, empty⟩ := walked.next slot handedOut
  rw [saved]
  refine ⟨tables, pages, ⟨⟨advanced.filled.sorted, advanced.filled.positive, advanced.filled.room,
    advanced.filled.slot⟩, ⟨advanced.supplied.spared, advanced.supplied.aligned,
    advanced.supplied.distinct⟩, advanced.position, advanced.handed, advanced.nonzero, ?_, ?_⟩,
    empty⟩
  · apply advanced.chain.congr
    intro offset member
    apply Device.append_content_other
    rintro rfl
    exact away member
  · dsimp only
    rw [(Device.append_data_written _ _ _).1, advanced.written]

theorem run {opened : SwapWriter Page} (walked : Walked page first tables pages done handle)
    (slot : handle.extents page.maxExtents = Extent.zero ↔ opened.HasRoom page doCompress)
    (srcs : List Page) (success : (savePages page doCompress handle srcs).1 = 0) :
    ∃ tables pages,
      Walked page first tables pages (done ++ (savePages page doCompress handle srcs).2.1)
        (savePages page doCompress handle srcs).2.2 ∧
      (savePages page doCompress handle srcs).2.1.length = srcs.length ∧
      ((savePages page doCompress handle srcs).2.2.extents page.maxExtents = Extent.zero ↔
        (lastBatch page doCompress opened handle srcs).HasRoom page doCompress) := by
  induction srcs generalizing handle opened tables pages done with
  | nil => exact ⟨tables, pages, by simpa [savePages] using walked, rfl, slot⟩
  | cons src rest ih =>
      by_cases saved : (savePage page doCompress handle src).1 = 0
      · simp only [savePages, saved, ne_eq, not_true_eq_false, ↓reduceIte] at success ⊢
        obtain ⟨tables, pages, advanced, empty⟩ := walked.save slot saved
        obtain ⟨tables, pages, finished, all, last⟩ := ih advanced empty success
        rw [List.append_assoc] at finished
        exact ⟨tables, pages, finished, by rw [List.length_cons, all, List.length_cons], last⟩
      · simp [savePages, saved] at success

end Walked

/-- The writer that `write_image` calls `preallocate_swap` with. -/
def firstBatch (grants : Grants) (fd : Device Page) (swapNeeded : Int) : SwapWriter Page :=
  { (init (grants.drop 1) fd).2 with swapNeeded := swapNeeded }

theorem startSaving_walked {grants : Grants} {fd : Device Page} {swapNeeded : Int}
    {started : Started Page}
    (aligned : ∀ offset ∈ grants, 0 ≤ offset ∧ (page.bytes : Int) ∣ offset)
    (distinct : grants.Nodup) (fresh : fd.tablesWritten = [])
    (success : startSaving page doCompress grants fd swapNeeded = .ok started) :
    Walked page started.writer.extentsSpc [] [] [] started.writer ∧
      (started.writer.extents page.maxExtents = Extent.zero ↔
        (firstBatch grants fd swapNeeded).HasRoom page doCompress) := by
  obtain ⟨header, location, rest, opened, rfl, nonzero, hopened, allocated, rfl⟩ :=
    startSaving_success success
  have same : firstBatch (header :: location :: rest) fd swapNeeded = opened := by
    rw [hopened, firstBatch, List.drop_one, List.tail_cons]
    simp only [init, getSwapPage, nonzero, ↓reduceIte]
  have perm : (opened.reserved []).Perm (location :: rest) := by
    rw [hopened, reserved, List.nil_append]
    exact List.perm_append_singleton location rest
  have prepared : Opened page [] opened := by
    refine ⟨⟨fun index => ?_, fun offset member => ?_, ?_⟩, ?_, ?_, ?_⟩
    · rw [hopened]
      exact Spared.zero page _
    · exact aligned offset (List.mem_cons_of_mem _ (perm.subset member))
    · exact perm.nodup_iff.mpr (List.nodup_cons.mp distinct).2
    · rw [hopened]
      exact ⟨fun index inside => absurd inside (Nat.not_lt_zero _),
        fun left right _ inside => absurd inside (Nat.not_lt_zero _)⟩
    · rw [hopened]
      exact Nat.zero_le _
    · rw [hopened]
      rfl
  obtain ⟨dev, table, total, after, filled, supplied, empty⟩ := prepared.fills allocated
  rw [same]
  rw [after] at filled supplied ⊢
  refine ⟨⟨⟨filled.sorted, filled.positive, filled.room, filled.slot⟩, ⟨supplied.spared,
    supplied.aligned, supplied.distinct⟩, Positioned.entry filled.sorted filled.positive,
    (ahead_entry filled.positive).symm, ?_, Chain.nil _, ?_⟩, empty⟩
  · rw [hopened]
    exact nonzero
  · rw [hopened]
    exact fresh

end SwapWriter

namespace SwapReader

variable {other : Reinterpretation Page} {handle : SwapReader Page}

variable (other) in
/-- Behind the last page of a table the reader has loaded the next one. -/
theorem At.advance {table following : Table} {count : Nat} (current : At page table count handle)
    (ends : count < page.maxExtents → ¬ (table count).start < (table count).stop)
    (nonzero : handle.nextExtents ≠ 0) (success : handle.fd.transfer.1 = true)
    (stored : handle.fd.content (.page handle.nextExtents) = .extents following) :
    (findNextImagePage page other)^[(rest page table count handle).length + 1] handle =
      (loadExtentsPage page other handle).2 := by
  induction pages : rest page table count handle generalizing handle with
  | nil => exact current.next_table ends pages nonzero success stored
  | cons next later ih =>
      obtain ⟨index, found, arrived, tail⟩ := current.next other pages
      have continued := ih arrived nonzero success stored tail
      rw [loadExtentsPage_cursor page other index next nonzero success stored] at continued
      rw [List.length_cons, Function.iterate_succ_apply, found]
      exact continued

variable (other) in
/-- Behind the pages of a chain the reader has loaded the table that the chain leads to. -/
theorem advance_chain {content : DiskContent Page} {first last : Int} {tables pages : List Int}
    (chain : Chain page content first tables pages last) {final : Table} (lastNonzero : last ≠ 0)
    (finalStored : content (.page last) = .extents final) (handle : SwapReader Page)
    (start : handle.nextExtents = first) (reads : handle.fd.content = content)
    {unused : List Bool}
    (succeed : handle.fd.outcomes = List.replicate (tables.length + 1) true ++ unused) :
    ∃ reader : SwapReader Page,
      (findNextImagePage page other)^[pages.length] (loadExtentsPage page other handle).2 =
          (loadExtentsPage page other reader).2 ∧
        reader.nextExtents = last ∧ reader.fd.content = content ∧
        reader.fd.transfer.1 = true := by
  induction chain generalizing handle with
  | nil last =>
      refine ⟨handle, rfl, start, reads, ?_⟩
      simp [Device.transfer, succeed, List.replicate_succ]
  | @cons first last table headCount tables pages nonzero stored readable restChain ih =>
      have success : handle.fd.transfer.1 = true := by
        simp [Device.transfer, succeed, List.replicate_succ]
      subst start
      have storedHere : handle.fd.content (.page handle.nextExtents) = .extents table := by
        rw [reads, stored]
      obtain ⟨arrived, all⟩ := loadExtentsPage_at other readable.sorted
        readable.positive readable.room nonzero success storedHere
      have loaded := loadExtentsPage_stored page other nonzero success storedHere
      have link : (loadExtentsPage page other handle).2.nextExtents =
        (table page.maxExtents).start := by rw [loaded]
      have reads' : (loadExtentsPage page other handle).2.fd.content = content := by
        rw [loaded]
        simpa [Device.content] using reads
      have succeed' : (loadExtentsPage page other handle).2.fd.outcomes =
          List.replicate (tables.length + 1) true ++ unused := by
        rw [loaded]
        simp [Device.transfer, succeed, List.replicate_succ]
      have success' : (loadExtentsPage page other handle).2.fd.transfer.1 = true := by
        simp [Device.transfer, succeed', List.replicate_succ]
      obtain ⟨nextNonzero, following, nextStored⟩ := restChain.head lastNonzero finalStored
      rw [← link] at nextNonzero
      rw [← reads', ← link] at nextStored
      have turned := arrived.advance other readable.ends nextNonzero success' nextStored
      obtain ⟨reader, walks, found⟩ := ih lastNonzero finalStored _ link reads' succeed'
      refine ⟨reader, ?_, found⟩
      rw [← all, List.length_append, List.length_cons, Nat.add_comm, Function.iterate_add_apply,
        turned, walks]

variable (other) in
/-- Without a next table there never is one: the last slot in memory is empty as well. -/
theorem advance_ended (none : handle.nextExtents = 0)
    (empty : handle.extents page.maxExtents = Extent.zero) (steps : Nat) :
    ((findNextImagePage page other)^[steps] handle).nextExtents = 0 := by
  have step (handle : SwapReader Page) (none : handle.nextExtents = 0)
      (empty : handle.extents page.maxExtents = Extent.zero) :
      (findNextImagePage page other handle).nextExtents = 0 ∧
        (findNextImagePage page other handle).extents page.maxExtents = Extent.zero := by
    unfold findNextImagePage
    dsimp only
    split
    · exact ⟨none, empty⟩
    · split
      · exact ⟨none, empty⟩
      · simp only [loadExtentsPage, Device.readPage, none, ↓reduceIte, ne_eq, not_true_eq_false,
          Cell.asExtents, empty, Function.update_self]
        exact ⟨rfl, trivial⟩
  induction steps generalizing handle with
  | zero => exact none
  | succ steps ih =>
      obtain ⟨still, same⟩ := step handle none empty
      exact ih still same

end SwapReader

namespace SwapWriter

/-- The table that a successful save writes last has an empty last slot, and the reader has no next
table behind the image, if and only if the last batch had room. -/
theorem last_table_ends_iff (page : PageSize) (doCompress : Bool) (other : Reinterpretation Page)
    (grants : Grants) (initial : DiskContent Page) (outcomes : List Bool) (swapNeeded : Int)
    (srcs : List Page) (started : Started Page)
    (aligned : ∀ offset ∈ grants, 0 ≤ offset ∧ (page.bytes : Int) ∣ offset)
    (distinct : grants.Nodup)
    (prepared : startSaving page doCompress grants (Device.opened initial outcomes) swapNeeded =
      .ok started)
    (saved : (savePages page doCompress started.writer srcs).1 = 0)
    (finished : ((savePages page doCompress started.writer srcs).2.2.saveExtents page true).1 = 0) :
    let writer := (savePages page doCompress started.writer srcs).2.2
    let fd := (writer.saveExtents page true).2.fd
    ((∃ table, fd.content (.page writer.extentsSpc) = .extents table ∧
        table page.maxExtents = Extent.zero) ∧
      ∀ (reader : SwapReader Page) (unused : List Bool),
        reader.nextExtents = started.writer.extentsSpc →
        (∀ offset ∈ fd.tablesWritten, reader.fd.content (.page offset) =
          fd.content (.page offset)) →
        reader.fd.outcomes = List.replicate fd.tablesWritten.length true ++ unused →
        ((SwapReader.findNextImagePage page other)^[srcs.length]
          (SwapReader.loadExtentsPage page other reader).2).nextExtents = 0) ↔
      (lastBatch page doCompress (firstBatch grants (Device.opened initial outcomes) swapNeeded)
        started.writer srcs).HasRoom page doCompress := by
  obtain ⟨walked, slot⟩ := startSaving_walked aligned distinct rfl prepared
  obtain ⟨tables, pages, ends, all, last⟩ := walked.run slot srcs saved
  obtain ⟨nonzero, written⟩ := saveExtents_finish finished
  rw [List.nil_append] at ends
  intro writer fd
  have stored : fd.content (.page writer.extentsSpc) = .extents writer.extents := by
    change (writer.saveExtents page true).2.fd.content _ = _
    rw [written]
    exact Device.append_content_same _ _ _
  have tablesWritten : fd.tablesWritten = tables ++ [writer.extentsSpc] := by
    change (writer.saveExtents page true).2.fd.tablesWritten = _
    rw [written]
    dsimp only
    rw [(Device.append_extents_written _ _ _).1, ends.written]
  rw [← last]
  constructor
  · rintro ⟨⟨table, found, empty⟩, _⟩
    rw [stored] at found
    cases found
    exact empty
  · intro empty
    refine ⟨⟨_, stored, empty⟩, ?_⟩
    intro reader unused begins reads succeed
    rw [tablesWritten] at reads succeed
    rw [List.length_append, List.length_singleton] at succeed
    have content : fd.content =
        (writer.fd.transfer.2.append (.write (.page writer.extentsSpc)
          (.extents writer.extents))).content := by
      change (writer.saveExtents page true).2.fd.content = _
      rw [written]
    have chain := ends.chain.congr reader.fd.content (by
      intro offset member
      rw [reads offset (List.mem_append_left _ member), content, Device.append_content_other]
      rintro rfl
      exact ends.away member)
    have final : reader.fd.content (.page writer.extentsSpc) = .extents writer.extents := by
      rw [reads _ (List.mem_append_right _ (List.mem_singleton_self _)), stored]
    obtain ⟨arrived, walks, place, same, success⟩ :=
      SwapReader.advance_chain other chain nonzero final reader begins rfl succeed
    have few := ends.done_length
    rw [all] at few
    obtain ⟨more, count⟩ := Nat.exists_eq_add_of_le' few
    rw [count, Function.iterate_add_apply, walks,
      SwapReader.loadExtentsPage_stored page other (by rw [place]; exact nonzero) success
        (by rw [same, place]; exact final)]
    apply SwapReader.advance_ended other
    · dsimp only
      rw [empty]
      rfl
    · exact Function.update_self _ _ _

/-- The three pages fit in one table. -/
theorem scattered_ends : ∃ started : Started Nat, startSaving PageSize.fourKilobytes false
      [4096, 36864, 20480, 12288, 28672] (Device.opened blankDisk (List.replicate 5 true))
      12288 = .ok started ∧
    ∃ table, ((savePages PageSize.fourKilobytes false started.writer [1, 2, 3]).2.2.saveExtents
        PageSize.fourKilobytes true).2.fd.content (.page (savePages PageSize.fourKilobytes false
          started.writer [1, 2, 3]).2.2.extentsSpc) = .extents table ∧
      table PageSize.fourKilobytes.maxExtents = Extent.zero := by
  have run : ∃ started ∈ (startSaving PageSize.fourKilobytes false
      [4096, 36864, 20480, 12288, 28672] (Device.opened blankDisk (List.replicate 5 true))
      12288).toOption, (savePages PageSize.fourKilobytes false started.writer [1, 2, 3]).1 = 0 ∧
      ((savePages PageSize.fourKilobytes false started.writer [1, 2, 3]).2.2.saveExtents
        PageSize.fourKilobytes true).1 = 0 ∧
      (lastBatch PageSize.fourKilobytes false (firstBatch [4096, 36864, 20480, 12288, 28672]
        (Device.opened blankDisk (List.replicate 5 true)) 12288) started.writer
          [1, 2, 3]).HasRoom PageSize.fourKilobytes false := by
    decide +kernel
  obtain ⟨started, found, saved, finished, room⟩ := run
  have prepared := startSaving_found found
  exact ⟨started, prepared, ((last_table_ends_iff PageSize.fourKilobytes false noReinterpretation
    [4096, 36864, 20480, 12288, 28672] blankDisk (List.replicate 5 true) 12288 [1, 2, 3] started
    (by decide +kernel) (by decide) prepared saved finished).mpr room).1⟩

/-- With compression, half of 512 pages are asked for: the last of 256 pages that are two apart is
left in the last slot, and the 16 pages that are saved leave it there. -/
theorem everySecond_unended :
    startSaving PageSize.fourKilobytes true everySecond (Device.opened blankDisk enoughWrites)
        (PageSize.fourKilobytes.offset 512) = .ok ⟨PageSize.fourKilobytes.offset 1,
          { fullTable with swapNeeded := PageSize.fourKilobytes.offset 512 }⟩ ∧
      let run := savePages PageSize.fourKilobytes true
        { fullTable with swapNeeded := PageSize.fourKilobytes.offset 512 } (List.replicate 16 0)
      run.1 = 0 ∧ (run.2.2.saveExtents PageSize.fourKilobytes true).1 = 0 ∧
        ∃ table, (run.2.2.saveExtents PageSize.fourKilobytes true).2.fd.content
            (.page run.2.2.extentsSpc) = .extents table ∧
          table PageSize.fourKilobytes.maxExtents = ⟨PageSize.fourKilobytes.offset 513,
            PageSize.fourKilobytes.offset 514⟩ := by
  have started := @everySecond_started true (PageSize.fourKilobytes.offset 512) (by decide)
    (by decide)
  refine ⟨started, ?_⟩
  intro run
  have saved : run.1 = 0 ∧ (run.2.2.saveExtents PageSize.fourKilobytes true).1 = 0 ∧
      run.2.2.extents PageSize.fourKilobytes.maxExtents = ⟨PageSize.fourKilobytes.offset 513,
        PageSize.fourKilobytes.offset 514⟩ := by
    decide +kernel
  have written := (saveExtents_finish saved.2.1).2
  refine ⟨saved.1, saved.2.1, run.2.2.extents, ?_, saved.2.2⟩
  rw [written]
  exact Device.append_content_same _ _ _

end SwapWriter

end Suspend
