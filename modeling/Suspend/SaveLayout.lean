import Suspend.SwapLayout

set_option autoImplicit false

namespace Suspend

variable {Page : Type} {page : PageSize} {doCompress : Bool}

namespace SwapWriter

/-- The writer after the preparations of `write_image`, and the page of the header. -/
structure Started (Page : Type) where
  start : Int
  writer : SwapWriter Page

/-- `write_image` up to the first page: the header page, `init_swap_writer`,
`preallocate_swap`, and `cur_offset` shifted for the first call of `next_swap_page`. -/
def startSaving (page : PageSize) (doCompress : Bool) (grants : Grants) (fd : Device Page)
    (swapNeeded : Int) : Except Int (Started Page) :=
  let header := getSwapPage grants
  if header.1 = 0 then .error (-ENOSPC)
  else
    let opened := init header.2 fd
    if opened.1 ≠ 0 then .error opened.1
    else
      let filled := preallocateSwap page doCompress { opened.2 with swapNeeded := swapNeeded }
      if filled.1 = 0 then .error (-ENOSPC)
      else .ok ⟨header.1, { filled.2 with curOffset := filled.2.curOffset - page.bytes }⟩

/-- The next call of `next_swap_page` leaves the last extent in use of a table that is not full,
and the slot behind that extent is not empty. -/
def Leftover (page : PageSize) (handle : SwapWriter Page) : Prop :=
  (handle.extents handle.curExtentIdx).stop ≤ handle.curOffset + page.bytes ∧
    handle.nrExtents ≤ handle.curExtentIdx + 1 ∧
    handle.curExtentIdx + 1 < page.maxExtents ∧
    (handle.extents (handle.curExtentIdx + 1)).start <
      (handle.extents (handle.curExtentIdx + 1)).stop

instance (page : PageSize) (handle : SwapWriter Page) : Decidable (handle.Leftover page) :=
  inferInstanceAs (Decidable (_ ∧ _ ∧ _ ∧ _))

/-- No call of the run finds such a slot. -/
def NeverLeftover (page : PageSize) (doCompress : Bool) :
    SwapWriter Page → List Page → Prop
  | _, [] => True
  | handle, src :: rest => ¬ handle.Leftover page ∧
      NeverLeftover page doCompress (savePage page doCompress handle src).2 rest

instance NeverLeftover.decidable (page : PageSize) (doCompress : Bool) :
    (handle : SwapWriter Page) → (srcs : List Page) →
      Decidable (NeverLeftover page doCompress handle srcs)
  | _, [] => inferInstanceAs (Decidable True)
  | handle, src :: rest =>
      have := NeverLeftover.decidable page doCompress (savePage page doCompress handle src).2 rest
      inferInstanceAs (Decidable (¬ handle.Leftover page ∧ NeverLeftover page doCompress _ rest))

/-- The pages of the last slot, which a full table keeps for the one after it. -/
def spare (page : PageSize) (handle : SwapWriter Page) : List Int :=
  (handle.extents page.maxExtents).pages page

/-- The pages the writer holds for the tables in use and to come. -/
def pool (page : PageSize) (handle : SwapWriter Page) : List Int :=
  tablePages page handle.extents handle.nrExtents ++ handle.spare page

/-- The table of the writer: sorted, and its last slot is empty unless all others are used. -/
structure Filled (page : PageSize) (handle : SwapWriter Page) : Prop where
  sorted : Sorted page handle.extents handle.nrExtents
  positive : 0 < handle.nrExtents
  room : handle.nrExtents ≤ page.maxExtents
  slot : handle.extents page.maxExtents = Extent.zero ∨ handle.nrExtents = page.maxExtents ∧
    ∃ last, (page.bytes : Int) ∣ last ∧
      handle.extents page.maxExtents = ⟨last, last + page.bytes⟩

section Preallocation

variable {handle : SwapWriter Page}

variable (doCompress handle) in
/-- `preallocate_swap` on a fresh table: the pool is what was there and what was granted. -/
theorem preallocateSwap_success (sorted : Sorted page handle.extents handle.nrExtents)
    (room : handle.nrExtents ≤ page.maxExtents)
    (empty : handle.extents page.maxExtents = Extent.zero)
    (aligned : ∀ offset ∈ handle.dev, 0 ≤ offset ∧ (page.bytes : Int) ∣ offset)
    (distinct : (handle.dev ++ tablePages page handle.extents handle.nrExtents).Nodup)
    (success : (preallocateSwap page doCompress handle).1 ≠ 0) :
    ∃ taken table total rest, handle.dev = taken ++ rest ∧
      (preallocateSwap page doCompress handle).2 = { handle with
        dev := rest
        extents := table
        nrExtents := total
        curExtentIdx := 0
        curOffset := (table 0).start } ∧
      (preallocateSwap page doCompress handle).1 = (table 0).start ∧
      Filled page (preallocateSwap page doCompress handle).2 ∧
      ((preallocateSwap page doCompress handle).2.pool page).Perm
        (taken ++ tablePages page handle.extents handle.nrExtents) := by
  unfold preallocateSwap at success ⊢
  by_cases small : handle.swapNeeded < page.bytes
  · simp [small] at success
  · rw [if_neg small] at success ⊢
    dsimp only at success ⊢
    by_cases failed : (allocSwap page handle.dev handle.extents handle.nrExtents
        (request page doCompress handle.swapNeeded)).ret ≤ 0
    · simp [failed] at success
    · rw [if_neg failed]
      obtain ⟨taken, total, allocated⟩ := allocSwap_spec page handle.dev handle.extents
        handle.nrExtents (request page doCompress handle.swapNeeded) sorted room aligned distinct
        (by omega)
      generalize allocSwap page handle.dev handle.extents handle.nrExtents
        (request page doCompress handle.swapNeeded) = result at *
      have count : min result.ret.toNat page.maxExtents = min total page.maxExtents := by
        rw [allocated.ret, Int.toNat_natCast]
      have positive := allocated.positive
      have maxPositive := page.maxExtents_pos
      refine ⟨taken, result.table, min total page.maxExtents, result.grants, allocated.answers,
        ?_, rfl, ?_, ?_⟩
      · rw [count]
      · refine ⟨?_, ?_, ?_, ?_⟩ <;> dsimp only <;> rw [count]
        · exact allocated.sorted
        · omega
        · omega
        · by_cases full : total = page.maxExtents + 1
          · obtain ⟨last, isLast, slot⟩ := allocated.overflow full
            have granted : last ∈ handle.dev := by
              rw [allocated.answers]
              exact List.mem_append_left _ (List.mem_of_getLast? isLast)
            exact Or.inr ⟨by omega, last, (aligned last granted).2, slot⟩
          · have bounded := allocated.bounded
            rw [allocated.spare (by omega), empty]
            exact Or.inl rfl
      · have pages := allocated.pages
        simp only [pool, spare, count]
        by_cases full : total = page.maxExtents + 1
        · rw [full, tablePages_succ] at pages
          rw [show min total page.maxExtents = page.maxExtents by omega]
          exact pages
        · have bounded := allocated.bounded
          rw [allocated.spare (by omega), empty, Extent.zero_pages, List.append_nil,
            Nat.min_eq_left (by omega)]
          exact pages

end Preallocation

section Tables

variable {handle : SwapWriter Page}

variable (doCompress) in
/-- Either the spare page of a full table is carried over, or nothing is. -/
theorem nextTable_carry (filled : Filled page handle)
    (behind : handle.curExtentIdx = handle.nrExtents)
    (clean : handle.nrExtents < page.maxExtents →
      ¬ (handle.extents handle.nrExtents).start < (handle.extents handle.nrExtents).stop) :
    ∃ cleared carried count, nextTable page doCompress handle =
        (let saved := { handle with extents := cleared, nrExtents := count }.saveExtents page false
        if saved.1 ≠ 0 then (0, saved.2)
        else preallocateSwap page doCompress
          { saved.2 with extents := Function.update Table.zero 0 carried }) ∧
      (∀ index < handle.nrExtents, cleared index = handle.extents index) ∧
      (handle.nrExtents < page.maxExtents →
        ¬ (cleared handle.nrExtents).start < (cleared handle.nrExtents).stop) ∧
      count ≤ 1 ∧ Sorted page (Function.update Table.zero 0 carried) count ∧
      tablePages page (Function.update Table.zero 0 carried) count = handle.spare page := by
  have room := filled.room
  by_cases carry : (handle.extents handle.nrExtents).start < (handle.extents handle.nrExtents).stop
  · have full : handle.nrExtents = page.maxExtents := by
      by_contra notFull
      exact clean (by omega) carry
    refine ⟨Function.update handle.extents handle.nrExtents Extent.zero,
      handle.extents handle.nrExtents, 1, ?_, ?_, by omega, Nat.le_refl _, ?_, ?_⟩
    · simp only [nextTable, behind, carry, ↓reduceIte]
    · intro index inside
      exact Function.update_of_ne (by omega) _ _
    · rcases filled.slot with empty | ⟨_, last, aligned, slot⟩
      · rw [full, empty] at carry
        exact absurd carry (by decide)
      · rw [full, slot]
        exact Sorted.single aligned
    · rw [tablePages_succ, tablePages_zero, List.nil_append, Function.update_self, full]
      rfl
  · refine ⟨handle.extents, Extent.zero, 0, ?_, fun _ _ => rfl, fun _ => carry, by omega,
      ⟨by omega, by omega⟩, ?_⟩
    · simp only [nextTable, behind, carry, ↓reduceIte]
    · rcases filled.slot with empty | ⟨full, last, _, slot⟩
      · rw [tablePages_zero, spare, empty, Extent.zero_pages]
      · rw [full, slot] at carry
        have positive := page.bytes_pos
        dsimp only at carry
        omega

/-- The finished table has been written where the tables before it say, and the next one has
been filled from the spare page and new grants. -/
structure Continued (page : PageSize) (before after : SwapWriter Page) (offset : Int)
    (taken : List Int) (table : Table) : Prop where
  answers : before.dev = offset :: (taken ++ after.dev)
  nonzero : offset ≠ 0
  readable : Readable page table before.nrExtents
  same : tablePages page table before.nrExtents = tablePages page before.extents before.nrExtents
  link : (table page.maxExtents).start = offset
  written : after.fd =
    before.fd.transfer.2.append (.write (.page before.extentsSpc) (.extents table))
  location : after.extentsSpc = offset
  filled : Filled page after
  pool : (after.pool page).Perm (taken ++ before.spare page)
  first : after.curExtentIdx = 0 ∧ after.curOffset = (after.extents 0).start

theorem nextTable_success (filled : Filled page handle)
    (behind : handle.curExtentIdx = handle.nrExtents)
    (clean : handle.nrExtents < page.maxExtents →
      ¬ (handle.extents handle.nrExtents).start < (handle.extents handle.nrExtents).stop)
    (aligned : ∀ offset ∈ handle.dev, 0 ≤ offset ∧ (page.bytes : Int) ∣ offset)
    (distinct : (handle.dev ++ handle.spare page).Nodup)
    (success : (nextTable page doCompress handle).1 ≠ 0) :
    (nextTable page doCompress handle).1 = (nextTable page doCompress handle).2.curOffset ∧
      ∃ offset taken table,
        Continued page handle (nextTable page doCompress handle).2 offset taken table := by
  obtain ⟨cleared, carried, count, shape, same, empty, few, sorted, spared⟩ :=
    nextTable_carry doCompress filled behind clean
  have positive := page.maxExtents_pos
  rw [shape] at success ⊢
  dsimp only at success ⊢
  by_cases failed : ({ handle with extents := cleared, nrExtents := count }.saveExtents page
      false).1 = 0
  · rw [if_neg (by simpa using failed)] at success ⊢
    obtain ⟨offset, rest, answers, nonzero, located, saved⟩ := saveExtents_success failed
    dsimp only at answers located
    rw [saved] at success ⊢
    dsimp only at success ⊢
    rw [answers] at aligned distinct
    have fresh : Function.update Table.zero 0 carried page.maxExtents = Extent.zero := by
      rw [Function.update_of_ne (by omega)]
      rfl
    have distinctRest :
        (rest ++ tablePages page (Function.update Table.zero 0 carried) count).Nodup := by
      rw [spared]
      exact (List.nodup_cons.mp distinct).2
    obtain ⟨taken, table, total, left, granted, after, first, refilled, pool⟩ :=
      preallocateSwap_success doCompress { handle with
        dev := rest
        extents := Function.update Table.zero 0 carried
        nrExtents := count
        fd := handle.fd.transfer.2.append (.write (.page handle.extentsSpc)
          (.extents (Function.update cleared page.maxExtents
            { cleared page.maxExtents with start := offset })))
        extentsSpc := offset } sorted (by dsimp only; omega) fresh
        (fun other member => aligned other (List.mem_cons_of_mem _ member)) distinctRest success
    refine ⟨?_, offset, taken, Function.update cleared page.maxExtents
      { cleared page.maxExtents with start := offset }, ?_⟩
    · rw [first, after]
    · have kept : ∀ index < handle.nrExtents, Function.update cleared page.maxExtents
          { cleared page.maxExtents with start := offset } index = handle.extents index := by
        intro index inside
        have room := filled.room
        rw [Function.update_of_ne (by omega), same index inside]
      refine ⟨?_, nonzero, ⟨filled.sorted.congr kept, filled.positive, filled.room, ?_⟩,
        tablePages_congr kept, ?_, ?_, ?_, refilled, ?_, ?_⟩
      · rw [after, answers]
        dsimp only at granted ⊢
        rw [granted]
      · intro notFull
        rw [Function.update_of_ne (by omega)]
        exact empty notFull
      · rw [Function.update_self]
      · rw [after]
      · rw [after]
      · rw [← spared]
        exact pool
      · rw [after]
        exact ⟨rfl, rfl⟩
  · rw [if_pos failed] at success
    exact absurd rfl success

end Tables

/-- What holds between two calls of `save_page`: `tables` have been written and chained, their
extents are `pages`, and `done` has been handed out of them and of the table in use. -/
structure Laid (page : PageSize) (grants : Grants) (start first : Int)
    (tables pages done : List Int) (handle : SwapWriter Page) : Prop where
  filled : Filled page handle
  position : Positioned page handle.extents handle.nrExtents handle.curExtentIdx handle.curOffset
  handed : pages ++ tablePages page handle.extents handle.nrExtents = done ++
    ahead page handle.extents handle.nrExtents handle.curExtentIdx handle.curOffset
  answers : ∃ consumed, grants = consumed ++ handle.dev ∧
    consumed.Perm (start :: handle.extentsSpc :: (tables ++ (pages ++ handle.pool page)))
  nonzero : handle.extentsSpc ≠ 0
  chain : Chain page handle.fd.content first tables pages handle.extentsSpc
  written : handle.fd.tablesWritten = tables

namespace Laid

variable {grants : Grants} {start first : Int} {tables pages done : List Int}
  {handle : SwapWriter Page}

/-- Everything taken from the kernel so far is in one place only. -/
theorem nodup (laid : Laid page grants start first tables pages done handle)
    (distinct : grants.Nodup) :
    (start :: handle.extentsSpc :: (tables ++ (pages ++ handle.pool page))).Nodup := by
  obtain ⟨consumed, rfl, perm⟩ := laid.answers
  exact perm.nodup_iff.mp (List.nodup_append.mp distinct).1

variable (doCompress) in
theorem next_within (laid : Laid page grants start first tables pages done handle)
    {next : Int} {later : List Int}
    (more : ahead page handle.extents handle.nrExtents handle.curExtentIdx handle.curOffset =
      next :: later) :
    (nextSwapPage page doCompress handle).1 = next ∧
      Laid page grants start first tables pages (done ++ [next])
        (nextSwapPage page doCompress handle).2 := by
  have handed : pages ++ tablePages page handle.extents handle.nrExtents =
      (done ++ [next]) ++ later := by
    rw [laid.handed, more, List.append_assoc]
    rfl
  rcases laid.position.step laid.filled.sorted more with ⟨same, rfl, position, tail⟩ |
      ⟨last, inside, rfl, position, tail⟩
  · simp only [nextSwapPage, same, ↓reduceIte, true_and]
    exact ⟨⟨laid.filled.sorted, laid.filled.positive, laid.filled.room, laid.filled.slot⟩,
      position, by rw [handed, tail], laid.answers, laid.nonzero, laid.chain, laid.written⟩
  · have past : ¬ handle.curOffset + page.bytes <
        (handle.extents handle.curExtentIdx).stop := by omega
    simp only [nextSwapPage, past, inside, ↓reduceIte, true_and]
    exact ⟨⟨laid.filled.sorted, laid.filled.positive, laid.filled.room, laid.filled.slot⟩,
      position, by rw [handed, tail], laid.answers, laid.nonzero, laid.chain, laid.written⟩

variable (doCompress) in
/-- The call that leaves the table, and the writer with which it does. -/
theorem leaves (laid : Laid page grants start first tables pages done handle)
    (aligned : ∀ offset ∈ grants, 0 ≤ offset ∧ (page.bytes : Int) ∣ offset)
    (distinct : grants.Nodup)
    (used : ahead page handle.extents handle.nrExtents handle.curExtentIdx handle.curOffset = []) :
    ∃ left : SwapWriter Page, { handle with
        curExtentIdx := handle.curExtentIdx + 1
        curOffset := handle.curOffset + page.bytes } = left ∧
      nextSwapPage page doCompress handle = nextTable page doCompress left ∧
      Filled page left ∧ left.curExtentIdx = left.nrExtents ∧
      (∀ offset ∈ left.dev, 0 ≤ offset ∧ (page.bytes : Int) ∣ offset) ∧
      (left.dev ++ left.spare page).Nodup := by
  obtain ⟨last, behind⟩ := laid.position.exhausted laid.filled.sorted used
  obtain ⟨consumed, answers, perm⟩ := laid.answers
  have past : ¬ handle.curOffset + page.bytes < (handle.extents handle.curExtentIdx).stop := by
    omega
  have beyond : ¬ handle.curExtentIdx + 1 < handle.nrExtents := by omega
  refine ⟨_, rfl, by simp only [nextSwapPage, past, beyond, ↓reduceIte],
    ⟨laid.filled.sorted, laid.filled.positive, laid.filled.room, laid.filled.slot⟩, behind,
    ?_, ?_⟩
  · intro offset member
    exact aligned offset (by rw [answers]; exact List.mem_append_right _ member)
  · rw [answers] at distinct
    have parts := List.nodup_append.mp distinct
    have whole := laid.nodup (answers ▸ distinct)
    refine List.nodup_append.mpr ⟨parts.2.1, ?_, ?_⟩
    · refine whole.sublist ?_
      refine List.Sublist.cons _ (List.Sublist.cons _ ?_)
      refine List.Sublist.trans ?_ (List.sublist_append_right _ _)
      refine List.Sublist.trans ?_ (List.sublist_append_right _ _)
      exact List.sublist_append_right _ _
    · rintro offset inDev other inSpare rfl
      refine parts.2.2 offset ?_ offset inDev rfl
      refine perm.mem_iff.mpr ?_
      simp only [List.mem_cons, List.mem_append, SwapWriter.pool]
      exact Or.inr (Or.inr (Or.inr (Or.inr (Or.inr inSpare))))

/-- The call that writes the table and goes on with the next one. -/
theorem next_table (laid : Laid page grants start first tables pages done handle)
    (aligned : ∀ offset ∈ grants, 0 ≤ offset ∧ (page.bytes : Int) ∣ offset)
    (distinct : grants.Nodup)
    (clean : ¬ handle.Leftover page)
    (used : ahead page handle.extents handle.nrExtents handle.curExtentIdx handle.curOffset = [])
    (success : (nextSwapPage page doCompress handle).1 ≠ 0) :
    Laid page grants start first (tables ++ [handle.extentsSpc])
      (pages ++ tablePages page handle.extents handle.nrExtents)
      (done ++ [(nextSwapPage page doCompress handle).1])
      (nextSwapPage page doCompress handle).2 := by
  obtain ⟨last, behind⟩ := laid.position.exhausted laid.filled.sorted used
  obtain ⟨consumed, answers, perm⟩ := laid.answers
  obtain ⟨left, hleft, calls, filled, atEnd, alignedLeft, distinctLeft⟩ :=
    laid.leaves doCompress aligned distinct used
  rw [calls] at success ⊢
  have cleanLeft : left.nrExtents < page.maxExtents →
      ¬ (left.extents left.nrExtents).start < (left.extents left.nrExtents).stop := by
    subst hleft
    rw [← behind]
    intro notFull nonempty
    exact clean ⟨last, by omega, notFull, nonempty⟩
  obtain ⟨first_page, offset, taken, table, continued⟩ :=
    nextTable_success filled atEnd cleanLeft alignedLeft distinctLeft success
  rw [first_page]
  generalize (nextTable page doCompress left).2 = after at continued first_page ⊢
  obtain ⟨atFirst, atStart⟩ := continued.first
  have sorted := continued.filled.sorted
  have positive := continued.filled.positive
  have written : after.fd = handle.fd.transfer.2.append
      (.write (.page handle.extentsSpc) (.extents table)) := by
    rw [continued.written]
    subst hleft
    rfl
  refine ⟨continued.filled, ?_, ?_, ⟨consumed ++ offset :: taken, ?_, ?_⟩, ?_, ?_, ?_⟩
  · rw [atFirst, atStart]
    exact sorted.positioned positive
  · rw [laid.handed, used, atFirst, atStart, sorted.first_page positive, List.append_nil,
      List.append_assoc]
    rfl
  · have granted := continued.answers
    subst hleft
    rw [answers, granted]
    simp
  · -- every page is counted on both sides as often as before, and the new ones once
    refine List.perm_iff_count.mpr fun counted => ?_
    have old := perm.count_eq counted
    have new := continued.pool.count_eq counted
    have spared : left.spare page = handle.spare page := by
      subst hleft
      rfl
    rw [continued.location]
    simp only [SwapWriter.pool, spared, List.count_append, List.count_cons,
      List.count_nil] at old new ⊢
    omega
  · rw [continued.location]
    exact continued.nonzero
  · have away : handle.extentsSpc ∉ tables := by
      intro member
      have whole := (List.nodup_cons.mp (laid.nodup distinct)).2
      exact (List.nodup_cons.mp whole).1 (List.mem_append_left _ member)
    have kept := laid.chain.congr after.fd.content (by
      intro other member
      rw [written, Device.append_content_other]
      rintro rfl
      exact away member)
    have readable := continued.readable
    have pagesSame := continued.same
    subst hleft
    have longer := kept.snoc laid.nonzero (by rw [written, Device.append_content_same]) readable
    rw [continued.link, pagesSame] at longer
    rw [continued.location]
    exact longer
  · rw [written, (Device.append_extents_written _ _ _).1, laid.written]

theorem next (laid : Laid page grants start first tables pages done handle)
    (aligned : ∀ offset ∈ grants, 0 ≤ offset ∧ (page.bytes : Int) ∣ offset)
    (distinct : grants.Nodup)
    (clean : ¬ handle.Leftover page) (success : (nextSwapPage page doCompress handle).1 ≠ 0) :
    ∃ tables pages, Laid page grants start first tables pages
      (done ++ [(nextSwapPage page doCompress handle).1])
      (nextSwapPage page doCompress handle).2 := by
  cases used : ahead page handle.extents handle.nrExtents handle.curExtentIdx
      handle.curOffset with
  | nil => exact ⟨_, _, laid.next_table aligned distinct clean used success⟩
  | cons next later =>
      obtain ⟨rfl, within⟩ := laid.next_within doCompress used
      exact ⟨_, _, within⟩

/-- The page handed out last is not one of the written tables. -/
theorem handed_not_table {offset : Int}
    (laid : Laid page grants start first tables pages (done ++ [offset]) handle)
    (distinct : grants.Nodup) : offset ∉ tables := by
  intro member
  have whole := (List.nodup_cons.mp (List.nodup_cons.mp (laid.nodup distinct)).2).2
  refine (List.nodup_append.mp whole).2.2 offset member offset ?_ rfl
  have inside : offset ∈ pages ++ tablePages page handle.extents handle.nrExtents := by
    rw [laid.handed]
    simp
  rw [SwapWriter.pool, ← List.append_assoc]
  exact List.mem_append_left _ inside

theorem save (laid : Laid page grants start first tables pages done handle)
    (aligned : ∀ offset ∈ grants, 0 ≤ offset ∧ (page.bytes : Int) ∣ offset)
    (distinct : grants.Nodup)
    (clean : ¬ handle.Leftover page) {src : Page}
    (success : (savePage page doCompress handle src).1 = 0) :
    ∃ tables pages, Laid page grants start first tables pages
      (done ++ [(nextSwapPage page doCompress handle).1])
      (savePage page doCompress handle src).2 := by
  obtain ⟨handedOut, saved⟩ := savePage_success success
  obtain ⟨tables, pages, advanced⟩ := laid.next aligned distinct clean handedOut
  rw [saved]
  refine ⟨tables, pages, ⟨advanced.filled.sorted, advanced.filled.positive, advanced.filled.room,
    advanced.filled.slot⟩, advanced.position, advanced.handed, advanced.answers,
    advanced.nonzero, ?_, ?_⟩
  · refine advanced.chain.congr _ fun offset member => ?_
    dsimp only
    rw [Device.append_content_other]
    rintro rfl
    exact advanced.handed_not_table distinct member
  · dsimp only
    rw [(Device.append_data_written _ _ _).1, advanced.written]

theorem run (laid : Laid page grants start first tables pages done handle)
    (aligned : ∀ offset ∈ grants, 0 ≤ offset ∧ (page.bytes : Int) ∣ offset)
    (distinct : grants.Nodup)
    (srcs : List Page) (clean : handle.NeverLeftover page doCompress srcs)
    (success : (savePages page doCompress handle srcs).1 = 0) :
    (∃ tables pages, Laid page grants start first tables pages
        (done ++ (savePages page doCompress handle srcs).2.1)
        (savePages page doCompress handle srcs).2.2) ∧
      (savePages page doCompress handle srcs).2.1.length = srcs.length := by
  induction srcs generalizing handle tables pages done with
  | nil => exact ⟨⟨tables, pages, by simpa [savePages] using laid⟩, rfl⟩
  | cons src rest ih =>
      obtain ⟨cleanHere, cleanLater⟩ := clean
      by_cases saved : (savePage page doCompress handle src).1 = 0
      · simp only [savePages, saved, ne_eq, not_true_eq_false, ↓reduceIte] at success ⊢
        obtain ⟨tables, pages, advanced⟩ := laid.save aligned distinct cleanHere saved
        obtain ⟨⟨tables, pages, finished⟩, all⟩ := ih advanced cleanLater success
        refine ⟨⟨tables, pages, ?_⟩, by rw [List.length_cons, all, List.length_cons]⟩
        rwa [List.append_assoc] at finished
      · simp [savePages, saved] at success

end Laid

theorem startSaving_success {grants : Grants} {fd : Device Page} {swapNeeded : Int}
    {started : Started Page}
    (success : startSaving page doCompress grants fd swapNeeded = .ok started) :
    ∃ header location rest opened, grants = header :: location :: rest ∧ location ≠ 0 ∧
      opened = { blank location rest fd with swapNeeded := swapNeeded } ∧
      (preallocateSwap page doCompress opened).1 ≠ 0 ∧
      started = ⟨header, { (preallocateSwap page doCompress opened).2 with
        curOffset := (preallocateSwap page doCompress opened).2.curOffset - page.bytes }⟩ := by
  unfold startSaving at success
  cases grants with
  | nil => simp [getSwapPage] at success
  | cons header rest =>
      dsimp only [getSwapPage] at success
      by_cases noHeader : header = 0
      · simp [noHeader] at success
      · rw [if_neg noHeader] at success
        cases rest with
        | nil => simp [init, getSwapPage, ENOSPC] at success
        | cons location rest =>
            by_cases noLocation : location = 0
            · simp [init, getSwapPage, noLocation, ENOSPC] at success
            · have opened : init (location :: rest) fd = (0, blank location rest fd) := by
                simp [init, getSwapPage, noLocation]
              rw [opened, if_neg (by simp)] at success
              by_cases failed : (preallocateSwap page doCompress
                  { blank location rest fd with swapNeeded := swapNeeded }).1 = 0
              · rw [if_pos failed] at success
                cases success
              · rw [if_neg failed] at success
                cases success
                exact ⟨header, location, rest, _, rfl, noLocation, rfl, failed, rfl⟩

theorem startSaving_laid {grants : Grants} {fd : Device Page} {swapNeeded : Int}
    {started : Started Page}
    (aligned : ∀ offset ∈ grants, 0 ≤ offset ∧ (page.bytes : Int) ∣ offset)
    (distinct : grants.Nodup)
    (fresh : fd.tablesWritten = [])
    (success : startSaving page doCompress grants fd swapNeeded = .ok started) :
    Laid page grants started.start started.writer.extentsSpc [] [] [] started.writer := by
  obtain ⟨header, location, rest, opened, rfl, nonzero, hopened, allocated, rfl⟩ :=
    startSaving_success success
  have dev : opened.dev = rest := by rw [hopened]; rfl
  have count : opened.nrExtents = 0 := by rw [hopened]; rfl
  have location' : opened.extentsSpc = location := by rw [hopened]; rfl
  have device : opened.fd = fd := by rw [hopened]; rfl
  obtain ⟨taken, table, total, left, answers, after, _, filled, pool⟩ :=
    preallocateSwap_success doCompress _ ⟨by simp [count], by simp [count]⟩ (by omega)
      (by rw [hopened]; rfl)
      (fun offset member => aligned offset (by rw [← dev]; simp [member]))
      (by
        rw [count, dev, tablePages_zero, List.append_nil]
        exact (List.nodup_cons.mp (List.nodup_cons.mp distinct).2).2) allocated
  rw [after] at filled pool ⊢
  rw [dev] at answers
  dsimp only at filled pool ⊢
  rw [location', device]
  refine ⟨⟨filled.sorted, filled.positive, filled.room, filled.slot⟩,
    Positioned.entry filled.sorted filled.positive, (ahead_entry filled.positive).symm,
    ⟨header :: location :: taken, by rw [answers]; rfl, ?_⟩, nonzero, Chain.nil _, fresh⟩
  rw [count, tablePages_zero, List.append_nil] at pool
  exact (pool.symm.cons _).cons _

/-- Every page handed out is handed out once, and none is the header page or a table. -/
theorem Laid.offsets_nodup {grants : Grants} {start first : Int} {tables pages done : List Int}
    {handle : SwapWriter Page} (laid : Laid page grants start first tables pages done handle)
    (distinct : grants.Nodup) : (start :: (tables ++ [handle.extentsSpc]) ++ done).Nodup := by
  obtain ⟨consumed, answers, perm⟩ := laid.answers
  have whole := laid.nodup distinct
  rw [SwapWriter.pool, ← List.append_assoc pages, laid.handed] at whole
  have moved : (start :: handle.extentsSpc :: (tables ++ (done ++
      ahead page handle.extents handle.nrExtents handle.curExtentIdx handle.curOffset ++
        handle.spare page))).Perm ((start :: (tables ++ [handle.extentsSpc]) ++ done) ++
      (ahead page handle.extents handle.nrExtents handle.curExtentIdx handle.curOffset ++
        handle.spare page)) := by
    refine List.perm_iff_count.mpr fun counted => ?_
    simp only [List.count_append, List.count_cons, List.count_nil]
    omega
  exact (List.nodup_append.mp (moved.nodup_iff.mp whole)).1

/-- The reader that starts at the first table finds the pages in the order in which they were
handed out. -/
theorem Laid.visits {grants : Grants} {start first : Int} {tables pages done : List Int}
    {handle : SwapWriter Page} {other : Reinterpretation Page}
    (laid : Laid page grants start first tables pages done handle) (distinct : grants.Nodup)
    (finished : (handle.saveExtents page true).1 = 0) (reader : SwapReader Page)
    (begins : reader.nextExtents = first)
    (reads : ∀ offset ∈ tables ++ [handle.extentsSpc], reader.fd.content (.page offset) =
      (handle.saveExtents page true).2.fd.content (.page offset))
    {unused : List Bool}
    (succeed : reader.fd.outcomes = List.replicate (tables.length + 1) true ++ unused) :
    SwapReader.visits page other done.length
      (SwapReader.loadExtentsPage page other reader).2 = done := by
  obtain ⟨nonzero, written⟩ := saveExtents_finish finished
  rw [written] at reads
  have away : handle.extentsSpc ∉ tables := by
    intro member
    have whole := (List.nodup_cons.mp (laid.nodup distinct)).2
    exact (List.nodup_cons.mp whole).1 (List.mem_append_left _ member)
  have chain := laid.chain.congr reader.fd.content (by
    intro offset member
    rw [reads offset (List.mem_append_left _ member), Device.append_content_other]
    rintro rfl
    exact away member)
  have final : reader.fd.content (.page handle.extentsSpc) = .extents handle.extents := by
    rw [reads _ (by simp), Device.append_content_same]
  have all := SwapReader.visits_chain other chain laid.filled.sorted
    laid.filled.positive laid.filled.room nonzero final reader begins rfl succeed done.length
    (by rw [laid.handed]; simp)
  rw [all, laid.handed, List.take_left]

/-- A save none of whose calls finds a leftover extent: the pages handed out are all different
from one another, from the header page and from the tables, and the reader visits them in the
same order. -/
theorem layout_agrees (page : PageSize) (doCompress : Bool) (other : Reinterpretation Page)
    (grants : Grants) (initial : DiskContent Page) (outcomes : List Bool) (swapNeeded : Int)
    (srcs : List Page) (started : Started Page)
    (aligned : ∀ offset ∈ grants, 0 ≤ offset ∧ (page.bytes : Int) ∣ offset)
    (distinct : grants.Nodup)
    (prepared : startSaving page doCompress grants (Device.opened initial outcomes) swapNeeded =
      .ok started)
    (saved : (savePages page doCompress started.writer srcs).1 = 0)
    (finished : ((savePages page doCompress started.writer srcs).2.2.saveExtents page true).1 = 0)
    (clean : started.writer.NeverLeftover page doCompress srcs) :
    let offsets := (savePages page doCompress started.writer srcs).2.1
    let fd := ((savePages page doCompress started.writer srcs).2.2.saveExtents page true).2.fd
    offsets.length = srcs.length ∧ (started.start :: fd.tablesWritten ++ offsets).Nodup ∧
      ∀ (reader : SwapReader Page) (unused : List Bool),
        reader.nextExtents = started.writer.extentsSpc → reader.fd.content = fd.content →
        reader.fd.outcomes = List.replicate fd.tablesWritten.length true ++ unused →
        (SwapReader.loadExtentsPage page other reader).1 = 0 ∧
        SwapReader.visits page other srcs.length
          (SwapReader.loadExtentsPage page other reader).2 = offsets := by
  obtain ⟨⟨tables, pages, laid⟩, all⟩ :=
    (startSaving_laid aligned distinct rfl prepared).run aligned distinct srcs clean saved
  rw [List.nil_append] at laid
  have written := (saveExtents_finish finished).2
  have tablesWritten : ((savePages page doCompress started.writer srcs).2.2.saveExtents page
      true).2.fd.tablesWritten =
      tables ++ [(savePages page doCompress started.writer srcs).2.2.extentsSpc] := by
    rw [written, (Device.append_extents_written _ _ _).1, laid.written]
  refine ⟨all, ?_, ?_⟩
  · rw [tablesWritten]
    exact laid.offsets_nodup distinct
  · intro reader unused begins reads succeed
    rw [tablesWritten, List.length_append, List.length_singleton] at succeed
    refine ⟨?_, ?_⟩
    · simp [SwapReader.loadExtentsPage, Device.readPage, Device.transfer, succeed,
        List.replicate_succ]
      split <;> rfl
    · rw [← all]
      exact laid.visits distinct finished reader begins (fun _ _ => by rw [reads]) succeed

theorem startSaving_found {grants : Grants} {fd : Device Page} {swapNeeded : Int}
    {started : Started Page}
    (found : started ∈ (startSaving page doCompress grants fd swapNeeded).toOption) :
    startSaving page doCompress grants fd swapNeeded = .ok started := by
  cases result : startSaving page doCompress grants fd swapNeeded with
  | error _ => simp [result, Except.toOption] at found
  | ok _ =>
      rw [result] at found
      cases found
      rfl

/-- A swap area before any save. -/
def blankDisk : DiskContent Nat
  | .page _ => .data 0
  | .record => ⟨0, SWAPSPACE2, SWAPSPACE2⟩

def noReinterpretation : Reinterpretation Nat := ⟨fun _ => Table.zero, fun _ => Table.zero⟩

/-- A save of three pages without compression, from scattered swap pages. -/
theorem layout_agrees_scattered :
    ∃ started : Started Nat, startSaving PageSize.fourKilobytes false
        [4096, 36864, 20480, 12288, 28672] (Device.opened blankDisk (List.replicate 5 true))
        12288 = .ok started ∧
      (started.start :: ((savePages PageSize.fourKilobytes false started.writer
          [1, 2, 3]).2.2.saveExtents PageSize.fourKilobytes true).2.fd.tablesWritten ++
        (savePages PageSize.fourKilobytes false started.writer [1, 2, 3]).2.1).Nodup := by
  have run : ∃ started ∈ (startSaving PageSize.fourKilobytes false
      [4096, 36864, 20480, 12288, 28672] (Device.opened blankDisk (List.replicate 5 true))
      12288).toOption, (savePages PageSize.fourKilobytes false started.writer [1, 2, 3]).1 = 0 ∧
      ((savePages PageSize.fourKilobytes false started.writer [1, 2, 3]).2.2.saveExtents
        PageSize.fourKilobytes true).1 = 0 ∧
      started.writer.NeverLeftover PageSize.fourKilobytes false [1, 2, 3] := by
    decide +kernel
  obtain ⟨started, found, saved, finished, clean⟩ := run
  have prepared := startSaving_found found
  exact ⟨started, prepared, (layout_agrees PageSize.fourKilobytes false noReinterpretation
    [4096, 36864, 20480, 12288, 28672] blankDisk (List.replicate 5 true) 12288 [1, 2, 3] started
    (by decide +kernel) (by decide) prepared saved finished clean).2.1⟩

/-- The page granted third joins the second and the fourth: a copy of the last extent stays
behind the only one left, and is handed out again with the next table. -/
theorem leftover_handed_out_twice :
    (∀ offset ∈ ([4096, 8192, 20480, 28672, 24576, 32768, 36864, 40960] : Grants),
      0 < offset ∧ (4096 : Int) ∣ offset) ∧
    ([4096, 8192, 20480, 28672, 24576, 32768, 36864, 40960] : Grants).Nodup ∧
    ∃ started : Started Nat, startSaving PageSize.fourKilobytes true
        [4096, 8192, 20480, 28672, 24576, 32768, 36864, 40960]
        (Device.opened blankDisk (List.replicate 8 true)) 20480 = .ok started ∧
      (savePages PageSize.fourKilobytes true started.writer [1, 2, 3, 4, 5]).1 = 0 ∧
      ((savePages PageSize.fourKilobytes true started.writer [1, 2, 3, 4, 5]).2.2.saveExtents
        PageSize.fourKilobytes true).1 = 0 ∧
      ¬ (savePages PageSize.fourKilobytes true started.writer [1, 2, 3, 4, 5]).2.1.Nodup := by
  refine ⟨by decide, by decide, ?_⟩
  have run : ∃ started ∈ (startSaving PageSize.fourKilobytes true
      [4096, 8192, 20480, 28672, 24576, 32768, 36864, 40960]
      (Device.opened blankDisk (List.replicate 8 true)) 20480).toOption,
      (savePages PageSize.fourKilobytes true started.writer [1, 2, 3, 4, 5]).1 = 0 ∧
      ((savePages PageSize.fourKilobytes true started.writer [1, 2, 3, 4, 5]).2.2.saveExtents
        PageSize.fourKilobytes true).1 = 0 ∧
      ¬ (savePages PageSize.fourKilobytes true started.writer [1, 2, 3, 4, 5]).2.1.Nodup := by
    decide +kernel
  obtain ⟨started, found, rest⟩ := run
  exact ⟨started, startSaving_found found, rest⟩

end SwapWriter

end Suspend
