import Mathlib.Data.List.Nodup
import Suspend.SaveLayout

set_option autoImplicit false

namespace Suspend

open Foundation.Cells

/-- The byte offset of a page of the device. -/
def PageSize.offset (page : PageSize) (index : Nat) : Int := page.bytes * index

namespace PageSize

variable {page : PageSize} {low high : Nat}

theorem offset_succ (page : PageSize) (index : Nat) :
    page.offset (index + 1) = page.offset index + page.bytes := by
  unfold offset
  push_cast
  rw [Int.mul_add, Int.mul_one]

theorem offset_lt : page.offset low < page.offset high ↔ low < high := by
  have positive : (0 : Int) < page.bytes := by exact_mod_cast page.bytes_pos
  unfold offset
  rw [Int.mul_lt_mul_left positive]
  exact Int.ofNat_lt

theorem offset_le : page.offset low ≤ page.offset high ↔ low ≤ high := by
  rw [← Int.not_lt, offset_lt, Nat.not_lt]

@[simp] theorem offset_zero (page : PageSize) : page.offset 0 = 0 := by
  simp [offset]

theorem offset_pos : 0 < page.offset low ↔ 0 < low := by
  rw [← page.offset_zero, offset_lt]

theorem offset_ne_zero (page : PageSize) {index : Nat} (positive : 0 < index) :
    page.offset index ≠ 0 :=
  Int.ne_of_gt (offset_pos.mpr positive)

theorem offset_add (page : PageSize) (low high : Nat) :
    page.offset (low + high) = page.offset low + page.offset high := by
  unfold offset
  push_cast
  rw [Int.mul_add]

theorem offset_injective (page : PageSize) : Function.Injective page.offset := by
  intro low high same
  apply Nat.le_antisymm
  · exact offset_le.mp (Int.le_of_eq same)
  · exact offset_le.mp (Int.le_of_eq same.symm)

end PageSize

/-- Whatever an extent in use or left behind holds begins at a granted page. -/
structure Supplied (table : Table) (count : Nat) : Prop where
  used : ∀ index < count, 0 < (table index).start
  held : ∀ index, (table index).start < (table index).stop → 0 < (table index).start

namespace Supplied

variable {page : PageSize} {table : Table} {count : Nat} {offset : Int}

theorem update (supplied : Supplied table count) (index : Nat) (extent : Extent)
    (positive : 0 < extent.start) : Supplied (Function.update table index extent) count := by
  constructor
  · intro position inside
    by_cases same : position = index
    · rwa [same, Function.update_self]
    · rw [Function.update_of_ne same]
      exact supplied.used position inside
  · intro position nonempty
    by_cases same : position = index
    · rwa [same, Function.update_self]
    · rw [Function.update_of_ne same] at nonempty ⊢
      exact supplied.held position nonempty

/-- The extents behind `hole` move down over it. -/
theorem pull (supplied : Supplied table count) {hole : Nat} (inside : hole < count) :
    Supplied (memmove table hole (hole + 1) (count - hole - 1)) (count - 1) := by
  constructor
  · intro position below
    unfold memmove
    split
    · exact supplied.used _ (by omega)
    · exact supplied.used _ (by omega)
  · intro position nonempty
    unfold memmove at nonempty ⊢
    split at nonempty
    · next moved =>
      rw [if_pos moved]
      exact supplied.held _ nonempty
    · next kept =>
      rw [if_neg kept]
      exact supplied.held _ nonempty

/-- The extents from `hole` on move up, and a new one is put there. -/
theorem push (supplied : Supplied table count) {hole : Nat} (inside : hole ≤ count)
    {extent : Extent} (positive : 0 < extent.start) :
    Supplied (Function.update (memmove table (hole + 1) hole (count - hole)) hole extent)
      (count + 1) := by
  constructor
  · intro position below
    by_cases same : position = hole
    · rwa [same, Function.update_self]
    · rw [Function.update_of_ne same]
      unfold memmove
      split
      · exact supplied.used _ (by omega)
      · exact supplied.used _ (by omega)
  · intro position nonempty
    by_cases same : position = hole
    · rwa [same, Function.update_self]
    · rw [Function.update_of_ne same] at nonempty ⊢
      unfold memmove at nonempty ⊢
      split at nonempty
      · next moved =>
        rw [if_pos moved]
        exact supplied.held _ nonempty
      · next kept =>
        rw [if_neg kept]
        exact supplied.held _ nonempty

theorem extendBefore (supplied : Supplied table count) (positive : 0 < offset) {index : Nat}
    (inside : index < count) :
    Supplied (extendBefore table count index offset).1 (extendBefore table count index offset).2 ∧
      0 < (Suspend.extendBefore table count index offset).2 := by
  have grown := supplied.update index { table index with start := offset } positive
  unfold Suspend.extendBefore
  dsimp only
  split
  · next merges =>
    have before := grown.used (index - 1) (by omega)
    apply And.intro _ (show 0 < count - 1 by omega)
    apply pull _ inside
    exact grown.update (index - 1) _ before
  · exact ⟨grown, by omega⟩

theorem extendAfter (supplied : Supplied table count) {index : Nat} (inside : index < count) :
    Supplied (extendAfter page table count index).1 (extendAfter page table count index).2 ∧
      0 < (Suspend.extendAfter page table count index).2 := by
  have here := supplied.used index inside
  have grown := supplied.update index
    { table index with stop := (table index).stop + page.bytes } here
  unfold Suspend.extendAfter
  dsimp only
  split
  · next merges =>
    apply And.intro _ (show 0 < count - 1 by omega)
    rw [show count - index - 2 = count - (index + 1) - 1 by omega]
    apply pull _ merges.1
    exact grown.update index _ (grown.used index inside)
  · exact ⟨grown, by omega⟩

theorem insertExtent (supplied : Supplied table count) (positive : 0 < offset) {index : Nat}
    (inside : index < count) :
    Supplied (insertExtent page table count index offset).1
        (insertExtent page table count index offset).2 ∧
      0 < (Suspend.insertExtent page table count index offset).2 := by
  unfold Suspend.insertExtent
  dsimp only
  split
  · refine ⟨?_, Nat.succ_pos count⟩
    split
    · exact supplied.push inside positive
    · exact supplied.push (Nat.le_of_lt inside) positive
  · refine ⟨⟨?_, (supplied.update count _ positive).held⟩, Nat.succ_pos count⟩
    intro position below
    dsimp only at below ⊢
    by_cases last : position = count
    · rwa [last, Function.update_self]
    · exact (supplied.update count _ positive).used position (by omega)

end Supplied

def Slot.index : Slot → Nat
  | .before index => index
  | .after index => index
  | .fresh index => index

variable {page : PageSize}

theorem findSlot_index (page : PageSize) (table : Table) (offset : Int) {i j : Nat}
    (ordered : i ≤ j) :
    (findSlot page table offset i j).index ≤ j := by
  fun_induction findSlot page table offset i j with
  | case1 | case2 | case6 | case8 | case10 =>
      simp only [Slot.index]
      omega
  | case3 | case4 | case5 => exact Nat.le_refl _
  | case7 i j k _ _ _ _ _ ih => exact ih (by omega)
  | case9 i j k _ _ _ _ ih =>
      have below := ih (by omega)
      omega

theorem Supplied.enterPage (page : PageSize) {table : Table} {count : Nat} {offset : Int}
    (supplied : Supplied table count) (some : 0 < count) (positive : 0 < offset) :
    Supplied (enterPage page table count offset).1 (enterPage page table count offset).2 ∧
      0 < (Suspend.enterPage page table count offset).2 := by
  have inside := findSlot_index page table offset (Nat.zero_le (count - 1))
  unfold Suspend.enterPage
  cases slot : findSlot page table offset 0 (count - 1) with
  | before index =>
      rw [slot] at inside
      exact supplied.extendBefore positive (by simp only [Slot.index] at inside; omega)
  | after index =>
      rw [slot] at inside
      exact supplied.extendAfter (by simp only [Slot.index] at inside; omega)
  | fresh index =>
      rw [slot] at inside
      dsimp only
      rw [if_pos positive]
      exact supplied.insertExtent positive (by simp only [Slot.index] at inside; omega)

theorem allocLoop_supplied {total size : Int} {grants : Grants} {table : Table} {count : Nat}
    (supplied : Supplied table count) (some : 0 < count)
    (positive : ∀ offset ∈ grants, 0 < offset) :
    let result := allocLoop page total grants table count size
    (∀ offset ∈ result.grants, 0 < offset) ∧ (result.ret ≤ 0 ∧ result.grants = [] ∨
      ∃ reached : Nat, result.ret = (reached : Int) ∧ 0 < reached ∧
        Supplied result.table reached) := by
  induction grants generalizing table count size with
  | nil =>
      unfold allocLoop
      split
      · exact ⟨positive, Or.inl ⟨show -ENOSPC ≤ 0 by decide, rfl⟩⟩
      · exact ⟨positive, Or.inr ⟨count, rfl, some, supplied⟩⟩
  | cons offset rest ih =>
      have granted := positive offset List.mem_cons_self
      unfold allocLoop
      split
      · rw [if_neg (by omega)]
        obtain ⟨entered, more⟩ := supplied.enterPage page some granted
        exact ih entered more fun later member => positive later (List.mem_cons_of_mem _ member)
      · exact ⟨positive, Or.inr ⟨count, rfl, some, supplied⟩⟩

theorem allocSwap_supplied (page : PageSize) (size : Int) {grants : Grants} {table : Table}
    {count : Nat}
    (supplied : Supplied table count) (positive : ∀ offset ∈ grants, 0 < offset) :
    let result := allocSwap page grants table count size
    (∀ offset ∈ result.grants, 0 < offset) ∧ (result.ret ≤ 0 ∧ result.grants = [] ∨
      ∃ reached : Nat, result.ret = (reached : Int) ∧ 0 < reached ∧
        Supplied result.table reached) := by
  unfold allocSwap
  split
  · next none =>
    cases grants with
    | nil => exact ⟨positive, Or.inl ⟨show -ENOSPC ≤ 0 by decide, rfl⟩⟩
    | cons offset rest =>
        have granted := positive offset List.mem_cons_self
        dsimp only [getSwapPage]
        rw [if_neg (by omega)]
        apply allocLoop_supplied _ Nat.one_pos
          fun later member => positive later (List.mem_cons_of_mem _ member)
        have updated := supplied.update 0 ⟨offset, offset + page.bytes⟩ granted
        refine ⟨?_, updated.held⟩
        intro index below
        rwa [show index = 0 by omega, Function.update_self]
  · exact allocLoop_supplied supplied (by omega) positive

namespace SwapWriter

variable {Page : Type} {doCompress : Bool}

/-- The kernel has no more swap pages to give, or the device no more writes. -/
def Exhausted (handle : SwapWriter Page) : Prop := handle.dev = [] ∨ handle.fd.outcomes = []

/-- A writer whose `swap_needed` is good for `left` more pages. -/
structure Running (page : PageSize) (left : Nat) (handle : SwapWriter Page) : Prop where
  table : Supplied handle.extents handle.nrExtents
  here : 0 < handle.curOffset + page.bytes
  chained : handle.extentsSpc ≠ 0
  needed : handle.swapNeeded = page.offset left
  grants : ∀ offset ∈ handle.dev, 0 < offset
  writes : ∀ outcome ∈ handle.fd.outcomes, outcome = true

variable {left : Nat} {handle : SwapWriter Page}

theorem writePage_granted {fd : Device Page} (writes : ∀ outcome ∈ fd.outcomes, outcome = true)
    (cell : Cell Page) {offset : Int} (some : offset ≠ 0) :
    let written := fd.writePage cell offset
    (∀ outcome ∈ written.2.outcomes, outcome = true) ∧
      (written.1 = 0 ∨ written.1 ≠ 0 ∧ written.2.outcomes = []) := by
  unfold Device.writePage Device.transfer
  rw [if_neg some]
  cases outcomes : fd.outcomes with
  | nil => exact ⟨by simp [outcomes], Or.inr ⟨show - EIO ≠ 0 by decide, outcomes⟩⟩
  | cons outcome rest =>
      rw [outcomes] at writes
      have good := writes outcome List.mem_cons_self
      subst good
      exact ⟨fun later member => writes later (List.mem_cons_of_mem _ member), Or.inl rfl⟩

/-- A table is filled as long as at least one page is needed. -/
theorem preallocateSwap_running (doCompress : Bool) (running : Running page (left + 1) handle) :
    let filled := preallocateSwap page doCompress handle
    filled.1 = 0 ∧ filled.2.Exhausted ∨ 0 < filled.1 ∧ filled.2.curOffset = filled.1 ∧
      Running page (left + 1) filled.2 := by
  have positive : (0 : Int) < page.bytes := by exact_mod_cast page.bytes_pos
  have more : ¬ handle.swapNeeded < page.bytes := by
    rw [running.needed, page.offset_succ]
    have whole : page.offset 0 ≤ page.offset left := PageSize.offset_le.mpr (Nat.zero_le left)
    rw [page.offset_zero] at whole
    omega
  obtain ⟨granted, ⟨none, refused⟩ | ⟨reached, ret, some, supplied⟩⟩ := allocSwap_supplied page
    (request page doCompress handle.swapNeeded) running.table running.grants
  · left
    unfold preallocateSwap
    rw [if_neg more]
    dsimp only
    rw [if_pos none]
    exact ⟨rfl, Or.inl refused⟩
  · right
    have start := supplied.used 0 some
    unfold preallocateSwap
    rw [if_neg more]
    dsimp only
    rw [if_neg (by rw [ret]; omega)]
    refine ⟨start, rfl, ?_, ?_, running.chained, running.needed, granted, running.writes⟩
    · refine ⟨fun index below => supplied.used index ?_, supplied.held⟩
      rw [ret, Int.toNat_natCast] at below
      exact lt_of_lt_of_le below (Nat.min_le_left _ _)
    · exact Int.add_pos start positive

variable (page handle) in
/-- The current table is saved, unless the kernel or the device stops answering. -/
theorem saveExtents_running (chained : handle.extentsSpc ≠ 0)
    (grants : ∀ offset ∈ handle.dev, 0 < offset)
    (writes : ∀ outcome ∈ handle.fd.outcomes, outcome = true) :
    let saved := saveExtents page handle false
    saved.1 ≠ 0 ∧ saved.2.Exhausted ∨ saved.1 = 0 ∧ saved.2.extentsSpc ≠ 0 ∧
      saved.2.swapNeeded = handle.swapNeeded ∧ saved.2.nrExtents = handle.nrExtents ∧
      saved.2.curOffset = handle.curOffset ∧ (∀ offset ∈ saved.2.dev, 0 < offset) ∧
      ∀ outcome ∈ saved.2.fd.outcomes, outcome = true := by
  unfold saveExtents
  rw [if_neg (by decide)]
  cases answers : handle.dev with
  | nil => exact Or.inl ⟨show -ENOSPC ≠ 0 by decide, Or.inl rfl⟩
  | cons offset rest =>
      rw [answers] at grants
      have granted := grants offset List.mem_cons_self
      have nonzero : offset ≠ 0 := by omega
      dsimp only [getSwapPage]
      rw [if_neg nonzero]
      obtain ⟨later, written | ⟨failed, stopped⟩⟩ := writePage_granted writes
        (.extents (Function.update handle.extents page.maxExtents
          { handle.extents page.maxExtents with start := offset })) chained
      · exact Or.inr ⟨written, nonzero, rfl, rfl, rfl,
          fun other member => grants other (List.mem_cons_of_mem _ member), later⟩
      · exact Or.inl ⟨failed, Or.inr stopped⟩

theorem nextTable_running (running : Running page (left + 1) handle) :
    let next := nextTable page doCompress handle
    next.1 = 0 ∧ next.2.Exhausted ∨ 0 < next.1 ∧ next.2.curOffset = next.1 ∧
      Running page (left + 1) next.2 := by
  -- what is carried over was held in a slot of the table
  have saves (table : Table) (count : Nat) (first : Extent) (single : count ≤ 1)
      (carried : 0 < count → 0 < first.start)
      (held : first.start < first.stop → 0 < first.start) :
      let saved := saveExtents page { handle with extents := table, nrExtents := count } false
      let next := if saved.1 ≠ 0 then (0, saved.2)
        else preallocateSwap page doCompress
          { saved.2 with extents := Function.update Table.zero 0 first }
      next.1 = 0 ∧ next.2.Exhausted ∨ 0 < next.1 ∧ next.2.curOffset = next.1 ∧
        Running page (left + 1) next.2 := by
    dsimp only
    rcases saveExtents_running page { handle with extents := table, nrExtents := count }
      running.chained running.grants running.writes with ⟨failed, exhausted⟩ |
      ⟨saved, chained, needed, total, here, grants, writes⟩
    · rw [if_pos failed]
      exact Or.inl ⟨rfl, exhausted⟩
    · rw [if_neg (not_not_intro saved)]
      apply preallocateSwap_running doCompress
      refine ⟨⟨?_, ?_⟩, ?_, chained, needed.trans running.needed, grants, writes⟩
      · intro index below
        dsimp only at below ⊢
        have inside : index < count := lt_of_lt_of_eq below total
        rw [show index = 0 by omega, Function.update_self]
        exact carried (by omega)
      · intro index between
        dsimp only at between ⊢
        by_cases same : index = 0
        · rw [same, Function.update_self] at between ⊢
          exact held between
        · rw [Function.update_of_ne same] at between
          exact absurd between (Int.lt_irrefl 0)
      · dsimp only
        rw [here]
        exact running.here
  unfold nextTable
  dsimp only
  split
  · next carry =>
    have start := running.table.held _ carry
    exact saves _ 1 _ (Nat.le_refl 1) (fun _ => start) (fun _ => start)
  · exact saves handle.extents 0 Extent.zero (Nat.zero_le 1)
      (fun some => absurd some (Nat.lt_irrefl 0)) (fun between => absurd between (Int.lt_irrefl 0))

variable (doCompress) in
theorem nextSwapPage_running (running : Running page (left + 1) handle) :
    let next := nextSwapPage page doCompress handle
    next.1 = 0 ∧ next.2.Exhausted ∨ 0 < next.1 ∧ next.2.curOffset = next.1 ∧
      Running page (left + 1) next.2 := by
  have positive : (0 : Int) < page.bytes := by exact_mod_cast page.bytes_pos
  unfold nextSwapPage
  dsimp only
  split
  · exact Or.inr ⟨running.here, rfl, running.table, Int.add_pos running.here positive,
      running.chained, running.needed, running.grants, running.writes⟩
  · split
    · next inside =>
      have start := running.table.used _ inside
      exact Or.inr ⟨start, rfl, running.table, Int.add_pos start positive, running.chained,
        running.needed, running.grants, running.writes⟩
    · apply nextTable_running
      exact ⟨running.table, Int.add_pos running.here positive, running.chained, running.needed,
        running.grants, running.writes⟩

variable (doCompress) in
/-- A page that is needed is saved, unless the kernel or the device stops answering. -/
theorem savePage_running (running : Running page (left + 1) handle) (src : Page) :
    let saved := savePage page doCompress handle src
    saved.1 = 0 ∧ Running page left saved.2 ∨ saved.1 ≠ 0 ∧ saved.2.Exhausted := by
  unfold savePage
  dsimp only
  rcases nextSwapPage_running doCompress running with
    ⟨none, exhausted⟩ | ⟨some, here, taken⟩
  · rw [if_pos none]
    exact Or.inr ⟨show -ENOSPC ≠ 0 by decide, exhausted⟩
  · have nonzero : (nextSwapPage page doCompress handle).1 ≠ 0 := by omega
    rw [if_neg nonzero]
    obtain ⟨later, written | ⟨failed, stopped⟩⟩ := writePage_granted taken.writes (.data src)
      nonzero
    · rw [if_neg (not_not_intro written)]
      refine Or.inl ⟨rfl, taken.table, taken.here, taken.chained, ?_, taken.grants, later⟩
      dsimp only
      rw [taken.needed, page.offset_succ, Int.add_sub_cancel]
    · rw [if_pos failed]
      exact Or.inr ⟨failed, Or.inr stopped⟩

theorem savePages_running (doCompress : Bool) (srcs : List Page)
    (running : Running page left handle)
    (few : srcs.length ≤ left) :
    let saved := savePages page doCompress handle srcs
    saved.1 = 0 ∧ Running page (left - srcs.length) saved.2.2 ∨ saved.2.2.Exhausted := by
  induction srcs generalizing handle left with
  | nil => exact Or.inl ⟨rfl, running⟩
  | cons src rest ih =>
      obtain ⟨later, rfl⟩ : ∃ later, left = later + 1 := ⟨left - 1, by simp at few; omega⟩
      unfold savePages
      dsimp only
      rcases savePage_running doCompress running src with
        ⟨saved, further⟩ | ⟨failed, exhausted⟩
      · rw [if_neg (not_not_intro saved), List.length_cons, Nat.add_sub_add_right]
        exact ih further (Nat.le_of_succ_le_succ few)
      · rw [if_pos failed]
        exact Or.inr exhausted

theorem startSaving_running {grants : Grants} {fd : Device Page} {quota : Nat}
    {started : Started Page} (positive : ∀ offset ∈ grants, 0 < offset)
    (writes : ∀ outcome ∈ fd.outcomes, outcome = true)
    (starts : startSaving page doCompress grants fd (page.offset quota) = .ok started) :
    Running page quota started.writer := by
  have width : (0 : Int) < page.bytes := by exact_mod_cast page.bytes_pos
  obtain ⟨header, location, rest, _, answers, chained, rfl, filled, rfl⟩ :=
    startSaving_success starts
  rw [answers] at positive
  cases quota with
  | zero =>
      rw [preallocateSwap, if_pos (by simpa using width)] at filled
      exact absurd rfl filled
  | succ left =>
      have blankRunning : Running page (left + 1)
          { blank location rest fd with swapNeeded := page.offset (left + 1) } := by
        refine ⟨⟨fun index below => absurd below (Nat.not_lt_zero index), ?_⟩, ?_, chained,
          rfl, ?_, writes⟩
        · exact fun index between => absurd between (Int.lt_irrefl 0)
        · exact Int.add_pos_of_nonneg_of_pos (Int.le_refl 0) width
        · exact fun offset member =>
            positive offset (List.mem_cons_of_mem _ (List.mem_cons_of_mem _ member))
      rcases preallocateSwap_running doCompress blankRunning with ⟨none, _⟩ | ⟨some, here, running⟩
      · exact absurd none filled
      · refine ⟨running.table, ?_, running.chained, running.needed, running.grants,
          running.writes⟩
        dsimp only
        rw [Int.sub_add_cancel, here]
        exact some

end SwapWriter

/-- The `count` pages of the device from `first` on. -/
def contiguous (page : PageSize) (first count : Nat) : Grants :=
  (List.range' first count).map page.offset

/-- A table of the pages from `first` up to `last`. -/
def single (page : PageSize) (first last : Nat) : Table :=
  Function.update Table.zero 0 ⟨page.offset first, page.offset last⟩

theorem contiguous_succ (page : PageSize) (first count : Nat) :
    contiguous page first (count + 1) = page.offset first :: contiguous page (first + 1) count := by
  rw [contiguous, List.range'_succ, List.map_cons]
  rfl

theorem contiguous_nodup (page : PageSize) (first count : Nat) :
    (contiguous page first count).Nodup :=
  List.Nodup.map page.offset_injective List.nodup_range'

theorem contiguous_granted {first count : Nat} (some : 0 < first) :
    ∀ offset ∈ contiguous page first count, 0 < offset ∧ (page.bytes : Int) ∣ offset := by
  intro offset member
  obtain ⟨index, inside, rfl⟩ := List.mem_map.mp member
  have positive := (List.mem_range'_1.mp inside).1
  exact ⟨PageSize.offset_pos.mpr (Nat.lt_of_lt_of_le some positive), Int.dvd_mul_right _ _⟩

theorem enterPage_single {first next : Nat} (some : first < next) :
    enterPage page (single page first next) 1 (page.offset next) =
      (single page first (next + 1), 1) := by
  have width : (0 : Int) < page.bytes := by exact_mod_cast page.bytes_pos
  have ordered : page.offset first < page.offset next := PageSize.offset_lt.mpr some
  have found : findSlot page (single page first next) (page.offset next) 0 (1 - 1) = .after 0 := by
    unfold findSlot
    dsimp only
    rw [single, Function.update_self, if_neg (by dsimp only; omega), if_pos rfl]
  rw [enterPage, found]
  dsimp only
  rw [extendAfter, if_neg (by omega), single, Function.update_idem, Function.update_self, single,
    page.offset_succ]

/-- Pages granted in order become one extent, of no more pages than asked for. -/
theorem allocLoop_contiguous (page : PageSize) (total : Int) {first : Nat} (next count : Nat)
    (size : Int) (some : first < next)
    (wanted : size < total + page.bytes)
    (enough : total + page.offset next ≤ size + page.offset (next + count)) :
    ∃ last, next ≤ last ∧ last ≤ next + count ∧
      size + page.offset last < total + page.bytes + page.offset next ∧
      allocLoop page total (contiguous page next count) (single page first next) 1 size =
        ⟨1, single page first last, size + page.offset last - page.offset next,
          contiguous page last (next + count - last)⟩ := by
  have room := page.maxExtents_pos
  induction count generalizing next size with
  | zero =>
      refine ⟨next, Nat.le_refl _, Nat.le_refl _, by omega, ?_⟩
      rw [Nat.add_zero] at enough ⊢
      rw [contiguous, List.range'_zero, List.map_nil, allocLoop, if_neg (by omega),
        Nat.sub_self, Int.add_sub_cancel]
      rfl
  | succ count ih =>
      by_cases asked : size < total
      · have further := page.offset_succ next
        obtain ⟨last, later, bounded, few, result⟩ := ih (next + 1) (size + page.bytes)
          (by omega) (by omega) (by rw [show next + 1 + count = next + (count + 1) by omega]; omega)
        have granted := PageSize.offset_ne_zero page (show 0 < next by omega)
        refine ⟨last, by omega, by omega, by omega, ?_⟩
        rw [contiguous_succ, allocLoop, if_pos ⟨asked, room⟩, if_neg granted,
          enterPage_single some]
        dsimp only
        rw [result, show next + 1 + count = next + (count + 1) by omega]
        congr 1
        omega
      · refine ⟨next, Nat.le_refl _, by omega, by omega, ?_⟩
        rw [contiguous_succ, allocLoop, if_neg (fun both => asked both.1), Int.add_sub_cancel,
          show next + (count + 1) - next = count + 1 by omega, contiguous_succ]
        rfl

namespace SwapWriter

variable {Page : Type} {doCompress : Bool}

theorem request_bounds (page : PageSize) (doCompress : Bool) (left : Nat) :
    0 < request page doCompress (page.offset (left + 1)) ∧
      request page doCompress (page.offset (left + 1)) ≤ page.offset (left + 1) := by
  have width := page.bytes_large
  have whole : page.offset 0 ≤ page.offset left := PageSize.offset_le.mpr (Nat.zero_le left)
  rw [page.offset_zero] at whole
  rw [page.offset_succ]
  unfold request
  split <;> omega

theorem preallocateSwap_contiguous (doCompress : Bool) (handle : SwapWriter Page)
    {left next count : Nat} (positive : 0 < next) (empty : handle.extents = Table.zero)
    (none : handle.nrExtents = 0) (needed : handle.swapNeeded = page.offset (left + 1))
    (answers : handle.dev = contiguous page next (count + 1)) (enough : left ≤ count) :
    ∃ last, next < last ∧ last ≤ next + left + 1 ∧
      preallocateSwap page doCompress handle = (page.offset next, { handle with
        dev := contiguous page last (next + count + 1 - last)
        extents := single page next last
        nrExtents := 1
        curExtentIdx := 0
        curOffset := page.offset next }) := by
  obtain ⟨asked, fits⟩ := request_bounds page doCompress left
  have here := page.offset_succ next
  have width : (0 : Int) < page.bytes := by exact_mod_cast page.bytes_pos
  have granted := PageSize.offset_ne_zero page positive
  have more : ¬ handle.swapNeeded < page.bytes := by
    have whole : page.offset 1 ≤ page.offset (left + 1) := PageSize.offset_le.mpr (by omega)
    rw [page.offset_succ, page.offset_zero] at whole
    omega
  rw [preallocateSwap, if_neg more, none, needed, answers, empty, allocSwap, if_pos rfl,
    contiguous_succ]
  dsimp only [getSwapPage]
  rw [if_neg granted]
  obtain ⟨last, later, bounded, few, result⟩ := allocLoop_contiguous page
    (request page doCompress (page.offset (left + 1))) (next + 1) count page.bytes
    (Nat.lt_succ_self next) (by omega)
    (by
      have total : page.offset (left + 1) ≤ page.offset (count + 1) :=
        PageSize.offset_le.mpr (by omega)
      have far := page.offset_add next (count + 1)
      rw [show next + 1 + count = next + (count + 1) by omega]
      omega)
  have start : Function.update Table.zero 0 ⟨page.offset next, page.offset next + page.bytes⟩ =
      single page next (next + 1) := by
    rw [single, here]
  rw [start, result, show next + 1 + count = next + count + 1 by omega]
  dsimp only
  have room := page.maxExtents_pos
  have below : page.offset last < page.offset (next + left + 2) := by
    have far := page.offset_add (next + 1) (left + 1)
    rw [show next + left + 2 = next + 1 + (left + 1) by omega]
    omega
  have small := PageSize.offset_lt.mp below
  refine ⟨last, by omega, by omega, ?_⟩
  rw [if_neg (by decide)]
  simp [single, Nat.min_eq_left room]

/-- A writer to which pages are granted in order: `here` is the next page it hands out, `last` is
behind those it holds, and `left` pages are needed. -/
structure Ascending (page : PageSize) (left : Nat) (handle : SwapWriter Page)
    (first here last next count spare : Nat) : Prop where
  table : handle.extents = single page first last
  extents : handle.nrExtents = 1
  index : handle.curExtentIdx = 0
  position : handle.curOffset + page.bytes = page.offset here
  positive : 0 < here
  inside : here ≤ last
  bounded : last ≤ here + left
  chained : handle.extentsSpc ≠ 0
  needed : handle.swapNeeded = page.offset left
  grants : handle.dev = contiguous page next count
  fresh : 0 < next
  answers : here + 2 * left + 2 ≤ last + count
  writes : handle.fd.outcomes = List.replicate (2 * left + 2 + spare) true

theorem writePage_replicate {fd : Device Page} {count : Nat} (cell : Cell Page) {offset : Int}
    (some : offset ≠ 0) (writes : fd.outcomes = List.replicate (count + 1) true) :
    (fd.writePage cell offset).1 = 0 ∧
      (fd.writePage cell offset).2.outcomes = List.replicate count true := by
  rw [List.replicate_succ] at writes
  unfold Device.writePage Device.transfer
  rw [if_neg some, writes]
  exact ⟨rfl, rfl⟩

variable {handle : SwapWriter Page} {left first here last next count spare : Nat}

/-- The writer after its table has been saved, with `offset` as the place of the next one. -/
def renewed (page : PageSize) (handle : SwapWriter Page) (offset : Int) (rest : Grants) :
    SwapWriter Page :=
  { handle with
    extents := Table.zero
    nrExtents := 0
    extentsSpc := offset
    dev := rest
    fd := (handle.fd.writePage (.extents (Function.update handle.extents page.maxExtents
      { handle.extents page.maxExtents with start := offset })) handle.extentsSpc).2 }

theorem nextTable_renewed (page : PageSize) (doCompress : Bool) (handle : SwapWriter Page)
    {offset : Int} {rest : Grants} {writes : Nat}
    (empty : handle.extents handle.curExtentIdx = Extent.zero)
    (answers : handle.dev = offset :: rest) (granted : offset ≠ 0)
    (chained : handle.extentsSpc ≠ 0)
    (succeed : handle.fd.outcomes = List.replicate (writes + 1) true) :
    nextTable page doCompress handle =
        preallocateSwap page doCompress (handle.renewed page offset rest) ∧
      (handle.renewed page offset rest).fd.outcomes = List.replicate writes true := by
  obtain ⟨written, outcomes⟩ := writePage_replicate (.extents (Function.update handle.extents
    page.maxExtents { handle.extents page.maxExtents with start := offset })) chained succeed
  have cleared : Function.update Table.zero 0 Extent.zero = Table.zero :=
    Function.update_eq_self 0 Table.zero
  refine ⟨?_, outcomes⟩
  have none : ¬ Extent.zero.start < Extent.zero.stop := Int.lt_irrefl 0
  simp only [nextTable, empty, if_neg none, saveExtents, Bool.false_eq_true, ↓reduceIte, answers,
    getSwapPage, granted, written, ne_eq, not_true_eq_false, cleared]
  rfl

theorem Ascending.used_up (doCompress : Bool)
    (ascending : Ascending page left handle first last last next (count + 1) spare) :
    nextSwapPage page doCompress handle = preallocateSwap page doCompress
        ({ handle with curExtentIdx := 1, curOffset := page.offset last }.renewed page
          (page.offset next) (contiguous page (next + 1) count)) ∧
      ({ handle with curExtentIdx := 1, curOffset := page.offset last }.renewed page
        (page.offset next) (contiguous page (next + 1) count)).fd.outcomes =
          List.replicate (2 * left + 1 + spare) true := by
  have empty : handle.extents 1 = Extent.zero := by
    rw [ascending.table, single, Function.update_of_ne (by decide)]
    rfl
  have grants := ascending.grants
  rw [contiguous_succ] at grants
  have outcomes := ascending.writes
  rw [show 2 * left + 2 + spare = 2 * left + 1 + spare + 1 by omega] at outcomes
  have next := nextTable_renewed page doCompress
    { handle with curExtentIdx := 1, curOffset := page.offset last }
    empty grants (PageSize.offset_ne_zero page ascending.fresh) ascending.chained outcomes
  rw [← next.1]
  refine ⟨?_, next.2⟩
  rw [nextSwapPage]
  dsimp only
  rw [ascending.position, ascending.index, ascending.extents, if_neg, if_neg (by decide)]
  rw [ascending.table, single, Function.update_self]
  exact Int.lt_irrefl _

theorem Ascending.savePage (doCompress : Bool) (src : Page)
    (ascending : Ascending page (left + 1) handle first here last next count spare) :
    (savePage page doCompress handle src).1 = 0 ∧
      ∃ first' here' last' next' count' spare', Ascending page left
        (savePage page doCompress handle src).2 first' here' last' next' count' spare' := by
  have answers := ascending.answers
  -- the writer that hands out `at'`, before and after the page is written
  have saves (taken : SwapWriter Page) (at' more : Nat) (some : 0 < at')
      (handed : nextSwapPage page doCompress handle = (page.offset at', taken))
      (outcomes : taken.fd.outcomes = List.replicate (2 * left + 2 + more + 1) true)
      (after : ∀ (fd : Device Page) (writtenData : Int),
        fd.outcomes = List.replicate (2 * left + 2 + more) true →
          ∃ first' last' next' count', Ascending page left
            { taken with
              fd := fd
              swapNeeded := taken.swapNeeded - page.bytes
              writtenData := writtenData } first' (at' + 1) last' next' count' more) :
      (SwapWriter.savePage page doCompress handle src).1 = 0 ∧
        ∃ first' here' last' next' count' spare', Ascending page left
          (SwapWriter.savePage page doCompress handle src).2 first' here' last' next' count'
            spare' := by
    have granted := PageSize.offset_ne_zero page some
    obtain ⟨written, later⟩ := writePage_replicate (.data src) granted outcomes
    rw [SwapWriter.savePage, handed]
    dsimp only
    rw [if_neg granted, if_neg (not_not_intro written)]
    obtain ⟨first', last', next', count', further⟩ := after _ _ later
    exact ⟨rfl, first', at' + 1, last', next', count', more, further⟩
  rcases Nat.eq_or_lt_of_le ascending.inside with rfl | inside
  · obtain ⟨more, rfl⟩ : ∃ more, count = more + 2 := ⟨count - 2, by omega⟩
    obtain ⟨step, outcomes⟩ := ascending.used_up doCompress
    obtain ⟨last', later, few, filled⟩ := preallocateSwap_contiguous doCompress
      ({ handle with curExtentIdx := 1, curOffset := page.offset here }.renewed page
        (page.offset next) (contiguous page (next + 1) (more + 1)))
      (Nat.succ_pos next) rfl rfl ascending.needed rfl (by omega)
    rw [filled] at step
    refine saves _ (next + 1) spare (Nat.succ_pos next) step ?_ ?_
    · refine outcomes.trans ?_
      rw [show 2 * (left + 1) + 1 + spare = 2 * left + 2 + spare + 1 by omega]
    · intro fd writtenData writes
      refine ⟨_, _, _, _, rfl, rfl, rfl, (page.offset_succ _).symm, Nat.succ_pos _, later,
        by omega, PageSize.offset_ne_zero page ascending.fresh, ?_, rfl, by omega, by omega,
        writes⟩
      change handle.swapNeeded - page.bytes = page.offset left
      rw [ascending.needed, page.offset_succ, Int.add_sub_cancel]
  · have within : page.offset here < (handle.extents handle.curExtentIdx).stop := by
      rw [ascending.table, ascending.index, single, Function.update_self]
      exact PageSize.offset_lt.mpr inside
    refine saves { handle with curOffset := page.offset here } here (spare + 1)
      ascending.positive ?_ ?_ ?_
    · rw [nextSwapPage, ascending.position, if_pos within]
    · rw [ascending.writes,
        show 2 * (left + 1) + 2 + spare = 2 * left + 2 + (spare + 1) + 1 by omega]
    · intro fd writtenData writes
      have bounded := ascending.bounded
      refine ⟨_, _, _, _, ascending.table, ascending.extents, ascending.index,
        (page.offset_succ _).symm, Nat.succ_pos _, inside, by omega, ascending.chained, ?_,
        ascending.grants, ascending.fresh, by omega, writes⟩
      change handle.swapNeeded - page.bytes = page.offset left
      rw [ascending.needed, page.offset_succ, Int.add_sub_cancel]

theorem Ascending.savePage_fails (doCompress : Bool) (src : Page)
    (ascending : Ascending page 0 handle first here last next count spare) :
    (SwapWriter.savePage page doCompress handle src).1 = -ENOSPC ∧
      ¬ (SwapWriter.savePage page doCompress handle src).2.Exhausted := by
  have inside := ascending.inside
  have bounded := ascending.bounded
  have answers := ascending.answers
  obtain rfl : here = last := by omega
  obtain ⟨more, rfl⟩ : ∃ more, count = more + 2 := ⟨count - 2, by omega⟩
  obtain ⟨step, outcomes⟩ := ascending.used_up doCompress
  have satisfied : ({ handle with curExtentIdx := 1, curOffset := page.offset here }.renewed page
      (page.offset next) (contiguous page (next + 1) (more + 1))).swapNeeded <
        (page.bytes : Int) := by
    change handle.swapNeeded < (page.bytes : Int)
    rw [ascending.needed, page.offset_zero]
    exact_mod_cast page.bytes_pos
  rw [preallocateSwap, if_pos satisfied] at step
  rw [SwapWriter.savePage, step]
  dsimp only
  rw [if_pos rfl]
  refine ⟨rfl, ?_⟩
  rintro (noGrants | noWrites)
  · rw [contiguous_succ] at noGrants
    cases noGrants
  · rw [outcomes, Nat.add_right_comm, List.replicate_succ] at noWrites
    cases noWrites

/-- With pages granted in order, as many can be saved as are needed, and the next one cannot. -/
theorem Ascending.savePages (doCompress : Bool) {srcs : List Page}
    (ascending : Ascending page left handle first here last next count spare) :
    (srcs.length ≤ left → (savePages page doCompress handle srcs).1 = 0) ∧
      (left < srcs.length → (savePages page doCompress handle srcs).1 = -ENOSPC ∧
        ¬ (SwapWriter.savePages page doCompress handle srcs).2.2.Exhausted) := by
  induction srcs generalizing left handle first here last next count spare with
  | nil => exact ⟨fun _ => rfl, fun more => absurd more (Nat.not_lt_zero left)⟩
  | cons src rest ih =>
      rw [SwapWriter.savePages]
      dsimp only
      cases left with
      | zero =>
          obtain ⟨failed, answering⟩ := ascending.savePage_fails doCompress src
          have refused : (SwapWriter.savePage page doCompress handle src).1 ≠ 0 := by
            rw [failed]
            decide
          rw [if_pos refused]
          exact ⟨fun few => absurd few (by simp), fun _ => ⟨failed, answering⟩⟩
      | succ left =>
          obtain ⟨saved, _, _, _, _, _, _, further⟩ := ascending.savePage doCompress src
          rw [if_neg (not_not_intro saved)]
          obtain ⟨enough, short⟩ := ih further
          exact ⟨fun few => enough (Nat.le_of_succ_le_succ few),
            fun more => short (Nat.lt_of_succ_lt_succ more)⟩

/-- As long as no more are saved than are needed, pages go on being granted in order. -/
theorem Ascending.after (doCompress : Bool) {srcs : List Page}
    (ascending : Ascending page left handle first here last next count spare)
    (few : srcs.length ≤ left) :
    ∃ first' here' last' next' count' spare', Ascending page (left - srcs.length)
      (SwapWriter.savePages page doCompress handle srcs).2.2 first' here' last' next' count'
        spare' := by
  induction srcs generalizing left handle first here last next count spare with
  | nil => exact ⟨_, _, _, _, _, _, ascending⟩
  | cons src rest ih =>
      obtain ⟨left, rfl⟩ : ∃ later, left = later + 1 := ⟨left - 1, by simp at few; omega⟩
      obtain ⟨saved, _, _, _, _, _, _, further⟩ := ascending.savePage doCompress src
      unfold SwapWriter.savePages
      dsimp only
      rw [if_neg (not_not_intro saved), List.length_cons, Nat.add_sub_add_right]
      exact ih further (Nat.le_of_succ_le_succ few)

theorem Ascending.answering
    (ascending : Ascending page left handle first here last next count spare) :
    handle.dev ≠ [] := by
  have inside := ascending.inside
  have bounded := ascending.bounded
  have answers := ascending.answers
  rw [ascending.grants]
  obtain ⟨more, rfl⟩ : ∃ more, count = more + 1 := ⟨count - 1, by omega⟩
  rw [contiguous_succ]
  exact List.cons_ne_nil _ _

theorem startSaving_contiguous (page : PageSize) (doCompress : Bool) (left spare : Nat)
    {fd : Device Page} (writes : fd.outcomes = List.replicate (2 * (left + 1) + 2 + spare) true) :
    ∃ started, startSaving page doCompress (contiguous page 1 (2 * left + 7)) fd
        (page.offset (left + 1)) = .ok started ∧
      ∃ first here last next count,
        Ascending page (left + 1) started.writer first here last next count spare := by
  obtain ⟨last, later, few, filled⟩ := preallocateSwap_contiguous doCompress
    { blank (page.offset 2) (contiguous page 3 (2 * left + 5)) fd with
      swapNeeded := page.offset (left + 1) } (by decide) rfl rfl rfl rfl (by omega)
  have header := PageSize.offset_ne_zero page (show 0 < 1 by decide)
  have location := PageSize.offset_ne_zero page (show 0 < 2 by decide)
  have granted := PageSize.offset_ne_zero page (show 0 < 3 by decide)
  refine ⟨⟨page.offset 1, { (preallocateSwap page doCompress
    { blank (page.offset 2) (contiguous page 3 (2 * left + 5)) fd with
      swapNeeded := page.offset (left + 1) }).2 with
    curOffset := page.offset 3 - page.bytes }⟩, ?_, 3, 3, last, last,
    3 + (2 * left + 4) + 1 - last, ?_⟩
  · rw [contiguous_succ, contiguous_succ]
    simp only [startSaving, getSwapPage, init, header, location, Nat.reduceAdd, ↓reduceIte, ne_eq,
      not_true_eq_false, filled, granted]
  · rw [filled]
    exact ⟨rfl, rfl, rfl, Int.sub_add_cancel _ _, by decide, by omega, by omega,
      PageSize.offset_ne_zero page (by decide), rfl, rfl, by omega, by omega, writes⟩

/-- Some kernel grants pages in order, and there is a device to write them to. -/
theorem exists_ascending (page : PageSize) (doCompress : Bool) {quota : Nat} (some : 0 < quota)
    (initial : DiskContent Page) :
    ∃ (grants : Grants) (fd : Device Page) (started : Started Page),
      grants.Nodup ∧ (∀ offset ∈ grants, 0 < offset ∧ (page.bytes : Int) ∣ offset) ∧
      (∀ outcome ∈ fd.outcomes, outcome = true) ∧
      startSaving page doCompress grants fd (page.offset quota) = .ok started ∧
      ∃ first here last next count spare,
        Ascending page quota started.writer first here last next count spare := by
  obtain ⟨left, rfl⟩ : ∃ left, quota = left + 1 := ⟨quota - 1, by omega⟩
  obtain ⟨started, starts, first, here, last, next, count, ascending⟩ :=
    @startSaving_contiguous Page page doCompress left 0
      ⟨initial, [], List.replicate (2 * (left + 1) + 2 + 0) true⟩ rfl
  exact ⟨_, _, started, contiguous_nodup page 1 _, contiguous_granted (by decide),
    fun outcome member => List.eq_of_mem_replicate member, starts, first, here, last, next, count,
    0, ascending⟩

end SwapWriter

end Suspend
