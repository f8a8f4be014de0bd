import Suspend.SwapAccounts

set_option autoImplicit false

namespace Suspend

open Foundation.Cells Foundation.Supply

namespace SwapWriter

variable {Page : Type} {page : PageSize} {doCompress : Bool}

/-- The error that a save ends with, as far as swap is concerned. -/
def save (page : PageSize) (doCompress : Bool) (grants : Grants) (fd : Device Page)
    (swapNeeded : Int) (srcs : List Page) : Int :=
  match startSaving page doCompress grants fd swapNeeded with
  | .error error => error
  | .ok started => (savePages page doCompress started.writer srcs).1

/-- The pages that `alloc_swap` obtains over all batches of a save. -/
def obtainedPages (page : PageSize) (doCompress : Bool) (grants : Grants) (fd : Device Page)
    (swapNeeded : Int) (srcs : List Page) : Nat :=
  obtains page doCompress { (init (getSwapPage grants).2 fd).2 with swapNeeded := swapNeeded } +
    match startSaving page doCompress grants fd swapNeeded with
    | .error _ => 0
    | .ok started => obtained page doCompress started.writer srcs

variable (page doCompress) in
/-- The save behind `init_swap_writer`. -/
def fill (srcs : List Page) (handle : SwapWriter Page) : Int × SwapWriter Page :=
  let filled := preallocateSwap page doCompress handle
  if filled.1 = 0 then (-ENOSPC, filled.2)
  else
    let saved := savePages page doCompress
      { filled.2 with curOffset := filled.2.curOffset - page.bytes } srcs
    (saved.1, saved.2.2)

theorem fill_takes {srcs : List Page} {handle : SwapWriter Page}
    (success : (fill page doCompress srcs handle).1 = 0) :
    ∃ used, Takes (drawing (fill page doCompress srcs) handle) (fun result => result.1 = -ENOSPC)
      handle.dev used := by
  have filled : (preallocateSwap page doCompress handle).1 ≠ 0 := by
    intro failed
    rw [fill] at success
    dsimp only at success
    rw [if_pos failed] at success
    cases success
  rw [fill] at success
  dsimp only at success
  rw [if_neg filled] at success
  obtain ⟨used, first⟩ := preallocateSwap_takes filled
  obtain ⟨more, later⟩ := savePages_takes success
  let next (offset : Int) (writer : SwapWriter Page) : Int × SwapWriter Page :=
    if offset = 0 then (-ENOSPC, writer)
    else
      let saved := savePages page doCompress
        { writer with curOffset := writer.curOffset - page.bytes } srcs
      (saved.1, saved.2.2)
  have second : Takes (drawing (next (preallocateSwap page doCompress handle).1)
      (preallocateSwap page doCompress handle).2) (fun result => result.1 = -ENOSPC)
      (preallocateSwap page doCompress handle).2.dev more := by
    apply later.congr
    intro grants
    simp only [drawing, next, if_neg filled]
  exact ⟨used ++ more, drawing_bind next (· = 0) (· = -ENOSPC) first
    (fun result writer failed => congrArg Prod.fst (if_pos failed)) second⟩

/-- The save as a call to the kernel. -/
def answers (page : PageSize) (doCompress : Bool) (fd : Device Page) (swapNeeded : Int)
    (srcs : List Page) (grants : Grants) : Int × Grants :=
  let header := getSwapPage grants
  if header.1 = 0 then (-ENOSPC, header.2)
  else
    let location := getSwapPage header.2
    if location.1 = 0 then (-ENOSPC, location.2)
    else
      let filled := fill page doCompress srcs
        { blank location.1 location.2 fd with swapNeeded := swapNeeded }
      (filled.1, filled.2.dev)

theorem save_eq (grants : Grants) (fd : Device Page) (swapNeeded : Int) (srcs : List Page) :
    save page doCompress grants fd swapNeeded srcs =
      (answers page doCompress fd swapNeeded srcs grants).1 := by
  have refused : ¬ -ENOSPC = 0 := by decide
  by_cases header : (getSwapPage grants).1 = 0
  · simp only [save, startSaving, answers, header, ↓reduceIte]
  by_cases location : (getSwapPage (getSwapPage grants).2).1 = 0
  · simp only [save, startSaving, answers, init, header, location, refused, ne_eq,
      not_false_eq_true, ↓reduceIte]
  by_cases filled : (preallocateSwap page doCompress
      { blank (getSwapPage (getSwapPage grants).2).1 (getSwapPage (getSwapPage grants).2).2 fd with
        swapNeeded := swapNeeded }).1 = 0
  · simp only [save, startSaving, answers, init, fill, header, location, filled, ne_eq,
      not_true_eq_false, ↓reduceIte]
  · simp only [save, startSaving, answers, init, fill, header, location, filled, ne_eq,
      not_true_eq_false, ↓reduceIte]

theorem answers_eq {grants : Grants} {fd : Device Page} {swapNeeded : Int} {srcs : List Page}
    {started : Started Page}
    (prepared : startSaving page doCompress grants fd swapNeeded = .ok started) :
    answers page doCompress fd swapNeeded srcs grants =
      ((savePages page doCompress started.writer srcs).1,
        (savePages page doCompress started.writer srcs).2.2.dev) := by
  obtain ⟨header, location, rest, opened, rfl, nonzero, rfl, filled, rfl⟩ :=
    startSaving_success prepared
  have some : header ≠ 0 := by
    rintro rfl
    cases prepared
  have first : answers page doCompress fd swapNeeded srcs (header :: location :: rest) =
      if location = 0 then (-ENOSPC, rest)
      else
        let filled := fill page doCompress srcs
          { blank location rest fd with swapNeeded := swapNeeded }
        (filled.1, filled.2.dev) := if_neg some
  rw [first, if_neg nonzero, fill]
  dsimp only
  rw [if_neg filled]

theorem answers_takes {grants : Grants} {fd : Device Page} {swapNeeded : Int} {srcs : List Page}
    (success : (answers page doCompress fd swapNeeded srcs grants).1 = 0) :
    ∃ used, Takes (answers page doCompress fd swapNeeded srcs) (· = -ENOSPC) grants used := by
  cases grants with
  | nil => cases success
  | cons header rest =>
      have some : header ≠ 0 := by
        rintro rfl
        cases success
      cases rest with
      | nil =>
          have alone : answers page doCompress fd swapNeeded srcs [header] = (-ENOSPC, []) :=
            (if_neg some).trans (if_pos rfl)
          rw [alone] at success
          cases success
      | cons location rest =>
          have begun : answers page doCompress fd swapNeeded srcs (header :: location :: rest) =
              if location = 0 then (-ENOSPC, rest)
              else
                let filled := fill page doCompress srcs
                  { blank location rest fd with swapNeeded := swapNeeded }
                (filled.1, filled.2.dev) := if_neg some
          have more : location ≠ 0 := by
            rintro rfl
            rw [begun] at success
            cases success
          rw [begun, if_neg more] at success
          obtain ⟨used, filled⟩ := fill_takes success
          let last (location : Int) (grants : Grants) : Int × Grants :=
            if location = 0 then (-ENOSPC, grants)
            else
              let filled := fill page doCompress srcs
                { blank location grants fd with swapNeeded := swapNeeded }
              (filled.1, filled.2.dev)
          let next (header : Int) (grants : Grants) : Int × Grants :=
            if header = 0 then (-ENOSPC, grants)
            else last (getSwapPage grants).1 (getSwapPage grants).2
          have third : Takes (last location) (· = -ENOSPC) rest used :=
            (filled.map fun _ failed => failed).congr fun grants => if_neg more
          have second :
            Takes (next header) (· = -ENOSPC) (location :: rest) ([location] ++ used) := by
            apply ((getSwapPage_takes location rest).bind last _ third).congr
            · exact fun grants => if_neg some
            · exact fun part none => congrArg Prod.fst (if_pos none)
          refine ⟨[header] ++ ([location] ++ used),
            (getSwapPage_takes header (location :: rest)).bind next ?_ second⟩
          exact fun part none => congrArg Prod.fst (if_pos none)

/-- The first table: with a surplus just if the pages that are granted for the image fall into too
many extents. -/
theorem startSaving_balanced {grants : Grants} {fd : Device Page} {left : Nat}
    {started : Started Page}
    (aligned : ∀ offset ∈ grants, 0 ≤ offset ∧ (page.bytes : Int) ∣ offset)
    (distinct : grants.Nodup)
    (fresh : fd.tablesWritten = [])
    (success : startSaving page false grants fd (page.offset left) = .ok started) :
    ∃ surplus ≤ 1, Balanced page left surplus started.writer ∧
      grants.length = 2 + obtains page false { (init (getSwapPage grants).2 fd).2 with
        swapNeeded := page.offset left } + started.writer.dev.length ∧
      (surplus = 0 ↔ ∀ some ≤ left,
        fragments page ((grants.drop 2).take some) ≤ page.maxExtents) := by
  have width : (0 : Int) < page.bytes := by exact_mod_cast page.bytes_pos
  have laid := startSaving_laid aligned distinct fresh success
  have handed := congrArg List.length laid.handed
  obtain ⟨header, location, rest, opened, rfl, nonzero, hopened, filled, rfl⟩ :=
    startSaving_success success
  have opening : init (location :: rest) fd = (0, blank location rest fd) := if_neg nonzero
  have opens : { (init (getSwapPage (header :: location :: rest)).2 fd).2 with
      swapNeeded := page.offset left } = opened := by
    rw [hopened]
    exact congrArg (fun result => { result.2 with swapNeeded := page.offset left }) opening
  have some : 0 < left := by
    by_contra none
    rw [Nat.eq_zero_of_not_pos none] at hopened
    rw [hopened, preallocateSwap, if_pos] at filled
    · exact filled rfl
    · dsimp only
      rw [page.offset_zero]
      exact width
  have extents : opened.extents = Table.zero := by rw [hopened]; rfl
  have number : opened.nrExtents = 0 := by rw [hopened]; rfl
  have dev : opened.dev = rest := by rw [hopened]; rfl
  have needed : opened.swapNeeded = page.offset left := by rw [hopened]
  have alignedRest : ∀ offset ∈ rest, 0 ≤ offset ∧ (page.bytes : Int) ∣ offset :=
    fun offset member => aligned offset (List.mem_cons_of_mem _ (List.mem_cons_of_mem _ member))
  have distinctRest := (List.nodup_cons.mp (List.nodup_cons.mp distinct).2).2
  have plain := @preallocateSwap_plain Page page opened left
    ⟨by simp [number], by simp [number]⟩ (by omega) (by rw [extents]; rfl)
    (by rwa [dev]) (by rwa [dev, number, tablePages_zero, List.append_nil]) needed some filled
  obtain ⟨held, within, many, fits⟩ := plain
  rw [number, tablePages_zero, List.length_nil] at held
  simp only [number, tablePages_zero, List.append_nil, dev] at fits
  have counted := obtains_eq filled
  rw [dev] at counted
  dsimp only at handed
  rw [opens, List.length_cons, List.length_cons, counted]
  have needs : (preallocateSwap page false opened).2.swapNeeded = page.offset left :=
    (preallocateSwap_needed opened).trans needed
  have position : remaining page { (preallocateSwap page false opened).2 with
      curOffset := (preallocateSwap page false opened).2.curOffset - page.bytes } =
        (tablePages page (preallocateSwap page false opened).2.extents
          (preallocateSwap page false opened).2.nrExtents).length := by
    simpa [remaining] using handed.symm
  by_cases exact : ((preallocateSwap page false opened).2.spare page).length = 0
  · refine ⟨0, by omega, ⟨Or.inl ⟨exact, ?_⟩, needs⟩, by dsimp only; omega, ?_⟩
    · rw [position]
      omega
    · exact iff_of_true rfl (fits.mp exact)
  · have full := many.resolve_left fun both => exact both.1
    refine ⟨1, by omega, ⟨Or.inr ⟨rfl, full, ?_⟩, needs⟩, by dsimp only; omega, ?_⟩
    · rw [position]
      omega
    · exact iff_of_false one_ne_zero (fits.not.mp exact)

/-- What a save without compression takes: the header page, a page for each table, and the pages
that `alloc_swap` obtains, which are those of the image and at most one more. -/
theorem save_accounts {grants : Grants} {initial : DiskContent Page} {outcomes : List Bool}
    {srcs : List Page} {started : Started Page}
    (aligned : ∀ offset ∈ grants, 0 ≤ offset ∧ (page.bytes : Int) ∣ offset)
    (distinct : grants.Nodup)
    (prepared : startSaving page false grants (Device.opened initial outcomes)
      (page.offset srcs.length) = .ok started)
    (saved : (savePages page false started.writer srcs).1 = 0) :
    ∃ surplus ≤ 1, obtainedPages page false grants (Device.opened initial outcomes)
          (page.offset srcs.length) srcs = srcs.length + surplus ∧
      grants.length = srcs.length + surplus +
        ((savePages page false started.writer srcs).2.2.fd.tablesWritten.length + 2) +
          (savePages page false started.writer srcs).2.2.dev.length ∧
      (surplus = 0 ↔ ∀ some ≤ srcs.length,
        fragments page ((grants.drop 2).take some) ≤ page.maxExtents) := by
  have laid := startSaving_laid aligned distinct rfl prepared
  obtain ⟨surplus, few, balanced, granted, fits⟩ :=
    startSaving_balanced aligned distinct rfl prepared
  obtain ⟨never, finished⟩ := Balanced.run laid aligned distinct balanced saved
  obtain ⟨⟨tables, pages, final⟩, all⟩ := laid.run aligned distinct srcs never saved
  have counted := savePages_dev saved
  have handed := congrArg List.length final.handed
  obtain ⟨consumed, answers, perm⟩ := final.answers
  have taken := perm.length_eq
  have total := congrArg List.length answers
  have begins := congrArg List.length laid.written
  have ends := congrArg List.length final.written
  have left := finished.total
  unfold remaining at left
  simp only [pool, List.length_append, List.length_cons, List.length_nil, List.nil_append]
    at handed taken total begins
  have every : obtainedPages page false grants (Device.opened initial outcomes)
      (page.offset srcs.length) srcs = obtains page false { (init (getSwapPage grants).2
        (Device.opened initial outcomes)).2 with swapNeeded := page.offset srcs.length } +
          obtained page false started.writer srcs := by
    rw [obtainedPages, prepared]
  rw [every]
  exact ⟨surplus, few, by omega, by omega, fits⟩

/-- What the save needs to get through: as many pages as there are in the image, in the tables and
in the header, and one more if there is a surplus. -/
theorem save_surplus {grants : Grants} {initial : DiskContent Page} {outcomes : List Bool}
    {srcs : List Page} {started : Started Page}
    (aligned : ∀ offset ∈ grants, 0 ≤ offset ∧ (page.bytes : Int) ∣ offset)
    (distinct : grants.Nodup)
    (prepared : startSaving page false grants (Device.opened initial outcomes)
      (page.offset srcs.length) = .ok started)
    (saved : (savePages page false started.writer srcs).1 = 0) :
    let tables := (savePages page false started.writer srcs).2.2.fd.tablesWritten.length + 1
    ∃ surplus ≤ 1, obtainedPages page false grants (Device.opened initial outcomes)
          (page.offset srcs.length) srcs = srcs.length + surplus ∧
      (save page false (grants.take (srcs.length + tables + 1)) (Device.opened initial outcomes)
        (page.offset srcs.length) srcs = -ENOSPC ↔ surplus ≠ 0) ∧
      (surplus = 0 ↔ ∀ some ≤ srcs.length,
        fragments page ((grants.drop 2).take some) ≤ page.maxExtents) := by
  obtain ⟨surplus, few, every, total, fits⟩ := save_accounts aligned distinct prepared saved
  have good : save page false grants (Device.opened initial outcomes) (page.offset srcs.length)
      srcs = 0 := by
    rw [save, prepared]
    exact saved
  rw [save_eq] at good
  obtain ⟨used, takes⟩ := answers_takes good
  have rest := takes.split
  rw [answers_eq prepared] at rest
  have split := congrArg List.length rest
  rw [List.length_append] at split
  have refused : ¬ (answers page false (Device.opened initial outcomes) (page.offset srcs.length)
      srcs grants).1 = -ENOSPC := by
    rw [good]
    decide
  refine ⟨surplus, few, every, ?_, fits⟩
  rw [save_eq, takes.fails_take_iff refused]
  dsimp only at split ⊢
  omega

/-- A save of `srcs` with `tables` tables obtains exactly the pages of the image, and gets through
with one page for each of them, one for each table and one for the header, just if the pages that
are granted for the image never fall into more extents than a table has room for. -/
theorem save_exact_iff (page : PageSize) (grants : Grants) (initial : DiskContent Page)
    (outcomes : List Bool) (srcs : List Page) (started : Started Page)
    (aligned : ∀ offset ∈ grants, 0 ≤ offset ∧ (page.bytes : Int) ∣ offset)
    (distinct : grants.Nodup)
    (prepared : startSaving page false grants (Device.opened initial outcomes)
      (page.offset srcs.length) = .ok started)
    (saved : (savePages page false started.writer srcs).1 = 0) :
    let tables := (savePages page false started.writer srcs).2.2.fd.tablesWritten.length + 1
    (obtainedPages page false grants (Device.opened initial outcomes) (page.offset srcs.length)
        srcs = srcs.length ∧
      save page false (grants.take (srcs.length + tables + 1)) (Device.opened initial outcomes)
        (page.offset srcs.length) srcs ≠ -ENOSPC) ↔
    ∀ some ≤ srcs.length, fragments page ((grants.drop 2).take some) ≤ page.maxExtents := by
  obtain ⟨surplus, few, every, short, fits⟩ := save_surplus aligned distinct prepared saved
  dsimp only
  rw [ne_eq, short, ← fits, every]
  omega

theorem two_pages_exact : ∃ started : Started Nat, startSaving PageSize.fourKilobytes false
      [4096, 8192, 12288, 20480] (Device.opened blankDisk [true, true, true])
      (PageSize.fourKilobytes.offset 2) = .ok started ∧
    let tables := (savePages PageSize.fourKilobytes false started.writer
      [7, 8]).2.2.fd.tablesWritten.length + 1
    (obtainedPages PageSize.fourKilobytes false [4096, 8192, 12288, 20480]
        (Device.opened blankDisk [true, true, true]) (PageSize.fourKilobytes.offset 2) [7, 8] = 2 ∧
      save PageSize.fourKilobytes false (([4096, 8192, 12288, 20480] : Grants).take
        (2 + tables + 1)) (Device.opened blankDisk [true, true, true])
        (PageSize.fourKilobytes.offset 2) [7, 8] ≠ -ENOSPC) ↔
    ∀ some ≤ 2, fragments PageSize.fourKilobytes
        ((([4096, 8192, 12288, 20480] : Grants).drop 2).take some) ≤
      PageSize.fourKilobytes.maxExtents := by
  have run : ∃ started ∈ (startSaving PageSize.fourKilobytes false [4096, 8192, 12288, 20480]
      (Device.opened blankDisk [true, true, true]) (PageSize.fourKilobytes.offset 2)).toOption,
      (savePages PageSize.fourKilobytes false started.writer [7, 8]).1 = 0 := by
    decide +kernel
  obtain ⟨started, found, saved⟩ := run
  have prepared := startSaving_found found
  exact ⟨started, prepared, save_exact_iff PageSize.fourKilobytes [4096, 8192, 12288, 20480]
    blankDisk [true, true, true] [7, 8] started (by decide) (by decide) prepared saved⟩

/-- Every second page of the device, from `first` on. -/
def spaced (page : PageSize) (first count : Nat) : Grants :=
  (List.range' first count 2).map page.offset

/-- The table of the first ones of them. -/
def spacedTable (page : PageSize) (first count : Nat) : Table := fun index =>
  if index < count then
    ⟨page.offset (first + 2 * index), page.offset (first + 2 * index + 1)⟩
  else Extent.zero

theorem spacedTable_sorted (page : PageSize) (first count : Nat) :
    Sorted page (spacedTable page first count) count := by
  constructor
  · intro index inside
    rw [spacedTable, if_pos inside]
    exact ⟨PageSize.offset_lt.mpr (Nat.lt_succ_self _), Int.dvd_mul_right _ _,
      Int.dvd_mul_right _ _⟩
  · intro left right ordered inside
    rw [spacedTable, if_pos (by omega), spacedTable, if_pos inside]
    exact PageSize.offset_lt.mpr (by omega)

theorem spacedTable_succ (page : PageSize) (first count : Nat) :
    Function.update (spacedTable page first count) count ⟨page.offset (first + 2 * count),
      page.offset (first + 2 * count) + page.bytes⟩ = spacedTable page first (count + 1) := by
  funext index
  unfold spacedTable
  by_cases same : index = count
  · rw [same, Function.update_self, if_pos (Nat.lt_succ_self count), page.offset_succ]
  · rw [Function.update_of_ne same]
    by_cases inside : index < count
    · rw [if_pos inside, if_pos (by omega)]
    · rw [if_neg inside, if_neg (by omega)]

/-- A page behind all others is a new extent at the end. -/
theorem enterPage_spaced {first count : Nat} (positive : 0 < first) (some : 0 < count) :
    enterPage page (spacedTable page first count) count (page.offset (first + 2 * count)) =
      (spacedTable page first (count + 1), count + 1) := by
  have sorted := spacedTable_sorted page first count
  have width : (0 : Int) < page.bytes := by exact_mod_cast page.bytes_pos
  have behind : ∀ index < count,
      (spacedTable page first count index).stop < page.offset (first + 2 * count) := by
    intro index inside
    rw [spacedTable, if_pos inside]
    exact PageSize.offset_lt.mpr (by omega)
  have aligned : (page.bytes : Int) ∣ page.offset (first + 2 * count) := Int.dvd_mul_right _ _
  have found := findSlot_spec sorted aligned
    (fun index inside within => absurd within.2 (not_lt.mpr (Int.le_of_lt (behind index inside))))
    0 (count - 1) (Nat.zero_le _) (by omega) (Or.inl rfl) (Or.inl rfl)
  have last : findSlot page (spacedTable page first count) (page.offset (first + 2 * count)) 0
      (count - 1) = .fresh (count - 1) := by
    cases slot : findSlot page (spacedTable page first count) (page.offset (first + 2 * count)) 0
        (count - 1) with
    | before index =>
        rw [slot] at found
        have less := behind index found.1
        have nonempty := (sorted.whole index found.1).nonempty
        have same := found.2
        omega
    | after index =>
        rw [slot] at found
        exact absurd found.2 (Int.ne_of_gt (behind index found.1))
    | fresh index =>
        rw [slot] at found
        obtain ⟨inside, _, later, _⟩ := found
        congr 1
        by_contra earlier
        have less := behind (count - 1) (by omega)
        have above := later (count - 1) (by omega) (by omega)
        have nonempty := (sorted.whole (count - 1) (by omega)).nonempty
        omega
  have granted : 0 < page.offset (first + 2 * count) := PageSize.offset_pos.mpr (by omega)
  rw [enterPage, last]
  dsimp only
  rw [if_pos granted, insertExtent]
  dsimp only
  rw [if_pos (behind (count - 1) (by omega)), Nat.sub_add_cancel some, Nat.sub_self]
  have still : memmove (spacedTable page first count) (count + 1) count 0 =
      spacedTable page first count := by
    funext index
    exact memmove_outside _ _ _ _ _ (by omega)
  rw [still, spacedTable_succ, ite_self]

theorem allocLoop_spaced (page : PageSize) (total : Int) {first count : Nat} (more : Nat)
    (size : Int)
    (rest : Grants) (positive : 0 < first) (some : 0 < count)
    (room : count + more ≤ page.maxExtents + 1) (asked : size + page.offset more ≤ total) :
    allocLoop page total (spaced page (first + 2 * count) more ++ rest)
        (spacedTable page first count) count size =
      allocLoop page total rest (spacedTable page first (count + more)) (count + more)
        (size + page.offset more) := by
  induction more generalizing count size with
  | zero => simp [spaced]
  | succ more ih =>
      have width : (0 : Int) < page.bytes := by exact_mod_cast page.bytes_pos
      have wide : page.offset 0 ≤ page.offset more := PageSize.offset_le.mpr (Nat.zero_le more)
      rw [page.offset_zero] at wide
      rw [page.offset_succ] at asked ⊢
      have granted : page.offset (first + 2 * count) ≠ 0 :=
        PageSize.offset_ne_zero page (by omega)
      rw [spaced, List.range'_succ, List.map_cons, List.cons_append, allocLoop,
        if_pos ⟨by omega, by omega⟩, if_neg granted, enterPage_spaced positive some]
      dsimp only
      have next := ih (size + page.bytes) (Nat.succ_pos count) (by omega) (by omega)
      rw [spaced, show first + 2 * (count + 1) = first + 2 * count + 2 by omega] at next
      rw [next, show count + 1 + more = count + (more + 1) by omega]
      congr 1
      omega

/-- A kernel that grants every second page. -/
def everySecond : Grants :=
  PageSize.fourKilobytes.offset 1 :: PageSize.fourKilobytes.offset 2 ::
    spaced PageSize.fourKilobytes 3 258

def enoughWrites : List Bool := List.replicate 512 true

/-- The writer when the table is full for the first time. -/
def fullTable : SwapWriter Nat :=
  { blank (PageSize.fourKilobytes.offset 2) (spaced PageSize.fourKilobytes 515 2)
      (Device.opened blankDisk enoughWrites) with
    extents := spacedTable PageSize.fourKilobytes 3 256
    nrExtents := 255
    curOffset := PageSize.fourKilobytes.offset 3 - PageSize.fourKilobytes.bytes
    swapNeeded := PageSize.fourKilobytes.offset 256 }

theorem preallocateSwap_of {handle : SwapWriter Page} {result : Allocation}
    (more : ¬ handle.swapNeeded < page.bytes)
    (allocated : allocSwap page handle.dev handle.extents handle.nrExtents
      (request page doCompress handle.swapNeeded) = result) (answered : ¬ result.ret ≤ 0) :
    preallocateSwap page doCompress handle = ((result.table 0).start, { handle with
      dev := result.grants
      extents := result.table
      nrExtents := min result.ret.toNat page.maxExtents
      curExtentIdx := 0
      curOffset := (result.table 0).start }) := by
  subst allocated
  rw [preallocateSwap, if_neg more]
  exact if_neg answered

/-- The first batch of 256 pages: the last one of them finds the table full. -/
theorem everySecond_allocated : allocSwap PageSize.fourKilobytes
    (spaced PageSize.fourKilobytes 3 258) Table.zero 0 (PageSize.fourKilobytes.offset 256) =
      ⟨256, spacedTable PageSize.fourKilobytes 3 256,
        PageSize.fourKilobytes.bytes + PageSize.fourKilobytes.offset 255,
        spaced PageSize.fourKilobytes 515 2⟩ := by
  have first : Function.update Table.zero 0 ⟨PageSize.fourKilobytes.offset 3,
      PageSize.fourKilobytes.offset 3 + PageSize.fourKilobytes.bytes⟩ =
        spacedTable PageSize.fourKilobytes 3 1 := spacedTable_succ PageSize.fourKilobytes 3 0
  have all := @allocLoop_spaced PageSize.fourKilobytes (PageSize.fourKilobytes.offset 256) 3 1
    255 PageSize.fourKilobytes.bytes (spaced PageSize.fourKilobytes 515 2) (by decide) (by decide)
    (by decide) (by decide)
  have stop := allocLoop_full PageSize.fourKilobytes (PageSize.fourKilobytes.offset 256)
    (spaced PageSize.fourKilobytes 515 2) (spacedTable PageSize.fourKilobytes 3 256)
    (PageSize.fourKilobytes.bytes + PageSize.fourKilobytes.offset 255)
  have answer : spaced PageSize.fourKilobytes 3 258 = PageSize.fourKilobytes.offset 3 ::
      (spaced PageSize.fourKilobytes 5 255 ++ spaced PageSize.fourKilobytes 515 2) := by
    decide +kernel
  rw [answer, allocSwap, if_pos rfl]
  dsimp only [getSwapPage]
  rw [first]
  exact (if_neg (by decide)).trans (all.trans stop)

/-- The writer that has asked for 256 pages, be it for all that it needs or for half of it. -/
theorem fullTable_filled {doCompress : Bool} {swapNeeded : Int}
    (more : ¬ swapNeeded < PageSize.fourKilobytes.bytes)
    (asked : request PageSize.fourKilobytes doCompress swapNeeded =
      PageSize.fourKilobytes.offset 256) : preallocateSwap PageSize.fourKilobytes doCompress
    { blank (PageSize.fourKilobytes.offset 2) (spaced PageSize.fourKilobytes 3 258)
        (Device.opened blankDisk enoughWrites) with swapNeeded := swapNeeded } =
    (PageSize.fourKilobytes.offset 3, { fullTable with
      curOffset := PageSize.fourKilobytes.offset 3
      swapNeeded := swapNeeded }) := by
  have begins : (spacedTable PageSize.fourKilobytes 3 256 0).start =
      PageSize.fourKilobytes.offset 3 := by decide
  have room : min (256 : Int).toNat PageSize.fourKilobytes.maxExtents = 255 := by decide
  have filled := @preallocateSwap_of Nat PageSize.fourKilobytes doCompress
    { blank (PageSize.fourKilobytes.offset 2) (spaced PageSize.fourKilobytes 3 258)
        (Device.opened blankDisk enoughWrites) with swapNeeded := swapNeeded } _ more
    ((congrArg _ asked).trans everySecond_allocated) (show ¬ (256 : Int) ≤ 0 by decide)
  dsimp only at filled
  rw [begins, room] at filled
  exact filled

theorem everySecond_started {doCompress : Bool} {swapNeeded : Int}
    (more : ¬ swapNeeded < PageSize.fourKilobytes.bytes)
    (asked : request PageSize.fourKilobytes doCompress swapNeeded =
      PageSize.fourKilobytes.offset 256) :
    startSaving PageSize.fourKilobytes doCompress everySecond
      (Device.opened blankDisk enoughWrites) swapNeeded =
        .ok ⟨PageSize.fourKilobytes.offset 1, { fullTable with swapNeeded := swapNeeded }⟩ := by
  have header : ¬ PageSize.fourKilobytes.offset 1 = 0 := by decide
  have location : ¬ PageSize.fourKilobytes.offset 2 = 0 := by decide
  have granted : ¬ PageSize.fourKilobytes.offset 3 = 0 := by decide
  simp only [startSaving, everySecond, getSwapPage, init, header, location,
    fullTable_filled more asked, granted, ne_eq, not_true_eq_false, ↓reduceIte]
  rfl

theorem fullTable_saved :
    (savePages PageSize.fourKilobytes false fullTable (List.replicate 256 0)).1 = 0 := by
  decide +kernel

theorem fullTable_taken :
    (savePages PageSize.fourKilobytes false fullTable (List.replicate 256 0)).2.2.dev = [] := by
  decide +kernel

theorem everySecond_aligned : ∀ offset ∈ everySecond,
    0 ≤ offset ∧ (PageSize.fourKilobytes.bytes : Int) ∣ offset := by
  decide +kernel

theorem everySecond_nodup : everySecond.Nodup := by
  have behind : ∀ index ∈ List.range' 3 258 2, 3 ≤ index := by
    intro index inside
    obtain ⟨step, _, rfl⟩ := List.mem_range'.mp inside
    omega
  have indices : (1 :: 2 :: List.range' 3 258 2).Nodup := by
    rw [List.nodup_cons, List.nodup_cons, List.mem_cons, not_or]
    exact ⟨⟨by decide, fun inside => absurd (behind 1 inside) (by decide)⟩,
      fun inside => absurd (behind 2 inside) (by decide), List.nodup_range' 2⟩
  exact indices.map PageSize.fourKilobytes.offset_injective

/-- Each of 256 pages needs an extent of its own. -/
theorem everySecond_accounts {srcs : List Nat} (all : srcs.length = 256)
    (saved : (savePages PageSize.fourKilobytes false fullTable srcs).1 = 0)
    (taken : (savePages PageSize.fourKilobytes false fullTable srcs).2.2.dev = []) :
    (savePages PageSize.fourKilobytes false fullTable srcs).2.2.fd.tablesWritten.length + 1 = 2 ∧
      obtainedPages PageSize.fourKilobytes false everySecond (Device.opened blankDisk enoughWrites)
        (PageSize.fourKilobytes.offset srcs.length) srcs = 257 ∧
      save PageSize.fourKilobytes false (everySecond.take (256 + 2 + 1))
        (Device.opened blankDisk enoughWrites) (PageSize.fourKilobytes.offset srcs.length) srcs =
          -ENOSPC := by
  have pages : (everySecond.drop 2).take 256 =
      tablePages PageSize.fourKilobytes (spacedTable PageSize.fourKilobytes 3 256) 256 := by
    decide +kernel
  have crowded : ¬ ∀ some ≤ srcs.length, fragments PageSize.fourKilobytes
      ((everySecond.drop 2).take some) ≤ PageSize.fourKilobytes.maxExtents := by
    intro fits
    have whole := fits 256 (Nat.le_of_eq all.symm)
    rw [pages, (spacedTable_sorted PageSize.fourKilobytes 3 256).fragments] at whole
    exact absurd whole (by decide)
  have started : startSaving PageSize.fourKilobytes false everySecond
      (Device.opened blankDisk enoughWrites) (PageSize.fourKilobytes.offset srcs.length) =
        .ok ⟨PageSize.fourKilobytes.offset 1, fullTable⟩ := by
    rw [all]
    exact everySecond_started (by decide) (by decide)
  obtain ⟨surplus, few, every, total, fits⟩ :=
    save_accounts everySecond_aligned everySecond_nodup started saved
  obtain ⟨other, fewer, same, short, fits'⟩ :=
    save_surplus everySecond_aligned everySecond_nodup started saved
  have one : surplus ≠ 0 := fun none => crowded (fits.mp none)
  have one' : other ≠ 0 := fun none => crowded (fits'.mp none)
  have granted : everySecond.length = 260 := by decide +kernel
  dsimp only at total short
  rw [taken, granted, List.length_nil] at total
  have tables : (savePages PageSize.fourKilobytes false fullTable
      srcs).2.2.fd.tablesWritten.length + 1 = 2 := by
    omega
  rw [tables, all] at short
  rw [all] at every
  rw [all]
  exact ⟨tables, by omega, short.mpr one'⟩

/-- A save of these pages, with two tables, obtains one page too many, and fails with one page for
each page of the image, for each table and for the header. -/
theorem everySecond_short :
    startSaving PageSize.fourKilobytes false everySecond (Device.opened blankDisk enoughWrites)
        (PageSize.fourKilobytes.offset 256) = .ok ⟨PageSize.fourKilobytes.offset 1, fullTable⟩ ∧
      ∃ srcs : List Nat, srcs.length = 256 ∧
        (savePages PageSize.fourKilobytes false fullTable srcs).1 = 0 ∧
        (savePages PageSize.fourKilobytes false fullTable srcs).2.2.fd.tablesWritten.length + 1 =
          2 ∧
        obtainedPages PageSize.fourKilobytes false everySecond
          (Device.opened blankDisk enoughWrites) (PageSize.fourKilobytes.offset srcs.length) srcs =
            257 ∧
        save PageSize.fourKilobytes false (everySecond.take (256 + 2 + 1))
          (Device.opened blankDisk enoughWrites) (PageSize.fourKilobytes.offset srcs.length) srcs =
            -ENOSPC := by
  have all : (List.replicate 256 0).length = 256 := List.length_replicate
  exact ⟨everySecond_started (by decide) (by decide), List.replicate 256 0, all, fullTable_saved,
    everySecond_accounts all fullTable_saved fullTable_taken⟩

end SwapWriter

end Suspend
