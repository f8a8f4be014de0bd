import Mathlib.Data.List.Nodup
import Suspend.AllocLoop

set_option autoImplicit false

namespace Suspend

/-- The number of extents that some pages make up. -/
def fragments (page : PageSize) (offsets : List Int) : Nat :=
  offsets.countP fun offset : Int => offset - (page.bytes : Int) ∉ offsets

section Fragments

variable {page : PageSize} {offsets others : List Int}

theorem fragments_perm (perm : offsets.Perm others) :
    fragments page offsets = fragments page others := by
  unfold fragments
  rw [perm.countP_eq]
  apply List.countP_congr
  intro offset _
  simp [perm.mem_iff]

/-- Pages that are not next to one another are in different extents. -/
theorem fragments_append (apart : ∀ offset ∈ offsets, ∀ other ∈ others,
    offset - page.bytes ≠ other ∧ other - page.bytes ≠ offset) :
    fragments page (offsets ++ others) = fragments page offsets + fragments page others := by
  unfold fragments
  rw [List.countP_append]
  congr 1
  · apply List.countP_congr
    intro offset inside
    have away : offset - page.bytes ∉ others := fun there => (apart offset inside _ there).1 rfl
    simp [away]
  · apply List.countP_congr
    intro other inside
    have away : other - page.bytes ∉ offsets := fun there => (apart _ there other inside).2 rfl
    simp [away]

theorem fragments_single (page : PageSize) (offset : Int) : fragments page [offset] = 1 := by
  have positive := page.bytes_pos
  have other : offset - page.bytes ∉ [offset] := by
    rw [List.mem_singleton]
    omega
  simp only [fragments, List.countP_singleton, other, not_false_eq_true, decide_true, ↓reduceIte]

theorem fragments_extent {extent : Extent} (whole : extent.Whole page) :
    fragments page (extent.pages page) = 1 := by
  have nonempty := whole.nonempty
  have first : extent.start ∈ extent.pages page :=
    (Extent.mem_pages page whole _).mpr ⟨Int.le_refl _, nonempty, whole.startAligned⟩
  have once : (extent.pages page).Nodup := (Extent.pages_pairwise page extent).imp Int.ne_of_lt
  have positive := page.bytes_pos
  have begins : fragments page (extent.pages page) =
    (extent.pages page).countP (· == extent.start) := by
    apply List.countP_congr
    intro offset inside
    obtain ⟨lower, upper, aligned⟩ := (Extent.mem_pages page whole offset).mp inside
    rw [decide_eq_true_eq, beq_iff_eq, Extent.mem_pages page whole]
    constructor
    · intro before
      by_contra other
      have step := Extent.page_apart page whole.startAligned aligned (by omega)
      exact before ⟨by omega, by omega, Int.dvd_sub aligned (Int.dvd_refl _)⟩
    · omega
  rw [begins]
  exact List.count_eq_one_of_mem once first

theorem Sorted.fragments {table : Table} {count : Nat} (sorted : Sorted page table count) :
    Suspend.fragments page (tablePages page table count) = count := by
  induction count with
  | zero => rfl
  | succ count ih =>
      have before := sorted.mono (Nat.le_succ count)
      have last := sorted.whole count (Nat.lt_succ_self count)
      rw [tablePages_succ, fragments_append, ih before, fragments_extent last]
      intro offset inside other behind
      obtain ⟨_, index, below, lower, upper⟩ := (before.mem_pages offset).mp inside
      obtain ⟨start, _, aligned⟩ := (Extent.mem_pages page last other).mp behind
      have gap := sorted.gaps index count below (Nat.lt_succ_self count)
      have whole := sorted.whole index (by omega)
      have step := Extent.page_apart page ((sorted.mono (Nat.le_succ count)).mem_pages offset |>.mp
        inside).1 whole.stopAligned upper
      have positive := page.bytes_pos
      constructor <;> omega

end Fragments

section Loop

variable {page : PageSize} {table : Table} {count : Nat} {offset : Int}

/-- A page that finds no room is next to no page of the table. -/
theorem enterPage_overflow (sorted : Sorted page table count) (positive : 0 < count)
    (room : count ≤ page.maxExtents) (aligned : (page.bytes : Int) ∣ offset)
    (fresh : offset ∉ tablePages page table count)
    (full : (enterPage page table count offset).2 = page.maxExtents + 1) :
    ∀ index < count, (table index).stop < offset ∨ offset < (table index).start - page.bytes := by
  have outside : ∀ index < count,
      ¬ ((table index).start ≤ offset ∧ offset < (table index).stop) :=
    fun index inside within => fresh
      ((sorted.mem_pages offset).mpr ⟨aligned, index, inside, within⟩)
  have found := findSlot_spec sorted aligned outside 0 (count - 1) (by omega) (by omega)
    (Or.inl rfl) (Or.inl rfl)
  unfold enterPage at full
  cases slot : findSlot page table offset 0 (count - 1) with
  | before index =>
      rw [slot] at full
      unfold extendBefore at full
      dsimp only at full
      split at full <;> dsimp only at full <;> omega
  | after index =>
      rw [slot] at full
      unfold extendAfter at full
      dsimp only at full
      split at full <;> dsimp only at full <;> omega
  | fresh index =>
      rw [slot] at found
      obtain ⟨inside, earlier, later, side⟩ := found
      intro position below
      rcases Nat.lt_trichotomy position index with before | same | behind
      · exact Or.inl (earlier position before)
      · rw [same]
        exact side
      · exact Or.inr (later position below behind)

theorem fragments_overflow (sorted : Sorted page table count) (positive : 0 < count)
    (room : count ≤ page.maxExtents) (aligned : (page.bytes : Int) ∣ offset)
    (fresh : offset ∉ tablePages page table count)
    (full : (enterPage page table count offset).2 = page.maxExtents + 1) :
    fragments page (offset :: tablePages page table count) = count + 1 := by
  have apart := enterPage_overflow sorted positive room aligned fresh full
  have separate := @fragments_append page [offset] (tablePages page table count) (by
    intro single inside other member
    rw [List.mem_singleton] at inside
    obtain ⟨otherAligned, index, below, lower, upper⟩ := (sorted.mem_pages other).mp member
    have whole := sorted.whole index below
    have step := Extent.page_apart page otherAligned whole.stopAligned upper
    rcases apart index below with behind | before <;> constructor <;> omega)
  rw [List.singleton_append, fragments_single, sorted.fragments] at separate
  rw [separate, Nat.add_comm]

/-- The first page belongs to the table after one round. -/
theorem Entered.fragments_take {after : Table} {total : Nat} (rest : List Int) (some : Nat)
    (sorted : Sorted page table count) (aligned : (page.bytes : Int) ∣ offset)
    (fresh : offset ∉ tablePages page table count)
    (entered : Entered page table count offset after total) :
    fragments page ((offset :: rest).take (some + 1) ++ tablePages page table count) =
      fragments page (rest.take some ++ tablePages page after total) := by
  have pages := entered.perm sorted aligned fresh
  apply fragments_perm
  rw [List.take_succ_cons, List.cons_append]
  exact (List.perm_middle.symm).trans (pages.symm.append_left _)

theorem Entered.fits_iff {after : Table} {total : Nat} (rest : List Int) (needed : Nat)
    (sorted : Sorted page table count) (room : count ≤ page.maxExtents)
    (aligned : (page.bytes : Int) ∣ offset) (fresh : offset ∉ tablePages page table count)
    (entered : Entered page table count offset after total) :
    (∀ some ≤ needed, fragments page (rest.take some ++ tablePages page after total) ≤
        page.maxExtents) ↔
      ∀ some ≤ needed + 1, fragments page ((offset :: rest).take some ++
        tablePages page table count) ≤ page.maxExtents := by
  have moved := fun some => entered.fragments_take rest some sorted aligned fresh
  constructor
  · intro all some within
    cases some with
    | zero =>
        rw [List.take_zero, List.nil_append, sorted.fragments]
        exact room
    | succ some =>
        rw [moved]
        exact all some (Nat.le_of_succ_le_succ within)
  · intro all some within
    rw [← moved]
    exact all (some + 1) (Nat.succ_le_succ within)

/-- With one page more the table is full, and the loop says so. -/
theorem allocLoop_crowded (needed : Nat) (rest : Grants) (wanted size : Int)
    (sorted : Sorted page table count) (positive : 0 < count) (room : count ≤ page.maxExtents)
    (aligned : (page.bytes : Int) ∣ offset) (fresh : offset ∉ tablePages page table count)
    (entered : Entered page table count offset (enterPage page table count offset).1
      (enterPage page table count offset).2)
    (full : (enterPage page table count offset).2 = page.maxExtents + 1) :
    (allocLoop page wanted rest (enterPage page table count offset).1
        (enterPage page table count offset).2 size).ret ≤ page.maxExtents ↔
      ∀ some ≤ needed + 1, fragments page ((offset :: rest).take some ++
        tablePages page table count) ≤ page.maxExtents := by
  have crowded := fragments_overflow sorted positive room aligned fresh full
  have last := (entered.overflow full).1
  rw [full, allocLoop_full]
  constructor
  · intro few
    dsimp only at few
    omega
  · intro all
    have first := all 1 (Nat.succ_le_succ (Nat.zero_le _))
    rw [List.take_succ_cons, List.take_zero, List.singleton_append, crowded] at first
    omega

/-- The loop stops at what it was asked for, and there is room for all of it as long as the pages
granted so far do not fall into too many extents. -/
theorem allocLoop_room (page : PageSize) (needed : Nat) (grants : Grants) (table : Table)
    (count : Nat) (size : Int) (sorted : Sorted page table count) (positive : 0 < count)
    (room : count ≤ page.maxExtents)
    (aligned : ∀ offset ∈ grants, 0 ≤ offset ∧ (page.bytes : Int) ∣ offset)
    (distinct : (grants ++ tablePages page table count).Nodup)
    (success : 0 < (allocLoop page (size + page.bytes * needed) grants table count size).ret) :
    (∃ reached ≤ needed,
    (allocLoop page (size + page.bytes * needed) grants table count size).size =
        size + page.bytes * reached) ∧
      ((allocLoop page (size + page.bytes * needed) grants table count size).ret ≤ page.maxExtents ↔
        ∀ some ≤ needed, fragments page (grants.take some ++ tablePages page table count) ≤
          page.maxExtents) := by
  have width : (0 : Int) < page.bytes := by exact_mod_cast page.bytes_pos
  induction needed generalizing grants table count size with
  | zero =>
      rw [allocLoop_done page _ grants table count size (by simp)]
      refine ⟨⟨0, Nat.le_refl _, by simp⟩, ?_⟩
      have here := sorted.fragments
      constructor
      · intro _ some few
        rw [Nat.le_zero.mp few, List.take_zero, List.nil_append, here]
        exact room
      · intro all
        have start := all 0 (Nat.le_refl _)
        rw [List.take_zero, List.nil_append, here] at start
        exact Int.ofNat_le.mpr start
  | succ needed ih =>
      have total : size + (page.bytes : Int) * ((needed + 1 : Nat) : Int) =
          size + page.bytes + page.bytes * needed := by
        push_cast
        rw [Int.mul_add, Int.mul_one]
        omega
      have more : size < size + (page.bytes : Int) * ((needed + 1 : Nat) : Int) := by
        have := Int.mul_nonneg (Int.le_of_lt width) (Int.natCast_nonneg needed)
        omega
      cases grants with
      | nil =>
          rw [allocLoop, if_pos ⟨more, room⟩] at success
          cases success
      | cons offset rest =>
          rw [allocLoop, if_pos ⟨more, room⟩] at success ⊢
          by_cases refused : offset = 0
          · rw [if_pos refused] at success
            cases success
          · rw [if_neg refused] at success ⊢
            dsimp only at success ⊢
            obtain ⟨nonneg, offsetAligned⟩ := aligned offset List.mem_cons_self
            have fresh : offset ∉ tablePages page table count := fun member =>
              (List.nodup_cons.mp distinct).1 (List.mem_append_right rest member)
            have entered := enterPage_entered sorted positive room offsetAligned (by omega)
              (fun covered => fresh ((sorted.covers_iff offsetAligned).mp covered))
            by_cases full : (enterPage page table count offset).2 = page.maxExtents + 1
            · refine ⟨⟨1, Nat.succ_le_succ (Nat.zero_le _), ?_⟩, allocLoop_crowded needed rest _ _
                sorted positive room offsetAligned fresh entered full⟩
              rw [full, allocLoop_full]
              simp
            · have middle := entered.room full
              rw [total] at success ⊢
              obtain ⟨⟨reached, few, sized⟩, fits⟩ := ih rest _ _ (size + page.bytes)
                (entered.sorted_room middle) entered.positive middle
                (fun other member => aligned other (List.mem_cons_of_mem offset member))
                (entered.nodup sorted offsetAligned distinct) success
              refine ⟨⟨reached + 1, Nat.succ_le_succ few, ?_⟩,
                fits.trans (entered.fits_iff rest needed sorted room offsetAligned fresh)⟩
              rw [sized]
              push_cast
              rw [Int.mul_add, Int.mul_one]
              omega

/-- `alloc_swap` does not obtain more than it was asked for, and it has room for all of it as long
as the pages it has do not fall into too many extents. -/
theorem allocSwap_room (page : PageSize) {needed : Nat} (some : 0 < needed) (grants : Grants)
    (table : Table) (count : Nat) (sorted : Sorted page table count)
    (room : count ≤ page.maxExtents)
    (aligned : ∀ offset ∈ grants, 0 ≤ offset ∧ (page.bytes : Int) ∣ offset)
    (distinct : (grants ++ tablePages page table count).Nodup)
    (success : 0 < (allocSwap page grants table count (page.bytes * needed)).ret) :
    (∃ reached ≤ needed,
        (allocSwap page grants table count (page.bytes * needed)).size = page.bytes * reached) ∧
      ((allocSwap page grants table count (page.bytes * needed)).ret ≤ page.maxExtents ↔
        ∀ some ≤ needed, fragments page (grants.take some ++ tablePages page table count) ≤
          page.maxExtents) := by
  unfold allocSwap at success ⊢
  by_cases initial : count = 0
  · rw [if_pos initial] at success ⊢
    subst initial
    cases grants with
    | nil => cases success
    | cons offset rest =>
        dsimp only [getSwapPage] at success ⊢
        by_cases refused : offset = 0
        · rw [if_pos refused] at success
          cases success
        · rw [if_neg refused] at success ⊢
          obtain ⟨needed, rfl⟩ := Nat.exists_eq_add_one.mpr some
          have offsetAligned := (aligned offset List.mem_cons_self).2
          have pages : tablePages page
              (Function.update table 0 ⟨offset, offset + page.bytes⟩) 1 = [offset] := by
            rw [tablePages_succ, tablePages_zero, List.nil_append, Function.update_self,
              Extent.pages_single]
          have distinctRest : (rest ++ [offset]).Nodup := by
            rw [tablePages_zero, List.append_nil] at distinct
            exact (List.perm_append_singleton offset rest).nodup_iff.mpr distinct
          have positive := page.maxExtents_pos
          have total : (page.bytes : Int) * ((needed + 1 : Nat) : Int) =
              page.bytes + page.bytes * needed := by
            push_cast
            rw [Int.mul_add, Int.mul_one, Int.add_comm]
          rw [total] at success ⊢
          obtain ⟨⟨reached, few, sized⟩, fits⟩ := allocLoop_room page needed rest _ 1 page.bytes
            (Sorted.single offsetAligned) Nat.one_pos positive
            (fun other member => aligned other (List.mem_cons_of_mem offset member))
            (by rwa [pages]) success
          refine ⟨⟨reached + 1, Nat.succ_le_succ few, ?_⟩, fits.trans ?_⟩
          · rw [sized]
            push_cast
            rw [Int.mul_add, Int.mul_one, Int.add_comm]
          · have moved (some : Nat) : fragments page ((offset :: rest).take (some + 1) ++
                tablePages page table 0) = fragments page (rest.take some ++
                  tablePages page (Function.update table 0 ⟨offset, offset + page.bytes⟩) 1) := by
              apply fragments_perm
              rw [pages, tablePages_zero, List.append_nil, List.take_succ_cons]
              exact (List.perm_append_singleton offset _).symm
            constructor
            · intro all some within
              cases some with
              | zero => exact Nat.zero_le _
              | succ some =>
                  rw [moved]
                  exact all some (Nat.le_of_succ_le_succ within)
            · intro all some within
              rw [← moved]
              exact all (some + 1) (Nat.succ_le_succ within)
  · rw [if_neg initial] at success ⊢
    have loop := allocLoop_room page needed grants table count 0 sorted (by omega) room aligned
      distinct
    rw [Int.zero_add] at loop
    obtain ⟨⟨reached, few, sized⟩, fits⟩ := loop success
    exact ⟨⟨reached, few, by rw [sized, Int.zero_add]⟩, fits⟩

end Loop

end Suspend
