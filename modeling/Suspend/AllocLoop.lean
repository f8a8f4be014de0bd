import Suspend.AllocSwap

set_option autoImplicit false

namespace Suspend

open Foundation.Cells

/-- A successful allocation that starts with `size` bytes counted: `taken` are the granted pages
and `total` extents are in use. -/
structure Allocated (page : PageSize) (grants : Grants) (table : Table) (count : Nat)
    (size wanted : Int) (taken : List Int) (total : Nat) (result : Allocation) : Prop where
  ret : result.ret = total
  answers : grants = taken ++ result.grants
  granted : ∀ offset ∈ taken, offset ≠ 0
  positive : 0 < total
  bounded : total ≤ page.maxExtents + 1
  sorted : Sorted page result.table (min total page.maxExtents)
  pages : (tablePages page result.table total).Perm (taken ++ tablePages page table count)
  spare : total ≤ page.maxExtents → result.table page.maxExtents = table page.maxExtents
  overflow : total = page.maxExtents + 1 → ∃ last, taken.getLast? = some last ∧
    result.table page.maxExtents = ⟨last, last + page.bytes⟩
  frame : ∀ index, page.maxExtents < index → result.table index = table index
  size : result.size = size + page.bytes * taken.length
  enough : total ≤ page.maxExtents → wanted ≤ result.size

theorem allocLoop_full (page : PageSize) (wanted : Int) (grants : Grants) (table : Table)
    (size : Int) :
    allocLoop page wanted grants table (page.maxExtents + 1) size =
      ⟨(page.maxExtents + 1 : Nat), table, size, grants⟩ := by
  have full : ¬ (size < wanted ∧ page.maxExtents + 1 ≤ page.maxExtents) := by omega
  cases grants <;> rw [allocLoop, if_neg full]

theorem allocLoop_done (page : PageSize) (wanted : Int) (grants : Grants) (table : Table)
    (count : Nat) (size : Int) (enough : wanted ≤ size) :
    allocLoop page wanted grants table count size = ⟨count, table, size, grants⟩ := by
  have done : ¬ (size < wanted ∧ count ≤ page.maxExtents) := by omega
  cases grants <;> rw [allocLoop, if_neg done]

theorem Allocated.done (page : PageSize) (grants : Grants) (table : Table) (count : Nat)
    (size wanted : Int) (sorted : Sorted page table count) (positive : 0 < count)
    (room : count ≤ page.maxExtents) (enough : wanted ≤ size) :
    Allocated page grants table count size wanted [] count ⟨count, table, size, grants⟩ := by
  refine ⟨rfl, rfl, by simp, positive, by omega, ?_, List.Perm.refl _, fun _ => rfl, by omega,
    fun _ _ => rfl, by simp, fun _ => enough⟩
  rwa [Nat.min_eq_left room]

theorem Allocated.cons {page : PageSize} {grants : Grants} {table after : Table}
    {count middle total : Nat} {size wanted offset : Int} {taken : List Int}
    {result : Allocation} (sorted : Sorted page table count)
    (aligned : (page.bytes : Int) ∣ offset) (nonzero : offset ≠ 0)
    (fresh : offset ∉ tablePages page table count)
    (entered : Entered page table count offset after middle) (room : middle ≤ page.maxExtents)
    (allocated : Allocated page grants after middle (size + page.bytes) wanted taken total
      result) :
    Allocated page (offset :: grants) table count size wanted (offset :: taken) total result := by
  refine ⟨allocated.ret, ?_, ?_, allocated.positive, allocated.bounded, allocated.sorted, ?_, ?_,
    ?_, ?_, ?_, allocated.enough⟩
  · rw [List.cons_append, ← allocated.answers]
  · exact List.forall_mem_cons.mpr ⟨nonzero, allocated.granted⟩
  · refine allocated.pages.trans ((List.Perm.append_left taken
      (entered.perm sorted aligned fresh)).trans ?_)
    exact List.perm_middle
  · intro below
    rw [allocated.spare below]
    exact entered.frame _ (Nat.le_refl _) room
  · intro full
    obtain ⟨last, isLast, slot⟩ := allocated.overflow full
    refine ⟨last, ?_, slot⟩
    cases taken with
    | nil => simp at isLast
    | cons next rest => rwa [List.getLast?_cons_cons]
  · intro index beyond
    rw [allocated.frame index beyond]
    exact entered.frame index (by omega) (by omega)
  · rw [allocated.size, List.length_cons]
    push_cast
    rw [Int.mul_add]
    omega

/-- The last page found the table full: the loop ends with it. -/
theorem Allocated.last {page : PageSize} {grants : Grants} {table after : Table}
    {count : Nat} {size wanted offset : Int} (sorted : Sorted page table count)
    (aligned : (page.bytes : Int) ∣ offset) (nonzero : offset ≠ 0)
    (fresh : offset ∉ tablePages page table count)
    (entered : Entered page table count offset after (page.maxExtents + 1)) :
    Allocated page (offset :: grants) table count size wanted [offset] (page.maxExtents + 1)
      ⟨(page.maxExtents + 1 : Nat), after, size + page.bytes, grants⟩ := by
  refine ⟨rfl, rfl, by simpa using nonzero, by omega, by omega, entered.sorted,
    entered.perm sorted aligned fresh, by omega, ?_, ?_, by simp, by omega⟩
  · intro _
    obtain ⟨_, placed⟩ := entered.overflow rfl
    exact ⟨offset, rfl, by dsimp only; rw [placed, Function.update_self]⟩
  · intro index beyond
    exact entered.frame index (by omega) (by omega)

theorem allocLoop_spec (page : PageSize) (wanted : Int) (grants : Grants) (table : Table)
    (count : Nat) (size : Int) (sorted : Sorted page table count) (positive : 0 < count)
    (room : count ≤ page.maxExtents)
    (aligned : ∀ offset ∈ grants, 0 ≤ offset ∧ (page.bytes : Int) ∣ offset)
    (distinct : (grants ++ tablePages page table count).Nodup)
    (success : 0 < (allocLoop page wanted grants table count size).ret) :
    ∃ taken total, Allocated page grants table count size wanted taken total
      (allocLoop page wanted grants table count size) := by
  induction grants generalizing table count size with
  | nil =>
      by_cases enough : wanted ≤ size
      · rw [allocLoop_done page wanted [] table count size enough]
        exact ⟨[], count, Allocated.done page [] table count size wanted sorted positive room
          enough⟩
      · rw [allocLoop, if_pos ⟨by omega, room⟩] at success
        simp [ENOSPC] at success
  | cons offset rest ih =>
      by_cases enough : wanted ≤ size
      · rw [allocLoop_done page wanted _ table count size enough]
        exact ⟨[], count, Allocated.done page _ table count size wanted sorted positive room
          enough⟩
      · rw [allocLoop, if_pos ⟨by omega, room⟩] at success ⊢
        by_cases refused : offset = 0
        · rw [if_pos refused] at success
          simp [ENOSPC] at success
        · rw [if_neg refused] at success ⊢
          dsimp only at success ⊢
          obtain ⟨nonneg, offsetAligned⟩ := aligned offset (by simp)
          have fresh : offset ∉ tablePages page table count := fun member =>
            (List.nodup_cons.mp distinct).1 (List.mem_append_right rest member)
          have entered := enterPage_entered sorted positive room offsetAligned (by omega)
            (fun covered => fresh ((sorted.covers_iff offsetAligned).mp covered))
          generalize hafter : (enterPage page table count offset).1 = after at *
          generalize hmiddle : (enterPage page table count offset).2 = middle at *
          by_cases full : middle = page.maxExtents + 1
          · subst full
            rw [allocLoop_full]
            exact ⟨[offset], _, Allocated.last sorted offsetAligned refused fresh entered⟩
          · have middleRoom := entered.room full
            obtain ⟨taken, total, allocated⟩ := ih after middle (size + page.bytes)
              (entered.sorted_room middleRoom) entered.positive middleRoom
              (fun other member => aligned other (by simp [member]))
              (entered.nodup sorted offsetAligned distinct) success
            exact ⟨offset :: taken, total, Allocated.cons sorted offsetAligned refused fresh
              entered middleRoom allocated⟩

theorem Sorted.single {page : PageSize} {table : Table} {offset : Int}
    (aligned : (page.bytes : Int) ∣ offset) :
    Sorted page (Function.update table 0 ⟨offset, offset + page.bytes⟩) 1 := by
  refine ⟨?_, by omega⟩
  intro index inside
  have first : index = 0 := by omega
  rw [first, Function.update_self]
  exact Extent.single_whole page aligned

theorem allocSwap_spec (page : PageSize) (grants : Grants) (table : Table) (count : Nat)
    (wanted : Int) (sorted : Sorted page table count) (room : count ≤ page.maxExtents)
    (aligned : ∀ offset ∈ grants, 0 ≤ offset ∧ (page.bytes : Int) ∣ offset)
    (distinct : (grants ++ tablePages page table count).Nodup)
    (success : 0 < (allocSwap page grants table count wanted).ret) :
    ∃ taken total, Allocated page grants table count 0 wanted taken total
      (allocSwap page grants table count wanted) := by
  unfold allocSwap at success ⊢
  by_cases initial : count = 0
  · rw [if_pos initial] at success ⊢
    subst initial
    cases grants with
    | nil => simp [getSwapPage, ENOSPC] at success
    | cons offset rest =>
        simp only [getSwapPage] at success ⊢
        by_cases refused : offset = 0
        · simp [refused, ENOSPC] at success
        · simp only [refused, ↓reduceIte] at success ⊢
          have offsetAligned := (aligned offset (by simp)).2
          have pages : tablePages page
              (Function.update table 0 ⟨offset, offset + page.bytes⟩) 1 = [offset] := by
            rw [tablePages_succ, tablePages_zero, List.nil_append, Function.update_self,
              Extent.pages_single]
          have distinctRest : (rest ++ [offset]).Nodup := by
            rw [tablePages_zero, List.append_nil] at distinct
            exact (List.perm_append_singleton offset rest).nodup_iff.mpr distinct
          have positive := page.maxExtents_pos
          obtain ⟨taken, total, allocated⟩ := allocLoop_spec page wanted rest _ 1 page.bytes
            (Sorted.single offsetAligned) (by omega) (by omega)
            (fun other member => aligned other (by simp [member])) (by rwa [pages]) success
          refine ⟨offset :: taken, total, allocated.ret, ?_, ?_, allocated.positive,
            allocated.bounded, allocated.sorted, ?_, ?_, ?_, ?_, ?_, allocated.enough⟩
          · rw [List.cons_append, ← allocated.answers]
          · exact List.forall_mem_cons.mpr ⟨refused, allocated.granted⟩
          · have perm := allocated.pages
            rw [pages] at perm
            simpa using perm.trans (List.perm_append_singleton offset taken)
          · intro below
            rw [allocated.spare below, Function.update_of_ne (by omega)]
          · intro full
            obtain ⟨last, isLast, slot⟩ := allocated.overflow full
            refine ⟨last, ?_, slot⟩
            cases taken with
            | nil => simp at isLast
            | cons next rest => rwa [List.getLast?_cons_cons]
          · intro index beyond
            rw [allocated.frame index beyond, Function.update_of_ne (by omega)]
          · rw [allocated.size, List.length_cons]
            push_cast
            rw [Int.mul_add]
            omega
  · rw [if_neg initial] at success ⊢
    exact allocLoop_spec page wanted grants table count 0 sorted (by omega) room aligned distinct
      success

/-- What a caller of `alloc_swap` relies on if it returns `total > 0`: the table keeps track of
the pages `taken`, those granted during the call, and of the pages it already had. -/
structure Tracks (page : PageSize) (table : Table) (count : Nat) (wanted : Int)
    (taken : List Int) (total : Nat) (result : Allocation) : Prop where
  total_le : total ≤ page.maxExtents + 1
  ordered : Sorted page result.table (min total page.maxExtents)
  holds : (tablePages page result.table total).Perm (taken ++ tablePages page table count)
  once : (tablePages page result.table total).Nodup
  behind : total = page.maxExtents + 1 → ∃ last, taken.getLast? = some last ∧
    result.table page.maxExtents = ⟨last, last + page.bytes⟩
  counted : result.size = page.bytes * taken.length
  satisfied : total = page.maxExtents + 1 ∨ wanted ≤ result.size
  untouched : ∀ index, page.maxExtents < index → result.table index = table index

/-- `alloc_swap` keeps a correct table, in whatever order the pages are granted. -/
theorem allocSwap_tracks (page : PageSize) (grants : Grants) (table : Table) (count : Nat)
    (wanted : Int) (sorted : Sorted page table count) (room : count ≤ page.maxExtents)
    (aligned : ∀ offset ∈ grants, 0 ≤ offset ∧ (page.bytes : Int) ∣ offset)
    (distinct : (grants ++ tablePages page table count).Nodup)
    (success : 0 < (allocSwap page grants table count wanted).ret) :
    let result := allocSwap page grants table count wanted
    ∃ taken total, grants = taken ++ result.grants ∧ (∀ offset ∈ taken, offset ≠ 0) ∧
      result.ret = (total : Nat) ∧ Tracks page table count wanted taken total result := by
  obtain ⟨taken, total, allocated⟩ :=
    allocSwap_spec page grants table count wanted sorted room aligned distinct success
  have bounded := allocated.bounded
  have counted := allocated.size
  rw [Int.zero_add] at counted
  have once : (taken ++ tablePages page table count).Nodup := by
    rw [allocated.answers, List.append_assoc] at distinct
    apply List.Nodup.sublist _ distinct
    exact List.Sublist.append_left (List.sublist_append_right _ _) _
  refine ⟨taken, total, allocated.answers, allocated.granted, allocated.ret, ?_⟩
  exact {
    total_le := bounded
    ordered := allocated.sorted
    holds := allocated.pages
    once := allocated.pages.nodup_iff.mpr once
    behind := allocated.overflow
    counted := counted
    satisfied := by
      by_cases fits : total ≤ page.maxExtents
      · exact Or.inr (allocated.enough fits)
      · exact Or.inl (by omega)
    untouched := allocated.frame }

/-- The third page granted lies between the extent of the table and the second one. -/
theorem allocSwap_tracks_merge :
    (allocSwap PageSize.fourKilobytes [20480, 12288, 8192]
      (Function.update Table.zero 0 ⟨4096, 8192⟩) 1 12288).ret = 2 ∧
    ∃ taken total, [20480, 12288, 8192] = taken ++ (allocSwap PageSize.fourKilobytes
        [20480, 12288, 8192] (Function.update Table.zero 0 ⟨4096, 8192⟩) 1 12288).grants ∧
      Tracks PageSize.fourKilobytes (Function.update Table.zero 0 ⟨4096, 8192⟩) 1 12288 taken
        total (allocSwap PageSize.fourKilobytes [20480, 12288, 8192]
          (Function.update Table.zero 0 ⟨4096, 8192⟩) 1 12288) := by
  have ret : (allocSwap PageSize.fourKilobytes [20480, 12288, 8192]
      (Function.update Table.zero 0 ⟨4096, 8192⟩) 1 12288).ret = 2 := by
    decide +kernel
  have sorted : Sorted PageSize.fourKilobytes (Function.update Table.zero 0 ⟨4096, 8192⟩) 1 :=
    @Sorted.single PageSize.fourKilobytes Table.zero 4096 (by decide)
  obtain ⟨taken, total, answers, _, _, tracks⟩ := allocSwap_tracks PageSize.fourKilobytes
    [20480, 12288, 8192] (Function.update Table.zero 0 ⟨4096, 8192⟩) 1 12288 sorted (by decide)
    (by decide) (by decide +kernel) (by rw [ret]; decide)
  exact ⟨ret, taken, total, answers, tracks⟩

end Suspend
