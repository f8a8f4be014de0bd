import Suspend.Fragments

set_option autoImplicit false

/- What `alloc_swap` leaves in all slots of a table, also in those behind the extents in use: a
merge pulls the later extents forward and leaves a copy of the last one where it was. -/
namespace Suspend

open Foundation.Cells

variable {page : PageSize} {table : Table} {count : Nat} {offset : Int} {reserved : List Int}

/-- The slot is empty or holds whole pages, and none of the reserved ones. -/
structure Spared (page : PageSize) (reserved : List Int) (extent : Extent) : Prop where
  whole : extent = Extent.zero ∨ extent.Whole page
  apart : ∀ offset ∈ reserved, ¬ (extent.start ≤ offset ∧ offset < extent.stop)

theorem Spared.mono {fewer : List Int} {extent : Extent} (spared : Spared page reserved extent)
    (subset : fewer ⊆ reserved) : Spared page fewer extent :=
  ⟨spared.whole, fun offset member => spared.apart offset (subset member)⟩

theorem Spared.zero (page : PageSize) (reserved : List Int) :
    Spared page reserved Extent.zero := by
  refine ⟨Or.inl rfl, fun offset _ inside => ?_⟩
  have empty : Extent.zero.start = Extent.zero.stop := rfl
  omega

/-- An extent that is made of the page at `offset` and of what two slots held. -/
theorem Spared.joined {first second extent : Extent}
    (aligned : ∀ other ∈ offset :: reserved, (page.bytes : Int) ∣ other)
    (fresh : offset ∉ reserved) (whole : extent.Whole page)
    (one : Spared page (offset :: reserved) first) (two : Spared page (offset :: reserved) second)
    (cover : ∀ other, extent.start ≤ other → other < extent.stop →
      (offset ≤ other ∧ other < offset + page.bytes) ∨
        (first.start ≤ other ∧ other < first.stop) ∨ second.start ≤ other ∧ other < second.stop) :
    Spared page reserved extent := by
  refine ⟨Or.inr whole, fun other member inside => ?_⟩
  rcases cover other inside.1 inside.2 with here | left | right
  · have same := Covers.of_single (aligned offset List.mem_cons_self)
      (aligned other (List.mem_cons_of_mem _ member)) here.1 here.2
    exact fresh (same ▸ member)
  · exact one.apart other (List.mem_cons_of_mem _ member) left
  · exact two.apart other (List.mem_cons_of_mem _ member) right

/-- What a move leaves in a cell was in some cell before. -/
theorem memmove_from {α : Type} (cells : Nat → α) (dst src moved index : Nat) :
    ∃ origin, memmove cells dst src moved index = cells origin := by
  unfold memmove
  split
  · exact ⟨_, rfl⟩
  · exact ⟨_, rfl⟩

section Entering

variable (aligned : ∀ other ∈ offset :: reserved, (page.bytes : Int) ∣ other)
  (fresh : offset ∉ reserved) (spared : ∀ index, Spared page (offset :: reserved) (table index))
include aligned fresh spared

theorem insertExtent_spared (index slot : Nat) :
    Spared page reserved ((insertExtent page table count index offset).1 slot) := by
  have kept (other : Nat) : Spared page reserved (table other) :=
    (spared other).mono (List.subset_cons_self _ _)
  have placed : Spared page reserved ⟨offset, offset + page.bytes⟩ :=
    Spared.joined aligned fresh (Extent.single_whole page (aligned offset List.mem_cons_self))
      (spared 0) (spared 0) fun other lower upper => Or.inl ⟨lower, upper⟩
  have updated (cells : Table) (origin : ∀ other, ∃ from', cells other = table from')
      (place : Nat) : Spared page reserved
        (Function.update cells place ⟨offset, offset + page.bytes⟩ slot) := by
    by_cases same : slot = place
    · rw [same, Function.update_self]
      exact placed
    · rw [Function.update_of_ne same]
      obtain ⟨source, found⟩ := origin slot
      rw [found]
      exact kept source
  unfold insertExtent
  dsimp only
  split
  · exact updated _ (memmove_from table _ _ _) _
  · exact updated _ (fun other => ⟨other, rfl⟩) _

variable (sorted : Sorted page table count)
include sorted

theorem extendBefore_spared {index : Nat} (inside : index < count)
    (found : offset = (table index).start - page.bytes) (slot : Nat) :
    Spared page reserved ((extendBefore table count index offset).1 slot) := by
  have width : (0 : Int) < page.bytes := by exact_mod_cast page.bytes_pos
  have old := sorted.whole index inside
  have nonempty := old.nonempty
  have kept (other : Nat) : Spared page reserved (table other) :=
    (spared other).mono (List.subset_cons_self _ _)
  have grown (other : Nat) : Spared page reserved
      (Function.update table index { table index with start := offset } other) := by
    by_cases same : other = index
    · rw [same, Function.update_self]
      have whole : Extent.Whole page ⟨offset, (table index).stop⟩ :=
        ⟨show offset < (table index).stop by omega, aligned offset List.mem_cons_self,
          old.stopAligned⟩
      apply Spared.joined aligned fresh whole (spared index) (spared index)
      intro other lower upper
      dsimp only at lower upper
      omega
    · rw [Function.update_of_ne same]
      exact kept other
  unfold extendBefore
  dsimp only
  split
  · next merges =>
      obtain ⟨origin, moved⟩ := memmove_from (Function.update
        (Function.update table index { table index with start := offset }) (index - 1)
        { Function.update table index { table index with start := offset } (index - 1) with
          stop := (Function.update table index { table index with start := offset } index).stop })
        index (index + 1) (count - index - 1) slot
      dsimp only
      rw [moved]
      by_cases same : origin = index - 1
      · have other : index - 1 ≠ index := by omega
        have before := sorted.whole (index - 1) (by omega)
        rw [Function.update_of_ne other] at merges
        rw [same, Function.update_self, Function.update_of_ne other, Function.update_self]
        have less := before.nonempty
        have meets := merges.2
        have whole : Extent.Whole page ⟨(table (index - 1)).start, (table index).stop⟩ :=
          ⟨show (table (index - 1)).start < (table index).stop by omega, before.startAligned,
            old.stopAligned⟩
        apply Spared.joined aligned fresh whole (spared (index - 1)) (spared index)
        intro other lower upper
        dsimp only at lower upper
        omega
      · rw [Function.update_of_ne same]
        exact grown origin
  · exact grown slot

theorem extendAfter_spared {index : Nat} (inside : index < count)
    (found : offset = (table index).stop) (slot : Nat) :
    Spared page reserved ((extendAfter page table count index).1 slot) := by
  have width : (0 : Int) < page.bytes := by exact_mod_cast page.bytes_pos
  have old := sorted.whole index inside
  have nonempty := old.nonempty
  have kept (other : Nat) : Spared page reserved (table other) :=
    (spared other).mono (List.subset_cons_self _ _)
  have grown (other : Nat) : Spared page reserved (Function.update table index
      { table index with stop := (table index).stop + page.bytes } other) := by
    by_cases same : other = index
    · rw [same, Function.update_self]
      have whole : Extent.Whole page ⟨(table index).start, (table index).stop + page.bytes⟩ :=
        ⟨show (table index).start < (table index).stop + page.bytes by omega, old.startAligned,
          Int.dvd_add old.stopAligned (Int.dvd_refl _)⟩
      apply Spared.joined aligned fresh whole (spared index) (spared index)
      intro other lower upper
      dsimp only at lower upper
      omega
    · rw [Function.update_of_ne same]
      exact kept other
  unfold extendAfter
  dsimp only
  split
  · next merges =>
      obtain ⟨origin, moved⟩ := memmove_from (Function.update (Function.update table index
          { table index with stop := (table index).stop + page.bytes }) index
        { Function.update table index
            { table index with stop := (table index).stop + page.bytes } index with
          stop := (Function.update table index
            { table index with stop := (table index).stop + page.bytes } (index + 1)).stop })
        (index + 1) (index + 2) (count - index - 2) slot
      dsimp only
      rw [moved]
      by_cases same : origin = index
      · have other : index + 1 ≠ index := by omega
        have behind := sorted.whole (index + 1) merges.1
        have meets := merges.2
        rw [Function.update_of_ne other, Function.update_self] at meets
        rw [same, Function.update_self, Function.update_of_ne other, Function.update_self]
        have more := behind.nonempty
        dsimp only at meets
        have whole : Extent.Whole page ⟨(table index).start, (table (index + 1)).stop⟩ :=
          ⟨show (table index).start < (table (index + 1)).stop by omega, old.startAligned,
            behind.stopAligned⟩
        apply Spared.joined aligned fresh whole (spared index) (spared (index + 1))
        intro other lower upper
        dsimp only at lower upper
        omega
      · rw [Function.update_of_ne same]
        exact grown origin
  · exact grown slot

/-- Whatever way the page is entered, all slots keep away from the pages that are still reserved. -/
theorem enterPage_spared (positive : 0 < count) (granted : 0 < offset)
    (outside : ¬ Covers table count offset) (slot : Nat) :
    Spared page reserved ((enterPage page table count offset).1 slot) := by
  have found := findSlot_spec sorted (aligned offset List.mem_cons_self)
    (fun index inside within => outside ⟨index, inside, within⟩) 0 (count - 1) (by omega) (by omega)
    (Or.inl rfl) (Or.inl rfl)
  unfold enterPage
  cases search : findSlot page table offset 0 (count - 1) with
  | before index =>
      rw [search] at found
      exact extendBefore_spared aligned fresh spared sorted found.1 found.2 slot
  | after index =>
      rw [search] at found
      exact extendAfter_spared aligned fresh spared sorted found.1 found.2 slot
  | fresh index =>
      dsimp only
      rw [if_pos granted]
      exact insertExtent_spared aligned fresh spared index slot

end Entering

/-- What the allocation loop leaves in all slots keeps away from the pages that are still to be
granted and from the reserved ones. -/
theorem allocLoop_spared (wanted : Int) (grants : Grants) (size : Int)
    (sorted : Sorted page table count) (positive : 0 < count) (room : count ≤ page.maxExtents)
    (aligned : ∀ offset ∈ grants ++ reserved, 0 ≤ offset ∧ (page.bytes : Int) ∣ offset)
    (distinct : (grants ++ reserved).Nodup)
    (spared : ∀ index, Spared page (grants ++ reserved) (table index)) (slot : Nat) :
    Spared page ((allocLoop page wanted grants table count size).grants ++ reserved)
      ((allocLoop page wanted grants table count size).table slot) := by
  induction grants generalizing table count size with
  | nil =>
      rw [allocLoop]
      split
      · exact spared slot
      · exact spared slot
  | cons offset rest ih =>
      rw [List.cons_append] at aligned distinct spared
      have shorter (index : Nat) : Spared page (rest ++ reserved) (table index) :=
        (spared index).mono (List.subset_cons_self _ _)
      rw [allocLoop]
      split
      · by_cases refused : offset = 0
        · rw [if_pos refused]
          exact shorter slot
        · rw [if_neg refused]
          dsimp only
          obtain ⟨nonneg, offsetAligned⟩ := aligned offset List.mem_cons_self
          obtain ⟨fresh, distinctRest⟩ := List.nodup_cons.mp distinct
          have outside : ¬ Covers table count offset := by
            rintro ⟨index, _, within⟩
            exact (spared index).apart offset List.mem_cons_self within
          have entered := enterPage_entered sorted positive room offsetAligned (by omega) outside
          have after := enterPage_spared (fun other member => (aligned other member).2) fresh spared
            sorted positive (by omega) outside
          by_cases full : (enterPage page table count offset).2 = page.maxExtents + 1
          · rw [full, allocLoop_full]
            exact after slot
          · have below : (enterPage page table count offset).2 ≤ page.maxExtents := by
              have bounded := entered.bounded
              omega
            have afterSorted := entered.sorted
            rw [Nat.min_eq_left below] at afterSorted
            exact ih (size + page.bytes) afterSorted entered.positive below
              (fun other member => aligned other (List.mem_cons_of_mem offset member)) distinctRest
              after
      · exact spared slot

theorem allocSwap_spared (wanted : Int) (grants : Grants) (sorted : Sorted page table count)
    (room : count ≤ page.maxExtents)
    (aligned : ∀ offset ∈ grants ++ reserved, 0 ≤ offset ∧ (page.bytes : Int) ∣ offset)
    (distinct : (grants ++ reserved).Nodup)
    (spared : ∀ index, Spared page (grants ++ reserved) (table index)) (slot : Nat) :
    Spared page ((allocSwap page grants table count wanted).grants ++ reserved)
      ((allocSwap page grants table count wanted).table slot) := by
  unfold allocSwap
  by_cases initial : count = 0
  · rw [if_pos initial]
    cases grants with
    | nil => exact spared slot
    | cons offset rest =>
        rw [List.cons_append] at aligned distinct spared
        have shorter (index : Nat) : Spared page (rest ++ reserved) (table index) :=
          (spared index).mono (List.subset_cons_self _ _)
        dsimp only [getSwapPage]
        split
        · exact shorter slot
        · obtain ⟨_, offsetAligned⟩ := aligned offset List.mem_cons_self
          obtain ⟨fresh, distinctRest⟩ := List.nodup_cons.mp distinct
          apply allocLoop_spared wanted rest page.bytes (Sorted.single offsetAligned) Nat.one_pos
            page.maxExtents_pos (fun other member => aligned other (List.mem_cons_of_mem _ member))
            distinctRest
          intro index
          by_cases first : index = 0
          · rw [first, Function.update_self]
            exact Spared.joined (fun other member => (aligned other member).2) fresh
              (Extent.single_whole page offsetAligned) (spared 0) (spared 0)
              fun other lower upper => Or.inl ⟨lower, upper⟩
          · rw [Function.update_of_ne first]
            exact shorter index
  · rw [if_neg initial]
    exact allocLoop_spared wanted grants 0 sorted (Nat.pos_of_ne_zero initial) room aligned distinct
      spared slot

/-- The number of pages that make up at least this size. -/
def pagesFor (page : PageSize) (size : Int) : Nat :=
  ((size + page.bytes - 1) / page.bytes).toNat

/-- The loop compares the size with a number of pages only. -/
theorem lt_pagesFor (page : PageSize) (size : Int) (pages : Nat) :
    (page.bytes : Int) * pages < size ↔
      (page.bytes : Int) * pages < page.bytes * (pagesFor page size : Nat) := by
  have width : (0 : Int) < page.bytes := by exact_mod_cast page.bytes_pos
  have covered : ((pages : Int) + 1 ≤ (size + page.bytes - 1) / page.bytes) ↔
      ((pages : Int) + 1) * page.bytes ≤ size + page.bytes - 1 := Int.le_ediv_iff_mul_le width
  rw [Int.add_mul, Int.one_mul, Int.mul_comm] at covered
  rw [Int.mul_lt_mul_left width, pagesFor]
  omega

/-- How far the loop goes does not depend on anything else of what is wanted. -/
theorem allocLoop_pages {wanted other : Int} (grants : Grants) (table : Table) (count : Nat)
    (size : Int) (same : ∀ pages : Nat, size + page.bytes * pages < wanted ↔
      size + page.bytes * pages < other) :
    (allocLoop page wanted grants table count size).ret =
        (allocLoop page other grants table count size).ret ∧
      (allocLoop page wanted grants table count size).table =
        (allocLoop page other grants table count size).table ∧
      (allocLoop page wanted grants table count size).grants =
        (allocLoop page other grants table count size).grants := by
  have here : size < wanted ↔ size < other := by simpa using same 0
  induction grants generalizing table count size with
  | nil =>
      simp only [allocLoop, here]
      split
      · exact ⟨rfl, rfl, rfl⟩
      · exact ⟨rfl, rfl, rfl⟩
  | cons offset rest ih =>
      simp only [allocLoop, here]
      split
      · split
        · exact ⟨rfl, rfl, rfl⟩
        · have next (pages : Nat) : size + page.bytes + page.bytes * pages < wanted ↔
              size + page.bytes + page.bytes * pages < other := by
            have later := same (pages + 1)
            push_cast at later
            rw [Int.mul_add, Int.mul_one] at later
            omega
          exact ih _ _ _ next (by simpa using next 0)
      · exact ⟨rfl, rfl, rfl⟩

theorem allocSwap_pages (page : PageSize) (wanted : Int) (grants : Grants) (table : Table)
    (count : Nat) :
    (allocSwap page grants table count wanted).ret =
        (allocSwap page grants table count (page.bytes * (pagesFor page wanted : Nat))).ret ∧
      (allocSwap page grants table count wanted).table =
        (allocSwap page grants table count (page.bytes * (pagesFor page wanted : Nat))).table ∧
      (allocSwap page grants table count wanted).grants =
        (allocSwap page grants table count (page.bytes * (pagesFor page wanted : Nat))).grants := by
  unfold allocSwap
  split
  · cases grants with
    | nil => exact ⟨rfl, rfl, rfl⟩
    | cons offset rest =>
        dsimp only [getSwapPage]
        split
        · exact ⟨rfl, rfl, rfl⟩
        · apply allocLoop_pages
          intro pages
          have later := lt_pagesFor page wanted (pages + 1)
          push_cast at later ⊢
          rw [Int.mul_add, Int.mul_one, Int.add_comm] at later
          exact later
  · apply allocLoop_pages
    intro pages
    rw [Int.zero_add]
    exact lt_pagesFor page wanted pages

/-- `alloc_swap` leaves the last slot empty if and only if the pages that it asks for, with those
that it has, never fall into more extents than the table has room for. -/
theorem allocSwap_slot {wanted : Int} (positive : 0 < wanted) (grants : Grants)
    (sorted : Sorted page table count) (room : count ≤ page.maxExtents)
    (empty : table page.maxExtents = Extent.zero)
    (aligned : ∀ offset ∈ grants, 0 ≤ offset ∧ (page.bytes : Int) ∣ offset)
    (distinct : (grants ++ tablePages page table count).Nodup)
    (success : 0 < (allocSwap page grants table count wanted).ret) :
    (allocSwap page grants table count wanted).table page.maxExtents = Extent.zero ↔
      ∀ some ≤ pagesFor page wanted,
        fragments page (grants.take some ++ tablePages page table count) ≤ page.maxExtents := by
  obtain ⟨taken, total, allocated⟩ :=
    allocSwap_spec page grants table count wanted sorted room aligned distinct success
  have some : 0 < pagesFor page wanted := by
    have first := lt_pagesFor page wanted 0
    have width : (0 : Int) < page.bytes := by exact_mod_cast page.bytes_pos
    by_contra none
    rw [Nat.eq_zero_of_not_pos none] at first
    simp [positive] at first
  rw [(allocSwap_pages page wanted grants table count).1] at success
  rw [← (allocSwap_room page some grants table count sorted room aligned distinct success).2,
    ← (allocSwap_pages page wanted grants table count).1, allocated.ret, Int.ofNat_le]
  constructor
  · intro zero
    by_contra beyond
    have bounded := allocated.bounded
    obtain ⟨last, _, slot⟩ := allocated.overflow (by omega)
    have width : (0 : Int) < page.bytes := by exact_mod_cast page.bytes_pos
    rw [slot, Extent.zero, Extent.mk.injEq] at zero
    omega
  · intro few
    rw [allocated.spare few, empty]

end Suspend
