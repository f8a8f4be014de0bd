import Suspend.Extent

set_option autoImplicit false

namespace Suspend

variable {page : PageSize} {table : Table} {count index : Nat} {offset : Int}

/-- The pages of the table behind the current one, in table order. -/
def ahead (page : PageSize) (table : Table) (count index : Nat) (offset : Int) : List Int :=
  Extent.pages page ⟨offset + page.bytes, (table index).stop⟩ ++
    (List.range' (index + 1) (count - (index + 1))).flatMap fun later => (table later).pages page

/-- The position is inside the current extent, or one page before its start. -/
structure Positioned (page : PageSize) (table : Table) (count index : Nat) (offset : Int) :
    Prop where
  inside : index < count
  aligned : (page.bytes : Int) ∣ offset
  lower : (table index).start ≤ offset + page.bytes
  upper : offset + page.bytes ≤ (table index).stop

theorem Positioned.entry (sorted : Sorted page table count) (positive : 0 < count) :
    Positioned page table count 0 ((table 0).start - page.bytes) := by
  have whole := sorted.whole 0 positive
  have nonempty := whole.nonempty
  exact ⟨positive, Int.dvd_sub whole.startAligned (Int.dvd_refl _), by omega, by omega⟩

theorem ahead_entry (positive : 0 < count) :
    ahead page table count 0 ((table 0).start - page.bytes) = tablePages page table count := by
  obtain ⟨rest, rfl⟩ : ∃ rest, count = rest + 1 := ⟨count - 1, by omega⟩
  simp only [ahead, Int.sub_add_cancel, tablePages, Nat.zero_add, Nat.add_sub_cancel]
  rw [List.range_eq_range', List.range'_succ, List.flatMap_cons]

theorem Extent.pages_empty {first last : Int} (empty : last ≤ first) :
    Extent.pages page ⟨first, last⟩ = [] := by
  have positive : (0 : Int) < page.bytes := by exact_mod_cast page.bytes_pos
  have none : (last - first) / (page.bytes : Int) ≤ 0 :=
    Int.ediv_le_of_le_mul positive (by omega)
  simp [Extent.pages, none]

theorem Extent.pages_cons {first last : Int} (nonempty : first < last)
    (firstAligned : (page.bytes : Int) ∣ first) (lastAligned : (page.bytes : Int) ∣ last) :
    Extent.pages page ⟨first, last⟩ = first :: Extent.pages page ⟨first + page.bytes, last⟩ := by
  have positive : (0 : Int) < page.bytes := by exact_mod_cast page.bytes_pos
  obtain ⟨low, rfl⟩ := firstAligned
  obtain ⟨high, rfl⟩ := lastAligned
  have ordered : low < high := lt_of_mul_lt_mul_left nonempty (by omega)
  have width : ((page.bytes : Int) * high - page.bytes * low) / page.bytes = high - low := by
    rw [← Int.mul_sub, Int.mul_ediv_cancel_left _ (by omega)]
  have rest : ((page.bytes : Int) * high - (page.bytes * low + page.bytes)) / page.bytes =
      high - low - 1 := by
    rw [show (page.bytes : Int) * high - (page.bytes * low + page.bytes) =
      page.bytes * (high - low - 1) by rw [Int.mul_sub, Int.mul_sub]; omega,
      Int.mul_ediv_cancel_left _ (by omega)]
  simp only [Extent.pages, width, rest]
  rw [show (high - low).toNat = (high - low - 1).toNat + 1 by omega, List.range_succ_eq_map,
    List.map_cons, List.map_map]
  congr 1
  · simp
  · apply List.map_congr_left
    intro index _
    simp only [Function.comp_apply]
    push_cast
    rw [Int.mul_add]
    omega

theorem Positioned.ahead_same (sorted : Sorted page table count)
    (position : Positioned page table count index offset)
    (more : offset + page.bytes < (table index).stop) :
    ahead page table count index offset =
      (offset + page.bytes) :: ahead page table count index (offset + page.bytes) := by
  have aligned := Int.dvd_add position.aligned (Int.dvd_refl (page.bytes : Int))
  have stopAligned := (sorted.whole index position.inside).stopAligned
  simp only [ahead]
  rw [Extent.pages_cons more aligned stopAligned, List.cons_append]

theorem Positioned.same (sorted : Sorted page table count)
    (position : Positioned page table count index offset)
    (more : offset + page.bytes < (table index).stop) :
    Positioned page table count index (offset + page.bytes) := by
  have aligned := Int.dvd_add position.aligned (Int.dvd_refl (page.bytes : Int))
  have apart := Extent.page_apart page aligned
    (sorted.whole index position.inside).stopAligned more
  have lower := position.lower
  have positive := page.bytes_pos
  exact ⟨position.inside, aligned, by omega, apart⟩

theorem ahead_next (sorted : Sorted page table count)
    (last : (table index).stop ≤ offset + page.bytes) (more : index + 1 < count) :
    ahead page table count index offset = (table (index + 1)).start ::
      ahead page table count (index + 1) (table (index + 1)).start := by
  have whole := sorted.whole (index + 1) more
  simp only [ahead]
  rw [Extent.pages_empty last, List.nil_append,
    show count - (index + 1) = count - (index + 1 + 1) + 1 by omega, List.range'_succ,
    List.flatMap_cons]
  rw [show (table (index + 1)).pages page =
    Extent.pages page ⟨(table (index + 1)).start, (table (index + 1)).stop⟩ from rfl,
    Extent.pages_cons whole.nonempty whole.startAligned whole.stopAligned, List.cons_append]

theorem ahead_end (last : (table index).stop ≤ offset + page.bytes) (used : count ≤ index + 1) :
    ahead page table count index offset = [] := by
  simp only [ahead]
  rw [Extent.pages_empty last, show count - (index + 1) = 0 by omega]
  rfl

theorem Sorted.positioned (sorted : Sorted page table count) (inside : index < count) :
    Positioned page table count index (table index).start := by
  have whole := sorted.whole index inside
  have apart := Extent.page_apart page whole.startAligned whole.stopAligned whole.nonempty
  have positive := page.bytes_pos
  exact ⟨inside, whole.startAligned, by omega, apart⟩

theorem Sorted.first_page (sorted : Sorted page table count) (positive : 0 < count) :
    tablePages page table count =
      (table 0).start :: ahead page table count 0 (table 0).start := by
  have nonempty := (sorted.whole 0 positive).nonempty
  have entry := Positioned.entry sorted positive
  rw [← ahead_entry positive, entry.ahead_same sorted (by omega), Int.sub_add_cancel]

/-- One step of a position that has a page ahead: in the same extent, or on to the next. -/
theorem Positioned.step (sorted : Sorted page table count)
    (position : Positioned page table count index offset) {next : Int} {rest : List Int}
    (more : ahead page table count index offset = next :: rest) :
    (offset + page.bytes < (table index).stop ∧ next = offset + page.bytes ∧
        Positioned page table count index next ∧ ahead page table count index next = rest) ∨
      ((table index).stop ≤ offset + page.bytes ∧ index + 1 < count ∧
        next = (table (index + 1)).start ∧ Positioned page table count (index + 1) next ∧
        ahead page table count (index + 1) next = rest) := by
  by_cases same : offset + page.bytes < (table index).stop
  · rw [position.ahead_same sorted same, List.cons.injEq] at more
    obtain ⟨rfl, tail⟩ := more
    exact Or.inl ⟨same, rfl, position.same sorted same, tail⟩
  · have last : (table index).stop ≤ offset + page.bytes := by omega
    by_cases later : index + 1 < count
    · rw [ahead_next sorted last later, List.cons.injEq] at more
      obtain ⟨rfl, tail⟩ := more
      exact Or.inr ⟨last, later, rfl, sorted.positioned later, tail⟩
    · rw [ahead_end last (by omega)] at more
      cases more

theorem Positioned.exhausted (sorted : Sorted page table count)
    (position : Positioned page table count index offset)
    (none : ahead page table count index offset = []) :
    (table index).stop ≤ offset + page.bytes ∧ index + 1 = count := by
  by_cases same : offset + page.bytes < (table index).stop
  · rw [position.ahead_same sorted same] at none
    cases none
  · have last : (table index).stop ≤ offset + page.bytes := by omega
    by_cases later : index + 1 < count
    · rw [ahead_next sorted last later] at none
      cases none
    · have inside := position.inside
      exact ⟨last, by omega⟩

theorem Positioned.ahead_length (position : Positioned page table count index offset) :
    (ahead page table count index offset).length ≤ (tablePages page table count).length := by
  have width : (0 : Int) < page.bytes := by exact_mod_cast page.bytes_pos
  obtain ⟨later, rfl⟩ := Nat.exists_eq_add_of_le position.inside
  have here : (Extent.pages page ⟨offset + page.bytes, (table index).stop⟩).length ≤
      (Extent.pages page (table index)).length := by
    have shorter := Int.ediv_le_ediv width
      (Int.sub_le_sub_left position.lower (table index).stop)
    simp only [Extent.pages, List.length_map, List.length_range]
    omega
  have split : tablePages page table (index + 1 + later) = tablePages page table (index + 1) ++
      (List.range' (index + 1) later).flatMap fun next => (table next).pages page := by
    simp only [tablePages, List.range_eq_range']
    rw [← List.flatMap_append, ← List.range'_append_1, Nat.zero_add]
  rw [split, tablePages_succ, ahead, Nat.add_sub_cancel_left]
  simp only [List.length_append]
  omega

end Suspend
