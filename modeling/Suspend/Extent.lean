import Mathlib.Algebra.Order.Ring.Int
import Mathlib.Data.List.Perm.Basic
import Mathlib.Logic.Function.Basic

set_option autoImplicit false

namespace Suspend

/-- What `getpagesize()` may return: a power of two with room for at least two extents, small
enough for `buffer_size` and `compress_buf_size` to fit in an unsigned int. -/
structure PageSize where
  shift : Nat
  large : 5 ≤ shift
  small : shift ≤ 26

namespace PageSize

def bytes (page : PageSize) : Nat := 2 ^ page.shift

theorem bytes_pos (page : PageSize) : 0 < page.bytes := Nat.two_pow_pos _

theorem bytes_large (page : PageSize) : 32 ≤ page.bytes :=
  show 2 ^ 5 ≤ 2 ^ page.shift from Nat.pow_le_pow_right (by decide) page.large

theorem bytes_small (page : PageSize) : page.bytes ≤ 67108864 :=
  show 2 ^ page.shift ≤ 2 ^ 26 from Nat.pow_le_pow_right (by decide) page.small

/-- `page_size / sizeof(struct extent) - 1`: the last slot of a table is kept apart. -/
def maxExtents (page : PageSize) : Nat := page.bytes / 16 - 1

theorem maxExtents_pos (page : PageSize) : 0 < page.maxExtents := by
  have large := page.bytes_large
  unfold maxExtents
  omega

/-- The smallest page size that is admitted. -/
def thirtyTwoBytes : PageSize := ⟨5, by decide, by decide⟩

/-- The usual page size. -/
def fourKilobytes : PageSize := ⟨12, by decide, by decide⟩

end PageSize

/-- `struct extent`: the bytes from `start` up to but not including `stop`, the field the
source calls `end`. Both are `loff_t`. -/
structure Extent where
  start : Int
  stop : Int
deriving DecidableEq, Repr

def Extent.zero : Extent := ⟨0, 0⟩

/-- A page buffer seen as `struct extent *`. -/
abbrev Table := Nat → Extent

/-- `memset(handle->extents, 0, page_size)`. -/
def Table.zero : Table := fun _ => Extent.zero

namespace Extent

variable (page : PageSize)

/-- The swap pages of one extent, in the order in which they are taken out of it. -/
def pages (extent : Extent) : List Int :=
  (List.range ((extent.stop - extent.start) / page.bytes).toNat).map
    fun index : Nat => extent.start + page.bytes * (index : Int)

/-- An extent made of whole pages, at least one of them. -/
structure Whole (extent : Extent) : Prop where
  nonempty : extent.start < extent.stop
  startAligned : (page.bytes : Int) ∣ extent.start
  stopAligned : (page.bytes : Int) ∣ extent.stop

/-- Two distinct page offsets are at least one page apart. -/
theorem page_apart {left right : Int} (leftAligned : (page.bytes : Int) ∣ left)
    (rightAligned : (page.bytes : Int) ∣ right) (ordered : left < right) :
    left + page.bytes ≤ right := by
  have step := Int.le_of_dvd (show 0 < right - left by omega)
    (Int.dvd_sub rightAligned leftAligned)
  omega

theorem single_whole {offset : Int} (aligned : (page.bytes : Int) ∣ offset) :
    Whole page ⟨offset, offset + page.bytes⟩ := by
  refine ⟨?_, aligned, Int.dvd_add aligned (Int.dvd_refl _)⟩
  have positive := page.bytes_pos
  dsimp
  omega

@[simp] theorem zero_pages : pages page Extent.zero = [] := by
  simp [pages, Extent.zero]

theorem mem_pages {extent : Extent} (whole : Whole page extent) (offset : Int) :
    offset ∈ pages page extent ↔
      extent.start ≤ offset ∧ offset < extent.stop ∧ (page.bytes : Int) ∣ offset := by
  have positive : (0 : Int) < page.bytes := by exact_mod_cast page.bytes_pos
  obtain ⟨first, hfirst⟩ := whole.startAligned
  obtain ⟨last, hlast⟩ := whole.stopAligned
  have width : (extent.stop - extent.start) / page.bytes = last - first := by
    rw [hfirst, hlast, ← Int.mul_sub, Int.mul_ediv_cancel_left _ (by omega)]
  have ordered : first < last := by
    have nonempty := whole.nonempty
    rw [hfirst, hlast] at nonempty
    exact lt_of_mul_lt_mul_left nonempty (by omega)
  simp only [pages, width, List.mem_map, List.mem_range]
  constructor
  · rintro ⟨index, below, rfl⟩
    have inside : first + index < last := by omega
    rw [hfirst, hlast, ← Int.mul_add]
    refine ⟨Int.mul_le_mul_of_nonneg_left (by omega) (by omega),
      Int.mul_lt_mul_of_pos_left inside positive, dvd_mul_right _ _⟩
  · rintro ⟨lower, upper, position, rfl⟩
    rw [hfirst] at lower
    rw [hlast] at upper
    have above : first ≤ position := le_of_mul_le_mul_left lower positive
    have below : position < last := lt_of_mul_lt_mul_left upper (by omega)
    refine ⟨(position - first).toNat, by omega, ?_⟩
    rw [hfirst, Int.toNat_of_nonneg (by omega), ← Int.mul_add]
    congr 1
    omega

theorem pages_pairwise (extent : Extent) : (pages page extent).Pairwise (· < ·) := by
  have positive : (0 : Int) < page.bytes := by exact_mod_cast page.bytes_pos
  refine List.pairwise_map.mpr (List.pairwise_lt_range.imp ?_)
  intro left right ordered
  have step : (page.bytes : Int) * left < page.bytes * right :=
    Int.mul_lt_mul_of_pos_left (by omega) positive
  omega

theorem pages_single {offset : Int} : pages page ⟨offset, offset + page.bytes⟩ = [offset] := by
  have positive : (page.bytes : Int) ≠ 0 := by
    have := page.bytes_pos
    omega
  simp [pages, Int.ediv_self positive]

end Extent

/-- The swap pages of the first `count` extents of a table, in table order. -/
def tablePages (page : PageSize) (table : Table) (count : Nat) : List Int :=
  (List.range count).flatMap fun index => (table index).pages page

@[simp] theorem tablePages_zero (page : PageSize) (table : Table) :
    tablePages page table 0 = [] := rfl

theorem tablePages_succ (page : PageSize) (table : Table) (count : Nat) :
    tablePages page table (count + 1) =
      tablePages page table count ++ (table count).pages page := by
  simp [tablePages, List.range_succ]

theorem mem_tablePages {page : PageSize} {table : Table} {count : Nat} {offset : Int} :
    offset ∈ tablePages page table count ↔
      ∃ index < count, offset ∈ (table index).pages page := by
  simp [tablePages]

theorem tablePages_congr {page : PageSize} {left right : Table} {count : Nat}
    (same : ∀ index < count, left index = right index) :
    tablePages page left count = tablePages page right count := by
  unfold tablePages
  apply List.flatMap_congr
  intro index member
  rw [same index (List.mem_range.mp member)]

/-- The invariant of a table in use: whole extents in increasing order, no two of them
adjacent. -/
structure Sorted (page : PageSize) (table : Table) (count : Nat) : Prop where
  whole : ∀ index < count, (table index).Whole page
  gaps : ∀ left right, left < right → right < count → (table left).stop < (table right).start

namespace Sorted

variable {page : PageSize} {table : Table} {count : Nat}

theorem congr {other : Table} (sorted : Sorted page table count)
    (same : ∀ index < count, other index = table index) : Sorted page other count := by
  refine ⟨?_, ?_⟩
  · intro index inside
    rw [same index inside]
    exact sorted.whole index inside
  · intro left right ordered inside
    rw [same left (by omega), same right inside]
    exact sorted.gaps left right ordered inside

theorem mono {fewer : Nat} (sorted : Sorted page table count) (below : fewer ≤ count) :
    Sorted page table fewer :=
  ⟨fun index inside => sorted.whole index (by omega),
    fun left right ordered inside => sorted.gaps left right ordered (by omega)⟩

theorem mem_pages (sorted : Sorted page table count) (offset : Int) :
    offset ∈ tablePages page table count ↔ (page.bytes : Int) ∣ offset ∧
      ∃ index < count, (table index).start ≤ offset ∧ offset < (table index).stop := by
  rw [mem_tablePages]
  constructor
  · rintro ⟨index, inside, member⟩
    have bounds := (Extent.mem_pages page (sorted.whole index inside) offset).mp member
    exact ⟨bounds.2.2, index, inside, bounds.1, bounds.2.1⟩
  · rintro ⟨aligned, index, inside, lower, upper⟩
    exact ⟨index, inside,
      (Extent.mem_pages page (sorted.whole index inside) offset).mpr ⟨lower, upper, aligned⟩⟩

/-- Pages are taken in strictly increasing order, so none is taken twice. -/
theorem pages_pairwise (sorted : Sorted page table count) :
    (tablePages page table count).Pairwise (· < ·) := by
  induction count with
  | zero => exact List.Pairwise.nil
  | succ count ih =>
      rw [tablePages_succ, List.pairwise_append]
      refine ⟨ih (sorted.mono (by omega)), Extent.pages_pairwise page _, ?_⟩
      intro left inLeft right inRight
      obtain ⟨index, inside, member⟩ := mem_tablePages.mp inLeft
      have lower := (Extent.mem_pages page (sorted.whole index (by omega)) left).mp member
      have upper := (Extent.mem_pages page (sorted.whole count (by omega)) right).mp inRight
      have gap := sorted.gaps index count inside (by omega)
      omega

theorem pages_nodup (sorted : Sorted page table count) :
    (tablePages page table count).Nodup :=
  sorted.pages_pairwise.imp fun ordered => by omega

end Sorted

end Suspend
