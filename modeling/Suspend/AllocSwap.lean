import Suspend.Extent
import Suspend.Foundation.Cells

set_option autoImplicit false

namespace Suspend

open Foundation.Cells

/-- The kernel's answers to the swap allocation ioctl, in order: offsets into the swap device.
`0` is a refusal, and so is running out of answers. -/
abbrev Grants := List Int

/-- `get_swap_page`. -/
def getSwapPage : Grants → Int × Grants
  | [] => (0, [])
  | offset :: rest => (offset, rest)

def ENOSPC : Int := 28
def EIO : Int := 5
def EINVAL : Int := 22

section Lookup

variable (page : PageSize) (table : Table)

/-- How the search loop of `alloc_swap` is left. -/
inductive Slot where
  /-- `offset == ext->start - page_size` at this index. -/
  | before (index : Nat)
  /-- `offset == ext->end` at this index. -/
  | after (index : Nat)
  /-- No match; this is the final value of `i`. -/
  | fresh (index : Nat)
deriving DecidableEq, Repr

/-- The do-while loop of `alloc_swap`, with `k = (i + j) / 2`. -/
def findSlot (offset : Int) (i j : Nat) : Slot :=
  let k := (i + j) / 2
  if offset = (table k).start - page.bytes then .before k
  else if offset = (table k).stop then .after k
  else if (table k).stop < offset then
    if i = k then
      if i < j then
        -- goto Repeat with k = j and i = j: the loop ends after this look whatever it finds
        if offset = (table j).start - page.bytes then .before j
        else if offset = (table j).stop then .after j
        else .fresh j
      else .fresh i
    else if k < j then findSlot offset k j
    else .fresh k
  else if i < k then findSlot offset i k
  else .fresh i
termination_by j - i

/-- `ext->start = offset`, and the merge with the extent before it. -/
def extendBefore (count index : Nat) (offset : Int) : Table × Nat :=
  let grown := Function.update table index { table index with start := offset }
  if 0 < index ∧ (grown (index - 1)).stop = offset then
    let merged := Function.update grown (index - 1)
      { grown (index - 1) with stop := (grown index).stop }
    (memmove merged index (index + 1) (count - index - 1), count - 1)
  else (grown, count)

/-- `ext->end += page_size`, and the merge with the extent after it. -/
def extendAfter (count index : Nat) : Table × Nat :=
  let grown := Function.update table index
    { table index with stop := (table index).stop + page.bytes }
  if index + 1 < count ∧ (grown index).stop = (grown (index + 1)).start then
    let merged := Function.update grown index
      { grown index with stop := (grown (index + 1)).stop }
    (memmove merged (index + 1) (index + 2) (count - index - 2), count - 1)
  else (grown, count)

/-- A new extent: in its place while there is room, else in the slot behind the full table. -/
def insertExtent (count index : Nat) (offset : Int) : Table × Nat :=
  let fresh : Extent := ⟨offset, offset + page.bytes⟩
  if count < page.maxExtents then
    let index := if (table index).stop < offset then index + 1 else index
    (Function.update (memmove table (index + 1) index (count - index)) index fresh, count + 1)
  else (Function.update table count fresh, count + 1)

/-- One granted page is entered into the table. -/
def enterPage (count : Nat) (offset : Int) : Table × Nat :=
  match findSlot page table offset 0 (count - 1) with
  | .before index => extendBefore table count index offset
  | .after index => extendAfter page table count index
  | .fresh index => if 0 < offset then insertExtent page table count index offset
      else (table, count)

end Lookup

/-- What `alloc_swap` leaves behind: its return value, the table, `*size_p` and the kernel's
remaining answers. -/
structure Allocation where
  ret : Int
  table : Table
  size : Int
  grants : Grants

/-- The allocation loop. -/
def allocLoop (page : PageSize) (total : Int) : Grants → Table → Nat → Int → Allocation
  | [], table, count, size =>
      if size < total ∧ count ≤ page.maxExtents then ⟨-ENOSPC, table, total, []⟩
      else ⟨count, table, size, []⟩
  | offset :: rest, table, count, size =>
      if size < total ∧ count ≤ page.maxExtents then
        if offset = 0 then ⟨-ENOSPC, table, total, rest⟩
        else
          let entered := enterPage page table count offset
          allocLoop page total rest entered.1 entered.2 (size + page.bytes)
      else ⟨count, table, size, offset :: rest⟩

/-- `alloc_swap`. -/
def allocSwap (page : PageSize) (grants : Grants) (table : Table) (count : Nat) (size : Int) :
    Allocation :=
  if count = 0 then
    let (offset, rest) := getSwapPage grants
    if offset = 0 then ⟨-ENOSPC, table, size, rest⟩
    else allocLoop page size rest
      (Function.update table 0 ⟨offset, offset + page.bytes⟩) 1 page.bytes
  else allocLoop page size grants table count 0

section LookupFacts

variable {page : PageSize} {table : Table} {count : Nat} {offset : Int}

/-- What each way out of the search says about the table. -/
def SlotSpec (page : PageSize) (table : Table) (count : Nat) (offset : Int) : Slot → Prop
  | .before index => index < count ∧ offset = (table index).start - page.bytes
  | .after index => index < count ∧ offset = (table index).stop
  | .fresh index => index < count ∧
      (∀ earlier < index, (table earlier).stop < offset) ∧
      (∀ later < count, index < later → offset < (table later).start - page.bytes) ∧
      ((table index).stop < offset ∨ offset < (table index).start - page.bytes)

theorem Sorted.stop_lt_of_stop_lt (sorted : Sorted page table count) {index earlier : Nat}
    (inside : index < count) (before : earlier < index) (below : (table index).stop < offset) :
    (table earlier).stop < offset := by
  have gap := sorted.gaps earlier index before inside
  have nonempty := (sorted.whole index inside).nonempty
  omega

theorem Sorted.lt_start_of_lt_start (sorted : Sorted page table count) {index later : Nat}
    (inside : later < count) (after : index < later)
    (above : offset < (table index).start - page.bytes) :
    offset < (table later).start - page.bytes := by
  have gap := sorted.gaps index later after inside
  have nonempty := (sorted.whole index (by omega)).nonempty
  omega

/-- An offset outside an extent, neither adjacent to it nor behind it, lies strictly before
its predecessor page. -/
theorem Sorted.strictly_before (sorted : Sorted page table count)
    (aligned : (page.bytes : Int) ∣ offset) {index : Nat} (inside : index < count)
    (outside : ¬ ((table index).start ≤ offset ∧ offset < (table index).stop))
    (notBefore : offset ≠ (table index).start - page.bytes)
    (notAfter : offset ≠ (table index).stop) (notBehind : ¬ (table index).stop < offset) :
    offset < (table index).start - page.bytes := by
  have apart := Extent.page_apart page aligned (sorted.whole index inside).startAligned
    (by omega)
  omega

theorem Sorted.fresh_behind (sorted : Sorted page table count) {index : Nat}
    (inside : index < count) (behind : (table index).stop < offset)
    (next : index = count - 1 ∨ offset < (table (index + 1)).start - page.bytes) :
    SlotSpec page table count offset (.fresh index) := by
  refine ⟨inside, fun earlier before => sorted.stop_lt_of_stop_lt inside before behind, ?_,
    Or.inl behind⟩
  intro later bound after
  rcases next with last | above
  · omega
  · by_cases same : later = index + 1
    · rwa [same]
    · exact sorted.lt_start_of_lt_start bound (by omega) above

theorem Sorted.fresh_front (sorted : Sorted page table count) {index : Nat}
    (inside : index < count) (previous : index = 0 ∨ (table (index - 1)).stop < offset)
    (front : offset < (table index).start - page.bytes) :
    SlotSpec page table count offset (.fresh index) := by
  refine ⟨inside, ?_, fun later bound after => sorted.lt_start_of_lt_start bound after front,
    Or.inr front⟩
  intro earlier before
  rcases previous with first | below
  · omega
  · by_cases same : earlier = index - 1
    · rwa [same]
    · exact sorted.stop_lt_of_stop_lt (by omega) (by omega) below

/-- The search keeps `i` behind a smaller extent and `j` before a larger one, unless they are
still at the ends of the table. -/
theorem findSlot_spec (sorted : Sorted page table count)
    (aligned : (page.bytes : Int) ∣ offset)
    (outside : ∀ index < count, ¬ ((table index).start ≤ offset ∧ offset < (table index).stop))
    (i j : Nat) (ordered : i ≤ j) (inside : j < count)
    (low : i = 0 ∨ (table i).stop < offset)
    (high : j = count - 1 ∨ offset < (table j).start - page.bytes) :
    SlotSpec page table count offset (findSlot page table offset i j) := by
  fun_induction findSlot page table offset i j with
  | case1 i j k matched => exact ⟨by omega, matched⟩
  | case2 i j k _ matched => exact ⟨by omega, matched⟩
  | case3 i j k _ _ _ _ _ matched => exact ⟨by omega, matched⟩
  | case4 i j k _ _ _ _ _ _ matched => exact ⟨by omega, matched⟩
  | case5 i j k _ _ behind same before notBefore notAfter =>
    -- the second look: `j` is the right neighbour of `i`
    have neighbour : j - 1 = i := by omega
    by_cases beyond : (table j).stop < offset
    · refine sorted.fresh_behind inside beyond (Or.inl ?_)
      have nonempty := (sorted.whole j inside).nonempty
      omega
    · refine sorted.fresh_front inside (Or.inr ?_)
        (sorted.strictly_before aligned inside (outside j inside) notBefore notAfter beyond)
      rwa [neighbour, same]
  | case6 i j k _ _ behind same single =>
    have only : i = j := by omega
    refine sorted.fresh_behind (by omega) (by rwa [same]) ?_
    rcases high with last | above
    · exact Or.inl (by omega)
    · have nonempty := (sorted.whole j inside).nonempty
      subst only
      rw [← same] at behind
      omega
  | case7 i j k _ _ behind _ between ih => exact ih (by omega) inside (Or.inr behind) high
  | case8 i j k => omega
  | case9 i j k notBefore notAfter notBehind between ih =>
    refine ih (by omega) (by omega) low (Or.inr ?_)
    exact sorted.strictly_before aligned (by omega) (outside k (by omega)) notBefore notAfter
      notBehind
  | case10 i j k notBefore notAfter notBehind single =>
    have only : k = i := by omega
    rw [only] at notBefore notAfter notBehind
    have front := sorted.strictly_before aligned (by omega) (outside i (by omega)) notBefore
      notAfter notBehind
    refine sorted.fresh_front (by omega) (Or.inl ?_) front
    rcases low with first | below
    · exact first
    · exact absurd below notBehind

end LookupFacts

/-- The offset lies in one of the first `count` extents. -/
def Covers (table : Table) (count : Nat) (offset : Int) : Prop :=
  ∃ index < count, (table index).start ≤ offset ∧ offset < (table index).stop

/-- The first `count` extents now also hold the page at `offset` and no other new page. A new
extent that finds the table full goes to the slot behind it, which is otherwise untouched. -/
structure Entered (page : PageSize) (table : Table) (count : Nat) (offset : Int)
    (after : Table) (total : Nat) : Prop where
  positive : 0 < total
  bounded : total ≤ page.maxExtents + 1
  sorted : Sorted page after (min total page.maxExtents)
  covers : ∀ other, (page.bytes : Int) ∣ other →
    (Covers after total other ↔ other = offset ∨ Covers table count other)
  overflow : total = page.maxExtents + 1 → count = page.maxExtents ∧
    after = Function.update table page.maxExtents ⟨offset, offset + page.bytes⟩
  frame : ∀ index, page.maxExtents ≤ index → total ≤ index → after index = table index

section Entering

variable {page : PageSize} {table : Table} {count : Nat} {offset : Int}

theorem Covers.of_single (aligned : (page.bytes : Int) ∣ offset) {other : Int}
    (otherAligned : (page.bytes : Int) ∣ other) (lower : offset ≤ other)
    (upper : other < offset + page.bytes) : other = offset := by
  by_contra different
  have apart := Extent.page_apart page aligned otherAligned (by omega)
  omega

/-- An extent that grew by one page at either end without touching its neighbours. -/
theorem entered_grow (sorted : Sorted page table count) (room : count ≤ page.maxExtents)
    {index : Nat} (inside : index < count) {grown : Extent}
    (whole : grown.Whole page)
    (exact : ∀ other, (page.bytes : Int) ∣ other → (grown.start ≤ other ∧ other < grown.stop ↔
      other = offset ∨ (table index).start ≤ other ∧ other < (table index).stop))
    (left : ∀ earlier < index, (table earlier).stop < grown.start)
    (right : ∀ later < count, index < later → grown.stop < (table later).start) :
    Entered page table count offset (Function.update table index grown) count := by
  refine ⟨by omega, by omega, ?_, ?_, by omega, ?_⟩
  · rw [Nat.min_eq_left room]
    refine ⟨?_, ?_⟩
    · intro position bound
      by_cases same : position = index
      · rw [same, Function.update_self]
        exact whole
      · rw [Function.update_of_ne same]
        exact sorted.whole position bound
    · intro low high ordered bound
      by_cases lowSame : low = index
      · rw [lowSame, Function.update_self, Function.update_of_ne (by omega)]
        exact right high bound (by omega)
      · by_cases highSame : high = index
        · rw [highSame, Function.update_self, Function.update_of_ne lowSame]
          exact left low (by omega)
        · rw [Function.update_of_ne lowSame, Function.update_of_ne highSame]
          exact sorted.gaps low high ordered bound
  · intro other otherAligned
    constructor
    · rintro ⟨position, bound, within⟩
      by_cases same : position = index
      · rw [same, Function.update_self] at within
        rcases (exact other otherAligned).mp within with new | old
        · exact Or.inl new
        · exact Or.inr ⟨index, inside, old⟩
      · rw [Function.update_of_ne same] at within
        exact Or.inr ⟨position, bound, within⟩
    · have atIndex (within : grown.start ≤ other ∧ other < grown.stop) :
          Covers (Function.update table index grown) count other :=
        ⟨index, inside, by rwa [Function.update_self]⟩
      rintro (new | ⟨position, bound, within⟩)
      · exact atIndex ((exact other otherAligned).mpr (Or.inl new))
      · by_cases same : position = index
        · rw [same] at within
          exact atIndex ((exact other otherAligned).mpr (Or.inr within))
        · exact ⟨position, bound, by rwa [Function.update_of_ne same]⟩
  · intro position _ above
    exact Function.update_of_ne (by omega) _ _

/-- The page filled the only gap between an extent and its right neighbour. -/
theorem entered_merge (sorted : Sorted page table count) (room : count ≤ page.maxExtents)
    (aligned : (page.bytes : Int) ∣ offset) (index : Nat) (inside : index + 1 < count)
    (touchesLeft : (table index).stop = offset)
    (touchesRight : offset + page.bytes = (table (index + 1)).start)
    {merged : Table} (early : ∀ position < index, merged position = table position)
    (joined : merged index = ⟨(table index).start, (table (index + 1)).stop⟩)
    (late : ∀ position, index < position → position < count - 1 →
      merged position = table (position + 1))
    (frame : ∀ position, count ≤ position → merged position = table position) :
    Entered page table count offset merged (count - 1) := by
  have leftWhole := sorted.whole index (by omega)
  have rightWhole := sorted.whole (index + 1) inside
  have gap := sorted.gaps index (index + 1) (by omega) inside
  refine ⟨by omega, by omega, ?_, ?_, by omega,
    fun position above beyond => frame position (by omega)⟩
  · rw [Nat.min_eq_left (by omega)]
    refine ⟨?_, ?_⟩
    · intro position bound
      rcases Nat.lt_trichotomy position index with before | same | behind
      · rw [early position before]
        exact sorted.whole position (by omega)
      · rw [same, joined]
        refine ⟨?_, leftWhole.startAligned, rightWhole.stopAligned⟩
        have leftNonempty := leftWhole.nonempty
        have rightNonempty := rightWhole.nonempty
        dsimp only
        omega
      · rw [late position behind bound]
        exact sorted.whole (position + 1) (by omega)
    · intro low high ordered bound
      have startOf : (table high).start ≤ (merged high).start ∧ high ≤ index ∨
          merged high = table (high + 1) ∧ index < high := by
        rcases Nat.lt_trichotomy high index with before | same | behind
        · exact Or.inl ⟨by rw [early high before], by omega⟩
        · exact Or.inl ⟨by rw [same, joined], by omega⟩
        · exact Or.inr ⟨late high behind bound, behind⟩
      rcases Nat.lt_trichotomy low index with before | same | behind
      · rw [early low before]
        rcases startOf with ⟨above, _⟩ | ⟨shifted, _⟩
        · have old := sorted.gaps low high ordered (by omega)
          omega
        · rw [shifted]
          exact sorted.gaps low (high + 1) (by omega) (by omega)
      · rcases startOf with ⟨_, below⟩ | ⟨shifted, _⟩
        · omega
        · rw [same, joined, shifted]
          exact sorted.gaps (index + 1) (high + 1) (by omega) (by omega)
      · rcases startOf with ⟨_, below⟩ | ⟨shifted, _⟩
        · omega
        · rw [late low behind (by omega), shifted]
          exact sorted.gaps (low + 1) (high + 1) (by omega) (by omega)
  · intro other otherAligned
    constructor
    · rintro ⟨position, bound, within⟩
      rcases Nat.lt_trichotomy position index with before | same | behind
      · rw [early position before] at within
        exact Or.inr ⟨position, by omega, within⟩
      · rw [same, joined] at within
        dsimp only at within
        by_cases inLeft : other < (table index).stop
        · exact Or.inr ⟨index, by omega, within.1, inLeft⟩
        · by_cases inRight : (table (index + 1)).start ≤ other
          · exact Or.inr ⟨index + 1, inside, inRight, within.2⟩
          · exact Or.inl (Covers.of_single aligned otherAligned (by omega) (by omega))
      · rw [late position behind bound] at within
        exact Or.inr ⟨position + 1, by omega, within⟩
    · have leftNonempty := leftWhole.nonempty
      have rightNonempty := rightWhole.nonempty
      have atIndex (lower : (table index).start ≤ other)
          (upper : other < (table (index + 1)).stop) : Covers merged (count - 1) other :=
        ⟨index, by omega, by rw [joined]; exact ⟨lower, upper⟩⟩
      have positive := page.bytes_pos
      rintro (new | ⟨position, bound, within⟩)
      · exact atIndex (by omega) (by omega)
      · rcases Nat.lt_trichotomy position index with before | same | behind
        · exact ⟨position, by omega, by rw [early position before]; exact within⟩
        · rw [same] at within
          exact atIndex within.1 (by omega)
        · by_cases next : position = index + 1
          · rw [next] at within
            exact atIndex (by omega) within.2
          · refine ⟨position - 1, by omega, ?_⟩
            rw [late (position - 1) (by omega) (by omega), Nat.sub_add_cancel (by omega)]
            exact within

theorem entered_insert (sorted : Sorted page table count) (room : count < page.maxExtents)
    (aligned : (page.bytes : Int) ∣ offset) {index : Nat} (inside : index ≤ count)
    (left : ∀ earlier < index, (table earlier).stop < offset)
    (right : ∀ later < count, index ≤ later → offset + page.bytes < (table later).start) :
    Entered page table count offset
      (Function.update (memmove table (index + 1) index (count - index)) index
        ⟨offset, offset + page.bytes⟩) (count + 1) := by
  generalize pushed : Function.update (memmove table (index + 1) index (count - index)) index
    ⟨offset, offset + page.bytes⟩ = after
  have early : ∀ position < index, after position = table position := by
    intro position before
    rw [← pushed, Function.update_of_ne (by omega),
      memmove_push table index count position inside (by omega) (by omega), if_pos before]
  have fresh : after index = ⟨offset, offset + page.bytes⟩ := by
    rw [← pushed, Function.update_self]
  have late : ∀ position, index < position → position < count + 1 →
      after position = table (position - 1) := by
    intro position behind bound
    rw [← pushed, Function.update_of_ne (by omega),
      memmove_push table index count position inside (by omega) bound, if_neg (by omega)]
  have positive := page.bytes_pos
  refine ⟨by omega, by omega, ?_, ?_, by omega, ?_⟩
  · rw [Nat.min_eq_left (by omega)]
    refine ⟨?_, ?_⟩
    · intro position bound
      rcases Nat.lt_trichotomy position index with before | same | behind
      · rw [early position before]
        exact sorted.whole position (by omega)
      · rw [same, fresh]
        exact Extent.single_whole page aligned
      · rw [late position behind bound]
        exact sorted.whole (position - 1) (by omega)
    · intro low high ordered bound
      rcases Nat.lt_trichotomy high index with before | same | behind
      · rw [early low (by omega), early high before]
        exact sorted.gaps low high ordered (by omega)
      · rw [early low (by omega), same, fresh]
        exact left low (by omega)
      · rw [late high behind bound]
        rcases Nat.lt_trichotomy low index with lowBefore | lowSame | lowBehind
        · rw [early low lowBefore]
          exact sorted.gaps low (high - 1) (by omega) (by omega)
        · rw [lowSame, fresh]
          exact right (high - 1) (by omega) (by omega)
        · rw [late low lowBehind (by omega)]
          exact sorted.gaps (low - 1) (high - 1) (by omega) (by omega)
  · intro other otherAligned
    constructor
    · rintro ⟨position, bound, within⟩
      rcases Nat.lt_trichotomy position index with before | same | behind
      · rw [early position before] at within
        exact Or.inr ⟨position, by omega, within⟩
      · rw [same, fresh] at within
        exact Or.inl (Covers.of_single aligned otherAligned within.1 within.2)
      · rw [late position behind bound] at within
        exact Or.inr ⟨position - 1, by omega, within⟩
    · rintro (rfl | ⟨position, bound, within⟩)
      · exact ⟨index, by omega, by rw [fresh]; constructor <;> dsimp only <;> omega⟩
      · by_cases before : position < index
        · exact ⟨position, by omega, by rwa [early position before]⟩
        · exact ⟨position + 1, by omega, by rwa [late (position + 1) (by omega) (by omega)]⟩
  · intro position _ above
    rw [← pushed, Function.update_of_ne (by omega), memmove_outside _ _ _ _ _ (by omega)]

/-- The table is full: the new extent goes behind it. -/
theorem entered_behind (sorted : Sorted page table page.maxExtents)
    (aligned : (page.bytes : Int) ∣ offset) :
    Entered page table page.maxExtents offset
      (Function.update table page.maxExtents ⟨offset, offset + page.bytes⟩)
      (page.maxExtents + 1) := by
  have positive := page.bytes_pos
  refine ⟨by omega, by omega, ?_, ?_, fun _ => ⟨rfl, rfl⟩, ?_⟩
  · rw [Nat.min_eq_right (by omega)]
    exact sorted.congr fun index below => Function.update_of_ne (by omega) _ _
  · intro other otherAligned
    constructor
    · rintro ⟨position, bound, within⟩
      by_cases same : position = page.maxExtents
      · rw [same, Function.update_self] at within
        exact Or.inl (Covers.of_single aligned otherAligned within.1 within.2)
      · rw [Function.update_of_ne same] at within
        exact Or.inr ⟨position, by omega, within⟩
    · rintro (rfl | ⟨position, bound, within⟩)
      · refine ⟨page.maxExtents, by omega, ?_⟩
        rw [Function.update_self]
        constructor <;> dsimp only <;> omega
      · exact ⟨position, by omega, by rwa [Function.update_of_ne (by omega)]⟩
  · intro position _ above
    exact Function.update_of_ne (by omega) _ _

theorem extendBefore_entered (sorted : Sorted page table count)
    (room : count ≤ page.maxExtents) (aligned : (page.bytes : Int) ∣ offset) {index : Nat}
    (inside : index < count) (touches : offset = (table index).start - page.bytes) :
    Entered page table count offset (extendBefore table count index offset).1
      (extendBefore table count index offset).2 := by
  have positive := page.bytes_pos
  have whole := sorted.whole index inside
  have nonempty := whole.nonempty
  unfold extendBefore
  dsimp only
  by_cases merges : 0 < index ∧ (table (index - 1)).stop = offset
  · rw [if_pos (by rw [Function.update_of_ne (by omega)]; exact merges)]
    dsimp only
    have previous : index - 1 + 1 = index := by omega
    refine entered_merge sorted room aligned (index - 1) (by omega) merges.2
      (by rw [previous]; omega) ?_ ?_ ?_ ?_
    · intro position before
      rw [memmove_outside _ _ _ _ _ (by omega), Function.update_of_ne (by omega),
        Function.update_of_ne (by omega)]
    · rw [memmove_outside _ _ _ _ _ (by omega), Function.update_self, Function.update_self,
        Function.update_of_ne (by omega), previous]
    · intro position behind bound
      rw [memmove_pull _ _ _ _ inside bound, if_neg (by omega), Function.update_of_ne (by omega),
        Function.update_of_ne (by omega)]
    · intro position above
      rw [memmove_outside _ _ _ _ _ (by omega), Function.update_of_ne (by omega),
        Function.update_of_ne (by omega)]
  · rw [if_neg (by
      rintro ⟨behind, adjacent⟩
      rw [Function.update_of_ne (by omega)] at adjacent
      exact merges ⟨behind, adjacent⟩)]
    refine entered_grow sorted room inside ⟨?_, aligned, whole.stopAligned⟩ ?_ ?_ ?_
    · dsimp only
      omega
    · intro other otherAligned
      dsimp only
      constructor
      · intro within
        by_cases old : (table index).start ≤ other
        · exact Or.inr ⟨old, within.2⟩
        · exact Or.inl (Covers.of_single aligned otherAligned within.1 (by omega))
      · rintro (rfl | old)
        · omega
        · omega
    · intro earlier before
      dsimp only
      have gap := sorted.gaps earlier index before inside
      have apart := Extent.page_apart page (sorted.whole earlier (by omega)).stopAligned
        whole.startAligned gap
      by_cases neighbour : earlier = index - 1
      · have different : (table earlier).stop ≠ offset := by
          intro adjacent
          exact merges ⟨by omega, by rwa [← neighbour]⟩
        omega
      · have between := sorted.gaps earlier (index - 1) (by omega) (by omega)
        have previousGap := sorted.gaps (index - 1) index (by omega) inside
        have previous := sorted.whole (index - 1) (by omega)
        have previousNonempty := previous.nonempty
        have previousApart := Extent.page_apart page previous.stopAligned whole.startAligned
          previousGap
        omega
    · intro later bound behind
      exact sorted.gaps index later behind bound

theorem extendAfter_entered (sorted : Sorted page table count)
    (room : count ≤ page.maxExtents) (aligned : (page.bytes : Int) ∣ offset) {index : Nat}
    (inside : index < count) (touches : offset = (table index).stop) :
    Entered page table count offset (extendAfter page table count index).1
      (extendAfter page table count index).2 := by
  have positive := page.bytes_pos
  have whole := sorted.whole index inside
  have nonempty := whole.nonempty
  unfold extendAfter
  simp only [Function.update_self]
  by_cases merges : index + 1 < count ∧
      (table index).stop + page.bytes = (table (index + 1)).start
  · rw [if_pos (by rw [Function.update_of_ne (by omega)]; exact merges)]
    dsimp only
    refine entered_merge sorted room aligned index merges.1 touches.symm
      (by rw [touches]; exact merges.2) ?_ ?_ ?_ ?_
    · intro position before
      rw [memmove_outside _ _ _ _ _ (by omega), Function.update_of_ne (by omega),
        Function.update_of_ne (by omega)]
    · rw [memmove_outside _ _ _ _ _ (by omega), Function.update_self,
        Function.update_of_ne (by omega)]
    · intro position behind bound
      have width : count - index - 2 = count - (index + 1) - 1 := by omega
      rw [width, memmove_pull _ _ _ _ merges.1 bound, if_neg (by omega),
        Function.update_of_ne (by omega), Function.update_of_ne (by omega)]
    · intro position above
      rw [memmove_outside _ _ _ _ _ (by omega), Function.update_of_ne (by omega),
        Function.update_of_ne (by omega)]
  · rw [if_neg (by
      rintro ⟨behind, adjacent⟩
      rw [Function.update_of_ne (by omega)] at adjacent
      exact merges ⟨behind, adjacent⟩)]
    refine entered_grow sorted room inside
      ⟨?_, whole.startAligned, Int.dvd_add whole.stopAligned (Int.dvd_refl _)⟩ ?_ ?_ ?_
    · dsimp only
      omega
    · intro other otherAligned
      dsimp only
      constructor
      · intro within
        by_cases old : other < (table index).stop
        · exact Or.inr ⟨within.1, old⟩
        · exact Or.inl (Covers.of_single aligned otherAligned (by omega) (by omega))
      · rintro (rfl | old)
        · omega
        · omega
    · intro earlier before
      exact sorted.gaps earlier index before inside
    · intro later bound behind
      dsimp only
      have gap := sorted.gaps index later behind bound
      have apart := Extent.page_apart page whole.stopAligned
        (sorted.whole later bound).startAligned gap
      by_cases neighbour : later = index + 1
      · have different : (table index).stop + page.bytes ≠ (table later).start := by
          intro adjacent
          exact merges ⟨by omega, by rwa [← neighbour]⟩
        omega
      · have between := sorted.gaps (index + 1) later (by omega) bound
        have nextGap := sorted.gaps index (index + 1) (by omega) (by omega)
        have next := sorted.whole (index + 1) (by omega)
        have nextNonempty := next.nonempty
        have nextApart := Extent.page_apart page whole.stopAligned next.startAligned nextGap
        omega

theorem insertExtent_entered (sorted : Sorted page table count)
    (room : count ≤ page.maxExtents) (aligned : (page.bytes : Int) ∣ offset) {index : Nat}
    (found : SlotSpec page table count offset (.fresh index)) :
    Entered page table count offset (insertExtent page table count index offset).1
      (insertExtent page table count index offset).2 := by
  obtain ⟨inside, earlier, later, side⟩ := found
  have positive := page.bytes_pos
  unfold insertExtent
  dsimp only
  by_cases vacant : count < page.maxExtents
  · rw [if_pos vacant]
    by_cases behind : (table index).stop < offset
    · simp only [behind, ↓reduceIte]
      refine entered_insert sorted vacant aligned (by omega) ?_ ?_
      · intro position before
        by_cases same : position = index
        · rwa [same]
        · exact earlier position (by omega)
      · intro position bound above
        have ahead := later position bound (by omega)
        omega
    · simp only [behind, ↓reduceIte]
      have front : offset < (table index).start - page.bytes := side.resolve_left behind
      refine entered_insert sorted vacant aligned (by omega) earlier ?_
      intro position bound above
      by_cases same : position = index
      · rw [same]
        omega
      · have ahead := later position bound (by omega)
        omega
  · rw [if_neg vacant]
    have full : count = page.maxExtents := by omega
    subst full
    exact entered_behind sorted aligned

theorem enterPage_entered (sorted : Sorted page table count) (positive : 0 < count)
    (room : count ≤ page.maxExtents) (aligned : (page.bytes : Int) ∣ offset)
    (nonzero : 0 < offset) (fresh : ¬ Covers table count offset) :
    Entered page table count offset (enterPage page table count offset).1
      (enterPage page table count offset).2 := by
  have outside : ∀ index < count,
      ¬ ((table index).start ≤ offset ∧ offset < (table index).stop) :=
    fun index inside within => fresh ⟨index, inside, within⟩
  have found := findSlot_spec sorted aligned outside 0 (count - 1) (by omega) (by omega)
    (Or.inl rfl) (Or.inl rfl)
  unfold enterPage
  cases slot : findSlot page table offset 0 (count - 1) with
  | before index =>
      rw [slot] at found
      exact extendBefore_entered sorted room aligned found.1 found.2
  | after index =>
      rw [slot] at found
      exact extendAfter_entered sorted room aligned found.1 found.2
  | fresh index =>
      rw [slot] at found
      dsimp only
      rw [if_pos nonzero]
      exact insertExtent_entered sorted room aligned found

theorem Sorted.covers_iff (sorted : Sorted page table count)
    (aligned : (page.bytes : Int) ∣ offset) :
    Covers table count offset ↔ offset ∈ tablePages page table count := by
  rw [sorted.mem_pages]
  exact ⟨fun covered => ⟨aligned, covered⟩, fun member => member.2⟩

theorem Entered.perm {after : Table} {total : Nat} (sorted : Sorted page table count)
    (aligned : (page.bytes : Int) ∣ offset) (fresh : offset ∉ tablePages page table count)
    (entered : Entered page table count offset after total) :
    (tablePages page after total).Perm (offset :: tablePages page table count) := by
  by_cases full : total = page.maxExtents + 1
  · obtain ⟨old, placed⟩ := entered.overflow full
    have kept : tablePages page after page.maxExtents = tablePages page table page.maxExtents :=
      tablePages_congr fun index below => by rw [placed, Function.update_of_ne (by omega)]
    rw [full, tablePages_succ, kept, ← old, placed, old, Function.update_self,
      Extent.pages_single]
    exact List.perm_append_singleton _ _
  · have total_le : min total page.maxExtents = total := by
      have := entered.bounded
      omega
    have afterSorted := entered.sorted
    rw [total_le] at afterSorted
    refine (List.perm_ext_iff_of_nodup afterSorted.pages_nodup
      (List.nodup_cons.mpr ⟨fresh, sorted.pages_nodup⟩)).mpr ?_
    intro other
    rw [List.mem_cons]
    by_cases otherAligned : (page.bytes : Int) ∣ other
    · rw [← afterSorted.covers_iff otherAligned, ← sorted.covers_iff otherAligned]
      exact entered.covers other otherAligned
    · constructor
      · intro member
        exact absurd ((afterSorted.mem_pages other).mp member).1 otherAligned
      · rintro (same | member)
        · exact absurd (same ▸ aligned) otherAligned
        · exact absurd ((sorted.mem_pages other).mp member).1 otherAligned

theorem Entered.sorted_room {after : Table} {total : Nat}
    (entered : Entered page table count offset after total) (room : total ≤ page.maxExtents) :
    Sorted page after total := by
  have sorted := entered.sorted
  rwa [Nat.min_eq_left room] at sorted

theorem Entered.room {after : Table} {total : Nat}
    (entered : Entered page table count offset after total)
    (notFull : total ≠ page.maxExtents + 1) : total ≤ page.maxExtents := by
  have := entered.bounded
  omega

/-- The pages still to come and those of the table stay distinct. -/
theorem Entered.nodup {after : Table} {total : Nat} {rest : List Int}
    (sorted : Sorted page table count) (aligned : (page.bytes : Int) ∣ offset)
    (entered : Entered page table count offset after total)
    (distinct : (offset :: rest ++ tablePages page table count).Nodup) :
    (rest ++ tablePages page after total).Nodup := by
  rw [List.cons_append] at distinct
  have fresh : offset ∉ tablePages page table count := fun member =>
    (List.nodup_cons.mp distinct).1 (List.mem_append_right rest member)
  have pages := (entered.perm sorted aligned fresh).append_left rest
  exact (pages.trans List.perm_middle).nodup_iff.mpr distinct

end Entering

end Suspend
