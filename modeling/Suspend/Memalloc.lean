import Suspend.Extent
import Suspend.Foundation.Alignment
import Mathlib.Data.List.GetD

set_option autoImplicit false

namespace Suspend

open Foundation.Alignment

/-- `struct mem_slot`. -/
structure MemSlot where
  addr : Nat
  size : Nat
deriving DecidableEq

/-- Memory that `malloc` has found for this many bytes. -/
structure MallocBlock (bytes : Nat) where
  start : Nat
  nonNull : 0 < start
  inside : start + bytes ≤ 2 ^ 64

def ALIGN_QWORD : Nat := 8

namespace PageSize

variable (page : PageSize)

/-- `~((size_t)page_size - 1)`. -/
def pageMask : Nat := 2 ^ 64 - page.bytes

def roundUpPageSize (size : Nat) : Nat := (size + page.bytes - 1) % 2 ^ 64 &&& page.pageMask

def roundDownPageSize (size : Nat) : Nat := size &&& page.pageMask

end PageSize

/-- The static variables. `slots` are the ones in front of `cur_slot`. -/
structure Memalloc where
  page : PageSize
  memPool : Nat
  poolSize : Nat
  nrSlots : Nat
  slots : List MemSlot

/-- The bytes that `init_memalloc` asks `malloc` for, as a `size_t`. -/
def poolBytes (page : PageSize) (aux pool : Nat) : Nat :=
  (page.roundUpPageSize aux + page.roundUpPageSize pool + page.bytes) % 2 ^ 64

/-- `init_memalloc` after `malloc`. -/
def initMemalloc (page : PageSize) (aux pool : Nat)
    (memory : MallocBlock (poolBytes page aux pool)) :
    Memalloc :=
  let mem := (memory.start + page.roundUpPageSize aux) % 2 ^ 64
  let addr := mem &&& page.pageMask
  { page
    memPool := if addr < mem then (addr + page.bytes) % 2 ^ 64 else mem
    poolSize := page.roundUpPageSize pool
    nrSlots := page.roundUpPageSize aux / 16 % 2 ^ 32
    slots := [] }

/-- The loop of `getmem` over `align_size`, which has been shifted this often. -/
def alignSize (size shifts : Nat) : Nat :=
  if ALIGN_QWORD * 2 ^ shifts < size then alignSize size (shifts + 1)
  else ALIGN_QWORD * 2 ^ shifts
termination_by size - ALIGN_QWORD * 2 ^ shifts
decreasing_by
  have positive := Nat.two_pow_pos shifts
  rw [pow_succ]
  unfold ALIGN_QWORD at *
  omega

namespace Memalloc

variable (memory : Memalloc)

/-- The offset behind the last slot. Both `align_size` and `align_mask` are an unsigned int. -/
def behind (last : MemSlot) (size : Nat) : Nat :=
  let align :=
    if memory.page.bytes ≤ size then (memory.page.bytes, memory.page.pageMask % 2 ^ 32)
    else (alignSize size 0, 2 ^ 32 - alignSize size 0)
  (last.addr - memory.memPool + last.size + align.1 - 1) % 2 ^ 64 &&& align.2

/-- `used`: the offset of the next block. -/
def used (size : Nat) : Nat :=
  match memory.slots.getLast? with
  | none => 0
  | some last => memory.behind last size

/-- `getmem`, and its answer. -/
def getmem (size : Nat) : Option Nat × Memalloc :=
  if memory.nrSlots ≤ memory.slots.length then (none, memory)
  else if memory.poolSize < memory.used size ∨ memory.poolSize - memory.used size < size then
    (none, memory)
  else
    (some (memory.memPool + memory.used size),
      { memory with slots := memory.slots ++ [⟨memory.memPool + memory.used size, size⟩] })

/-- How many of the first slots are left when the empty ones at their end are removed. -/
def withoutEmpty (slots : List MemSlot) : Nat → Nat
  | 0 => 0
  | count + 1 => if (slots.getD count ⟨0, 0⟩).size = 0 then withoutEmpty slots count else count + 1

/-- `free_slot`. -/
def freeSlot (slots : List MemSlot) (slot : Nat) : List MemSlot :=
  let marked := slots.set slot { slots.getD slot ⟨0, 0⟩ with size := 0 }
  if slot = slots.length - 1 then marked.take (withoutEmpty marked (slots.length - 1)) else marked

/-- The loop of `freemem`, and the slot it frees. -/
def findSlot (slots : List MemSlot) (address i j : Nat) : Option Nat :=
  let k := (i + j) / 2
  let addr := fun index => (slots.getD index ⟨0, 0⟩).addr
  if addr k = address then some k
  else if addr k < address then
    if i ≠ k then if k < j then findSlot slots address k j else none
    else if addr j = address then some j
    else none
  else if i < k then findSlot slots address i k
  else none
termination_by j - i

def freemem (address : Nat) : Memalloc :=
  if memory.slots.length = 0 then memory
  else
    match findSlot memory.slots address 0 (memory.slots.length - 1) with
    | some slot => { memory with slots := freeSlot memory.slots slot }
    | none => memory

end Memalloc

namespace PageSize

variable (page : PageSize)

theorem shift_le : page.shift ≤ 64 := page.small.trans (by decide)

theorem and_pageMask (size : Nat) :
    size &&& page.pageMask = size % 2 ^ 64 / page.bytes * page.bytes :=
  and_mask size page.shift_le

theorem dvd_roundUpPageSize (size : Nat) : page.bytes ∣ page.roundUpPageSize size := by
  rw [roundUpPageSize, and_pageMask]
  exact Nat.dvd_mul_left _ _

theorem pageMask_narrow : page.pageMask % 2 ^ 32 = 2 ^ 32 - page.bytes := by
  have large := page.bytes_large
  have small := page.bytes_small
  unfold pageMask
  omega

/-- What blocks of this size are aligned to. -/
def alignment (size : Nat) : Nat := min page.bytes (naturalSize (max size 8))

theorem alignment_eq (size : Nat) :
    page.alignment size = 2 ^ min page.shift (Nat.clog 2 (max size 8)) :=
  (Monotone.map_min (pow_right_mono₀ one_le_two)).symm

theorem alignment_dvd (size : Nat) : page.alignment size ∣ page.bytes := by
  rw [alignment_eq]
  exact Nat.pow_dvd_pow 2 (min_le_left _ _)

theorem alignment_pos (size : Nat) : 0 < page.alignment size := by
  rw [alignment_eq]
  exact Nat.two_pow_pos _

theorem alignment_le (size : Nat) : page.alignment size ≤ page.bytes := min_le_left _ _

end PageSize

theorem alignQword_shifted (shifts : Nat) : ALIGN_QWORD * 2 ^ shifts = 2 ^ (shifts + 2 + 1) := by
  rw [ALIGN_QWORD, add_assoc, pow_add, mul_comm]
  rfl

/-- The loop ends at the least power of two that is large enough. -/
theorem alignSize_eq {size shifts : Nat} (shifted : shifts = 0 ∨ 2 ^ (shifts + 2) < size) :
    alignSize size shifts = naturalSize (max size 8) := by
  fun_induction alignSize size shifts with
  | case1 shifts small ih =>
      rw [alignQword_shifted] at small
      exact ih (Or.inr (by rwa [add_right_comm]))
  | case2 shifts large =>
      rw [alignQword_shifted] at large ⊢
      have one : 2 ^ 0 ≤ 2 ^ shifts := Nat.pow_le_pow_right two_pos (Nat.zero_le _)
      have eight : 8 ≤ 2 ^ (shifts + 2 + 1) := by
        rw [add_assoc, pow_add]
        omega
      symm
      apply naturalSize_eq
      · exact max_le (not_lt.mp large) eight
      · rcases shifted with rfl | above
        · exact lt_of_lt_of_le (by decide) (le_max_right size 8)
        · exact lt_of_lt_of_le above (le_max_left size 8)

namespace Memalloc

variable {memory : Memalloc}

/-- Behind the last slot comes the next aligned offset, as long as it is below `2 ^ 32`. -/
theorem behind_eq {last : MemSlot} {size : Nat}
    (low : last.addr - memory.memPool + last.size + memory.page.bytes ≤ 2 ^ 32) :
    memory.behind last size =
      alignUp (memory.page.alignment size) (last.addr - memory.memPool + last.size) := by
  have bounded := memory.page.alignment_le size
  have positive := memory.page.alignment_pos size
  have masked : memory.behind last size =
      (last.addr - memory.memPool + last.size + memory.page.alignment size - 1) % 2 ^ 64 &&&
        (2 ^ 32 - memory.page.alignment size) := by
    by_cases huge : memory.page.bytes ≤ size
    · have page : memory.page.alignment size = memory.page.bytes := by
        apply min_eq_left
        exact (huge.trans (le_max_left size 8)).trans (Nat.le_pow_clog one_lt_two _)
      simp only [behind, huge, ↓reduceIte, page, PageSize.pageMask_narrow]
    · have small : max size 8 ≤ 2 ^ memory.page.shift := by
        have large := memory.page.bytes_large
        change max size 8 ≤ memory.page.bytes
        omega
      have natural : memory.page.alignment size = alignSize size 0 := by
        rw [alignSize_eq (Or.inl rfl)]
        apply min_eq_right
        exact Nat.pow_le_pow_right two_pos (Nat.clog_le_of_le_pow small)
      simp only [behind, huge, ↓reduceIte, natural]
  have narrow : min memory.page.shift (Nat.clog 2 (max size 8)) ≤ 32 :=
    (min_le_left _ _).trans (memory.page.small.trans (by decide))
  rw [masked, Nat.mod_eq_of_lt (by omega), PageSize.alignment_eq, and_mask _ narrow,
    ← PageSize.alignment_eq, Nat.mod_eq_of_lt (by omega)]
  rfl

/-- The blocks that are in use. -/
def blocks (slots : List MemSlot) : List MemSlot := slots.filter (·.size ≠ 0)

def addresses (slots : List MemSlot) : List Nat := slots.map MemSlot.addr

theorem blocks_withoutEmpty (slots : List MemSlot) {count : Nat} (inside : count ≤ slots.length) :
    blocks (slots.take (withoutEmpty slots count)) = blocks (slots.take count) := by
  induction count with
  | zero => rfl
  | succ count ih =>
      have found : slots.getD count ⟨0, 0⟩ = slots[count] := List.getD_eq_getElem _ _ inside
      by_cases empty : (slots.getD count ⟨0, 0⟩).size = 0
      · rw [withoutEmpty, if_pos empty, ih (Nat.le_of_succ_le inside),
          List.take_succ_eq_append_getElem inside, blocks, blocks, List.filter_append]
        rw [found] at empty
        simp [empty]
      · rw [withoutEmpty, if_neg empty]

theorem withoutEmpty_last (slots : List MemSlot) {count : Nat} (inside : count ≤ slots.length) :
    ∀ last ∈ (slots.take (withoutEmpty slots count)).getLast?, last.size ≠ 0 := by
  induction count with
  | zero => simp [withoutEmpty]
  | succ count ih =>
      have found : slots.getD count ⟨0, 0⟩ = slots[count] := List.getD_eq_getElem _ _ inside
      by_cases empty : (slots.getD count ⟨0, 0⟩).size = 0
      · rw [withoutEmpty, if_pos empty]
        exact ih (Nat.le_of_succ_le inside)
      · rw [withoutEmpty, if_neg empty, List.take_succ_eq_append_getElem inside]
        rw [found] at empty
        intro last ends
        rw [List.getLast?_concat, Option.mem_some_iff] at ends
        exact ends ▸ empty

theorem addresses_freeSlot (slots : List MemSlot) (slot : Nat) :
    (addresses (freeSlot slots slot)).IsPrefix (addresses slots) := by
  have same : addresses (slots.set slot { slots.getD slot ⟨0, 0⟩ with size := 0 }) =
      addresses slots := by
    by_cases inside : slot < slots.length
    · rw [addresses, List.map_set, List.getD_eq_getElem _ _ inside]
      apply List.ext_getElem (by simp [addresses])
      intro index _ _
      by_cases here : slot = index <;> simp [addresses, here]
    · rw [List.set_eq_of_length_le (not_lt.mp inside)]
  unfold freeSlot
  split
  · rw [addresses, List.map_take, ← addresses, same]
    exact List.take_prefix _ _
  · simp only [same, List.prefix_rfl]

/-- The slots around one of them, each with another address. -/
theorem slots_split {slots : List MemSlot} (sorted : (addresses slots).Pairwise (· < ·))
    {slot : Nat} (inside : slot < slots.length) :
    ∃ front back, slots = front ++ slots[slot] :: back ∧ front.length = slot ∧
      ∀ other, other ∈ front ∨ other ∈ back → other.addr ≠ slots[slot].addr := by
  have split : slots.take slot ++ slots[slot] :: slots.drop (slot + 1) = slots := by
    rw [List.getElem_cons_drop, List.take_append_drop]
  refine ⟨slots.take slot, slots.drop (slot + 1), split.symm, List.length_take_of_le inside.le, ?_⟩
  rw [← split, addresses, List.map_append, List.map_cons, List.pairwise_append,
    List.pairwise_cons] at sorted
  intro other present
  rcases present with before | after
  · exact (sorted.2.2 _ (List.mem_map_of_mem before) _ List.mem_cons_self).ne
  · exact (sorted.2.1.1 _ (List.mem_map_of_mem after)).ne'

/-- `free_slot` releases the block of its slot and no other one. -/
theorem blocks_freeSlot {slots : List MemSlot} (sorted : (addresses slots).Pairwise (· < ·))
    {slot : Nat} (inside : slot < slots.length) :
    blocks (freeSlot slots slot) = (blocks slots).filter (·.addr ≠ slots[slot].addr) := by
  obtain ⟨front, back, split, length, apart⟩ := slots_split sorted inside
  have found : slots.getD slot ⟨0, 0⟩ = slots[slot] := List.getD_eq_getElem _ _ inside
  generalize slots[slot] = freed at *
  have marked : slots.set slot { slots.getD slot ⟨0, 0⟩ with size := 0 } =
      front ++ { freed with size := 0 } :: back := by
    rw [found, split, ← length, List.set_append_right _ _ (le_refl _), Nat.sub_self,
      List.set_cons_zero]
  have kept : ∀ part, (∀ other ∈ part, other.addr ≠ freed.addr) →
      (blocks part).filter (·.addr ≠ freed.addr) = blocks part := by
    intro part others
    rw [List.filter_eq_self]
    intro other present
    simpa using others other (List.mem_of_mem_filter present)
  have gone : (blocks [freed]).filter (·.addr ≠ freed.addr) = [] := by
    rw [List.filter_eq_nil_iff]
    intro other present
    simp [List.mem_singleton.mp (List.mem_of_mem_filter present)]
  have released : (blocks slots).filter (·.addr ≠ freed.addr) = blocks front ++ blocks back := by
    rw [split, List.append_cons, blocks, List.filter_append, List.filter_append,
      List.filter_append, List.filter_append, ← blocks, ← blocks, ← blocks,
      kept front fun other present => apart other (Or.inl present),
      kept back fun other present => apart other (Or.inr present), gone, List.append_nil]
  have empty : blocks (front ++ { freed with size := 0 } :: back) =
    blocks front ++ blocks back := by
    simp [blocks]
  rw [released]
  unfold freeSlot
  simp only [marked]
  split
  · have last : back = [] := by
      have count := congrArg List.length split
      simp only [List.length_append, List.length_cons] at count
      exact List.eq_nil_of_length_eq_zero (by omega)
    subst last
    rw [blocks_withoutEmpty _ (by simp [split]), split]
    simp [blocks]
  · exact empty

theorem freeSlot_last {slots : List MemSlot} (used : ∀ last ∈ slots.getLast?, last.size ≠ 0)
    (slot : Nat) : ∀ last ∈ (freeSlot slots slot).getLast?, last.size ≠ 0 := by
  unfold freeSlot
  split
  · apply withoutEmpty_last
    simp
  · intro last ends
    apply used
    rw [List.getLast?_eq_getElem?, List.length_set, List.getElem?_set_ne (by assumption)] at ends
    rwa [List.getLast?_eq_getElem?]

theorem findSlot_eq {slots : List MemSlot} {address i j : Nat}
    (sorted : ∀ first second, first < second → second < slots.length →
      (slots.getD first ⟨0, 0⟩).addr < (slots.getD second ⟨0, 0⟩).addr)
    (ordered : i ≤ j) (inside : j < slots.length)
    (within : ∀ slot < slots.length, (slots.getD slot ⟨0, 0⟩).addr = address → i ≤ slot ∧ slot ≤ j)
    (slot : Nat) :
    findSlot slots address i j = some slot ↔
      slot < slots.length ∧ (slots.getD slot ⟨0, 0⟩).addr = address := by
  have before : ∀ first second, first < slots.length →
      (slots.getD first ⟨0, 0⟩).addr < (slots.getD second ⟨0, 0⟩).addr → first < second := by
    intro first second bounded less
    by_contra later
    rcases Nat.eq_or_lt_of_le (not_lt.mp later) with same | behind
    · exact absurd less (same ▸ lt_irrefl _)
    · exact absurd (sorted second first behind bounded) less.le.not_gt
  have unique : ∀ first second, first < slots.length → second < slots.length →
      (slots.getD first ⟨0, 0⟩).addr = address → (slots.getD second ⟨0, 0⟩).addr = address →
      first = second := by
    intro first second bounded bounded' hit hit'
    rcases lt_trichotomy first second with less | same | more
    · exact absurd (hit.trans hit'.symm) (sorted first second less bounded').ne
    · exact same
    · exact absurd (hit'.trans hit.symm) (sorted second first more bounded).ne
  fun_induction findSlot slots address i j with
  | case1 i j k addr hit =>
      have bounded : k < slots.length := by omega
      rw [Option.some.injEq]
      constructor
      · rintro rfl
        exact ⟨bounded, hit⟩
      · rintro ⟨bounded', hit'⟩
        exact unique k slot bounded bounded' hit hit'
  | case2 i j k addr miss below moved more ih =>
      apply ih more.le inside
      intro other bounded hit
      have behind := before k other (by omega) (hit ▸ below)
      exact ⟨behind.le, (within other bounded hit).2⟩
  | case3 i j k addr miss below moved done => omega
  | case4 i j k addr miss below moved hit =>
      rw [Option.some.injEq]
      constructor
      · rintro rfl
        exact ⟨inside, hit⟩
      · rintro ⟨bounded', hit'⟩
        exact unique j slot inside bounded' hit hit'
  | case5 i j k addr miss below moved missed =>
      apply iff_of_false (by simp)
      rintro ⟨bounded, hit⟩
      have behind := before k slot (by omega) (hit ▸ below)
      have last : slot = j := by
        have range := within slot bounded hit
        omega
      exact missed (last ▸ hit)
  | case6 i j k addr miss above more ih =>
      apply ih more.le (by omega)
      intro other bounded hit
      have beyond : address < addr k := lt_of_le_of_ne (not_lt.mp above) (Ne.symm miss)
      have less := before other k bounded (by rw [hit]; exact beyond)
      exact ⟨(within other bounded hit).1, less.le⟩
  | case7 i j k addr miss above done =>
      apply iff_of_false (by simp)
      rintro ⟨bounded, hit⟩
      have beyond : address < addr k := lt_of_le_of_ne (not_lt.mp above) (Ne.symm miss)
      have less := before slot k bounded (by rw [hit]; exact beyond)
      have range := within slot bounded hit
      omega

end Memalloc

end Suspend
