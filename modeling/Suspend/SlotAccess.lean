import Suspend.MemoryPool

set_option autoImplicit false

namespace Suspend

open Foundation.Alignment

namespace Memalloc

/-- The loop of `free_slot`, with this many slots in front of `last_slot`: the slots whose size is
read, and how many are left. In front of the first slot the loop ends, whatever it reads there. -/
def popLoop (slots : List MemSlot) : Nat → List Int × Nat
  | 0 => ([-1], 0)
  | count + 1 =>
      if (slots.getD count ⟨0, 0⟩).size = 0 then
        ((count : Int) :: (popLoop slots count).1, (popLoop slots count).2)
      else ([(count : Int)], count + 1)

/-- `free_slot`, and the slots that it touches. -/
def freeSlotTouches (slots : List MemSlot) (slot : Nat) : List Int × List MemSlot :=
  let marked := slots.set slot { slots.getD slot ⟨0, 0⟩ with size := 0 }
  if slot = slots.length - 1 then
    let popped := popLoop marked (slots.length - 1)
    ((slot : Int) :: popped.1, marked.take popped.2)
  else ([(slot : Int)], marked)

/-- The search of `freemem`, and the slots that it reads. -/
def findSlotTouches (slots : List MemSlot) (address i j : Nat) : List Int × Option Nat :=
  let k := (i + j) / 2
  let addr := fun index => (slots.getD index ⟨0, 0⟩).addr
  if addr k = address then ([(k : Int)], some k)
  else if addr k < address then
    if i ≠ k then
      if k < j then
        ((k : Int) :: (findSlotTouches slots address k j).1, (findSlotTouches slots address k j).2)
      else ([(k : Int)], none)
    else if addr j = address then ([(k : Int), (j : Int)], some j)
    else ([(k : Int), (j : Int)], none)
  else if i < k then
    ((k : Int) :: (findSlotTouches slots address i k).1, (findSlotTouches slots address i k).2)
  else ([(k : Int)], none)
termination_by j - i

/-- `freemem`, and the slots that it touches. -/
def freememTouches (memory : Memalloc) (address : Nat) : List Int × Memalloc :=
  if memory.slots.length = 0 then ([], memory)
  else
    let found := findSlotTouches memory.slots address 0 (memory.slots.length - 1)
    match found.2 with
    | some slot =>
        let freed := freeSlotTouches memory.slots slot
        (found.1 ++ freed.1, { memory with slots := freed.2 })
    | none => (found.1, memory)

/-- Only slots in front of `cur_slot` are touched. -/
def Inside (memory : Memalloc) (address : Nat) : Prop :=
  ∀ index ∈ (memory.freememTouches address).1, 0 ≤ index ∧ index < memory.slots.length

instance (memory : Memalloc) (address : Nat) : Decidable (memory.Inside address) :=
  inferInstanceAs (Decidable (∀ index ∈ (memory.freememTouches address).1, _))

variable {slots : List MemSlot} {memory : Memalloc} {address i j : Nat}

theorem popLoop_left (slots : List MemSlot) (count : Nat) :
    (popLoop slots count).2 = withoutEmpty slots count := by
  induction count with
  | zero => rfl
  | succ count ih =>
      rw [popLoop, withoutEmpty]
      split
      · exact ih
      · rfl

theorem freeSlotTouches_slots (slots : List MemSlot) (slot : Nat) :
    (freeSlotTouches slots slot).2 = freeSlot slots slot := by
  unfold freeSlotTouches freeSlot
  dsimp only
  split
  · rw [popLoop_left]
  · rfl

theorem findSlotTouches_found (slots : List MemSlot) (address i j : Nat) :
    (findSlotTouches slots address i j).2 = findSlot slots address i j := by
  fun_induction findSlot slots address i j with
  | case1 i j k addr hit =>
      rw [findSlotTouches]
      dsimp only
      rw [if_pos hit]
  | case2 i j k addr miss below moved more ih =>
      rw [findSlotTouches]
      dsimp only
      rw [if_neg miss, if_pos below, if_pos moved, if_pos more]
      exact ih
  | case3 i j k addr miss below moved done =>
      rw [findSlotTouches]
      dsimp only
      rw [if_neg miss, if_pos below, if_pos moved, if_neg done]
  | case4 i j k addr miss below same hit =>
      rw [findSlotTouches]
      dsimp only
      rw [if_neg miss, if_pos below, if_neg same, if_pos hit]
  | case5 i j k addr miss below same missed =>
      rw [findSlotTouches]
      dsimp only
      rw [if_neg miss, if_pos below, if_neg same, if_neg missed]
  | case6 i j k addr miss above more ih =>
      rw [findSlotTouches]
      dsimp only
      rw [if_neg miss, if_neg above, if_pos more]
      exact ih
  | case7 i j k addr miss above done =>
      rw [findSlotTouches]
      dsimp only
      rw [if_neg miss, if_neg above, if_neg done]

/-- The calls do what they do without the record of the slots. -/
theorem freememTouches_result (memory : Memalloc) (address : Nat) :
    (memory.freememTouches address).2 = memory.freemem address := by
  unfold freememTouches freemem
  split
  · rfl
  · dsimp only
    rw [findSlotTouches_found]
    cases findSlot memory.slots address 0 (memory.slots.length - 1) with
    | none => rfl
    | some slot =>
        dsimp only
        rw [freeSlotTouches_slots]

theorem findSlotTouches_between (ordered : i ≤ j) :
    ∀ index ∈ (findSlotTouches slots address i j).1, (i : Int) ≤ index ∧ index ≤ (j : Int) := by
  fun_induction findSlotTouches slots address i j with
  | case1 i j k addr hit => simp; omega
  | case2 i j k addr miss below moved more ih =>
      have later := ih more.le
      intro index member
      rcases List.mem_cons.mp member with rfl | deeper
      · omega
      · have between := later index deeper
        omega
  | case3 i j k addr miss below moved done => simp; omega
  | case4 i j k addr miss below same hit => simp; omega
  | case5 i j k addr miss below same missed => simp; omega
  | case6 i j k addr miss above more ih =>
      have later := ih more.le
      intro index member
      rcases List.mem_cons.mp member with rfl | deeper
      · omega
      · have between := later index deeper
        omega
  | case7 i j k addr miss above done => simp; omega

theorem findSlot_between (ordered : i ≤ j) {slot : Nat}
    (found : findSlot slots address i j = some slot) : i ≤ slot ∧ slot ≤ j := by
  fun_induction findSlot slots address i j with
  | case1 i j k addr hit =>
      have here : k = slot := Option.some.inj found
      omega
  | case2 i j k addr miss below moved more ih =>
      have later := ih more.le found
      omega
  | case4 i j k addr miss below same hit =>
      have here : j = slot := Option.some.inj found
      omega
  | case6 i j k addr miss above more ih =>
      have later := ih more.le found
      omega
  | case3 | case5 | case7 => cases found

theorem popLoop_between (slots : List MemSlot) (count : Nat) :
    ∀ index ∈ (popLoop slots count).1, -1 ≤ index ∧ index < (count : Int) := by
  induction count with
  | zero => simp [popLoop]
  | succ count ih =>
      intro index member
      rw [popLoop] at member
      split at member
      · rcases List.mem_cons.mp member with rfl | deeper
        · omega
        · have between := ih index deeper
          omega
      · rw [List.mem_singleton] at member
        omega

/-- The loop gets in front of the first slot when all slots are empty. -/
theorem popLoop_outside {count : Nat} (room : count ≤ slots.length) :
    -1 ∈ (popLoop slots count).1 ↔ ∀ slot ∈ slots.take count, slot.size = 0 := by
  induction count with
  | zero => simp [popLoop]
  | succ count ih =>
      have found : slots.getD count ⟨0, 0⟩ = slots[count] := List.getD_eq_getElem _ _ room
      have other : (-1 : Int) ≠ (count : Int) := by omega
      rw [popLoop, found, List.take_succ_eq_append_getElem room]
      by_cases empty : slots[count].size = 0
      · rw [if_pos empty, List.mem_cons, or_iff_right other, ih (Nat.le_of_succ_le room)]
        simp only [List.forall_mem_append, List.forall_mem_singleton, empty, and_true]
      · rw [if_neg empty, List.mem_singleton]
        apply iff_of_false other
        intro all
        rw [List.forall_mem_append, List.forall_mem_singleton] at all
        exact empty all.2

/-- The last slot is found, and all others are empty. -/
def Empties (memory : Memalloc) (address : Nat) : Prop :=
  ∃ earlier last, memory.slots = earlier ++ [last] ∧ last.addr = address ∧
    ∀ slot ∈ earlier, slot.size = 0 ∧ slot.addr < address

/-- A call goes outside in one way only. -/
theorem inside_iff (memory : Memalloc) (address : Nat) : memory.Inside address ↔
    ¬ (memory.slots ≠ [] ∧
      findSlot memory.slots address 0 (memory.slots.length - 1) = some (memory.slots.length - 1) ∧
      ∀ slot ∈ memory.slots.dropLast, slot.size = 0) := by
  unfold Inside freememTouches
  by_cases none : memory.slots.length = 0
  · rw [if_pos none]
    simp [List.eq_nil_of_length_eq_zero none]
  · rw [if_neg none]
    have some : memory.slots ≠ [] := fun empty => none (empty ▸ rfl)
    have search := @findSlotTouches_between memory.slots address 0 (memory.slots.length - 1)
      (Nat.zero_le _)
    dsimp only
    rw [findSlotTouches_found]
    cases found : findSlot memory.slots address 0 (memory.slots.length - 1) with
    | none =>
        apply iff_of_true
        · intro index member
          have between := search index member
          omega
        · intro outside
          cases outside.2.1
    | some slot =>
        have within := (findSlot_between (Nat.zero_le _) found).2
        have length : (memory.slots.set slot
            { memory.slots.getD slot ⟨0, 0⟩ with size := 0 }).length = memory.slots.length :=
          List.length_set
        dsimp only
        rw [List.forall_mem_append, freeSlotTouches]
        by_cases last : slot = memory.slots.length - 1
        · have front : (memory.slots.set slot
              { memory.slots.getD slot ⟨0, 0⟩ with size := 0 }).take (memory.slots.length - 1) =
                memory.slots.dropLast := by
            rw [last, List.take_set_of_le (Nat.le_refl _), List.dropLast_eq_take]
          have outside := @popLoop_outside (memory.slots.set slot
            { memory.slots.getD slot ⟨0, 0⟩ with size := 0 }) (memory.slots.length - 1)
            (by rw [length]; exact Nat.sub_le _ _)
          have between := popLoop_between (memory.slots.set slot
            { memory.slots.getD slot ⟨0, 0⟩ with size := 0 }) (memory.slots.length - 1)
          rw [front] at outside
          rw [if_pos last]
          dsimp only
          rw [← outside, List.forall_mem_cons]
          constructor
          · rintro ⟨_, _, inside⟩ ⟨_, _, member⟩
            exact absurd (inside (-1) member).1 (by decide)
          · intro never
            refine ⟨fun index member => ?_, by omega, fun index member => ?_⟩
            · have range := search index member
              omega
            · have range := between index member
              have other : index ≠ -1 := by
                rintro rfl
                exact never ⟨some, congrArg Option.some last, member⟩
              omega
        · rw [if_neg last]
          apply iff_of_true
          · refine ⟨fun index member => ?_, fun index member => ?_⟩
            · have range := search index member
              omega
            · rw [List.mem_singleton] at member
              omega
          · intro outside
            exact last (Option.some.inj outside.2.1)

/-- The calls of the users, blocks without a byte included. -/
inductive Request where
  | getmem (size : Nat)
  | freemem (address : Nat)

def serve (memory : Memalloc) : Request → Memalloc
  | .getmem size => (memory.getmem size).2
  | .freemem address => memory.freemem address

def run (memory : Memalloc) (requests : List Request) : Memalloc := requests.foldl serve memory

/-- What any calls leave of the slots: they lie in the pool, one behind the other. -/
structure Ordered (initial memory : Memalloc) : Prop where
  statics : memory = { initial with slots := memory.slots }
  sorted : (addresses memory.slots).Pairwise (· ≤ ·)
  within : ∀ slot ∈ memory.slots, initial.memPool ≤ slot.addr ∧
    slot.addr + slot.size ≤ initial.memPool + initial.poolSize

namespace Ordered

variable {initial : Memalloc}

theorem behind (ordered : Ordered initial memory) (paged : initial.page.bytes ∣ initial.poolSize)
    (narrow : initial.poolSize < 2 ^ 32) (size : Nat) :
    ∀ slot ∈ memory.slots, slot.addr ≤ initial.memPool + memory.used size := by
  have pages : initial.poolSize + initial.page.bytes ≤ 2 ^ 32 :=
    add_step_le paged (Nat.pow_dvd_pow 2 (initial.page.small.trans (by decide))) narrow
  have pool : memory.memPool = initial.memPool := by rw [ordered.statics]
  have page : memory.page = initial.page := by rw [ordered.statics]
  intro slot member
  obtain ⟨earlier, last, split⟩ := List.eq_nil_or_concat' memory.slots |>.resolve_left
    (List.ne_nil_of_mem member)
  have ends : memory.slots.getLast? = some last := by rw [split, List.getLast?_concat]
  have inside := ordered.within last (List.mem_of_getLast? ends)
  have offset : memory.used size = alignUp (initial.page.alignment size)
      (last.addr - initial.memPool + last.size) := by
    simp only [used, ends]
    rw [behind_eq (by rw [pool, page]; omega), pool, page]
  have above : last.addr - initial.memPool + last.size ≤ memory.used size :=
    offset ▸ le_alignUp (initial.page.alignment_pos size)
  have sorted := ordered.sorted
  rw [split, addresses, List.map_append, List.pairwise_append] at sorted
  rw [split, List.mem_append, List.mem_singleton] at member
  rcases member with before | rfl
  · have below := sorted.2.2 slot.addr (List.mem_map_of_mem before) last.addr (by simp)
    omega
  · omega

theorem getmem (ordered : Ordered initial memory) (paged : initial.page.bytes ∣ initial.poolSize)
    (narrow : initial.poolSize < 2 ^ 32) (size : Nat) :
    Ordered initial (memory.getmem size).2 := by
  have behind := ordered.behind paged narrow size
  unfold Memalloc.getmem
  split
  · exact ordered
  · split
    · exact ordered
    · next fits =>
        have pool : memory.memPool = initial.memPool := by rw [ordered.statics]
        have total : memory.poolSize = initial.poolSize := by rw [ordered.statics]
        rw [pool]
        exact
          { statics := by rw [ordered.statics]
            sorted := by
              rw [addresses, List.map_append, List.pairwise_append]
              refine ⟨ordered.sorted, List.pairwise_singleton _ _, ?_⟩
              simpa [addresses] using behind
            within := by
              intro slot member
              rw [List.mem_append, List.mem_singleton] at member
              rcases member with before | rfl
              · exact ordered.within slot before
              · dsimp only
                omega }

theorem freeSlot (ordered : Ordered initial memory) (slot : Nat) :
    Ordered initial { memory with slots := Memalloc.freeSlot memory.slots slot } where
  statics := by rw [ordered.statics]
  sorted := ordered.sorted.sublist (addresses_freeSlot memory.slots slot).sublist
  within := by
    intro freed member
    have marked : freed ∈ memory.slots.set slot
        { memory.slots.getD slot ⟨0, 0⟩ with size := 0 } := by
      dsimp only [Memalloc.freeSlot] at member
      split at member
      · exact List.mem_of_mem_take member
      · exact member
    by_cases inside : slot < memory.slots.length
    · rcases List.mem_or_eq_of_mem_set marked with old | rfl
      · exact ordered.within freed old
      · rw [List.getD_eq_getElem _ _ inside]
        have before := ordered.within memory.slots[slot] (List.getElem_mem inside)
        dsimp only
        omega
    · rw [List.set_eq_of_length_le (not_lt.mp inside)] at marked
      exact ordered.within freed marked

theorem freemem (ordered : Ordered initial memory) (address : Nat) :
    Ordered initial (memory.freemem address) := by
  unfold Memalloc.freemem
  split
  · exact ordered
  · split
    · exact ordered.freeSlot _
    · exact ordered

theorem run (ordered : Ordered initial memory) (paged : initial.page.bytes ∣ initial.poolSize)
    (narrow : initial.poolSize < 2 ^ 32) (requests : List Request) :
    Ordered initial (memory.run requests) := by
  unfold Memalloc.run
  induction requests generalizing memory with
  | nil => exact ordered
  | cons request requests ih =>
      rw [List.foldl_cons]
      apply ih
      cases request with
      | getmem size => exact ordered.getmem paged narrow size
      | freemem address => exact ordered.freemem address

end Ordered

theorem findSlot_hit {slot : Nat} (found : findSlot slots address i j = some slot) :
    (slots.getD slot ⟨0, 0⟩).addr = address := by
  fun_induction findSlot slots address i j with
  | case1 i j k addr hit =>
      have here : k = slot := Option.some.inj found
      exact here ▸ hit
  | case2 i j k addr miss below moved more ih => exact ih found
  | case4 i j k addr miss below same hit =>
      have here : j = slot := Option.some.inj found
      exact here ▸ hit
  | case6 i j k addr miss above more ih => exact ih found
  | case3 | case5 | case7 => cases found

/-- The search goes to the end if the slot in front of it is too low. -/
theorem findSlot_end (ordered : i ≤ j) (sorted : ∀ first second, first ≤ second → second ≤ j →
      (slots.getD first ⟨0, 0⟩).addr ≤ (slots.getD second ⟨0, 0⟩).addr) :
    findSlot slots address i j = some j ↔ (slots.getD j ⟨0, 0⟩).addr = address ∧
      (i < j → (slots.getD (j - 1) ⟨0, 0⟩).addr < address) := by
  fun_induction findSlot slots address i j with
  | case1 i j k addr hit =>
      rw [Option.some.injEq]
      by_cases single : i < j
      · have before : addr k ≤ addr (j - 1) := sorted k (j - 1) (by omega) (Nat.sub_le _ _)
        apply iff_of_false
        · omega
        · intro reached
          have low : addr (j - 1) < address := reached.2 single
          omega
      · have here : k = j := by omega
        exact iff_of_true here ⟨here ▸ hit, fun more => absurd more single⟩
  | case2 i j k addr miss below moved more ih =>
      rw [ih more.le sorted]
      simp only [more, ordered.lt_of_ne (by omega : i ≠ j), true_imp_iff]
  | case3 i j k addr miss below moved done => omega
  | case4 i j k addr miss below same hit =>
      apply iff_of_true rfl
      refine ⟨hit, fun more => ?_⟩
      have neighbour : j - 1 = k := by omega
      rw [neighbour]
      exact below
  | case5 i j k addr miss below same missed =>
      apply iff_of_false (Option.some_ne_none j).symm
      exact fun reached => missed reached.1
  | case6 i j k addr miss above more ih =>
      have high : addr k ≤ addr j := sorted k j (by omega) (Nat.le_refl j)
      apply iff_of_false
      · intro found
        have hit : addr j = address := findSlot_hit found
        omega
      · intro reached
        have hit : addr j = address := reached.1
        omega
  | case7 i j k addr miss above done =>
      have high : addr k ≤ addr j := sorted k j (by omega) (Nat.le_refl j)
      apply iff_of_false (Option.some_ne_none j).symm
      intro reached
      have hit : addr j = address := reached.1
      omega

theorem Ordered.empties_iff {initial : Memalloc} (ordered : Ordered initial memory)
    (address : Nat) : memory.Empties address ↔ memory.slots ≠ [] ∧
      findSlot memory.slots address 0 (memory.slots.length - 1) = some (memory.slots.length - 1) ∧
      ∀ slot ∈ memory.slots.dropLast, slot.size = 0 := by
  rcases List.eq_nil_or_concat' memory.slots with none | ⟨earlier, last, split⟩
  · apply iff_of_false
    · rintro ⟨earlier, last, split, _⟩
      rw [none] at split
      exact absurd split.symm (List.append_ne_nil_of_right_ne_nil _ (List.cons_ne_nil _ _))
    · exact fun some => some.1 none
  · have bound : memory.slots.length - 1 = earlier.length := by
      rw [split, List.length_append, List.length_singleton, Nat.add_sub_cancel]
    have ends : (memory.slots.getD earlier.length ⟨0, 0⟩).addr = last.addr := by
      simp [split]
    have sorted : ∀ first second, first ≤ second → second ≤ earlier.length →
        (memory.slots.getD first ⟨0, 0⟩).addr ≤ (memory.slots.getD second ⟨0, 0⟩).addr := by
      intro first second before room
      have inside : second < memory.slots.length := by
        rw [split, List.length_append, List.length_singleton]
        omega
      rw [List.getD_eq_getElem _ _ inside, List.getD_eq_getElem _ _ (before.trans_lt inside)]
      rcases before.eq_or_lt with rfl | less
      · exact Nat.le_refl _
      · have pairs := List.pairwise_iff_getElem.mp ordered.sorted first second
          (by rw [addresses, List.length_map]; omega) (by rw [addresses, List.length_map]; omega)
          less
        simpa [addresses] using pairs
    have front : ∀ index < earlier.length, ∃ slot ∈ earlier,
        memory.slots.getD index ⟨0, 0⟩ = slot := by
      intro index inside
      refine ⟨earlier[index], List.getElem_mem inside, ?_⟩
      simp [split, List.getElem?_append_left inside, inside]
    have low : (0 < earlier.length →
        (memory.slots.getD (earlier.length - 1) ⟨0, 0⟩).addr < address) ↔
        ∀ slot ∈ earlier, slot.addr < address := by
      constructor
      · intro last slot member
        obtain ⟨index, inside, rfl⟩ := List.getElem_of_mem member
        have below := sorted index (earlier.length - 1) (by omega) (Nat.sub_le _ _)
        have highest := last (by omega)
        simp only [split, List.getD_append _ _ _ _ inside, List.getD_eq_getElem _ _ inside]
          at below
        rw [split] at highest
        omega
      · intro all some
        obtain ⟨slot, member, found⟩ := front (earlier.length - 1) (by omega)
        rw [found]
        exact all slot member
    have some : memory.slots ≠ [] := by
      rw [split]
      exact List.append_ne_nil_of_right_ne_nil _ (List.cons_ne_nil _ _)
    rw [bound, findSlot_end (Nat.zero_le _) sorted, ends, low, split, List.dropLast_concat]
    constructor
    · rintro ⟨others, final, same, hit, empty⟩
      obtain ⟨rfl, final⟩ := List.append_inj' (split.symm.trans same) rfl
      cases final
      exact ⟨split ▸ some, ⟨hit, fun slot member => (empty slot member).2⟩,
        fun slot member => (empty slot member).1⟩
    · rintro ⟨_, ⟨hit, below⟩, empty⟩
      exact ⟨earlier, last, split, hit, fun slot member => ⟨empty slot member, below slot member⟩⟩

/-- Whatever has been called, `freemem`, with the slots that it touches, keeps to those in use if
and only if it does not free the last of them while all others are empty. The program has
`init_memalloc` take one page for the slots, so that an `int` counts them, and the size of the pool
is an unsigned int. -/
theorem freemem_inside_iff (page : PageSize) (memSize : Nat)
    (memory : MallocBlock (poolBytes page page.bytes memSize))
    (narrow : page.roundUpPageSize memSize < 2 ^ 32) (requests : List Request) (address : Nat) :
    let before := (initMemalloc page page.bytes memSize memory).run requests
    (before.freememTouches address).2 = before.freemem address ∧
      (before.Inside address ↔ ¬ before.Empties address) := by
  intro before
  have start : Ordered (initMemalloc page page.bytes memSize memory)
      (initMemalloc page page.bytes memSize memory) :=
    ⟨rfl, List.Pairwise.nil, fun _ member => absurd member List.not_mem_nil⟩
  have ordered := start.run (page.dvd_roundUpPageSize memSize) narrow requests
  refine ⟨freememTouches_result before address, ?_⟩
  rw [inside_iff, ordered.empties_iff]

/-- Memory for a pool of one page and its slots. -/
def onePagePool : MallocBlock (poolBytes .fourKilobytes PageSize.fourKilobytes.bytes 4096) :=
  ⟨2 ^ 40, by decide, by decide +kernel⟩

/-- Three blocks, of which the second one has been freed. -/
def threeBlocks : List Request :=
  [.getmem 64, .getmem 64, .getmem 64, .freemem (2 ^ 40 + 4096 + 64)]

/-- When the third block is freed, the slot of the second one is passed over as well, and that of
the first one ends the loop. -/
theorem third_of_three_inside :
    ((initMemalloc .fourKilobytes PageSize.fourKilobytes.bytes 4096 onePagePool).run
      threeBlocks).Inside (2 ^ 40 + 4096 + 128) := by
  have first : ∃ slot ∈ ((initMemalloc .fourKilobytes PageSize.fourKilobytes.bytes 4096
      onePagePool).run threeBlocks).slots.dropLast, slot.size ≠ 0 := by
    decide +kernel
  apply (freemem_inside_iff .fourKilobytes 4096 onePagePool (by decide +kernel)
    threeBlocks (2 ^ 40 + 4096 + 128)).2.mpr
  rintro ⟨earlier, last, split, _, empty⟩
  rw [split, List.dropLast_concat] at first
  obtain ⟨slot, member, used⟩ := first
  exact used (empty slot member).1

/-- Freeing the only block reads the size in front of the first slot. -/
theorem only_block_outside :
    ¬ ((initMemalloc .fourKilobytes PageSize.fourKilobytes.bytes 4096 onePagePool).run
      [.getmem 64]).Inside (2 ^ 40 + 4096) := by
  decide +kernel

/-- Users who ask for at least a byte each time go outside when they free their only block. -/
theorem Sound.empties_iff {initial : Memalloc} {live : List MemSlot}
    (sound : Sound initial memory live) (address : Nat) :
    memory.Empties address ↔ ∃ block, live = [block] ∧ block.addr = address := by
  constructor
  · rintro ⟨earlier, last, split, hit, empty⟩
    have used := sound.lastUsed last (by rw [split]; exact List.getLast?_concat)
    have none : blocks earlier = [] := by
      apply List.filter_eq_nil_iff.mpr
      intro slot member
      simp [(empty slot member).1]
    refine ⟨last, ?_, hit⟩
    rw [← sound.tracked, split, blocks, List.filter_append, ← blocks, none]
    simp [used]
  · rintro ⟨block, rfl, hit⟩
    obtain ⟨earlier, last, split⟩ := List.eq_nil_or_concat' memory.slots |>.resolve_left (by
      intro none
      have tracked := sound.tracked
      rw [none] at tracked
      cases tracked)
    have ends : last ∈ memory.slots.getLast? := by rw [split]; exact List.getLast?_concat
    have only : last = block := List.mem_singleton.mp (sound.last_live ends).1
    subst only
    refine ⟨earlier, last, split, hit, fun slot member => ⟨?_, ?_⟩⟩
    · have tracked := sound.tracked
      have used := sound.lastUsed last ends
      rw [split, blocks, List.filter_append] at tracked
      have none : earlier.filter (·.size ≠ 0) = [] := by
        have tail : [last].filter (fun slot => decide (slot.size ≠ 0)) = [last] := by simp [used]
        rw [tail] at tracked
        exact List.append_left_eq_self.mp tracked
      simpa using List.filter_eq_nil_iff.mp none slot member
    · have sorted := sound.increasing
      rw [split, addresses, List.map_append, List.pairwise_append] at sorted
      exact hit ▸ sorted.2.2 slot.addr (List.mem_map_of_mem member) last.addr (by simp)

end Memalloc

end Suspend
