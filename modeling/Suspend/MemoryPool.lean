import Suspend.Memalloc

set_option autoImplicit false

namespace Suspend

open Foundation.Alignment

namespace Memalloc

inductive Call where
  | getmem (size : Nat) (nonempty : 0 < size)
  | freemem (address : Nat)

/-- The answer to a call, and the state after it. -/
def answer (memory : Memalloc) : Call → Option Nat × Memalloc
  | .getmem size _ => memory.getmem size
  | .freemem address => (none, memory.freemem address)

/-- The blocks that are live for the caller after a call that was answered so. -/
def liveAfter (live : List MemSlot) : Call → Option Nat → List MemSlot
  | .getmem size _, some address => live ++ [⟨address, size⟩]
  | .getmem _ _, none => live
  | .freemem address, _ => live.filter (·.addr ≠ address)

/-- The state after a sequence of calls, and the blocks that are live. -/
def after (initial : Memalloc) (calls : List Call) : Memalloc × List MemSlot :=
  calls.foldl
    (fun state call =>
      ((state.1.answer call).2, liveAfter state.2 call (state.1.answer call).1))
    (initial, [])

/-- What holds of the slots when these blocks are live. -/
structure Sound (initial memory : Memalloc) (live : List MemSlot) : Prop where
  statics : memory = { initial with slots := memory.slots }
  increasing : (addresses memory.slots).Pairwise (· < ·)
  grid : ∀ address ∈ addresses memory.slots,
    8 ∣ address ∧ initial.memPool ≤ address ∧ address < initial.memPool + initial.poolSize
  tracked : blocks memory.slots = live
  disjoint : live.Pairwise fun first second => first.addr + first.size ≤ second.addr
  inside : ∀ block ∈ live, initial.memPool ≤ block.addr ∧
    block.addr + block.size ≤ initial.memPool + initial.poolSize
  aligned : ∀ block ∈ live, initial.page.alignment block.size ∣ block.addr
  lastUsed : ∀ last ∈ memory.slots.getLast?, last.size ≠ 0

/-- The offsets fit in an unsigned int, or only one of them is ever used. -/
def Narrow (memory : Memalloc) : Prop := memory.poolSize < 2 ^ 32 ∨ memory.nrSlots < 2

/-- A pool that consists of whole pages. -/
structure Paged (memory : Memalloc) : Prop where
  start : memory.page.bytes ∣ memory.memPool
  size : memory.page.bytes ∣ memory.poolSize
  unused : memory.slots = []

variable {initial memory : Memalloc} {live : List MemSlot}

theorem eight_dvd_alignment (page : PageSize) (size : Nat) : 8 ∣ page.alignment size := by
  have natural : 2 < Nat.clog 2 (max size 8) :=
    (Nat.lt_clog_iff_pow_lt one_lt_two).mpr (lt_of_lt_of_le (by decide) (le_max_right size 8))
  have large := page.large
  rw [PageSize.alignment_eq]
  exact pow_dvd_pow 2 (show 3 ≤ min page.shift (Nat.clog 2 (max size 8)) by omega)

namespace Sound

theorem page (sound : Sound initial memory live) : memory.page = initial.page := by
  rw [sound.statics]

theorem memPool (sound : Sound initial memory live) : memory.memPool = initial.memPool := by
  rw [sound.statics]

theorem poolSize (sound : Sound initial memory live) : memory.poolSize = initial.poolSize := by
  rw [sound.statics]

theorem nrSlots (sound : Sound initial memory live) : memory.nrSlots = initial.nrSlots := by
  rw [sound.statics]

theorem start (paged : Paged initial) : Sound initial initial [] where
  statics := rfl
  increasing := by simp [paged.unused, addresses]
  grid := by simp [paged.unused, addresses]
  tracked := by simp [paged.unused, blocks]
  disjoint := List.Pairwise.nil
  inside := by simp
  aligned := by simp
  lastUsed := by simp [paged.unused]

/-- The slots are the blocks that are live, the last one last. -/
theorem last_live (sound : Sound initial memory live) {last : MemSlot}
    (ends : last ∈ memory.slots.getLast?) :
    last ∈ live ∧ (∀ address ∈ addresses memory.slots, address ≤ last.addr) ∧
      ∀ block ∈ live, block.addr + block.size ≤ last.addr + last.size := by
  obtain ⟨front, split⟩ := List.getLast?_eq_some_iff.mp ends
  have used := sound.lastUsed last ends
  have split_live : live = blocks front ++ [last] := by
    rw [← sound.tracked, split, blocks, List.filter_append]
    simp [used, blocks]
  refine ⟨by simp [split_live], ?_, ?_⟩
  · have sorted := sound.increasing
    rw [split, addresses, List.map_append, List.pairwise_append] at sorted
    intro address present
    rw [split, addresses, List.map_append, List.mem_append] at present
    rcases present with before | same
    · exact (sorted.2.2 address before last.addr (by simp)).le
    · simp only [List.map_cons, List.map_nil, List.mem_singleton] at same
      exact same.le
  · have apart := sound.disjoint
    rw [split_live, List.pairwise_append] at apart
    intro block present
    rw [split_live, List.mem_append, List.mem_singleton] at present
    rcases present with before | rfl
    · exact (apart.2.2 block before last (by simp)).trans (Nat.le_add_right _ _)
    · exact le_refl _

/-- Where `getmem` puts a block: at the start of the pool, or at the next aligned offset behind
the last slot. -/
theorem used_spec (paged : Paged initial) (narrow : Narrow initial)
    (sound : Sound initial memory live) (room : ¬ memory.nrSlots ≤ memory.slots.length)
    (size : Nat) :
    initial.page.alignment size ∣ initial.memPool + memory.used size ∧
      (∀ address ∈ addresses memory.slots, address < initial.memPool + memory.used size) ∧
      ∀ block ∈ live, block.addr + block.size ≤ initial.memPool + memory.used size := by
  have pool := (initial.page.alignment_dvd size).trans paged.start
  cases ends : memory.slots.getLast? with
  | none =>
      have empty : memory.slots = [] := List.getLast?_eq_none_iff.mp ends
      have free : live = [] := by
        rw [← sound.tracked, empty]
        rfl
      simp only [used, ends]
      exact ⟨pool, by simp [empty, addresses], by simp [free]⟩
  | some last =>
      obtain ⟨live_last, addresses_le, blocks_le⟩ := sound.last_live ends
      have within := sound.inside last live_last
      have nonzero := sound.lastUsed last ends
      have nonempty : memory.slots ≠ [] := by
        intro empty
        simp [empty] at ends
      have one : 0 < memory.slots.length := List.length_pos_iff.mpr nonempty
      have slots := sound.nrSlots
      have low : initial.poolSize < 2 ^ 32 := narrow.resolve_right (by omega)
      have pages : initial.poolSize + initial.page.bytes ≤ 2 ^ 32 :=
        add_step_le paged.size (Nat.pow_dvd_pow 2 (initial.page.small.trans (by decide))) low
      have offset : memory.used size = alignUp (initial.page.alignment size)
          (last.addr - initial.memPool + last.size) := by
        simp only [used, ends]
        rw [behind_eq (by rw [sound.memPool, sound.page]; omega), sound.memPool, sound.page]
      have above : last.addr - initial.memPool + last.size ≤ memory.used size :=
        offset ▸ le_alignUp (initial.page.alignment_pos size)
      refine ⟨?_, ?_, ?_⟩
      · rw [offset]
        exact Nat.dvd_add pool dvd_alignUp
      · intro address present
        have bounded := addresses_le address present
        omega
      · intro block present
        have bounded := blocks_le block present
        omega

theorem getmem (paged : Paged initial) (narrow : Narrow initial)
    (sound : Sound initial memory live) {size : Nat} (nonempty : 0 < size) :
    Sound initial (memory.getmem size).2
      (liveAfter live (.getmem size nonempty) (memory.getmem size).1) := by
  unfold Memalloc.getmem
  by_cases room : memory.nrSlots ≤ memory.slots.length
  · rw [if_pos room]
    exact sound
  · obtain ⟨aligned, increasing, disjoint⟩ := used_spec paged narrow sound room size
    rw [if_neg room]
    split
    · exact sound
    · next fits =>
        have inside : memory.used size + size ≤ initial.poolSize := by
          rw [sound.poolSize] at fits
          omega
        have eight := (eight_dvd_alignment initial.page size).trans aligned
        rw [sound.memPool]
        exact
          { statics := by rw [sound.statics]
            increasing := by
              rw [addresses, List.map_append, List.pairwise_append]
              exact ⟨sound.increasing, by simp, by simpa [addresses] using increasing⟩
            grid := by
              intro address present
              rw [addresses, List.map_append, List.mem_append] at present
              rcases present with before | here
              · exact sound.grid address before
              · rw [List.map_singleton, List.mem_singleton] at here
                subst here
                exact ⟨eight, Nat.le_add_right _ _, by dsimp only; omega⟩
            tracked := by
              rw [blocks, List.filter_append, ← blocks, sound.tracked]
              simp [liveAfter, Nat.ne_of_gt nonempty]
            disjoint := by
              rw [liveAfter, List.pairwise_append]
              exact ⟨sound.disjoint, by simp, by simpa using disjoint⟩
            inside := by
              intro block present
              rw [liveAfter, List.mem_append, List.mem_singleton] at present
              rcases present with before | rfl
              · exact sound.inside block before
              · exact ⟨Nat.le_add_right _ _, by dsimp only; omega⟩
            aligned := by
              intro block present
              rw [liveAfter, List.mem_append, List.mem_singleton] at present
              rcases present with before | rfl
              · exact sound.aligned block before
              · exact aligned
            lastUsed := by
              intro last ends
              rw [List.getLast?_concat, Option.mem_some_iff] at ends
              exact ends ▸ Nat.ne_of_gt nonempty }

/-- A slot that `freemem` frees has the address, and no address of a slot is overlooked. -/
theorem freemem_eq (sound : Sound initial memory live) (address : Nat) :
    (∃ slot, ∃ inside : slot < memory.slots.length, memory.slots[slot].addr = address ∧
      memory.freemem address = { memory with slots := freeSlot memory.slots slot }) ∨
      (address ∉ addresses memory.slots ∧ memory.freemem address = memory) := by
  by_cases empty : memory.slots.length = 0
  · right
    have none := List.eq_nil_of_length_eq_zero empty
    exact ⟨by simp [none, addresses], by rw [Memalloc.freemem, if_pos empty]⟩
  · have sorted : ∀ first second, first < second → second < memory.slots.length →
        (memory.slots.getD first ⟨0, 0⟩).addr < (memory.slots.getD second ⟨0, 0⟩).addr := by
      intro first second less bounded
      rw [List.getD_eq_getElem _ _ bounded, List.getD_eq_getElem _ _ (less.trans bounded)]
      have pairs := List.pairwise_iff_getElem.mp sound.increasing first second
        (by rw [addresses, List.length_map]; omega) (by rw [addresses, List.length_map]; omega) less
      simpa [addresses] using pairs
    have found : ∀ slot, findSlot memory.slots address 0 (memory.slots.length - 1) = some slot ↔
        slot < memory.slots.length ∧ (memory.slots.getD slot ⟨0, 0⟩).addr = address :=
      findSlot_eq sorted (Nat.zero_le _) (Nat.sub_lt (Nat.pos_of_ne_zero empty) one_pos)
        (by intro slot bounded _; omega)
    rw [Memalloc.freemem, if_neg empty]
    cases search : findSlot memory.slots address 0 (memory.slots.length - 1) with
    | some slot =>
        left
        obtain ⟨inside, hit⟩ := (found slot).mp search
        rw [List.getD_eq_getElem _ _ inside] at hit
        exact ⟨slot, inside, hit, rfl⟩
    | none =>
        right
        refine ⟨?_, rfl⟩
        intro present
        obtain ⟨slot, inside, hit⟩ := List.getElem_of_mem present
        rw [addresses, List.length_map] at inside
        simp only [addresses, List.getElem_map] at hit
        have again := (found slot).mpr ⟨inside, by rw [List.getD_eq_getElem _ _ inside, hit]⟩
        rw [search] at again
        cases again

/-- `freemem` releases the block at the address and no other one. -/
theorem freemem_blocks (sound : Sound initial memory live) (address : Nat) :
    blocks (memory.freemem address).slots = live.filter (·.addr ≠ address) := by
  rcases sound.freemem_eq address with ⟨slot, inside, hit, result⟩ | ⟨absent, result⟩
  · rw [result, blocks_freeSlot sound.increasing inside, hit, sound.tracked]
  · rw [result, sound.tracked]
    symm
    rw [List.filter_eq_self]
    intro block present
    rw [← sound.tracked] at present
    have other : block.addr ≠ address := by
      intro same
      exact absent (same ▸ List.mem_map_of_mem (List.mem_of_mem_filter present))
    simpa using other

theorem freemem (sound : Sound initial memory live) (address : Nat) :
    Sound initial (memory.freemem address) (live.filter (·.addr ≠ address)) := by
  have shorter : (addresses (memory.freemem address).slots).Sublist (addresses memory.slots) := by
    rcases sound.freemem_eq address with ⟨slot, inside, hit, result⟩ | ⟨absent, result⟩
    · rw [result]
      exact (addresses_freeSlot memory.slots slot).sublist
    · rw [result]
  exact
    { statics := by
        rcases sound.freemem_eq address with ⟨slot, inside, hit, result⟩ | ⟨absent, result⟩
        · rw [result, sound.statics]
        · rw [result]
          exact sound.statics
      increasing := sound.increasing.sublist shorter
      grid := fun other present => sound.grid other (shorter.subset present)
      tracked := sound.freemem_blocks address
      disjoint := sound.disjoint.sublist List.filter_sublist
      inside := fun block present => sound.inside block (List.mem_of_mem_filter present)
      aligned := fun block present => sound.aligned block (List.mem_of_mem_filter present)
      lastUsed := by
        rcases sound.freemem_eq address with ⟨slot, inside, hit, result⟩ | ⟨absent, result⟩
        · rw [result]
          exact freeSlot_last sound.lastUsed slot
        · rw [result]
          exact sound.lastUsed }

/-- Once no block is live, the state is the initial one. -/
theorem reset (sound : Sound initial memory []) (unused : initial.slots = []) :
    memory = initial := by
  have empty : memory.slots = [] := by
    rw [← List.getLast?_eq_none_iff]
    by_contra used
    obtain ⟨last, ends⟩ := Option.ne_none_iff_exists'.mp used
    cases (sound.last_live ends).1
  rw [sound.statics, empty, ← unused]

/-- In a pool below `2 ^ 32` so few slots are in use that `freemem` can count them with an `int`. -/
theorem few (sound : Sound initial memory live) (low : initial.poolSize < 2 ^ 32) :
    memory.slots.length ≤ 2 ^ 29 := by
  have spaced : ∀ (numbers : List Nat) (first limit : Nat), numbers.Pairwise (· < ·) →
      (∀ number ∈ numbers, 8 ∣ number ∧ first ≤ number ∧ number < limit) →
      8 * numbers.length ≤ limit - first + 7 := by
    intro numbers
    induction numbers with
    | nil => simp
    | cons head rest ih =>
        intro first limit sorted grid
        rw [List.pairwise_cons] at sorted
        have start := grid head List.mem_cons_self
        have more := ih (head + 8) limit sorted.2 fun number present => by
          have beyond := sorted.1 number present
          have placed := grid number (List.mem_cons_of_mem head present)
          exact ⟨placed.1, by omega, placed.2.2⟩
        rw [List.length_cons]
        cases rest with
        | nil => simp; omega
        | cons next rest =>
            have placed := grid next (by simp)
            have beyond := sorted.1 next List.mem_cons_self
            omega
  have bound := spaced _ initial.memPool (initial.memPool + initial.poolSize) sound.increasing
    sound.grid
  rw [addresses, List.length_map] at bound
  omega

end Sound

theorem after_sound (paged : Paged initial) (narrow : Narrow initial) (calls : List Call) :
    Sound initial (initial.after calls).1 (initial.after calls).2 := by
  unfold after
  generalize hstate : (initial, ([] : List MemSlot)) = state
  have sound : Sound initial state.1 state.2 := hstate ▸ Sound.start paged
  clear hstate
  induction calls generalizing state with
  | nil => exact sound
  | cons call calls ih =>
      rw [List.foldl_cons]
      apply ih
      cases call with
      | getmem size nonempty => exact sound.getmem paged narrow nonempty
      | freemem address => exact sound.freemem address

/-- The pool starts behind the slots and ends inside the memory from `malloc`. -/
structure Contained (page : PageSize) (aux pool : Nat)
    (memory : MallocBlock (poolBytes page aux pool)) : Prop where
  slots : 16 * (initMemalloc page aux pool memory).nrSlots ≤ page.roundUpPageSize aux
  behind : memory.start + page.roundUpPageSize aux ≤ (initMemalloc page aux pool memory).memPool
  inside : (initMemalloc page aux pool memory).memPool +
    (initMemalloc page aux pool memory).poolSize ≤ memory.start + poolBytes page aux pool

/-- What the users of the pool rely on after any calls. -/
structure Reliable (initial : Memalloc) (calls : List Call) : Prop where
  sound : Sound initial (initial.after calls).1 (initial.after calls).2
  refused : ∀ size, ((initial.after calls).1.getmem size).1 = none →
    ((initial.after calls).1.getmem size).2 = (initial.after calls).1
  released : ∀ address, blocks ((initial.after calls).1.freemem address).slots =
    (initial.after calls).2.filter (·.addr ≠ address)
  reset : (initial.after calls).2 = [] → (initial.after calls).1 = initial

/-- The allocator works. -/
def Works (page : PageSize) (aux pool : Nat)
    (memory : MallocBlock (poolBytes page aux pool)) : Prop :=
  Contained page aux pool memory ∧
    ∀ calls, Reliable (initMemalloc page aux pool memory) calls

/-- What has been asked for fits in a `size_t`, and the offsets in the pool fit in an unsigned
int unless there is at most one slot. -/
def Fits (page : PageSize) (aux pool : Nat) : Prop :=
  page.roundUpPageSize aux + page.roundUpPageSize pool + page.bytes < 2 ^ 64 ∧
    (page.roundUpPageSize pool < 2 ^ 32 ∨ page.roundUpPageSize aux / 16 % 2 ^ 32 < 2)

theorem getmem_refused (memory : Memalloc) {size : Nat} (refused : (memory.getmem size).1 = none) :
    (memory.getmem size).2 = memory := by
  unfold Memalloc.getmem at *
  by_cases room : memory.nrSlots ≤ memory.slots.length
  · rw [if_pos room]
  · rw [if_neg room] at refused ⊢
    by_cases full : memory.poolSize < memory.used size ∨ memory.poolSize - memory.used size < size
    · rw [if_pos full]
    · rw [if_neg full] at refused
      cases refused

theorem init_paged {page : PageSize} {aux pool : Nat}
    (memory : MallocBlock (poolBytes page aux pool))
    (fits : page.roundUpPageSize aux + page.roundUpPageSize pool + page.bytes < 2 ^ 64) :
    Paged (initMemalloc page aux pool memory) ∧ Contained page aux pool memory := by
  have positive := page.bytes_pos
  have inside := memory.inside
  have total : poolBytes page aux pool =
      page.roundUpPageSize aux + page.roundUpPageSize pool + page.bytes := Nat.mod_eq_of_lt fits
  have room : memory.start + page.roundUpPageSize aux + page.bytes ≤ 2 ^ 64 := by omega
  have bound : memory.start + page.roundUpPageSize aux < 2 ^ 64 := by omega
  have position : page.bytes ∣ (initMemalloc page aux pool memory).memPool ∧
      memory.start + page.roundUpPageSize aux ≤ (initMemalloc page aux pool memory).memPool ∧
      (initMemalloc page aux pool memory).memPool <
        memory.start + page.roundUpPageSize aux + page.bytes := by
    unfold initMemalloc
    dsimp only
    rw [PageSize.and_pageMask, Nat.mod_mod, Nat.mod_eq_of_lt bound]
    generalize memory.start + page.roundUpPageSize aux = mem at *
    have below := Nat.div_mul_le_self mem page.bytes
    have split := Nat.div_add_mod mem page.bytes
    have rest := Nat.mod_lt mem positive
    rw [mul_comm] at split
    split
    · next short =>
        rw [Nat.mod_eq_of_lt (by omega)]
        exact ⟨Nat.dvd_add (Nat.dvd_mul_left _ _) (dvd_refl _), by omega, by omega⟩
    · next exact =>
        have whole : mem / page.bytes * page.bytes = mem := by omega
        exact ⟨whole ▸ Nat.dvd_mul_left _ _, le_refl _, by omega⟩
  refine ⟨⟨position.1, page.dvd_roundUpPageSize pool, rfl⟩, ⟨?_, position.2.1, ?_⟩⟩
  · show 16 * (page.roundUpPageSize aux / 16 % 2 ^ 32) ≤ page.roundUpPageSize aux
    omega
  · show _ + page.roundUpPageSize pool ≤ _
    omega

/-- With offsets beyond an unsigned int, the second block may lie in the first one. -/
theorem wide_overlaps {initial : Memalloc} (unused : initial.slots = [])
    (large : 2 ^ 32 ≤ initial.poolSize) (several : 2 ≤ initial.nrSlots) :
    (initial.after [.getmem (2 ^ 32) (by decide), .getmem 8 (by decide)]).2 =
      [⟨initial.memPool, 2 ^ 32⟩, ⟨initial.memPool, 8⟩] := by
  have free : ¬ initial.nrSlots ≤ 0 := by omega
  have first : initial.getmem (2 ^ 32) =
      (some initial.memPool, { initial with slots := [⟨initial.memPool, 2 ^ 32⟩] }) := by
    unfold Memalloc.getmem used
    simp only [unused, List.length_nil, free, List.getLast?_nil, ↓reduceIte]
    rw [if_neg (by omega)]
    rfl
  have back : ({ initial with slots := [⟨initial.memPool, 2 ^ 32⟩] } : Memalloc).used 8 = 0 := by
    have small : ¬ initial.page.bytes ≤ 8 := by
      have large := initial.page.bytes_large
      omega
    have aligned : alignSize 8 0 = 8 := by
      rw [alignSize_eq (Or.inl rfl)]
      exact naturalSize_eq (show 8 ≤ 2 ^ (2 + 1) by decide) (show 2 ^ 2 < 8 by decide)
    simp only [used, behind, List.getLast?_singleton, small, ↓reduceIte, aligned, Nat.sub_self]
    decide
  have second : (({ initial with slots := [⟨initial.memPool, 2 ^ 32⟩] } : Memalloc).getmem 8).1 =
      some initial.memPool := by
    unfold Memalloc.getmem
    rw [back]
    simp only [List.length_singleton]
    rw [if_neg (by omega), if_neg (by omega)]
    rfl
  simp only [after, List.foldl_cons, List.foldl_nil, answer, first, second, liveAfter,
    List.nil_append, List.singleton_append]

theorem not_works_wide {page : PageSize} {aux pool : Nat}
    {memory : MallocBlock (poolBytes page aux pool)} (large : 2 ^ 32 ≤ page.roundUpPageSize pool)
    (several : 2 ≤ page.roundUpPageSize aux / 16 % 2 ^ 32) : ¬ Works page aux pool memory := by
  rintro ⟨_, reliable⟩
  have blocks := @wide_overlaps (initMemalloc page aux pool memory) rfl large several
  have disjoint := (reliable [.getmem (2 ^ 32) (by decide), .getmem 8 (by decide)]).sound.disjoint
  rw [blocks] at disjoint
  simp at disjoint

/-- The allocator works if and only if the sizes do not overflow. -/
theorem works_iff (page : PageSize) (aux pool : Nat)
    (memory : MallocBlock (poolBytes page aux pool)) :
    Works page aux pool memory ↔ Fits page aux pool := by
  constructor
  · rintro ⟨contained, reliable⟩
    have behind := contained.behind
    have inside := contained.inside
    have small := page.bytes_small
    have size : (initMemalloc page aux pool memory).poolSize = page.roundUpPageSize pool := rfl
    constructor
    · unfold poolBytes at inside
      omega
    · by_contra wide
      rw [not_or, not_lt, not_lt] at wide
      exact not_works_wide wide.1 wide.2 ⟨contained, reliable⟩
  · rintro ⟨fits, narrow⟩
    obtain ⟨paged, contained⟩ := init_paged memory fits
    refine ⟨contained, fun calls => ?_⟩
    have sound := after_sound paged narrow calls
    exact
      { sound
        refused := fun size => getmem_refused _
        released := sound.freemem_blocks
        reset := fun none => by
          rw [none] at sound
          exact sound.reset rfl }

/-- In a pool of four gigabytes the block after the one that fills it is put at its start. -/
theorem four_gigabytes_overlap :
    let memory : MallocBlock (poolBytes .fourKilobytes 4096 (2 ^ 32)) :=
      ⟨2 ^ 40, by decide, by decide +kernel⟩
    ((initMemalloc .fourKilobytes 4096 (2 ^ 32) memory).after
        [.getmem (2 ^ 32) (by decide), .getmem 8 (by decide)]).2 =
      [⟨2 ^ 40 + 4096, 2 ^ 32⟩, ⟨2 ^ 40 + 4096, 8⟩] ∧
      ¬ Works .fourKilobytes 4096 (2 ^ 32) memory := by
  intro memory
  have start : (initMemalloc .fourKilobytes 4096 (2 ^ 32) memory).memPool = 2 ^ 40 + 4096 := by
    decide +kernel
  constructor
  · rw [← start]
    exact wide_overlaps rfl (by decide +kernel) (by decide +kernel)
  · exact not_works_wide (by decide +kernel) (by decide +kernel)

end Memalloc

end Suspend
