import Suspend.MemoryPool
import Suspend.RsaKey
import Suspend.SaveThreads

set_option autoImplicit false

namespace Suspend

open Foundation.Alignment Foundation.Memory

/-- The pool, and the sizes that `getmem` has been asked for with its answers. -/
structure Pool where
  memory : Memalloc
  asked : List (Nat × Option Nat)

namespace Pool

/-- `getmem`. Its users do not look at what it returns. -/
def getmem (size : Nat) (pool : Pool) : Nat × Pool :=
  let answer := pool.memory.getmem size
  (answer.1.getD 0, ⟨answer.2, pool.asked ++ [(size, answer.1)]⟩)

def freemem (address : Nat) (pool : Pool) : Pool :=
  { pool with memory := pool.memory.freemem address }

end Pool

/-- What decides what `s2disk` needs memory for. `lzoWork` is `LZO1X_1_MEM_COMPRESS`. -/
structure WriterMemory where
  page : PageSize
  doCompress : Bool
  doEncrypt : Bool
  useThreads : Bool
  lzoWork : Nat

namespace WriterMemory

variable (writer : WriterMemory)

def compressBufSize : Nat := if writer.doCompress then writer.page.compressBufSize else 0

def encryptBufSize : Nat := ENCRYPT_BUF_PAGES * writer.page.bytes

/-- `mem_size` in `main` of `suspend.c`, before it is an unsigned int. -/
def memSize : Nat :=
  2 * writer.page.bytes + writer.page.bufferSize +
    (if writer.doCompress then writer.compressBufSize + writer.page.roundUp writer.lzoWork
      else 0) +
    (if writer.doEncrypt then writer.encryptBufSize else 0) +
    if writer.useThreads then
      (if writer.compressBufSize > 0 then (WRITE_BUFFERS - 1) * writer.compressBufSize
        else WRITE_BUFFERS * writer.page.bufferSize) +
      (if writer.doEncrypt then 0 else WRITE_BUFFERS * writer.page.bufferSize)
    else 0

/-- The buffers of `struct swap_writer`. -/
structure Buffers where
  extents : Nat
  buffer : Nat
  encryptBuffer : Nat
  lzoWorkBuffer : Nat
  writeBuffer : Nat

def writeBufSize : Nat :=
  if writer.doCompress then
    writer.compressBufSize +
      if writer.useThreads then (WRITE_BUFFERS - 1) * writer.compressBufSize else 0
  else 0

/-- `init_swap_writer` up to the buffers. -/
def allocBuffers (pool : Pool) : Buffers × Pool :=
  let extents := pool.getmem writer.page.bytes
  let buffer := extents.2.getmem writer.page.bufferSize
  let encrypt := if writer.doEncrypt then buffer.2.getmem writer.encryptBufSize else (0, buffer.2)
  let lzo := if writer.doCompress then encrypt.2.getmem writer.lzoWork else (0, encrypt.2)
  let write :=
    if writer.writeBufSize > 0 then lzo.2.getmem writer.writeBufSize
    else if writer.useThreads then lzo.2.getmem (writer.page.bufferSize * WRITE_BUFFERS)
    else (buffer.1, lzo.2)
  (⟨extents.1, buffer.1, encrypt.1, lzo.1, write.1⟩, write.2)

/-- `free_swap_writer`. -/
def freeSwapWriter (handle : Buffers) (pool : Pool) : Pool :=
  let pool := if handle.writeBuffer ≠ handle.buffer then pool.freemem handle.writeBuffer else pool
  let pool := if writer.doCompress then pool.freemem handle.lzoWorkBuffer else pool
  let pool := if handle.encryptBuffer ≠ 0 then pool.freemem handle.encryptBuffer else pool
  (pool.freemem handle.buffer).freemem handle.extents

end WriterMemory

/-- What decides what `load.c` needs memory for. -/
structure ReaderMemory where
  page : PageSize
  doDecompress : Bool
  doDecrypt : Bool
  lzoWork : Nat

/-- How far `read_or_verify` comes: the header is read, LZO is initialized, the key is set, and
there are extents. -/
structure Reading where
  header : Bool
  lzoInit : Bool
  key : Bool
  mapStart : Bool

namespace ReaderMemory

variable (reader : ReaderMemory)

/-- The buffers of `struct swap_reader`. -/
structure Buffers where
  extents : Nat
  buffer : Nat
  decryptBuffer : Nat
  readBuffer : Nat
  lzoWorkBuffer : Nat

/-- The buffers of `init_swap_reader`. -/
def allocBuffers (pool : Pool) : Buffers × Pool :=
  let extents := pool.getmem reader.page.bytes
  let buffer := extents.2.getmem reader.page.bufferSize
  let decrypt := if reader.doDecrypt then buffer.2.getmem reader.page.bytes else (0, buffer.2)
  let read :=
    if reader.doDecompress then decrypt.2.getmem reader.page.compressBufSize
    else (buffer.1, decrypt.2)
  let lzo := if reader.doDecompress then read.2.getmem reader.lzoWork else (0, read.2)
  (⟨extents.1, buffer.1, decrypt.1, read.1, lzo.1⟩, lzo.2)

/-- `free_swap_reader`. -/
def freeSwapReader (handle : Buffers) (pool : Pool) : Pool :=
  let pool :=
    if reader.doDecompress then (pool.freemem handle.lzoWorkBuffer).freemem handle.readBuffer
    else pool
  let pool := if reader.doDecrypt then pool.freemem handle.decryptBuffer else pool
  (pool.freemem handle.buffer).freemem handle.extents

/-- `read_or_verify`, where setting the key takes and gives back what `restoreKey` does. -/
def readOrVerify (restoreKey : Pool → Pool) (reading : Reading) (pool : Pool) : Pool :=
  if reading.header = false then pool
  else if reader.doDecompress ∧ reading.lzoInit = false then pool
  else
    let pool := if reader.doDecrypt then restoreKey pool else pool
    if reader.doDecrypt ∧ reading.key = false then pool
    else if reading.mapStart = false then pool
    else
      -- whether the first table can be read or not, the buffers are given back
      let allocated := reader.allocBuffers pool
      reader.freeSwapReader allocated.1 allocated.2

end ReaderMemory

/-- How far `write_image` comes: there are swap pages for the header and the first table, the image
is saved, and it is verified. `threads` says that no `start_threads` has failed before. -/
structure Writing where
  threads : Bool
  start : Bool
  extents : Bool
  saved : Bool
  verifies : Bool
  reading : Reading

/-- `write_image`. The image is verified with the flags it has been saved with, and the key that is
set. -/
def WriterMemory.writeImage (writer : WriterMemory) (writing : Writing) (pool : Pool) : Pool :=
  if writing.start = false then pool
  else
    let header := pool.getmem writer.page.bytes
    let allocated := writer.allocBuffers header.2
    if writing.extents = false then
      (writer.freeSwapWriter allocated.1 allocated.2).freemem header.1
    else
      let freed := writer.freeSwapWriter allocated.1 allocated.2
      let reader : ReaderMemory :=
        ⟨writer.page, writer.doCompress, writer.doEncrypt, writer.lzoWork⟩
      let verified :=
        if writing.saved ∧ writing.verifies then reader.readOrVerify id writing.reading freed
        else freed
      verified.freemem header.1

def PK_KEY_SIZE : Nat := 16

def KEY_TEST_SIZE : Nat := 8

/-- `decrypt_key`, when the cipher can be opened. -/
def decryptKey (opened : Bool) (pool : Pool) : Pool :=
  if opened then
    let keyBuf := pool.getmem PK_KEY_SIZE
    let ivecBuf := keyBuf.2.getmem PK_CIPHER_BLOCK
    let out := ivecBuf.2.getmem KEY_TEST_SIZE
    ((out.2.freemem out.1).freemem ivecBuf.1).freemem keyBuf.1
  else pool

/-- What `resume` is compiled with. -/
structure ResumeMemory where
  page : PageSize
  compress : Bool
  encrypt : Bool
  lzoWork : Nat

/-- `mem_size` in `main` of `resume.c`, before it is an unsigned int. -/
def ResumeMemory.memSize (resume : ResumeMemory) : Nat :=
  2 * resume.page.bytes + resume.page.bufferSize +
    (if resume.encrypt then resume.page.bytes else 0) +
    if resume.compress then
      resume.page.compressBufSize + resume.page.roundUp resume.lzoWork
    else 0

/-- The image that `resume` finds. -/
structure FoundImage where
  compressed : Bool
  encrypted : Bool
  useRSA : Bool
  cipherOpened : Bool
  reading : Reading

/-- `read_image`. Flags that `resume` is not compiled for are an error. -/
def ResumeMemory.readImage (resume : ResumeMemory) (found : FoundImage) (pool : Pool) : Pool :=
  let header := pool.getmem resume.page.bytes
  let reader : ReaderMemory :=
    ⟨resume.page, found.compressed && resume.compress, found.encrypted && resume.encrypt,
      resume.lzoWork⟩
  let unsupported := found.compressed && !resume.compress || found.encrypted && !resume.encrypt
  let restoreKey := if found.useRSA then decryptKey found.cipherOpened else id
  let loaded :=
    if unsupported then header.2 else reader.readOrVerify restoreKey found.reading header.2
  loaded.freemem header.1

/-- What blocks of these sizes take at most, each on pages of its own. -/
def PageSize.taken (page : PageSize) (sizes : List Nat) : Nat := (sizes.map page.roundUp).sum

namespace PageSize

variable (page : PageSize)

theorem taken_append (sizes more : List Nat) :
    page.taken (sizes ++ more) = page.taken sizes + page.taken more := by
  rw [taken, List.map_append, List.sum_append]
  rfl

theorem dvd_taken (sizes : List Nat) : page.bytes ∣ page.taken sizes := by
  induction sizes with
  | nil => exact Nat.dvd_zero _
  | cons size rest ih => exact Nat.dvd_add (Nat.dvd_mul_right _ _) ih

theorem le_roundUp (size : Nat) : size ≤ page.roundUp size := covering_covers size page.bytes_pos

end PageSize

namespace Memalloc

variable {initial memory : Memalloc} {live : List MemSlot}

/-- Nothing but the newest slot is removed with it. -/
theorem freeSlot_concat {slots : List MemSlot} (used : ∀ last ∈ slots.getLast?, last.size ≠ 0)
    (newest : MemSlot) : freeSlot (slots ++ [newest]) slots.length = slots := by
  have marked : (slots ++ [newest]).set slots.length
      { (slots ++ [newest]).getD slots.length ⟨0, 0⟩ with size := 0 } =
        slots ++ [⟨newest.addr, 0⟩] := by
    rw [List.getD_eq_getElem?_getD, List.getElem?_concat_length,
      List.set_append_right _ _ (le_refl _), Nat.sub_self]
    rfl
  have stays : withoutEmpty (slots ++ [⟨newest.addr, 0⟩]) slots.length = slots.length := by
    rcases List.eq_nil_or_concat slots with rfl | ⟨front, last, rfl⟩
    · rfl
    · rw [List.concat_eq_append] at used ⊢
      have nonzero := used last List.getLast?_concat
      rw [List.length_append, List.length_singleton, withoutEmpty, if_neg]
      rw [List.append_assoc, List.getD_eq_getElem?_getD, List.getElem?_append_right (le_refl _),
        Nat.sub_self]
      exact nonzero
  unfold freeSlot
  dsimp only
  rw [marked, List.length_append, List.length_singleton, Nat.add_sub_cancel, if_pos rfl, stays,
    List.take_left]

/-- Freeing the newest block leaves the others alone. -/
theorem Sound.freemem_last {newest : MemSlot} (sound : Sound initial memory (live ++ [newest]))
    (whole : memory.slots = live ++ [newest]) :
    memory.freemem newest.addr = { memory with slots := live } := by
  have used : ∀ last ∈ live.getLast?, last.size ≠ 0 := by
    intro last ends
    have member : last ∈ blocks memory.slots := by
      rw [sound.tracked]
      exact List.mem_append_left _ (List.mem_of_getLast? ends)
    simpa using (List.mem_filter.mp member).2
  rcases sound.freemem_eq newest.addr with ⟨slot, inside, hit, freed⟩ | ⟨absent, _⟩
  · have last : slot = live.length := by
      have sorted := sound.increasing
      rw [whole, List.length_append, List.length_singleton] at inside
      by_contra other
      have earlier : slot < live.length := by omega
      simp only [whole] at hit sorted
      rw [addresses, List.map_append, List.pairwise_append] at sorted
      rw [List.getElem_append_left earlier] at hit
      have less := sorted.2.2 _ (List.mem_map_of_mem (List.getElem_mem earlier)) newest.addr
        (by simp)
      exact absurd hit less.ne
    rw [freed, last, whole, freeSlot_concat used]
  · rw [whole] at absent
    exact absurd (by simp [addresses]) absent

/-- Blocks that lie one behind the other, and what they take. -/
structure Stack (initial : Memalloc) (pool : Pool) (live : List MemSlot) : Prop where
  sound : Sound initial pool.memory live
  whole : pool.memory.slots = live
  height : ∀ front last, front ++ [last] <+: live → last.addr + last.size ≤
    initial.memPool + initial.page.taken ((front ++ [last]).map MemSlot.size)
  granted : ∀ request ∈ pool.asked, request.2.isSome = true

variable {pool : Pool}

theorem Stack.start (paged : Paged initial) : Stack initial ⟨initial, []⟩ [] where
  sound := Sound.start paged
  whole := paged.unused
  height := fun front last ahead => by
    have none := List.prefix_nil.mp ahead
    simp at none
  granted := fun _ member => absurd member List.not_mem_nil

/-- Where the next block begins. -/
theorem Stack.used_le (stack : Stack initial pool live) (paged : Paged initial)
    (low : initial.poolSize < 2 ^ 32) (size : Nat) :
    pool.memory.used size ≤ initial.page.taken (live.map MemSlot.size) := by
  cases ends : pool.memory.slots.getLast? with
  | none =>
      rw [used, ends]
      exact Nat.zero_le _
  | some last =>
      obtain ⟨member, _, _⟩ := stack.sound.last_live ends
      have within := stack.sound.inside last member
      have pages : initial.poolSize + initial.page.bytes ≤ 2 ^ 32 :=
        add_step_le paged.size (Nat.pow_dvd_pow 2 (initial.page.small.trans (by decide))) low
      rw [used, ends]
      dsimp only
      rw [behind_eq (by rw [stack.sound.memPool, stack.sound.page]; omega), stack.sound.memPool,
        stack.sound.page]
      apply alignUp_le (initial.page.alignment_pos size)
        ((initial.page.alignment_dvd size).trans (initial.page.dvd_taken _))
      rw [stack.whole] at ends
      obtain ⟨front, split⟩ := List.getLast?_eq_some_iff.mp ends
      have height := stack.height front last (split ▸ List.prefix_refl _)
      rw [split]
      omega

theorem Stack.getmem (stack : Stack initial pool live) (paged : Paged initial)
    (low : initial.poolSize < 2 ^ 32) {size : Nat} (nonempty : 0 < size)
    (few : live.length < initial.nrSlots)
    (room : initial.page.taken (live.map MemSlot.size ++ [size]) ≤ initial.poolSize) :
    (pool.memory.getmem size).1 = some (pool.getmem size).1 ∧
      Stack initial (pool.getmem size).2 (live ++ [⟨(pool.getmem size).1, size⟩]) := by
  have begins := stack.used_le paged low size
  have width := initial.page.le_roundUp size
  have total : initial.page.taken (live.map MemSlot.size ++ [size]) =
      initial.page.taken (live.map MemSlot.size) + initial.page.roundUp size := by
    rw [PageSize.taken_append]
    rfl
  have given : pool.memory.getmem size =
      (some (pool.memory.memPool + pool.memory.used size),
        { pool.memory with
          slots :=
            pool.memory.slots ++ [⟨pool.memory.memPool + pool.memory.used size, size⟩] }) := by
    have slots := stack.sound.nrSlots
    have bytes := stack.sound.poolSize
    have whole := stack.whole
    rw [Memalloc.getmem, if_neg (by rw [slots, whole]; omega), if_neg (by rw [bytes]; omega)]
  have address : (pool.getmem size).1 = pool.memory.memPool + pool.memory.used size := by
    rw [Pool.getmem, given]
    rfl
  have after := stack.sound.getmem paged (.inl low) nonempty
  rw [given] at after
  refine ⟨by rw [given, address], ?_, ?_, ?_, ?_⟩
  · rw [address, Pool.getmem, given]
    exact after
  · rw [address, Pool.getmem, given, ← stack.whole]
  · intro front last ahead
    rcases List.prefix_concat_iff.mp ahead with whole | part
    · obtain ⟨rfl, same⟩ := List.append_inj' whole rfl
      obtain rfl := List.singleton_inj.mp same
      rw [List.map_append, List.map_singleton, total, address, stack.sound.memPool]
      dsimp only
      omega
    · exact stack.height front last part
  · intro request member
    rcases List.mem_append.mp member with before | new
    · exact stack.granted request before
    · rw [List.mem_singleton.mp new, given]
      rfl

theorem Stack.freemem {newest : MemSlot} (stack : Stack initial pool (live ++ [newest])) :
    Stack initial (pool.freemem newest.addr) live := by
  have freed := stack.sound.freemem_last stack.whole
  have sound := stack.sound.freemem newest.addr
  have nonempty : ∀ block ∈ live, decide (block.size ≠ 0) = true := by
    intro block member
    have tracked := stack.sound.tracked
    rw [stack.whole] at tracked
    exact (List.filter_eq_self.mp tracked) block (List.mem_append_left _ member)
  have tracked := sound.tracked
  rw [freed] at tracked sound
  rw [← tracked, blocks, List.filter_eq_self.mpr nonempty] at sound
  refine ⟨?_, ?_, fun front last ahead =>
    stack.height front last (ahead.trans (List.prefix_append _ _)), stack.granted⟩
  · rw [Pool.freemem, freed]
    exact sound
  · rw [Pool.freemem, freed]

theorem Stack.before {newest other : MemSlot} (stack : Stack initial pool (live ++ [newest]))
    (member : other ∈ live) : other.addr < newest.addr := by
  have sorted := stack.sound.increasing
  rw [stack.whole, addresses, List.map_append, List.pairwise_append] at sorted
  exact sorted.2.2 _ (List.mem_map_of_mem member) _ (by simp)

theorem Stack.beforeIf {wanted : Prop} [Decidable wanted] {newest other : MemSlot}
    (stack : Stack initial pool (live ++ if wanted then [newest] else [])) (wants : wanted)
    (member : other ∈ live) : other.addr < newest.addr := by
  rw [if_pos wants] at stack
  exact stack.before member

/-- There is room for blocks of these sizes. -/
structure Room (initial : Memalloc) (live : List MemSlot) (sizes : List Nat) : Prop where
  bytes : initial.page.taken (live.map MemSlot.size ++ sizes) ≤ initial.poolSize
  slots : live.length + sizes.length ≤ initial.nrSlots

theorem Room.front {sizes more : List Nat} (room : Room initial live (sizes ++ more)) :
    Room initial live sizes := by
  obtain ⟨bytes, slots⟩ := room
  rw [← List.append_assoc, PageSize.taken_append] at bytes
  rw [List.length_append] at slots
  exact ⟨by omega, by omega⟩

theorem Room.behind {taken : List MemSlot} {sizes : List Nat}
    (room : Room initial live (taken.map MemSlot.size ++ sizes)) :
    Room initial (live ++ taken) sizes := by
  obtain ⟨bytes, slots⟩ := room
  rw [List.length_append, List.length_map] at slots
  refine ⟨?_, ?_⟩
  · rwa [List.map_append, List.append_assoc]
  · rw [List.length_append]
    omega

section Sequence

variable (paged : Paged initial) (low : initial.poolSize < 2 ^ 32)

include paged low

theorem Stack.take (stack : Stack initial pool live) {size : Nat} (nonempty : 0 < size)
    {sizes : List Nat} (room : Room initial live (size :: sizes)) :
    Stack initial (pool.getmem size).2 (live ++ [⟨(pool.getmem size).1, size⟩]) ∧
      Room initial (live ++ [⟨(pool.getmem size).1, size⟩]) sizes := by
  obtain ⟨bytes, slots⟩ := @Room.front initial live [size] sizes room
  refine ⟨(stack.getmem paged low nonempty (by rwa [List.length_singleton] at slots) bytes).2, ?_⟩
  exact @Room.behind initial live [⟨(pool.getmem size).1, size⟩] sizes room

theorem Stack.takeIf (stack : Stack initial pool live) {wanted : Prop} [Decidable wanted]
    {size : Nat} (otherwise : Nat) (nonempty : wanted → 0 < size) {sizes : List Nat}
    (room : Room initial live ((if wanted then [size] else []) ++ sizes)) :
    let taken := if wanted then pool.getmem size else (otherwise, pool)
    let block := if wanted then [(⟨taken.1, size⟩ : MemSlot)] else []
    Stack initial taken.2 (live ++ block) ∧ Room initial (live ++ block) sizes := by
  by_cases wants : wanted
  · simp only [if_pos wants] at room ⊢
    exact stack.take paged low (nonempty wants) room
  · simp only [if_neg wants, List.append_nil] at room ⊢
    exact ⟨stack, room⟩

end Sequence

theorem Stack.giveIf {wanted : Prop} [Decidable wanted] {newest : MemSlot}
    (stack : Stack initial pool (live ++ if wanted then [newest] else [])) :
    Stack initial (if wanted then pool.freemem newest.addr else pool) live := by
  by_cases wants : wanted
  · rw [if_pos wants] at stack ⊢
    exact stack.freemem
  · rw [if_neg wants, List.append_nil] at stack
    rwa [if_neg wants]

end Memalloc

namespace ReaderMemory

open Memalloc

variable {reader : ReaderMemory} {initial : Memalloc} {pool : Pool} {live : List MemSlot}

/-- The sizes that `init_swap_reader` asks for. -/
def sizes (reader : ReaderMemory) : List Nat :=
  [reader.page.bytes, reader.page.bufferSize] ++
    ((if reader.doDecrypt = true then [reader.page.bytes] else []) ++
      ((if reader.doDecompress = true then [reader.page.compressBufSize] else []) ++
        if reader.doDecompress = true then [reader.lzoWork] else []))

theorem allocBuffers_freed (paged : Paged initial) (low : initial.poolSize < 2 ^ 32)
    (work : 0 < reader.lzoWork) (stack : Stack initial pool live)
    (room : Room initial live reader.sizes) :
    Stack initial (reader.freeSwapReader (reader.allocBuffers pool).1 (reader.allocBuffers pool).2)
      live := by
  have positive := reader.page.bytes_pos
  have buffer : 0 < reader.page.bufferSize := Nat.mul_pos positive (by decide)
  have compressed : 0 < reader.page.compressBufSize := buffer.trans_le (Nat.le_add_right _ _)
  obtain ⟨one, roomOne⟩ := stack.take paged low positive room
  obtain ⟨two, roomTwo⟩ := one.take paged low buffer roomOne
  obtain ⟨three, roomThree⟩ := two.takeIf paged low 0 (fun _ => positive) roomTwo
  obtain ⟨four, roomFour⟩ := three.takeIf paged low
    ((pool.getmem reader.page.bytes).2.getmem reader.page.bufferSize).1
    (fun _ => compressed) roomThree
  rw [← List.append_nil (if reader.doDecompress = true then [reader.lzoWork] else [])] at roomFour
  obtain ⟨five, _⟩ := four.takeIf paged low 0 (fun _ => work) roomFour
  have back := ((five.giveIf.giveIf.giveIf).freemem).freemem
  unfold freeSwapReader allocBuffers
  dsimp only at back ⊢
  by_cases decompresses : reader.doDecompress = true
  · simp only [if_pos decompresses] at back ⊢
    exact back
  · simp only [if_neg decompresses] at back ⊢
    exact back

end ReaderMemory

namespace WriterMemory

open Memalloc

variable {writer : WriterMemory} {initial : Memalloc} {pool : Pool} {live : List MemSlot}

/-- The write buffer, if it is not the buffer itself. -/
def ownBuffer (writer : WriterMemory) : Prop := writer.writeBufSize > 0 ∨ writer.useThreads = true

instance (writer : WriterMemory) : Decidable writer.ownBuffer := inferInstanceAs (Decidable (_ ∨ _))

def ownSize (writer : WriterMemory) : Nat :=
  if writer.writeBufSize > 0 then writer.writeBufSize else writer.page.bufferSize * WRITE_BUFFERS

/-- The sizes that `init_swap_writer` asks for. -/
def sizes (writer : WriterMemory) : List Nat :=
  [writer.page.bytes, writer.page.bufferSize] ++
    ((if writer.doEncrypt = true then [writer.encryptBufSize] else []) ++
      ((if writer.doCompress = true then [writer.lzoWork] else []) ++
        if writer.ownBuffer then [writer.ownSize] else []))

theorem bufferSize_pos (page : PageSize) : 0 < page.bufferSize :=
  Nat.mul_pos page.bytes_pos (by decide)

theorem ownSize_pos (writer : WriterMemory) : 0 < writer.ownSize := by
  unfold ownSize
  split
  · assumption
  · exact Nat.mul_pos (bufferSize_pos writer.page) (by decide)

theorem getmem_own (writer : WriterMemory) (buffer : Nat) (pool : Pool) :
    (if writer.writeBufSize > 0 then pool.getmem writer.writeBufSize
      else if writer.useThreads then pool.getmem (writer.page.bufferSize * WRITE_BUFFERS)
      else (buffer, pool)) =
      if writer.ownBuffer then pool.getmem writer.ownSize else (buffer, pool) := by
  by_cases compresses : writer.writeBufSize > 0
  · have owned : writer.ownBuffer := Or.inl compresses
    rw [if_pos compresses, if_pos owned, ownSize, if_pos compresses]
  · have threads : writer.ownBuffer ↔ writer.useThreads = true := or_iff_right compresses
    rw [if_neg compresses, ownSize, if_neg compresses]
    simp only [threads]

/-- What `free_swap_writer` frees, when the pointers tell the configuration. -/
theorem freeSwapWriter_eq {handle : Buffers}
    (apart : handle.writeBuffer ≠ handle.buffer ↔ writer.ownBuffer)
    (encrypted : handle.encryptBuffer ≠ 0 ↔ writer.doEncrypt = true) :
    writer.freeSwapWriter handle pool =
      let pool := if writer.ownBuffer then pool.freemem handle.writeBuffer else pool
      let pool := if writer.doCompress then pool.freemem handle.lzoWorkBuffer else pool
      let pool := if writer.doEncrypt then pool.freemem handle.encryptBuffer else pool
      (pool.freemem handle.buffer).freemem handle.extents := by
  simp only [freeSwapWriter, apart, encrypted]

theorem allocBuffers_freed (paged : Paged initial) (low : initial.poolSize < 2 ^ 32)
    (work : 0 < writer.lzoWork) (stack : Stack initial pool live)
    (room : Room initial live writer.sizes) :
    Stack initial (writer.freeSwapWriter (writer.allocBuffers pool).1 (writer.allocBuffers pool).2)
      live := by
  have positive := writer.page.bytes_pos
  have encrypts : 0 < writer.encryptBufSize := Nat.mul_pos (by decide) positive
  obtain ⟨one, roomOne⟩ := stack.take paged low positive room
  obtain ⟨two, roomTwo⟩ := one.take paged low (bufferSize_pos writer.page) roomOne
  obtain ⟨three, roomThree⟩ := two.takeIf paged low 0 (fun _ => encrypts) roomTwo
  obtain ⟨four, roomFour⟩ := three.takeIf paged low 0 (fun _ => work) roomThree
  rw [← List.append_nil (if writer.ownBuffer then [writer.ownSize] else [])] at roomFour
  obtain ⟨five, _⟩ := four.takeIf paged low
    ((pool.getmem writer.page.bytes).2.getmem writer.page.bufferSize).1
    (fun _ => writer.ownSize_pos) roomFour
  have back := ((five.giveIf.giveIf.giveIf).freemem).freemem
  simp only [allocBuffers, getmem_own] at *
  rw [freeSwapWriter_eq]
  · exact back
  · by_cases owned : writer.ownBuffer
    · apply iff_of_true _ owned
      exact (five.beforeIf owned (List.mem_append_left _ (List.mem_append_left _
        (List.mem_append_right _ (List.mem_singleton_self _))))).ne'
    · apply iff_of_false _ owned
      rw [if_neg owned, not_not]
  · by_cases encrypts : writer.doEncrypt = true
    · apply iff_of_true _ encrypts
      have behind := three.beforeIf encrypts (List.mem_append_right _ (List.mem_singleton_self _))
      exact Nat.ne_of_gt ((Nat.zero_le _).trans_lt behind)
    · apply iff_of_false _ encrypts
      rw [if_neg encrypts, not_not]

end WriterMemory

end Suspend
