import Suspend.PoolUsers

set_option autoImplicit false

namespace Suspend

open Foundation.Alignment Foundation.Memory

section Runs

open Memalloc

variable {initial : Memalloc} {pool : Pool} {live : List MemSlot}
  (paged : Paged initial) (low : initial.poolSize < 2 ^ 32)

include paged low

theorem decryptKey_freed (stack : Stack initial pool live)
    (room : Room initial live [PK_KEY_SIZE, PK_CIPHER_BLOCK, KEY_TEST_SIZE]) (opened : Bool) :
    Stack initial (decryptKey opened pool) live := by
  unfold decryptKey
  split
  · obtain ⟨one, roomOne⟩ := stack.take paged low (by decide) room
    obtain ⟨two, roomTwo⟩ := one.take paged low (by decide) roomOne
    obtain ⟨three, _⟩ := two.take paged low (by decide) roomTwo
    exact three.freemem.freemem.freemem
  · exact stack

/-- However far it comes, `read_or_verify` gives back what it takes. -/
theorem ReaderMemory.readOrVerify_freed {reader : ReaderMemory} {restoreKey : Pool → Pool}
    (work : 0 < reader.lzoWork) (stack : Stack initial pool live)
    (restored : Stack initial (restoreKey pool) live) (room : Room initial live reader.sizes)
    (reading : Reading) : Stack initial (reader.readOrVerify restoreKey reading pool) live := by
  have keyed : Stack initial (if reader.doDecrypt then restoreKey pool else pool) live := by
    split
    · exact restored
    · exact stack
  unfold readOrVerify
  dsimp only
  generalize (if reader.doDecrypt = true then restoreKey pool else pool) = set at keyed ⊢
  split_ifs
  · exact stack
  · exact stack
  · exact keyed
  · exact keyed
  · exact reader.allocBuffers_freed paged low work keyed room

theorem WriterMemory.writeImage_freed {writer : WriterMemory} (work : 0 < writer.lzoWork)
    (stack : Stack initial pool live)
    (room : Room initial live (writer.page.bytes :: writer.sizes))
    (roomReader : Room initial live (writer.page.bytes :: ReaderMemory.sizes
      ⟨writer.page, writer.doCompress, writer.doEncrypt, writer.lzoWork⟩)) (writing : Writing) :
    Stack initial (writer.writeImage writing pool) live := by
  obtain ⟨header, roomWriter⟩ := stack.take paged low writer.page.bytes_pos room
  have freed := writer.allocBuffers_freed paged low work header roomWriter
  have roomVerify := (stack.take paged low writer.page.bytes_pos roomReader).2
  have verified := ReaderMemory.readOrVerify_freed paged low work freed
    (show Stack initial (id _) _ from freed) roomVerify writing.reading
  unfold writeImage
  split_ifs
  · exact stack
  · exact freed.freemem
  · exact verified.freemem
  · exact freed.freemem

theorem ResumeMemory.readImage_freed {resume : ResumeMemory} (work : 0 < resume.lzoWork)
    (stack : Stack initial pool live) {found : FoundImage}
    (roomKey : Room initial live
      [resume.page.bytes, PK_KEY_SIZE, PK_CIPHER_BLOCK, KEY_TEST_SIZE])
    (room : Room initial live (resume.page.bytes :: ReaderMemory.sizes
      ⟨resume.page, found.compressed && resume.compress,
        found.encrypted && resume.encrypt, resume.lzoWork⟩)) :
    Stack initial (resume.readImage found pool) live := by
  have positive := resume.page.bytes_pos
  obtain ⟨header, roomReader⟩ := stack.take paged low positive room
  have restored : Stack initial
      ((if found.useRSA then decryptKey found.cipherOpened else id)
        (pool.getmem resume.page.bytes).2)
      (live ++ [⟨(pool.getmem resume.page.bytes).1, resume.page.bytes⟩]) := by
    split
    · exact decryptKey_freed paged low header (stack.take paged low positive roomKey).2 _
    · exact header
  unfold readImage
  dsimp only
  split
  · exact header.freemem
  · exact (ReaderMemory.readOrVerify_freed paged low work header restored roomReader _).freemem

end Runs

namespace PageSize

variable (page : PageSize)

theorem roundUp_le {size limit : Nat} (whole : page.bytes ∣ limit) (below : size ≤ limit) :
    page.roundUp size ≤ limit := by
  obtain ⟨count, rfl⟩ := whole
  exact Nat.mul_le_mul_left _ (covering_le page.bytes_pos below)

theorem roundUp_of_dvd {size : Nat} (whole : page.bytes ∣ size) : page.roundUp size = size :=
  (page.roundUp_le whole (le_refl _)).antisymm (page.le_roundUp size)

theorem dvd_bufferSize : page.bytes ∣ page.bufferSize := Nat.dvd_mul_right _ _

theorem dvd_roundUp (size : Nat) : page.bytes ∣ page.roundUp size := Nat.dvd_mul_right _ _

theorem dvd_compressBufSize : page.bytes ∣ page.compressBufSize :=
  Nat.dvd_add page.dvd_bufferSize (page.dvd_roundUp _)

theorem roundUpPageSize_of_dvd {size : Nat} (whole : page.bytes ∣ size) (small : size < 2 ^ 32) :
    page.roundUpPageSize size = size := by
  obtain ⟨count, rfl⟩ := whole
  have positive := page.bytes_pos
  have bytes := page.bytes_small
  rw [roundUpPageSize, and_pageMask, Nat.mod_mod, Nat.mod_eq_of_lt (by omega),
    Nat.add_sub_assoc positive, Nat.mul_add_div positive, Nat.div_eq_of_lt (by omega), add_zero,
    mul_comm]

theorem slots_large (sized : 7 ≤ page.shift) :
    8 ≤ page.roundUpPageSize page.bytes / 16 % 2 ^ 32 := by
  have large : 2 ^ 7 ≤ page.bytes := Nat.pow_le_pow_right two_pos sized
  have small := page.bytes_small
  rw [roundUpPageSize_of_dvd page (dvd_refl _) (by omega), Nat.mod_eq_of_lt (by omega)]
  omega

end PageSize

namespace WriterMemory

variable (writer : WriterMemory)

theorem dvd_memSize : writer.page.bytes ∣ writer.memSize := by
  have buffer := writer.page.dvd_bufferSize
  have compressed : writer.page.bytes ∣ writer.compressBufSize := by
    unfold compressBufSize
    split
    · exact writer.page.dvd_compressBufSize
    · exact Nat.dvd_zero _
  have always := Nat.dvd_add (Nat.dvd_mul_left writer.page.bytes 2) buffer
  refine Nat.dvd_add (Nat.dvd_add (Nat.dvd_add always ?_) ?_) ?_
  · split
    · exact Nat.dvd_add compressed (writer.page.dvd_roundUp _)
    · exact Nat.dvd_zero _
  · split
    · exact Nat.dvd_mul_left _ _
    · exact Nat.dvd_zero _
  · split
    · apply Nat.dvd_add
      · split
        · exact compressed.mul_left _
        · exact buffer.mul_left _
      · split
        · exact Nat.dvd_zero _
        · exact buffer.mul_left _
    · exact Nat.dvd_zero _

/-- What a writer takes is within the total. -/
theorem taken_writer :
    writer.page.taken (writer.page.bytes :: writer.sizes) ≤ writer.memSize := by
  have page := writer.page.roundUp_of_dvd (dvd_refl _)
  have buffer := writer.page.roundUp_of_dvd writer.page.dvd_bufferSize
  have several := writer.page.roundUp_of_dvd (writer.page.dvd_bufferSize.mul_right 4)
  have encrypted : writer.page.roundUp writer.encryptBufSize = writer.encryptBufSize :=
    writer.page.roundUp_of_dvd (Nat.dvd_mul_left _ _)
  have one := writer.page.roundUp_of_dvd writer.page.dvd_compressBufSize
  have all := writer.page.roundUp_of_dvd (Nat.dvd_add writer.page.dvd_compressBufSize
    (writer.page.dvd_compressBufSize.mul_left 3))
  have compressed : 0 < writer.page.compressBufSize :=
    (bufferSize_pos writer.page).trans_le (Nat.le_add_right _ _)
  cases compresses : writer.doCompress <;> cases encrypts : writer.doEncrypt <;>
    cases threads : writer.useThreads <;>
    simp [PageSize.taken, sizes, memSize, ownBuffer, ownSize, writeBufSize, compressBufSize,
      WRITE_BUFFERS, compresses, encrypts, threads, page, buffer, several, encrypted, one, all,
      compressed] <;>
    omega

theorem taken_reader :
    writer.page.taken (writer.page.bytes :: ReaderMemory.sizes
      ⟨writer.page, writer.doCompress, writer.doEncrypt, writer.lzoWork⟩) ≤ writer.memSize := by
  have page := writer.page.roundUp_of_dvd (dvd_refl _)
  have buffer := writer.page.roundUp_of_dvd writer.page.dvd_bufferSize
  have one := writer.page.roundUp_of_dvd writer.page.dvd_compressBufSize
  have encrypted : writer.page.bytes ≤ writer.encryptBufSize :=
    Nat.le_mul_of_pos_left _ (by decide)
  cases compresses : writer.doCompress <;> cases encrypts : writer.doEncrypt <;>
    simp [PageSize.taken, ReaderMemory.sizes, memSize, compressBufSize, compresses, encrypts, page,
      buffer, one] <;>
    omega

end WriterMemory

namespace ResumeMemory

variable (resume : ResumeMemory)

theorem dvd_memSize : resume.page.bytes ∣ resume.memSize := by
  refine Nat.dvd_add (Nat.dvd_add (Nat.dvd_add (Nat.dvd_mul_left _ _)
    resume.page.dvd_bufferSize) ?_) ?_
  · split
    · exact dvd_refl _
    · exact Nat.dvd_zero _
  · split
    · exact Nat.dvd_add resume.page.dvd_compressBufSize (resume.page.dvd_roundUp _)
    · exact Nat.dvd_zero _

theorem taken_key :
    resume.page.taken [resume.page.bytes, PK_KEY_SIZE, PK_CIPHER_BLOCK, KEY_TEST_SIZE] ≤
      resume.memSize := by
  have page := resume.page.roundUp_of_dvd (dvd_refl _)
  have small : ∀ size ≤ 32, resume.page.roundUp size ≤ resume.page.bytes :=
    fun size below => resume.page.roundUp_le (dvd_refl _) (below.trans resume.page.bytes_large)
  have key := small PK_KEY_SIZE (by decide)
  have ivec := small PK_CIPHER_BLOCK (by decide)
  have out := small KEY_TEST_SIZE (by decide)
  have width : resume.page.bufferSize = resume.page.bytes * 32 := rfl
  simp only [PageSize.taken, List.map_cons, List.map_nil, List.sum_cons, List.sum_nil, page,
    memSize]
  omega

theorem taken_reader (compressed encrypted : Bool) :
    resume.page.taken (resume.page.bytes :: ReaderMemory.sizes
      ⟨resume.page, compressed && resume.compress, encrypted && resume.encrypt,
        resume.lzoWork⟩) ≤ resume.memSize := by
  have page := resume.page.roundUp_of_dvd (dvd_refl _)
  have buffer := resume.page.roundUp_of_dvd resume.page.dvd_bufferSize
  have one := resume.page.roundUp_of_dvd resume.page.dvd_compressBufSize
  cases compressed <;> cases encrypted <;> cases compresses : resume.compress <;>
    cases encrypts : resume.encrypt <;>
    simp [PageSize.taken, ReaderMemory.sizes, memSize, compresses, encrypts, page, buffer, one] <;>
    omega

end ResumeMemory

/-- The pool of `s2disk`. -/
def WriterMemory.initial (writer : WriterMemory)
    (memory : MallocBlock (poolBytes writer.page writer.page.bytes writer.memSize)) : Memalloc :=
  initMemalloc writer.page writer.page.bytes writer.memSize memory

/-- What decides it in one attempt: `start_threads` clears `use_threads` when it fails. -/
def WriterMemory.during (writer : WriterMemory) (writing : Writing) : WriterMemory :=
  { writer with useThreads := writer.useThreads && writing.threads }

/-- The pool after these attempts to save an image. -/
def WriterMemory.attempts (writer : WriterMemory) (initial : Memalloc) (writings : List Writing) :
    Pool :=
  writings.foldl (fun pool writing => (writer.during writing).writeImage writing pool) ⟨initial, []⟩

/-- The pool of `resume`. -/
def ResumeMemory.initial (resume : ResumeMemory)
    (memory : MallocBlock (poolBytes resume.page resume.page.bytes resume.memSize)) :
    Memalloc :=
  initMemalloc resume.page resume.page.bytes resume.memSize memory

/-- Whatever has been asked for was given, and everything has been given back. -/
structure Pool.Sufficed (initial : Memalloc) (pool : Pool) : Prop where
  granted : ∀ request ∈ pool.asked, request.2.isSome = true
  returned : pool.memory = initial

section Suffices

open Memalloc

/-- A pool of this total is in whole pages, and the offsets in it are unsigned ints. -/
theorem initMemalloc_paged {page : PageSize} {total : Nat} (whole : page.bytes ∣ total)
    (low : total < 2 ^ 32) (memory : MallocBlock (poolBytes page page.bytes total)) :
    Paged (initMemalloc page page.bytes total memory) ∧
      (initMemalloc page page.bytes total memory).poolSize = total := by
  have small := page.bytes_small
  have pool := page.roundUpPageSize_of_dvd whole low
  have slots := page.roundUpPageSize_of_dvd (dvd_refl _) (by omega)
  exact ⟨(init_paged memory (by rw [pool, slots]; omega)).1, pool⟩

theorem room_start {page : PageSize} {total : Nat} (sized : 7 ≤ page.shift)
    (whole : page.bytes ∣ total) (low : total < 2 ^ 32)
    (memory : MallocBlock (poolBytes page page.bytes total)) {sizes : List Nat}
    (few : sizes.length ≤ 8) (within : page.taken sizes ≤ total) :
    Room (initMemalloc page page.bytes total memory) [] sizes where
  bytes := by
    rw [(initMemalloc_paged whole low memory).2]
    exact within
  slots := by
    rw [List.length_nil, zero_add]
    exact few.trans (page.slots_large sized)

/-- Without threads no more is needed. -/
theorem WriterMemory.memSize_during (writer : WriterMemory) (writing : Writing) :
    (writer.during writing).memSize ≤ writer.memSize := by
  unfold during memSize
  cases writer.useThreads with
  | false => exact le_refl _
  | true =>
      cases writing.threads with
      | false => exact Nat.add_le_add_left (Nat.zero_le _) _
      | true => exact le_refl _

theorem WriterMemory.attempts_stack {writer : WriterMemory} (sized : 7 ≤ writer.page.shift)
    (work : 0 < writer.lzoWork) (low : writer.memSize < 2 ^ 32)
    (memory : MallocBlock (poolBytes writer.page writer.page.bytes writer.memSize))
    (writings : List Writing) :
    Stack (writer.initial memory) (writer.attempts (writer.initial memory) writings) [] := by
  obtain ⟨paged, total⟩ := initMemalloc_paged writer.dvd_memSize low memory
  have bound : (writer.initial memory).poolSize < 2 ^ 32 := total.trans_lt low
  have room : ∀ {sizes : List Nat}, sizes.length ≤ 8 →
      writer.page.taken sizes ≤ writer.memSize → Room (writer.initial memory) [] sizes :=
    fun few within => room_start sized writer.dvd_memSize low memory few within
  unfold attempts
  generalize started : (⟨writer.initial memory, []⟩ : Pool) = pool
  have stack : Stack (writer.initial memory) pool [] := started ▸ Stack.start paged
  clear started
  induction writings generalizing pool with
  | nil => exact stack
  | cons writing rest ih =>
      have less := writer.memSize_during writing
      apply ih
      exact (writer.during writing).writeImage_freed paged bound work stack
        (room (by simp [sizes]; split_ifs <;> simp)
          ((writer.during writing).taken_writer.trans less))
        (room (by simp [ReaderMemory.sizes]; split_ifs <;> simp)
          ((writer.during writing).taken_reader.trans less)) writing

theorem Memalloc.Stack.sufficed {initial : Memalloc} {pool : Pool} (paged : Paged initial)
    (stack : Stack initial pool []) : pool.Sufficed initial where
  granted := stack.granted
  returned := stack.sound.reset paged.unused

/-- Whatever is saved, and however often and at whatever step saving fails, `getmem` never fails in
`s2disk`, nothing stays behind, and a compressed buffer fits in its part of the write buffer. -/
theorem s2disk_pool_suffices {writer : WriterMemory} (sized : 7 ≤ writer.page.shift)
    (work : 0 < writer.lzoWork) (low : writer.memSize < 2 ^ 32)
    (memory : MallocBlock (poolBytes writer.page writer.page.bytes writer.memSize))
    (writings : List Writing) :
    (writer.attempts (writer.initial memory) writings).Sufficed (writer.initial memory) ∧
      (writer.doCompress = true → ∀ size ≤ writer.page.bufferSize,
        ∀ coded ≤ size + size / 16 + 67,
          writer.page.roundUp (coded + 8) ≤ writer.compressBufSize) := by
  obtain ⟨paged, _⟩ := initMemalloc_paged writer.dvd_memSize low memory
  refine ⟨(writer.attempts_stack sized work low memory writings).sufficed paged, ?_⟩
  intro compresses size inside coded bound
  have rounded := writer.page.le_roundUp (writer.page.bufferSize / 16 + 67 + 8)
  rw [WriterMemory.compressBufSize, if_pos compresses]
  apply writer.page.roundUp_le writer.page.dvd_compressBufSize
  rw [PageSize.compressBufSize]
  omega

/-- With four kilobyte pages, threads, compression and encryption: once there is no swap for the
extents, once the image is saved and verified, and once the threads cannot be started any more. -/
theorem all_features_pool :
    let writer : WriterMemory := ⟨.fourKilobytes, true, true, true, 131072⟩
    let memory : MallocBlock (poolBytes writer.page writer.page.bytes writer.memSize) :=
      ⟨2 ^ 40, by decide, by decide +kernel⟩
    let verified : Writing := ⟨true, true, true, true, true, ⟨true, true, true, true⟩⟩
    let early : Writing := { verified with extents := false }
    let alone : Writing := { early with threads := false }
    let pool := writer.attempts (writer.initial memory) [early, verified, alone]
    pool.asked.map Prod.fst =
        [4096, 4096, 131072, 1048576, 131072, 573440,
          4096, 4096, 131072, 1048576, 131072, 573440, 4096, 131072, 4096, 143360, 131072,
          4096, 4096, 131072, 1048576, 131072, 143360] ∧
      pool.Sufficed (writer.initial memory) := by
  intro writer memory verified early alone pool
  exact ⟨by decide +kernel,
    (s2disk_pool_suffices (by decide) (by decide) (by decide +kernel) memory _).1⟩

/-- Whatever image `resume` finds, and however far reading it comes, `getmem` never fails, and
nothing stays behind. -/
theorem resume_pool_suffices {resume : ResumeMemory} (sized : 7 ≤ resume.page.shift)
    (work : 0 < resume.lzoWork) (low : resume.memSize < 2 ^ 32)
    (memory : MallocBlock (poolBytes resume.page resume.page.bytes resume.memSize))
    (found : FoundImage) :
    (resume.readImage found ⟨resume.initial memory, []⟩).Sufficed
      (resume.initial memory) := by
  obtain ⟨paged, total⟩ := initMemalloc_paged resume.dvd_memSize low memory
  have bound : (resume.initial memory).poolSize < 2 ^ 32 := total.trans_lt low
  have room : ∀ {sizes : List Nat}, sizes.length ≤ 8 →
      resume.page.taken sizes ≤ resume.memSize → Room (resume.initial memory) [] sizes :=
    fun few within => room_start sized resume.dvd_memSize low memory few within
  apply Memalloc.Stack.sufficed paged
  exact resume.readImage_freed paged bound work (Stack.start paged)
    (room (by simp) resume.taken_key)
    (room (by simp [ReaderMemory.sizes]; split_ifs <;> simp) (resume.taken_reader _ _))

/-- An image that is compressed and encrypted with a key pair. -/
theorem rsa_image_pool :
    let resume : ResumeMemory := ⟨.fourKilobytes, true, true, 131072⟩
    let memory : MallocBlock (poolBytes resume.page resume.page.bytes resume.memSize) :=
      ⟨2 ^ 40, by decide, by decide +kernel⟩
    let found : FoundImage := ⟨true, true, true, true, ⟨true, true, true, true⟩⟩
    let pool := resume.readImage found ⟨resume.initial memory, []⟩
    pool.asked.map Prod.fst = [4096, 16, 16, 8, 4096, 131072, 4096, 143360, 131072] ∧
      pool.Sufficed (resume.initial memory) := by
  intro resume memory found pool
  exact ⟨by decide +kernel,
    resume_pool_suffices (by decide) (by decide) (by decide +kernel) memory found⟩

end Suffices

end Suspend
