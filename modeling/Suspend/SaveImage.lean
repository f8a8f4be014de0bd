import Suspend.AllocLoop
import Suspend.Foundation.Memory
import Suspend.Header

set_option autoImplicit false

namespace Suspend

open Foundation.Memory

namespace PageSize

/-- `buffer_size`, for `BUFFER_PAGES` pages. -/
def bufferSize (page : PageSize) : Nat := page.bytes * 32

/-- `round_up_page_size`. -/
def roundUp (page : PageSize) (size : Nat) : Nat := page.bytes * covering page.bytes size

/-- `compress_buf_size`, with room for the worst case of the compression and its size word. -/
def compressBufSize (page : PageSize) : Nat :=
  page.bufferSize + page.roundUp (page.bufferSize / 16 + 67 + 8)

end PageSize

/-- The configuration as far as saving and loading depend on it. -/
structure Settings where
  doCompress : Bool
  doEncrypt : Bool
  computeChecksum : Bool
  verifyImage : Bool
deriving DecidableEq

/-- Whether the saved buffers are fed to the checksum. -/
def Settings.checksums (settings : Settings) : Bool :=
  settings.computeChecksum || settings.verifyImage

/-- The flags of the image header that tell the reader what was done. -/
def Settings.flags (settings : Settings) : ImageFlags :=
  { checksum := settings.computeChecksum
    compressed := settings.doCompress
    encrypted := settings.doEncrypt }

/-- `lzo1x_1_compress` and `lzo1x_decompress`. -/
structure Lzo where
  compress : Bytes → Bytes
  decompress : Bytes → Option Bytes

/-- What is documented of the library: blocks do not grow too much, and come back. -/
structure Lzo.Documented (lzo : Lzo) : Prop where
  bound : ∀ block, (lzo.compress block).length ≤ block.length + block.length / 16 + 67
  inverts : ∀ block, lzo.decompress (lzo.compress block) = some block

theorem passThrough_documented : Lzo.Documented ⟨id, some⟩ :=
  ⟨fun block => (show block.length ≤ _ from by omega), fun _ => rfl⟩

/-- A libgcrypt or errno value other than success. -/
abbrev ErrorCode := { code : Int // code ≠ 0 }

theorem einval_ne_zero : -EINVAL ≠ 0 := by decide

theorem eio_ne_zero : - EIO ≠ 0 := by decide

/-- `gcry_cipher_encrypt` and `gcry_cipher_decrypt` on the cipher handle, whose state moves on
with every page. -/
structure PageCipher where
  State : Type
  encrypt : State → Bytes → Except ErrorCode (Bytes × State)
  decrypt : State → Bytes → Except ErrorCode (Bytes × State)

namespace PageCipher

variable (cipher : PageCipher)

/-- The pages one after the other, and the state behind the last one. -/
def encryptPages : cipher.State → List Bytes → Except ErrorCode (List Bytes × cipher.State)
  | state, [] => .ok ([], state)
  | state, src :: rest =>
      match cipher.encrypt state src with
      | .error error => .error error
      | .ok (coded, next) =>
          (encryptPages next rest).map fun later => (coded :: later.1, later.2)

def decryptPages : cipher.State → List Bytes → Except ErrorCode (List Bytes × cipher.State)
  | state, [] => .ok ([], state)
  | state, coded :: rest =>
      match cipher.decrypt state coded with
      | .error error => .error error
      | .ok (src, next) =>
          (decryptPages next rest).map fun later => (src :: later.1, later.2)

/-- Page-wise decryption from the same key and initialization vector gives the pages back. -/
def Inverts (page : PageSize) (start : cipher.State) : Prop :=
  ∀ srcs coded state, (∀ src ∈ srcs, src.length = page.bytes) →
    cipher.encryptPages start srcs = .ok (coded, state) →
      ∃ state, cipher.decryptPages start coded = .ok (srcs, state)

/-- A cipher whose key counts the pages. -/
def counting : PageCipher where
  State := UInt8
  encrypt := fun key src => .ok (src.map (· ^^^ key), key + 1)
  decrypt := fun key coded => .ok (coded.map (· ^^^ key), key + 1)

theorem counting_inverts (page : PageSize) (key : UInt8) : counting.Inverts page key := by
  have same (pages : List Bytes) (key : UInt8) : ∃ coded last,
      counting.encryptPages key pages = .ok (coded, last) ∧
        counting.decryptPages key coded = .ok (pages, last) := by
    induction pages generalizing key with
    | nil => exact ⟨[], key, rfl, rfl⟩
    | cons src rest ih =>
        obtain ⟨coded, last, encrypted, decrypted⟩ := ih (key + 1)
        have back : (src.map (· ^^^ key)).map (· ^^^ key) = src := by
          simp [Function.comp_def, UInt8.xor_assoc]
        refine ⟨src.map (· ^^^ key) :: coded, last, ?_, ?_⟩
        · exact congrArg (Except.map fun later => (src.map (· ^^^ key) :: later.1, later.2))
            encrypted
        · refine (congrArg (Except.map fun later => (_ :: later.1, later.2)) decrypted).trans ?_
          rw [back]
          rfl
  intro srcs coded last _ encrypted
  obtain ⟨coded', last', encrypted', decrypted⟩ := same srcs key
  obtain ⟨rfl, rfl⟩ := Prod.mk.inj (Except.ok.inj (encrypted'.symm.trans encrypted))
  exact ⟨_, decrypted⟩

end PageCipher

/-- `struct swap_writer`, the fields that deal with data, over a swap that is a queue of pages.
`buffer` is what lies between `handle->buffer` and `handle->page_ptr`; `writeBuffer` is `none`
where it is `handle->buffer` itself. The checksum context is the list of blocks fed to it.
`passed` are the pages `save_page` has been called with, whatever came of it. -/
structure Pipe (cipher : PageCipher) where
  buffer : Bytes
  writeBuffer : Option Bytes
  state : cipher.State
  ctx : List Bytes
  passed : List Bytes
  swap : List Bytes
  writtenData : Int

/-- A `read` of one page from the snapshot device: a page, a short read or an error. The end of
the image is the end of the list of reads. -/
inductive ImageRead where
  | page (bytes : Bytes)
  | short
  | failed

def EFAULT : Int := 14

theorem efault_ne_zero : -EFAULT ≠ 0 := by decide
def EINTR : Int := 4

/-- What a save depends on: the machine, the configuration, the libraries, what becomes of each
`save_page` call, and when the abort key is found pressed. -/
structure SaveEnv where
  page : PageSize
  settings : Settings
  lzo : Lzo
  cipher : PageCipher
  outcome : Nat → Int
  aborted : Nat → Bool

namespace SaveEnv

variable (env : SaveEnv)

/-- `save_page`. -/
def savePage (pipe : Pipe env.cipher) (src : Bytes) : Int × Pipe env.cipher :=
  let error := env.outcome pipe.swap.length
  if error ≠ 0 then (error, { pipe with passed := pipe.passed ++ [src] })
  else (0, { pipe with
    passed := pipe.passed ++ [src]
    swap := pipe.swap ++ [src]
    writtenData := pipe.writtenData + env.page.bytes })

/-- `encrypt_and_save_page`. -/
def encryptAndSavePage (pipe : Pipe env.cipher) (src : Bytes) : Int × Pipe env.cipher :=
  if env.settings.doEncrypt then
    match env.cipher.encrypt pipe.state src with
    | .error error => (error, pipe)
    | .ok (coded, state) => env.savePage { pipe with state := state } coded
  else env.savePage pipe src

/-- The loop of `flush_buffer` over the pages of a block. -/
def savePagesOf (pipe : Pipe env.cipher) (src : Bytes) (size : Nat) : Int × Pipe env.cipher :=
  if 0 < size then
    let saved := env.encryptAndSavePage pipe (src.take env.page.bytes)
    if saved.1 ≠ 0 then saved
    else savePagesOf saved.2 (src.drop env.page.bytes) (size - env.page.bytes)
  else (0, pipe)
termination_by size
decreasing_by
  have := env.page.bytes_pos
  omega

/-- `struct buf_block`: the size word, then the compressed data. -/
def block (buffer : Bytes) : Bytes :=
  wordBytes 8 (env.lzo.compress buffer).length ++ env.lzo.compress buffer

/-- What `flush_buffer` puts into the memory at `src`. The `memcpy` of an uncompressed buffer is
made for threads only. -/
def fill (src buffer : Bytes) : Bytes :=
  if env.settings.doCompress then overwrite (env.block buffer) src else src

/-- How many bytes of it are to be saved. -/
def blockSize (buffer : Bytes) : Nat :=
  if env.settings.doCompress then (env.lzo.compress buffer).length + 8 else buffer.length

/-- `flush_buffer` without threads. -/
def flushBuffer (pipe : Pipe env.cipher) : Int × Pipe env.cipher :=
  if pipe.buffer = [] then (0, pipe)
  else
    let ctx := if env.settings.checksums then pipe.ctx ++ [pipe.buffer] else pipe.ctx
    let src := env.fill (pipe.writeBuffer.getD pipe.buffer) pipe.buffer
    env.savePagesOf { pipe with ctx := ctx, writeBuffer := pipe.writeBuffer.map fun _ => src }
      src (env.blockSize pipe.buffer)

/-- The loop of `save_image`; the keyboard is looked at every `m` pages. -/
def saveLoop (m : Nat) : Nat → List ImageRead → Pipe env.cipher → Int × Pipe env.cipher
  | _, [], pipe => (0, pipe)
  | _, .failed :: _, pipe => (- EIO, pipe)
  | _, .short :: _, pipe => (-EFAULT, pipe)
  | nrPages, .page bytes :: rest, pipe =>
      let pipe := { pipe with buffer := pipe.buffer ++ bytes }
      if nrPages % m = 0 ∧ env.aborted nrPages then (-EINTR, pipe)
      else if env.page.bufferSize ≤ pipe.buffer.length then
        let flushed := env.flushBuffer pipe
        if flushed.1 ≠ 0 then flushed
        else saveLoop m (nrPages + 1) rest { flushed.2 with buffer := [] }
      else saveLoop m (nrPages + 1) rest pipe

/-- `save_image` without threads, less the extents. Its `nr_pages` is an unsigned int. -/
def saveImage (nrPages : Nat) (input : List ImageRead) (pipe : Pipe env.cipher) :
    Int × Pipe env.cipher :=
  let looped := env.saveLoop (max 1 (nrPages % 2 ^ 32 / 100)) 0 input pipe
  if looped.1 ≠ 0 then looped else env.flushBuffer looped.2

/-- The buffers that `init_swap_writer` takes out of the memory pool, whatever they hold. -/
structure Buffers (useThreads : Bool) where
  writeBuffer : Option Bytes
  allocated : writeBuffer.map List.length =
    if env.settings.doCompress then
      some (if useThreads then 4 * env.page.compressBufSize else env.page.compressBufSize)
    else if useThreads then some (4 * env.page.bufferSize) else none

/-- The writer that `init_swap_writer` sets up. -/
def initSwapWriter {useThreads : Bool} (buffers : env.Buffers useThreads)
    (state : env.cipher.State) : Pipe env.cipher where
  buffer := []
  writeBuffer := buffers.writeBuffer
  state := state
  ctx := []
  passed := []
  swap := []
  writtenData := 0

/-- The pages as they go to the swap. -/
def code (state : env.cipher.State) (srcs : List Bytes) :
    Except ErrorCode (List Bytes × env.cipher.State) :=
  if env.settings.doEncrypt then env.cipher.encryptPages state srcs else .ok (srcs, state)

/-- The pages that a buffer is saved as, from the write buffer `memory`. -/
def pagesOf (memory : Option Bytes) (buffer : Bytes) : List Bytes :=
  slices env.page.bytes (covering env.page.bytes (env.blockSize buffer))
    (env.fill (memory.getD buffer) buffer)

/-- The write buffer afterwards. -/
def refilled (memory : Option Bytes) (buffer : Bytes) : Option Bytes :=
  memory.map fun _ => env.fill (memory.getD buffer) buffer

/-- The pages that one buffer after the other is saved as. -/
def plainPages : Option Bytes → List Bytes → List Bytes
  | _, [] => []
  | memory, buffer :: rest =>
      env.pagesOf memory buffer ++ plainPages (env.refilled memory buffer) rest

/-- The buffers an image is saved in. -/
def buffersOf (image : List Bytes) : List Bytes := (batches 32 image).map List.flatten

variable {env} {pipe : Pipe env.cipher}

theorem encryptPages_append {cipher : PageCipher} {state middle last : cipher.State}
    {srcs more coded later : List Bytes}
    (first : cipher.encryptPages state srcs = .ok (coded, middle))
    (second : cipher.encryptPages middle more = .ok (later, last)) :
    cipher.encryptPages state (srcs ++ more) = .ok (coded ++ later, last) := by
  induction srcs generalizing state coded with
  | nil =>
      cases first
      exact second
  | cons src rest ih =>
      cases answer : cipher.encrypt state src with
      | error error => simp [PageCipher.encryptPages, answer] at first
      | ok result =>
          simp only [PageCipher.encryptPages, answer, List.cons_append] at first ⊢
          cases tail : cipher.encryptPages result.2 rest with
          | error error => simp [tail, Except.map] at first
          | ok codedRest =>
              simp only [tail, Except.map, Except.ok.injEq, Prod.mk.injEq] at first
              obtain ⟨rfl, rfl⟩ := first
              rw [ih tail]
              rfl

theorem code_append {state middle last : env.cipher.State} {srcs more coded later : List Bytes}
    (first : env.code state srcs = .ok (coded, middle))
    (second : env.code middle more = .ok (later, last)) :
    env.code state (srcs ++ more) = .ok (coded ++ later, last) := by
  unfold code at first second ⊢
  by_cases encrypts : env.settings.doEncrypt = true
  · rw [if_pos encrypts] at first second ⊢
    exact encryptPages_append first second
  · rw [if_neg encrypts] at first second ⊢
    cases first
    cases second
    rfl

theorem encryptPages_length {cipher : PageCipher} {state last : cipher.State}
    {srcs coded : List Bytes} (encrypted : cipher.encryptPages state srcs = .ok (coded, last)) :
    coded.length = srcs.length := by
  induction srcs generalizing state coded with
  | nil =>
      cases encrypted
      rfl
  | cons src rest ih =>
      cases answer : cipher.encrypt state src with
      | error error => simp [PageCipher.encryptPages, answer] at encrypted
      | ok result =>
          cases tail : cipher.encryptPages result.2 rest with
          | error error => simp [PageCipher.encryptPages, answer, tail, Except.map] at encrypted
          | ok later =>
              simp only [PageCipher.encryptPages, answer, tail, Except.map, Except.ok.injEq,
                Prod.mk.injEq] at encrypted
              rw [← encrypted.1, List.length_cons, List.length_cons]
              exact congrArg Nat.succ (ih (tail.trans (by rw [← encrypted.2])))

theorem code_length {state last : env.cipher.State} {srcs coded : List Bytes}
    (encoded : env.code state srcs = .ok (coded, last)) : coded.length = srcs.length := by
  unfold code at encoded
  by_cases encrypts : env.settings.doEncrypt = true
  · rw [if_pos encrypts] at encoded
    exact encryptPages_length encoded
  · rw [if_neg encrypts] at encoded
    cases encoded
    rfl

theorem code_nil (state : env.cipher.State) : env.code state [] = .ok ([], state) := by
  unfold code
  split <;> rfl

/-- The writer after `coded` has been saved. -/
def saved (pipe : Pipe env.cipher) (coded : List Bytes) (state : env.cipher.State) :
    Pipe env.cipher :=
  { pipe with
    state := state
    passed := pipe.passed ++ coded
    swap := pipe.swap ++ coded
    writtenData := pipe.writtenData + env.page.bytes * coded.length }

theorem saved_nil (pipe : Pipe env.cipher) : saved pipe [] pipe.state = pipe := by
  simp [saved]

theorem saved_saved (pipe : Pipe env.cipher) (coded later : List Bytes)
    (middle last : env.cipher.State) :
    saved (saved pipe coded middle) later last = saved pipe (coded ++ later) last := by
  simp only [saved, List.append_assoc, List.length_append]
  push_cast
  rw [Int.mul_add, Int.add_assoc]

theorem savePage_success {src : Bytes} (success : (env.savePage pipe src).1 = 0) :
    (env.savePage pipe src).2 = saved pipe [src] pipe.state := by
  unfold savePage at success ⊢
  by_cases refused : env.outcome pipe.swap.length = 0
  · simp [refused, saved]
  · simp [refused] at success

theorem encryptAndSavePage_success {src : Bytes}
    (success : (env.encryptAndSavePage pipe src).1 = 0) :
    ∃ coded state, env.code pipe.state [src] = .ok ([coded], state) ∧
      (env.encryptAndSavePage pipe src).2 = saved pipe [coded] state := by
  unfold encryptAndSavePage at success ⊢
  by_cases encrypts : env.settings.doEncrypt = true
  · simp only [encrypts, ↓reduceIte] at success ⊢
    cases answer : env.cipher.encrypt pipe.state src with
    | error error =>
        rw [answer] at success
        exact absurd success error.property
    | ok result =>
        simp only [answer] at success ⊢
        refine ⟨result.1, result.2, ?_, savePage_success success⟩
        simp [code, encrypts, PageCipher.encryptPages, answer, Except.map]
  · simp only [encrypts] at success ⊢
    exact ⟨src, pipe.state, by simp [code, encrypts], savePage_success success⟩

/-- The loop over a block saves the slices that cover it. -/
theorem savePagesOf_success {src : Bytes} {size : Nat}
    (success : (env.savePagesOf pipe src size).1 = 0) :
    ∃ coded state, env.code pipe.state
        (slices env.page.bytes (covering env.page.bytes size) src) = .ok (coded, state) ∧
      coded.length = covering env.page.bytes size ∧
      (env.savePagesOf pipe src size).2 = saved pipe coded state := by
  have positive := env.page.bytes_pos
  fun_induction savePagesOf env pipe src size with
  | case1 pipe src size more saved failed => exact absurd success failed
  | case2 pipe src size more step done ih =>
      obtain ⟨coded, middle, first, after⟩ :=
        encryptAndSavePage_success (show (env.encryptAndSavePage pipe _).1 = 0 by simpa using done)
      obtain ⟨later, last, second, count, result⟩ := ih success
      rw [after] at second result
      rw [covering_step positive more, slices_succ]
      refine ⟨coded :: later, last, code_append first second, by rw [List.length_cons, count], ?_⟩
      rw [after, result, saved_saved]
      rfl
  | case3 pipe src size none =>
      have empty : size = 0 := by omega
      refine ⟨[], pipe.state, ?_, ?_, (saved_nil pipe).symm⟩
      · rw [empty, covering_zero positive]
        exact code_nil _
      · rw [empty, covering_zero positive]
        rfl

/-- What a run over these buffers has stored. -/
structure Stored (env : SaveEnv) (before after : Pipe env.cipher) (buffers : List Bytes) :
    Prop where
  pages : ∃ coded, env.code before.state (env.plainPages before.writeBuffer buffers) =
      .ok (coded, after.state) ∧ after.swap = before.swap ++ coded ∧
    after.passed = before.passed ++ coded ∧
    after.writtenData = before.writtenData + env.page.bytes * coded.length
  ctx : after.ctx = if env.settings.checksums then before.ctx ++ buffers else before.ctx

theorem Stored.nil (pipe : Pipe env.cipher) : Stored env pipe pipe [] :=
  ⟨⟨[], code_nil _, by simp, by simp, by simp⟩, by simp⟩

theorem flushBuffer_empty (empty : pipe.buffer = []) : env.flushBuffer pipe = (0, pipe) := by
  rw [flushBuffer, if_pos empty]

theorem flushBuffer_success (nonempty : pipe.buffer ≠ [])
    (success : (env.flushBuffer pipe).1 = 0) :
    Stored env pipe (env.flushBuffer pipe).2 [pipe.buffer] ∧
      (env.flushBuffer pipe).2.writeBuffer = env.refilled pipe.writeBuffer pipe.buffer := by
  unfold flushBuffer at success ⊢
  rw [if_neg nonempty] at success ⊢
  dsimp only at success ⊢
  obtain ⟨coded, state, first, _, result⟩ := savePagesOf_success success
  rw [result]
  refine ⟨⟨⟨coded, ?_, rfl, rfl, rfl⟩, rfl⟩, rfl⟩
  simp only [plainPages, pagesOf, List.append_nil]
  exact first

theorem Stored.cons {before middle after : Pipe env.cipher} {buffer : Bytes}
    {rest : List Bytes} (first : Stored env before middle [buffer])
    (memory : middle.writeBuffer = env.refilled before.writeBuffer buffer)
    (later : Stored env { middle with buffer := [] } after rest) :
    Stored env before after (buffer :: rest) := by
  obtain ⟨⟨coded, firstCode, firstSwap, firstPassed, firstSize⟩, firstCtx⟩ := first
  obtain ⟨⟨more, laterCode, laterSwap, laterPassed, laterSize⟩, laterCtx⟩ := later
  dsimp only at laterCode laterSwap laterPassed laterSize laterCtx
  refine ⟨⟨coded ++ more, ?_, ?_, ?_, ?_⟩, ?_⟩
  · rw [memory] at laterCode
    simp only [plainPages, List.append_nil] at firstCode
    exact code_append firstCode laterCode
  · rw [laterSwap, firstSwap, List.append_assoc]
  · rw [laterPassed, firstPassed, List.append_assoc]
  · rw [laterSize, firstSize, List.length_append]
    push_cast
    rw [Int.mul_add, Int.add_assoc]
  · rw [laterCtx, firstCtx]
    by_cases checks : env.settings.checksums = true
    · simp [checks]
    · simp [checks]

theorem buffersOf_nil : buffersOf [] = [] := by
  rw [buffersOf, batches_nil]
  rfl

theorem buffersOf_cons {image : List Bytes} (nonempty : image ≠ []) :
    buffersOf image = (image.take 32).flatten :: buffersOf (image.drop 32) := by
  rw [buffersOf, batches_cons nonempty (by decide), List.map_cons]
  rfl

theorem buffersOf_whole {image : List Bytes}
    (full : ∀ src ∈ image, src.length = env.page.bytes) :
    ∀ buffer ∈ buffersOf image, ∃ count ≤ 32, buffer.length = env.page.bytes * count := by
  induction size : image.length using Nat.strong_induction_on generalizing image with
  | _ size ih =>
      by_cases empty : image = []
      · rw [empty, buffersOf_nil]
        simp
      · have some := List.length_pos_iff.mpr empty
        rw [buffersOf_cons empty]
        intro buffer member
        rcases List.mem_cons.mp member with rfl | later
        · refine ⟨(image.take 32).length, by rw [List.length_take]; omega, ?_⟩
          exact flatten_length fun src inside => full src (List.mem_of_mem_take inside)
        · exact ih (image.drop 32).length (by rw [List.length_drop]; omega)
            (fun src inside => full src (List.mem_of_mem_drop inside)) rfl buffer later

/-- The save loop and the flush behind it store the buffers of what is already buffered and of
the rest of the image. -/
theorem saveLoop_success {m nrPages : Nat} {image : List Bytes} (filled : List Bytes)
    (full : ∀ src ∈ filled ++ image, src.length = env.page.bytes)
    (room : filled.length < 32) (buffered : pipe.buffer = filled.flatten)
    (looped : (env.saveLoop m nrPages (image.map .page) pipe).1 = 0)
    (flushed : (env.flushBuffer (env.saveLoop m nrPages (image.map .page) pipe).2).1 = 0) :
    Stored env pipe (env.flushBuffer (env.saveLoop m nrPages (image.map .page) pipe).2).2
      (buffersOf (filled ++ image)) := by
  have positive := env.page.bytes_pos
  induction image generalizing nrPages filled pipe with
  | nil =>
      rw [List.append_nil] at full ⊢
      simp only [List.map_nil, saveLoop] at flushed ⊢
      have size := flatten_length full
      by_cases empty : filled = []
      · subst empty
        rw [flushBuffer_empty (by simpa using buffered), buffersOf_nil]
        exact Stored.nil pipe
      · have some := List.length_pos_iff.mpr empty
        have nonempty : pipe.buffer ≠ [] := by
          rw [buffered, ← List.length_pos_iff, size]
          exact Nat.mul_pos positive some
        have stored := (flushBuffer_success nonempty flushed).1
        rw [buffersOf, batches_single empty (by omega)]
        rwa [buffered] at stored
  | cons src rest ih =>
      have width : src.length = env.page.bytes := full src (by simp)
      have fullFilled : ∀ part ∈ filled ++ [src], part.length = env.page.bytes := by
        intro part member
        refine full part ?_
        rcases List.mem_append.mp member with old | new
        · exact List.mem_append_left _ old
        · rw [List.mem_singleton.mp new]
          simp
      have joined : pipe.buffer ++ src = (filled ++ [src]).flatten := by
        rw [buffered]
        simp
      have size := flatten_length fullFilled
      rw [List.length_append, List.length_singleton] at size
      simp only [List.map_cons, saveLoop] at looped flushed ⊢
      by_cases abort : nrPages % m = 0 ∧ env.aborted nrPages = true
      · simp [abort, EINTR] at looped
      · rw [if_neg abort] at looped flushed ⊢
        rw [show filled ++ src :: rest = (filled ++ [src]) ++ rest by simp] at full ⊢
        by_cases reached : env.page.bufferSize ≤ (pipe.buffer ++ src).length
        · rw [if_pos reached] at looped flushed ⊢
          rw [joined, size, PageSize.bufferSize] at reached
          have count := Nat.le_of_mul_le_mul_left reached positive
          have nonempty : ({ pipe with buffer := pipe.buffer ++ src } : Pipe env.cipher).buffer ≠
              [] := by
            rw [← List.length_pos_iff]
            dsimp only
            rw [List.length_append]
            omega
          by_cases failed : (env.flushBuffer { pipe with buffer := pipe.buffer ++ src }).1 = 0
          · rw [if_neg (by simpa using failed)] at looped flushed ⊢
            obtain ⟨stored, memory⟩ := flushBuffer_success nonempty failed
            have later := ih [] (fun part member => full part
              (List.mem_append_right _ member)) (by simp) rfl looped flushed
            rw [buffersOf, batches_append rest (by decide)
              (by rw [List.length_append, List.length_singleton]; omega), List.map_cons, ← joined]
            refine ⟨?_, ?_⟩
            · exact (stored.cons memory later).pages
            · exact (stored.cons memory later).ctx
          · rw [if_pos failed] at looped
            exact absurd looped failed
        · rw [if_neg reached] at looped flushed ⊢
          rw [joined, size, PageSize.bufferSize] at reached
          have few : filled.length + 1 < 32 := by
            by_contra many
            exact reached (Nat.mul_le_mul_left _ (by omega))
          have later := ih (filled ++ [src]) full
            (by rw [List.length_append, List.length_singleton]; exact few) joined looped flushed
          exact ⟨later.pages, later.ctx⟩

theorem saveImage_buffered {nrPages : Nat} {image : List Bytes} (filled : List Bytes)
    (full : ∀ src ∈ filled ++ image, src.length = env.page.bytes)
    (room : filled.length < 32) (buffered : pipe.buffer = filled.flatten)
    (success : (env.saveImage nrPages (image.map .page) pipe).1 = 0) :
    Stored env pipe (env.saveImage nrPages (image.map .page) pipe).2
      (buffersOf (filled ++ image)) := by
  unfold saveImage at success ⊢
  generalize max 1 (nrPages % 2 ^ 32 / 100) = m at success ⊢
  by_cases looped : (env.saveLoop m 0 (image.map .page) pipe).1 = 0
  · simp only [looped, ne_eq, not_true_eq_false, ↓reduceIte] at success ⊢
    exact saveLoop_success filled full room buffered looped success
  · simp [looped] at success

theorem saveImage_success {nrPages : Nat} {image : List Bytes}
    (full : ∀ src ∈ image, src.length = env.page.bytes) (empty : pipe.buffer = [])
    (success : (env.saveImage nrPages (image.map .page) pipe).1 = 0) :
    Stored env pipe (env.saveImage nrPages (image.map .page) pipe).2 (buffersOf image) :=
  saveImage_buffered [] full (by simp) empty success

section Untroubled

variable (encrypts : env.settings.doEncrypt = true →
    ∀ state src, ∃ result, env.cipher.encrypt state src = .ok result)
  (granted : ∀ count, env.outcome count = 0)
include encrypts granted

theorem encryptAndSavePage_succeeds (pipe : Pipe env.cipher) (src : Bytes) :
    (env.encryptAndSavePage pipe src).1 = 0 := by
  unfold encryptAndSavePage
  by_cases wanted : env.settings.doEncrypt = true
  · obtain ⟨result, answer⟩ := encrypts wanted pipe.state src
    simp [wanted, answer, savePage, granted]
  · simp [wanted, savePage, granted]

theorem savePagesOf_succeeds (pipe : Pipe env.cipher) (src : Bytes) (size : Nat) :
    (env.savePagesOf pipe src size).1 = 0 := by
  fun_induction savePagesOf env pipe src size with
  | case1 pipe src size more saved failed =>
      exact absurd (encryptAndSavePage_succeeds encrypts granted pipe _) failed
  | case2 pipe src size more step done ih => exact ih
  | case3 pipe src size none => rfl

theorem flushBuffer_succeeds (pipe : Pipe env.cipher) : (env.flushBuffer pipe).1 = 0 := by
  unfold flushBuffer
  split
  · rfl
  · exact savePagesOf_succeeds encrypts granted _ _ _

theorem saveLoop_succeeds (undisturbed : ∀ nrPages, env.aborted nrPages = false)
    (m nrPages : Nat) (image : List Bytes) (pipe : Pipe env.cipher) :
    (env.saveLoop m nrPages (image.map .page) pipe).1 = 0 := by
  induction image generalizing nrPages pipe with
  | nil => rfl
  | cons src rest ih =>
      rw [List.map_cons, saveLoop]
      dsimp only
      rw [if_neg (by simp [undisturbed])]
      split
      · rw [if_neg (by simpa using flushBuffer_succeeds encrypts granted _)]
        exact ih _ _
      · exact ih _ _

variable (env) in
theorem saveImage_succeeds (undisturbed : ∀ nrPages, env.aborted nrPages = false)
    (nrPages : Nat) (image : List Bytes) (pipe : Pipe env.cipher) :
    (env.saveImage nrPages (image.map .page) pipe).1 = 0 := by
  unfold saveImage
  dsimp only
  rw [if_neg (by simpa using saveLoop_succeeds encrypts granted undisturbed _ _ _ _)]
  exact flushBuffer_succeeds encrypts granted _

end Untroubled

end SaveEnv

end Suspend
