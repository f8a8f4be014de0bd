import Suspend.LoadRounds

set_option autoImplicit false

namespace Suspend

open Foundation.Memory

namespace SaveEnv

/-- The reader of an image saved here, on the same machine with the same libraries. -/
abbrev reader (env : SaveEnv) (verify verifyOnly : Bool) (accepts : Nat → Bool) : LoadEnv where
  page := env.page
  settings := LoadSettings.ofFlags env.settings.flags verify
  lzo := env.lzo
  cipher := env.cipher
  verifyOnly := verifyOnly
  accepts := accepts

/-- The header of the image as far as loading depends on it. -/
def imageHeader (env : SaveEnv) (pages : Nat) (pipe : Pipe env.cipher) : ImageHeader :=
  { ImageHeader.zero with
    pages := pages
    flags := env.settings.flags
    imageDataSize := pipe.writtenData }

/-- `init_swap_reader` on the saved pages, with the cipher set to its start again. -/
def initSwapReader (env : SaveEnv) (header : ImageHeader) (pipe : Pipe env.cipher)
    (start : env.cipher.State) (memory : Bytes) : Source env.cipher where
  swap := pipe.swap
  state := start
  totalSize := header.imageDataSize
  buffer := memory
  ctx := []

variable {env : SaveEnv}

/-- The write buffer of an unthreaded save. -/
def Ready (env : SaveEnv) (memory : Option Bytes) : Prop :=
  memory.map List.length =
    if env.settings.doCompress then some env.page.compressBufSize else none

theorem blockSize_le (documented : env.lzo.Documented) (compresses : env.settings.doCompress = true)
    {buffer : Bytes} (small : buffer.length ≤ env.page.bufferSize) :
    env.blockSize buffer ≤ env.page.compressBufSize := by
  have bound := documented.bound buffer
  have rounded := covering_covers (env.page.bufferSize / 16 + 67 + 8) env.page.bytes_pos
  simp only [blockSize, compresses, ↓reduceIte, PageSize.compressBufSize, PageSize.roundUp]
  omega

theorem compressBufSize_whole (page : PageSize) :
    page.compressBufSize =
      page.bytes * (32 + covering page.bytes (page.bufferSize / 16 + 67 + 8)) := by
  rw [PageSize.compressBufSize, PageSize.roundUp, Nat.mul_add]
  rfl

theorem compressBufSize_small (page : PageSize) : page.compressBufSize < 2 ^ 64 := by
  have small := page.bytes_small
  have tight := covering_tight (page.bufferSize / 16 + 67 + 8) page.bytes_pos
  have width : page.bufferSize = page.bytes * 32 := rfl
  simp only [PageSize.compressBufSize, PageSize.roundUp]
  omega

theorem block_length (compresses : env.settings.doCompress = true) (buffer : Bytes) :
    (env.block buffer).length = env.blockSize buffer := by
  simp only [block, blockSize, compresses, ↓reduceIte, List.length_append, wordBytes_length]
  omega

theorem covering_fits (documented : env.lzo.Documented)
    (compresses : env.settings.doCompress = true) {buffer : Bytes}
    (small : buffer.length ≤ env.page.bufferSize) :
    env.page.bytes * covering env.page.bytes (env.blockSize buffer) ≤
      env.page.compressBufSize := by
  have fits := blockSize_le documented compresses small
  rw [compressBufSize_whole] at fits ⊢
  exact Nat.mul_le_mul_left _ (covering_le env.page.bytes_pos fits)

theorem Ready.refilled {memory : Option Bytes} {buffer : Bytes} (ready : env.Ready memory)
    (documented : env.lzo.Documented) (small : buffer.length ≤ env.page.bufferSize) :
    env.Ready (env.refilled memory buffer) := by
  unfold Ready SaveEnv.refilled at *
  by_cases compresses : env.settings.doCompress = true
  · rw [if_pos compresses] at ready ⊢
    cases memory with
    | none => cases ready
    | some src =>
        simp only [Option.map_some, Option.some.injEq] at ready ⊢
        have fits := blockSize_le documented compresses small
        simp only [fill, compresses, ↓reduceIte, Option.getD_some]
        rw [overwrite_length (by rw [block_length compresses]; omega), ready]
  · rw [if_neg compresses] at ready ⊢
    cases memory with
    | none => rfl
    | some src => cases ready

section Buffers

variable {verify verifyOnly : Bool} {accepts : Nat → Bool} {source : Source env.cipher}
  {memory : Option Bytes}

/-- What `load_buffer` leaves behind for a buffer. -/
structure Refilled (env : SaveEnv) (verify : Bool) (source next : Source env.cipher)
    (buffer : Bytes) (count : Nat) : Prop where
  held : next.buffer.take buffer.length = buffer
  ctx : next.ctx =
    if env.settings.computeChecksum || verify then source.ctx ++ [buffer] else source.ctx
  totalSize : next.totalSize = source.totalSize - env.page.bytes * count

variable (verifyOnly accepts) in
theorem loaded_refilled {next : Source env.cipher} {count : Nat} (buffer : Bytes)
    (taken : (env.reader verify verifyOnly accepts).Taken source next count) :
    ((env.reader verify verifyOnly accepts).loaded next buffer).1 = buffer.length ∧
      env.Refilled verify source ((env.reader verify verifyOnly accepts).loaded next buffer).2
        buffer count := by
  refine ⟨rfl, overwrite_take buffer next.buffer, ?_, taken.totalSize⟩
  simp only [LoadEnv.loaded, LoadSettings.ofFlags, Settings.flags, taken.ctx]

/-- The size word and the data can be read back from any memory that holds the block. -/
theorem block_read (documented : env.lzo.Documented)
    (compresses : env.settings.doCompress = true) {buffer written : Bytes}
    (small : buffer.length ≤ env.page.bufferSize)
    (stored : written.take (env.blockSize buffer) = env.block buffer) {count : Nat}
    (enough : 8 ≤ count) :
    wordValue ((written.take count).take 8) + 8 = env.blockSize buffer ∧
      (env.blockSize buffer ≤ count →
        ((written.take count).drop 8).take (env.lzo.compress buffer).length =
          env.lzo.compress buffer) := by
  have size : env.blockSize buffer = (env.lzo.compress buffer).length + 8 := by
    simp [blockSize, compresses]
  have fits := blockSize_le documented compresses small
  have bounded := compressBufSize_small env.page
  have first : written.take 8 = wordBytes 8 (env.lzo.compress buffer).length := by
    have inside : written.take 8 = (written.take (env.blockSize buffer)).take 8 := by
      rw [List.take_take, Nat.min_eq_left (by omega)]
    rw [inside, stored, block]
    exact List.take_left' (wordBytes_length _ _)
  refine ⟨?_, fun covers => ?_⟩
  · rw [List.take_take, Nat.min_eq_left enough, first, wordValue_wordBytes _ _ (by omega), size]
  · rw [List.take_drop, List.take_take, Nat.min_eq_left (by omega),
      show 8 + (env.lzo.compress buffer).length = env.blockSize buffer by omega, stored, block,
      List.drop_left' (wordBytes_length _ _)]

/-- A compressed block is read, page by page, and decompressed. -/
theorem loadBuffer_compressed (documented : env.lzo.Documented)
    (compresses : env.settings.doCompress = true) (ready : env.Ready memory) {buffer : Bytes}
    (small : buffer.length ≤ env.page.bufferSize) {rest : List Bytes}
    (reads : (env.reader verify verifyOnly accepts).Reads source
      (env.pagesOf memory buffer ++ rest)) :
    (env.reader verify verifyOnly accepts).bufferStrays source = false ∧
      ∃ next, (env.reader verify verifyOnly accepts).loadBuffer source = (buffer.length, next) ∧
        (env.reader verify verifyOnly accepts).Reads next rest ∧
        env.Refilled verify source next buffer (env.pagesOf memory buffer).length := by
  have positive := env.page.bytes_pos
  have large := env.page.bytes_large
  unfold Ready at ready
  rw [if_pos compresses] at ready
  obtain ⟨src, rfl, width⟩ : ∃ src, memory = some src ∧ src.length = env.page.compressBufSize := by
    cases memory with
    | none => cases ready
    | some src => exact ⟨src, rfl, by simpa using ready⟩
  have fits := blockSize_le documented compresses small
  have fitsWhole := covering_fits documented compresses small
  have covers := covering_covers (env.blockSize buffer) positive
  have size : env.blockSize buffer = (env.lzo.compress buffer).length + 8 := by
    simp [blockSize, compresses]
  obtain ⟨written, stored, writtenLength, pages⟩ : ∃ written : Bytes,
      written.take (env.blockSize buffer) = env.block buffer ∧
      written.length = env.page.compressBufSize ∧ env.pagesOf (some src) buffer =
        slices env.page.bytes (covering env.page.bytes (env.blockSize buffer)) written := by
    refine ⟨overwrite (env.block buffer) src, ?_, ?_, by simp [pagesOf, fill, compresses]⟩
    · rw [← block_length compresses]
      exact overwrite_take _ _
    · rw [overwrite_length (by rw [block_length compresses, width]; exact fits), width]
  rw [pages] at reads ⊢
  obtain ⟨count, split⟩ : ∃ count, covering env.page.bytes (env.blockSize buffer) = count + 1 :=
    ⟨_, covering_step positive (by omega)⟩
  rw [split, Nat.mul_succ] at covers
  rw [split, slices_succ, List.cons_append] at reads
  obtain ⟨first, firstLoaded, readsFirst, takenFirst⟩ := LoadEnv.loadAndDecryptPage_reads reads
  have sliceFull : ∀ part ∈ slices env.page.bytes count (written.drop env.page.bytes),
      part.length = env.page.bytes :=
    fun part member => mem_slices_length (by
      rw [split, Nat.mul_succ] at fitsWhole
      rw [List.length_drop]
      omega) member
  have firstFull : (written.take env.page.bytes).length = env.page.bytes * 1 := by
    rw [split, Nat.mul_succ] at fitsWhole
    rw [List.length_take]
    omega
  obtain ⟨inside, last, blockLoaded, readsLast, takenLast⟩ :=
    LoadEnv.loadBlock_reads (env.reader verify verifyOnly accepts) sliceFull readsFirst
      Nat.one_pos firstFull (block_read documented compresses small stored (by omega)).1
      (Nat.lt_of_le_of_lt fits (compressBufSize_small env.page))
      (by rw [slices_length, split]; omega) fitsWhole
  have whole : written.take env.page.bytes ++
      (slices env.page.bytes count (written.drop env.page.bytes)).flatten =
        written.take (env.page.bytes * count + env.page.bytes) := by
    rw [slices_flatten, Nat.add_comm (env.page.bytes * count), List.take_add]
  obtain ⟨word, data⟩ := block_read documented compresses small stored
    (show 8 ≤ env.page.bytes * count + env.page.bytes by omega)
  have value : wordValue ((written.take (env.page.bytes * count + env.page.bytes)).take 8) =
      (env.lzo.compress buffer).length := by omega
  obtain ⟨size, refilled⟩ := loaded_refilled verifyOnly accepts buffer (takenFirst.trans takenLast)
  constructor
  · simp only [LoadEnv.bufferStrays, LoadSettings.ofFlags, Settings.flags, compresses,
      Bool.true_and, firstLoaded, inside, Bool.false_or, blockLoaded, whole, value, data covers,
      documented.inverts buffer, Option.any_some]
    exact decide_eq_false (Nat.not_lt.mpr small)
  · refine ⟨((env.reader verify verifyOnly accepts).loaded last buffer).2, ?_, readsLast, ?_⟩
    · simp only [LoadEnv.loadBuffer, LoadSettings.ofFlags, Settings.flags, compresses, ↓reduceIte,
        firstLoaded, blockLoaded, whole, value, data covers, documented.inverts buffer]
      rw [← size]
    · rw [slices_length] at refilled ⊢
      rwa [split, Nat.add_comm]

theorem pagesOf_plain (plain : env.settings.doCompress = false) {batch : List Bytes}
    (full : ∀ src ∈ batch, src.length = env.page.bytes) :
    env.pagesOf none batch.flatten = batch := by
  simp only [pagesOf, blockSize, fill, plain, Bool.false_eq_true, ↓reduceIte, Option.getD_none]
  rw [flatten_length full, covering_mul env.page.bytes_pos, slices_of_flatten full]

theorem loadBuffer_plain (plain : env.settings.doCompress = false) {batch rest : List Bytes}
    (full : ∀ src ∈ batch, src.length = env.page.bytes)
    (reads : (env.reader verify verifyOnly accepts).Reads source (batch ++ rest))
    (total : source.totalSize = env.page.bytes * (batch.length + rest.length : Nat))
    (fits : batch.length ≤ 32) (ends : batch.length = 32 ∨ rest = []) :
    ∃ next, (env.reader verify verifyOnly accepts).loadBuffer source =
        (batch.flatten.length, next) ∧
      (env.reader verify verifyOnly accepts).Reads next rest ∧
      env.Refilled verify source next batch.flatten batch.length := by
  obtain ⟨last, pagesLoaded, readsLast, taken⟩ :=
    LoadEnv.loadPages_reads (env.reader verify verifyOnly accepts) [] 0 full reads rfl total
      (by omega) (by simpa using ends)
  obtain ⟨size, refilled⟩ := loaded_refilled verifyOnly accepts
    batch.flatten taken
  refine ⟨((env.reader verify verifyOnly accepts).loaded last batch.flatten).2, ?_, readsLast,
    refilled⟩
  rw [List.nil_append] at pagesLoaded
  simp only [LoadEnv.loadBuffer, LoadSettings.ofFlags, Settings.flags, plain, Bool.false_eq_true,
    ↓reduceIte, pagesLoaded]
  rw [← size]

theorem Ready.none_of_plain (ready : env.Ready memory)
    (plain : env.settings.doCompress = false) : memory = none := by
  unfold Ready at ready
  rw [plain] at ready
  cases memory with
  | none => rfl
  | some src => cases ready

theorem loadBuffer_reads (documented : env.lzo.Documented) (ready : env.Ready memory)
    {batch rest : List Bytes} (full : ∀ src ∈ batch, src.length = env.page.bytes)
    (reads : (env.reader verify verifyOnly accepts).Reads source
      (env.pagesOf memory batch.flatten ++ rest))
    (total : source.totalSize =
      env.page.bytes * ((env.pagesOf memory batch.flatten).length + rest.length : Nat))
    (fits : batch.length ≤ 32) (ends : batch.length = 32 ∨ rest = []) :
    (env.reader verify verifyOnly accepts).bufferStrays source = false ∧
      ∃ next, (env.reader verify verifyOnly accepts).loadBuffer source =
          (batch.flatten.length, next) ∧
        (env.reader verify verifyOnly accepts).Reads next rest ∧
        env.Refilled verify source next batch.flatten
          (env.pagesOf memory batch.flatten).length := by
  have small : batch.flatten.length ≤ env.page.bufferSize := by
    rw [flatten_length full, PageSize.bufferSize]
    exact Nat.mul_le_mul_left _ fits
  cases compresses : env.settings.doCompress with
  | true => exact loadBuffer_compressed documented compresses ready small reads
  | false =>
      obtain rfl := ready.none_of_plain compresses
      rw [pagesOf_plain compresses full] at reads total ⊢
      refine ⟨?_, loadBuffer_plain compresses full reads total fits ends⟩
      simp only [LoadEnv.bufferStrays, LoadSettings.ofFlags, Settings.flags, compresses,
        Bool.false_and]

end Buffers

section Image

variable {verify verifyOnly : Bool} {accepts : Nat → Bool} {fed pages image : List Bytes}

/-- The pages of one buffer after the other, each in a write buffer of its own. -/
inductive Paged (env : SaveEnv) : List Bytes → List Bytes → Prop where
  | nil : Paged env [] []
  | cons {memory : Option Bytes} {buffer : Bytes} {buffers pages : List Bytes}
      (ready : env.Ready memory) (rest : Paged env buffers pages) :
      Paged env (buffer :: buffers) (env.pagesOf memory buffer ++ pages)

/-- Every buffer holds 32 pages at most, and whole ones. -/
def Batched (env : SaveEnv) (buffers : List Bytes) : Prop :=
  ∀ buffer ∈ buffers, ∃ batch : List Bytes, batch.flatten = buffer ∧
    batch.length ≤ 32 ∧ ∀ src ∈ batch, src.length = env.page.bytes

/-- These pages of the image are in the source, in whatever write buffers they have been. -/
structure Ahead (env : SaveEnv) (verify verifyOnly : Bool) (accepts : Nat → Bool)
    (fed upcoming : List Bytes) (source : Source env.cipher) : Prop where
  queue : ∃ pages, env.Paged (buffersOf upcoming) pages ∧
    (env.reader verify verifyOnly accepts).Reads source pages ∧
    source.totalSize = env.page.bytes * pages.length
  ctx : (if env.settings.computeChecksum || verify then source.ctx ++ buffersOf upcoming
    else []) = fed

theorem ahead_supplies (documented : env.lzo.Documented) :
    (env.reader verify verifyOnly accepts).Supplies (env.Ahead verify verifyOnly accepts fed) := by
  rintro upcoming source nonempty full ⟨⟨pages, paged, reads, total⟩, ctx⟩
  have front : ∀ src ∈ upcoming.take 32, src.length = env.page.bytes :=
    fun src member => full src (List.mem_of_mem_take member)
  have few : (upcoming.take 32).length ≤ 32 := by
    rw [List.length_take]
    omega
  rw [buffersOf_cons nonempty] at paged
  cases paged with
  | @cons memory _ _ pages ready rest =>
      rw [List.length_append] at total
      obtain ⟨inside, next, loaded, readsNext, refilled⟩ :=
        loadBuffer_reads documented ready front reads total few (by
          by_cases enough : 32 ≤ upcoming.length
          · exact Or.inl (by rw [List.length_take]; omega)
          · refine Or.inr ?_
            rw [List.drop_eq_nil_of_le (by omega), buffersOf_nil] at rest
            cases rest
            rfl)
      refine ⟨inside, next, loaded, refilled.held, ⟨⟨pages, rest, readsNext, ?_⟩, ?_⟩⟩
      · rw [refilled.totalSize, total]
        push_cast
        rw [Int.mul_add]
        omega
      · rw [← ctx, refilled.ctx, buffersOf_cons nonempty]
        by_cases checks : (env.settings.computeChecksum || verify) = true
        · simp [checks]
        · simp [checks]

theorem pagesOf_full (documented : env.lzo.Documented) {memory : Option Bytes}
    (ready : env.Ready memory) {batch : List Bytes}
    (full : ∀ src ∈ batch, src.length = env.page.bytes) (few : batch.length ≤ 32) :
    ∀ src ∈ env.pagesOf memory batch.flatten, src.length = env.page.bytes := by
  intro src member
  have small : batch.flatten.length ≤ env.page.bufferSize := by
    rw [flatten_length full, PageSize.bufferSize]
    exact Nat.mul_le_mul_left _ few
  cases compresses : env.settings.doCompress with
  | true =>
      unfold Ready at ready
      rw [if_pos compresses] at ready
      cases memory with
      | none => cases ready
      | some written =>
          have width : written.length = env.page.compressBufSize := by simpa using ready
          refine mem_slices_length ?_ member
          have fits := covering_fits documented compresses small
          simp only [fill, compresses, ↓reduceIte, Option.getD_some]
          rwa [overwrite_length (by
            rw [block_length compresses, width]
            exact blockSize_le documented compresses small), width]
  | false =>
      obtain rfl := ready.none_of_plain compresses
      rw [pagesOf_plain compresses full] at member
      exact full src member

/-- What buffers of 32 pages at most are saved as are whole pages. -/
theorem Paged.full {buffers : List Bytes} (paged : env.Paged buffers pages)
    (documented : env.lzo.Documented)
    (batched : env.Batched buffers) :
    ∀ src ∈ pages, src.length = env.page.bytes := by
  induction paged with
  | nil => exact fun _ member => absurd member List.not_mem_nil
  | cons ready rest ih =>
      intro src member
      obtain ⟨batch, rfl, few, full⟩ := batched _ List.mem_cons_self
      rcases List.mem_append.mp member with here | later
      · exact pagesOf_full documented ready full few src here
      · exact ih (fun buffer inside => batched buffer (List.mem_cons_of_mem _ inside)) src later

theorem buffersOf_batched (full : ∀ src ∈ image, src.length = env.page.bytes) :
    env.Batched (buffersOf image) := by
  induction size : image.length using Nat.strong_induction_on generalizing image with
  | _ size ih =>
      intro buffer member
      by_cases empty : image = []
      · rw [empty, buffersOf_nil] at member
        exact absurd member List.not_mem_nil
      · have some := List.length_pos_iff.mpr empty
        rw [buffersOf_cons empty] at member
        rcases List.mem_cons.mp member with rfl | later
        · refine ⟨image.take 32, rfl, ?_, fun src inside => full src (List.mem_of_mem_take inside)⟩
          rw [List.length_take]
          omega
        · exact ih (image.drop 32).length (by rw [List.length_drop]; omega)
            (fun src inside => full src (List.mem_of_mem_drop inside)) rfl buffer later

/-- Without threads every buffer is packed in the same write buffer. -/
theorem plainPages_paged (documented : env.lzo.Documented) {memory : Option Bytes}
    (ready : env.Ready memory) {buffers : List Bytes} (batched : env.Batched buffers) :
    env.Paged buffers (env.plainPages memory buffers) := by
  induction buffers generalizing memory with
  | nil => exact .nil
  | cons buffer rest ih =>
      obtain ⟨batch, rfl, few, full⟩ := batched _ List.mem_cons_self
      have small : batch.flatten.length ≤ env.page.bufferSize := by
        rw [flatten_length full, PageSize.bufferSize]
        exact Nat.mul_le_mul_left _ few
      exact .cons ready (ih (ready.refilled documented small)
        fun other inside => batched other (List.mem_cons_of_mem _ inside))

/-- The reader finds the pages as they were before they were encrypted. -/
theorem code_reads {start last : env.cipher.State} (inverts : env.cipher.Inverts env.page start)
    {pages coded : List Bytes} (encoded : env.code start pages = .ok (coded, last))
    (full : ∀ src ∈ pages, src.length = env.page.bytes) {source : Source env.cipher}
    (swap : source.swap = coded) (state : source.state = start) :
    (env.reader verify verifyOnly accepts).Reads source pages := by
  unfold LoadEnv.Reads LoadEnv.decode
  unfold code at encoded
  rw [swap, state]
  by_cases encrypts : env.settings.doEncrypt = true
  · rw [if_pos encrypts] at encoded
    obtain ⟨last, decoded⟩ := inverts _ _ _ full encoded
    exact ⟨last, by
      simp only [LoadSettings.ofFlags, Settings.flags, encrypts, ↓reduceIte, decoded]⟩
  · rw [if_neg encrypts] at encoded
    simp only [Except.ok.injEq, Prod.mk.injEq] at encoded
    refine ⟨start, ?_⟩
    simp only [LoadSettings.ofFlags, Settings.flags, encrypts, encoded.1]
    rfl

end Image

/-- No round passes on more than one page. -/
theorem loadLoop_delivered (env : LoadEnv) (left n : Nat) (loading : env.Loading) :
    (env.loadLoop left n loading).2.delivered.length ≤ loading.delivered.length + left + 1 := by
  have once (n : Nat) (loading : env.Loading) :
      (env.loadPage n loading).2.delivered.length ≤ loading.delivered.length + 1 := by
    have same : (env.refill loading).delivered = loading.delivered := by
      unfold LoadEnv.refill
      split <;> rfl
    unfold LoadEnv.loadPage
    dsimp only
    split
    · rw [same]
      exact Nat.le_succ _
    · split
      · rw [List.length_append, List.length_singleton, same]
      · rw [same]
        exact Nat.le_succ _
  induction left generalizing n loading with
  | zero => exact once n loading
  | succ left ih =>
      have first := once n loading
      rw [LoadEnv.loadLoop]
      split
      · omega
      · have later := ih (n + 1) (env.loadPage n loading).2
        omega

/-- `load_image` on a saved image: by `write_image`, which verifies it if so configured, or on
resume. -/
def reload (env : SaveEnv) (verifying verifyOnly : Bool) (accepts : Nat → Bool)
    (start : env.cipher.State) (memory : Bytes) (pages : Nat) (saved : Pipe env.cipher) :
    Int × (env.reader (verifying && env.settings.verifyImage) verifyOnly accepts).Loading :=
  let header := env.imageHeader pages saved
  (env.reader (verifying && env.settings.verifyImage) verifyOnly accepts).loadImage header.pages
    (env.initSwapReader header saved start memory)

theorem reload_delivered (env : SaveEnv) (verifying verifyOnly : Bool) (accepts : Nat → Bool)
    (start : env.cipher.State) (memory : Bytes) (pages : Nat) (saved : Pipe env.cipher) :
    (env.reload verifying verifyOnly accepts start memory pages saved).2.delivered.length ≤
      0 + (pages % 2 ^ 32 - 1) + 1 :=
  loadLoop_delivered _ _ _ _

/-- All pages are back in order, nothing is left over, and the checksum has been fed the blocks
that the writer fed to it. -/
structure Restored (env : SaveEnv) (verifying : Bool) {verifyOnly : Bool} {accepts : Nat → Bool}
    (image : List Bytes) (saved : Pipe env.cipher)
    (result : Int ×
      (env.reader (verifying && env.settings.verifyImage) verifyOnly accepts).Loading) :
    Prop where
  success : result.1 = 0
  delivered : result.2.delivered = image
  consumed : result.2.source.swap = []
  checksum : (env.settings.computeChecksum || verifying && env.settings.verifyImage) = true →
    result.2.source.ctx = saved.ctx

theorem Stored.between (documented : env.lzo.Documented) {start : env.cipher.State}
    (inverts : env.cipher.Inverts env.page start) {buffers : env.Buffers false}
    {image : List Bytes} (full : ∀ src ∈ image, src.length = env.page.bytes)
    {after : Pipe env.cipher}
    (stored : Stored env (env.initSwapWriter buffers start) after (buffersOf image))
    (verify verifyOnly : Bool) (accepts : Nat → Bool) (memory : Bytes) (pages : Nat) :
    LoadEnv.Between (env.reader verify verifyOnly accepts)
      (env.Ahead verify verifyOnly accepts
        (if env.settings.computeChecksum || verify then buffersOf image else [])) [] image
      ⟨env.initSwapReader (env.imageHeader pages after) after start memory, 0, 0, []⟩ := by
  have ready : env.Ready buffers.writeBuffer := buffers.allocated
  have batched := buffersOf_batched full
  have paged := plainPages_paged documented ready batched
  obtain ⟨coded, encoded, swap, _, writtenData⟩ := stored.pages
  dsimp only [initSwapWriter] at encoded swap writtenData
  rw [List.nil_append] at swap
  refine ⟨full, by simp, by simp, ⟨⟨_, paged, ?_, ?_⟩, rfl⟩⟩
  · exact code_reads inverts encoded (paged.full documented batched) swap rfl
  · have count := code_length encoded
    dsimp only [initSwapReader, imageHeader]
    rw [writtenData, count, Int.zero_add]

/-- An image that was saved without threads comes back as it was, provided the number of its
pages fits in an unsigned int. -/
theorem reload_restored_iff (env : SaveEnv) (documented : env.lzo.Documented)
    (start : env.cipher.State) (inverts : env.cipher.Inverts env.page start)
    (buffers : env.Buffers false) (image : List Bytes)
    (full : ∀ src ∈ image, src.length = env.page.bytes) (nonempty : image ≠ [])
    (saved : (env.saveImage image.length (image.map .page)
      (env.initSwapWriter buffers start)).1 = 0)
    (verifying verifyOnly : Bool) (accepts : Nat → Bool)
    (accepted : ∀ index < image.length, (verifyOnly || accepts index) = true) (memory : Bytes) :
    let after := (env.saveImage image.length (image.map .page)
      (env.initSwapWriter buffers start)).2
    env.Restored verifying image after
        (env.reload verifying verifyOnly accepts start memory image.length after) ↔
      image.length < 2 ^ 32 := by
  intro after
  have some := List.length_pos_iff.mpr nonempty
  have stored := saveImage_success full rfl saved
  constructor
  · intro restored
    have delivered := env.reload_delivered verifying verifyOnly accepts start memory
      image.length after
    rw [restored.delivered] at delivered
    omega
  · intro small
    have between := stored.between documented inverts full
      (verifying && env.settings.verifyImage) verifyOnly accepts memory image.length
    obtain ⟨later, ran, finished, delivered⟩ :=
      between.run (ahead_supplies documented) 0 (image.length % 2 ^ 32 - 1)
        (by rw [Nat.mod_eq_of_lt small, List.nil_append]; omega)
        (fun index below => accepted index (by rw [Nat.mod_eq_of_lt small] at below; omega))
    have reloaded : env.reload verifying verifyOnly accepts start memory image.length after =
        (0, later) := ran
    obtain ⟨⟨pages, paged, reads, _⟩, fed⟩ := finished.queue
    rw [buffersOf_nil] at paged
    cases paged
    rw [reloaded]
    refine ⟨rfl, delivered.trans rfl, reads.done, ?_⟩
    intro checks
    rw [buffersOf_nil, List.append_nil, if_pos checks, if_pos checks] at fed
    have writer : after.ctx = buffersOf image := by
      rw [stored.ctx, if_pos]
      · rfl
      · unfold Settings.checksums
        cases computes : env.settings.computeChecksum with
        | true => rfl
        | false =>
            rw [computes] at checks
            simpa using (Bool.and_eq_true_iff.mp (by simpa using checks)).2
    rw [writer, ← fed]

/-- A cipher that is never set up. -/
def transparent : PageCipher where
  State := Unit
  encrypt := fun state src => .ok (src, state)
  decrypt := fun state coded => .ok (coded, state)

theorem transparent_inverts (page : PageSize) : transparent.Inverts page () := by
  have same (pages : List Bytes) :
      transparent.encryptPages () pages = .ok (pages, ()) ∧
        transparent.decryptPages () pages = .ok (pages, ()) := by
    induction pages with
    | nil => exact ⟨rfl, rfl⟩
    | cons src rest ih =>
        exact ⟨congrArg
          (Except.map fun later : List Bytes × Unit => (src :: later.1, later.2)) ih.1,
          congrArg (Except.map fun later : List Bytes × Unit => (src :: later.1, later.2)) ih.2⟩
  intro srcs coded state _ encrypted
  rw [(same srcs).1] at encrypted
  cases encrypted
  exact ⟨(), (same srcs).2⟩

/-- A save with the checksum only, on a device where everything works. -/
def checksumOnly : SaveEnv where
  page := PageSize.fourKilobytes
  settings := ⟨false, false, true, false⟩
  lzo := ⟨id, some⟩
  cipher := transparent
  outcome := fun _ => 0
  aborted := fun _ => false

def checksumOnlyBuffers : checksumOnly.Buffers false := ⟨none, rfl⟩

/-- An image of two pages. -/
def twoPages : List Bytes := [List.replicate 4096 1, List.replicate 4096 2]

theorem twoPages_full : ∀ src ∈ twoPages, src.length = checksumOnly.page.bytes := by
  intro src member
  rcases List.mem_cons.mp member with rfl | later
  · exact List.length_replicate
  · rw [List.mem_singleton.mp later]
    exact List.length_replicate

/-- A save that compresses and encrypts. -/
def sealing : SaveEnv :=
  { checksumOnly with
    settings := ⟨true, true, true, false⟩
    cipher := .counting }

def sealingBuffers : sealing.Buffers false :=
  ⟨some (List.replicate sealing.page.compressBufSize 0), congrArg some List.length_replicate⟩

theorem reload_restored_two :
    let after := (sealing.saveImage twoPages.length (twoPages.map .page)
      (sealing.initSwapWriter sealingBuffers (7 : UInt8))).2
    sealing.Restored false twoPages after
        (sealing.reload false false (fun _ => true) (7 : UInt8) [] twoPages.length after) ↔
      twoPages.length < 2 ^ 32 :=
  reload_restored_iff sealing passThrough_documented (7 : UInt8)
    (PageCipher.counting_inverts _ _) sealingBuffers twoPages twoPages_full (List.cons_ne_nil _ _)
    (saveImage_succeeds _ (fun _ _ _ => ⟨_, rfl⟩) (fun _ => rfl) (fun _ => rfl) _ _ _) false
    false (fun _ => true) (fun _ _ => rfl) []

/-- The reader takes the number of pages of an image of `2 ^ 32` pages for `0`, and stops after
the first one. -/
theorem reload_truncated :
    let image := List.replicate (2 ^ 32) (List.replicate 4096 (0 : UInt8))
    let saved := checksumOnly.saveImage image.length (image.map .page)
      (checksumOnly.initSwapWriter checksumOnlyBuffers ())
    saved.1 = 0 ∧ ¬ checksumOnly.Restored false image saved.2
      (checksumOnly.reload false false (fun _ => true) () [] image.length saved.2) := by
  generalize himage : List.replicate (2 ^ 32) (List.replicate 4096 (0 : UInt8)) = image
  have length : image.length = 2 ^ 32 := by
    rw [← himage]
    exact List.length_replicate
  refine ⟨saveImage_succeeds _ (fun wanted => by cases wanted) (fun _ => rfl) (fun _ => rfl) _ _ _,
    fun restored => ?_⟩
  have delivered := checksumOnly.reload_delivered false false (fun _ => true) () [] image.length
    (checksumOnly.saveImage image.length (image.map .page)
      (checksumOnly.initSwapWriter checksumOnlyBuffers ())).2
  rw [restored.delivered, length] at delivered
  omega

end SaveEnv

end Suspend
