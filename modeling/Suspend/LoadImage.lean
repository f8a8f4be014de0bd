import Suspend.SaveImage

set_option autoImplicit false

namespace Suspend

open Foundation.Memory

/-- The switches `read_or_verify` sets. -/
structure LoadSettings where
  doDecompress : Bool
  doDecrypt : Bool
  verifyChecksum : Bool

/-- They follow from the flags of the header, and from whether the image is being verified. -/
def LoadSettings.ofFlags (flags : ImageFlags) (verify : Bool) : LoadSettings :=
  ⟨flags.compressed, flags.encrypted, flags.checksum || verify⟩

/-- `struct swap_reader`, the fields that deal with data, over a swap that is a queue of pages.
`buffer` is the whole of `handle->buffer`. -/
structure Source (cipher : PageCipher) where
  swap : List Bytes
  state : cipher.State
  totalSize : Int
  buffer : Bytes
  ctx : List Bytes

/-- What loading depends on: the machine, the libraries, the switches, and whether the kernel
takes a page. The sizes that `load.c` keeps in an `ssize_t` are those of a machine where it is wider
than an unsigned int. -/
structure LoadEnv where
  page : PageSize
  settings : LoadSettings
  lzo : Lzo
  cipher : PageCipher
  verifyOnly : Bool
  accepts : Nat → Bool

namespace LoadEnv

variable (env : LoadEnv)

/-- `load_and_decrypt_page`. -/
def loadAndDecryptPage (source : Source env.cipher) :
    Except ErrorCode (Bytes × Source env.cipher) :=
  match source.swap with
  | [] => .error ⟨-EINVAL, einval_ne_zero⟩
  | coded :: rest =>
      let next := { source with swap := rest, totalSize := source.totalSize - env.page.bytes }
      if env.settings.doDecrypt then
        match env.cipher.decrypt source.state coded with
        | .error error => .error error
        | .ok (src, state) => .ok (src, { next with state := state })
      else .ok (coded, next)

theorem loadAndDecryptPage_consumes {source next : Source env.cipher} {src : Bytes}
    (loaded : env.loadAndDecryptPage source = .ok (src, next)) :
    next.swap.length < source.swap.length := by
  unfold loadAndDecryptPage at loaded
  cases swap : source.swap with
  | nil => simp [swap] at loaded
  | cons coded rest =>
      simp only [swap] at loaded
      by_cases decrypts : env.settings.doDecrypt = true
      · rw [if_pos decrypts] at loaded
        cases answer : env.cipher.decrypt source.state coded with
        | error error => simp [answer] at loaded
        | ok result =>
            simp only [answer, Except.ok.injEq, Prod.mk.injEq] at loaded
            rw [← loaded.2]
            exact Nat.lt_succ_self _
      · rw [if_neg decrypts] at loaded
        simp only [Except.ok.injEq, Prod.mk.injEq] at loaded
        rw [← loaded.2]
        exact Nat.lt_succ_self _

/-- The loop of `load_buffer` over the rest of the pages of a block, given what has been loaded.
The size word is read anew every time, and the sum is a `size_t`. -/
def loadBlock (source : Source env.cipher) (loaded : Bytes) :
    Except ErrorCode (Bytes × Source env.cipher) :=
  if loaded.length < (wordValue (loaded.take 8) + 8) % 2 ^ 64 then
    match answer : env.loadAndDecryptPage source with
    | .error error => .error error
    | .ok (src, next) =>
        have := env.loadAndDecryptPage_consumes answer
        loadBlock next (loaded ++ src)
  else .ok (loaded, source)
termination_by source.swap.length

/-- The loop of `load_buffer` without compression. -/
def loadPages (source : Source env.cipher) (loaded : Bytes) :
    Except ErrorCode (Bytes × Source env.cipher) :=
  if loaded.length < env.page.bufferSize ∧ 0 < source.totalSize then
    match answer : env.loadAndDecryptPage source with
    | .error error => .error error
    | .ok (src, next) =>
        have := env.loadAndDecryptPage_consumes answer
        loadPages next (loaded ++ src)
  else .ok (loaded, source)
termination_by source.swap.length

/-- The end of `load_buffer`: the data is in the buffer and is checksummed. -/
def loaded (source : Source env.cipher) (data : Bytes) : Nat × Source env.cipher :=
  let ctx := if env.settings.verifyChecksum then source.ctx ++ [data] else source.ctx
  (data.length, { source with buffer := overwrite data source.buffer, ctx := ctx })

/-- `load_buffer`: the number of bytes loaded, `0` after an error. -/
def loadBuffer (source : Source env.cipher) : Nat × Source env.cipher :=
  if env.settings.doDecompress then
    match env.loadAndDecryptPage source with
    | .error _ => (0, source)
    | .ok (first, next) =>
        match env.loadBlock next first with
        | .error _ => (0, next)
        | .ok (block, next) =>
            match env.lzo.decompress ((block.drop 8).take (wordValue (block.take 8))) with
            | none => (0, next)
            | some data => env.loaded next data
  else
    match env.loadPages source [] with
    | .error _ => (0, source)
    | .ok (data, next) => env.loaded next data

/-- The locals of `load_image`: `buf` is `handle->buffer + position`. `delivered` are the pages
passed on so far. -/
structure Loading where
  source : Source env.cipher
  position : Nat
  bufSize : Int
  delivered : List Bytes

/-- The start of the loop body: the buffer is loaded when it is used up. -/
def refill (loading : env.Loading) : env.Loading :=
  if loading.bufSize ≤ 0 then
    let answer := env.loadBuffer loading.source
    { loading with source := answer.2, position := 0, bufSize := answer.1 }
  else loading

/-- The loop body of `load_image`. -/
def loadPage (n : Nat) (loading : env.Loading) : Int × env.Loading :=
  let loading := env.refill loading
  if loading.bufSize ≤ 0 then (- EIO, loading)
  else if env.verifyOnly || env.accepts n then
    (0, { loading with
      position := loading.position + env.page.bytes
      bufSize := loading.bufSize - env.page.bytes
      delivered := loading.delivered ++
        [(loading.source.buffer.drop loading.position).take env.page.bytes] })
  else (- EIO, loading)

/-- The do-while loop, with so many rounds to go after this one. -/
def loadLoop : Nat → Nat → env.Loading → Int × env.Loading
  | 0, n, loading => env.loadPage n loading
  | left + 1, n, loading =>
      let loaded := env.loadPage n loading
      if loaded.1 ≠ 0 then loaded else loadLoop left (n + 1) loaded.2

/-- `load_image`. Its `nr_pages` is an unsigned int, whatever the header says. -/
def loadImage (pages : Nat) (source : Source env.cipher) : Int × env.Loading :=
  let nrPages := pages % 2 ^ 32
  env.loadLoop (nrPages - 1) 0 ⟨source, 0, 0, []⟩

/-- The loop of `load_buffer` over the rest of the pages of a block asks for a page to be stored
behind `read_buffer`, or the size word is one with which the sum wraps and `lzo1x_decompress` is
given more than has been loaded. -/
def blockStrays (source : Source env.cipher) (loaded : Bytes) : Bool :=
  if loaded.length < (wordValue (loaded.take 8) + 8) % 2 ^ 64 then
    decide (env.page.compressBufSize < loaded.length + env.page.bytes) ||
      match answer : env.loadAndDecryptPage source with
      | .error _ => false
      | .ok (src, next) =>
          have := env.loadAndDecryptPage_consumes answer
          blockStrays next (loaded ++ src)
  else decide (loaded.length < wordValue (loaded.take 8) + 8)
termination_by source.swap.length

/-- `load_buffer` leaves `read_buffer`, or `buffer` with what the block decompresses to. Without
compression it fills `buffer` page by page, and stops. -/
def bufferStrays (source : Source env.cipher) : Bool :=
  env.settings.doDecompress &&
    match env.loadAndDecryptPage source with
    | .error _ => false
    | .ok (first, next) =>
        env.blockStrays next first ||
          match env.loadBlock next first with
          | .error _ => false
          | .ok (block, _) =>
              (env.lzo.decompress ((block.drop 8).take (wordValue (block.take 8)))).any
                fun data => decide (env.page.bufferSize < data.length)

/-- A round of `load_image` leaves its buffers: only one that loads them can. -/
def pageStrays (loading : env.Loading) : Bool :=
  decide (loading.bufSize ≤ 0) && env.bufferStrays loading.source

/-- `load_image` comes to such a round, with so many to go after the first. -/
def strays : Nat → Nat → env.Loading → Bool
  | 0, _, loading => env.pageStrays loading
  | left + 1, n, loading =>
      env.pageStrays loading ||
        decide ((env.loadPage n loading).1 = 0) && strays left (n + 1) (env.loadPage n loading).2

/-- The pages as they come from the swap. -/
def decode (state : env.cipher.State) (coded : List Bytes) :
    Except ErrorCode (List Bytes × env.cipher.State) :=
  if env.settings.doDecrypt then env.cipher.decryptPages state coded else .ok (coded, state)

/-- The queue holds exactly these pages. -/
def Reads (source : Source env.cipher) (srcs : List Bytes) : Prop :=
  ∃ state, env.decode source.state source.swap = .ok (srcs, state)

/-- `count` pages have been taken from the queue, and nothing else has happened. -/
structure Taken (source next : Source env.cipher) (count : Nat) : Prop where
  totalSize : next.totalSize = source.totalSize - env.page.bytes * count
  buffer : next.buffer = source.buffer
  ctx : next.ctx = source.ctx

variable {env} {source : Source env.cipher}

theorem Taken.none (source : Source env.cipher) : env.Taken source source 0 :=
  ⟨by simp, rfl, rfl⟩

theorem Taken.trans {middle last : Source env.cipher} {count more : Nat}
    (first : env.Taken source middle count) (second : env.Taken middle last more) :
    env.Taken source last (count + more) := by
  refine ⟨?_, second.buffer.trans first.buffer, second.ctx.trans first.ctx⟩
  rw [second.totalSize, first.totalSize]
  push_cast
  rw [Int.mul_add]
  omega

theorem Reads.done (reads : env.Reads source []) : source.swap = [] := by
  obtain ⟨state, decoded⟩ := reads
  unfold decode at decoded
  by_cases decrypts : env.settings.doDecrypt = true
  · rw [if_pos decrypts] at decoded
    cases swap : source.swap with
    | nil => rfl
    | cons coded rest =>
        rw [swap] at decoded
        cases answer : env.cipher.decrypt source.state coded with
        | error error => simp [PageCipher.decryptPages, answer] at decoded
        | ok result =>
            cases tail : env.cipher.decryptPages result.2 rest with
            | error error => simp [PageCipher.decryptPages, answer, tail, Except.map] at decoded
            | ok later => simp [PageCipher.decryptPages, answer, tail, Except.map] at decoded
  · rw [if_neg decrypts] at decoded
    simp only [Except.ok.injEq, Prod.mk.injEq] at decoded
    exact decoded.1

theorem loadAndDecryptPage_reads {src : Bytes} {rest : List Bytes}
    (reads : env.Reads source (src :: rest)) :
    ∃ next, env.loadAndDecryptPage source = .ok (src, next) ∧ env.Reads next rest ∧
      env.Taken source next 1 := by
  obtain ⟨state, decoded⟩ := reads
  unfold decode at decoded
  by_cases decrypts : env.settings.doDecrypt = true
  · rw [if_pos decrypts] at decoded
    cases swap : source.swap with
    | nil => simp [swap, PageCipher.decryptPages] at decoded
    | cons coded later =>
        rw [swap] at decoded
        cases answer : env.cipher.decrypt source.state coded with
        | error error => simp [PageCipher.decryptPages, answer] at decoded
        | ok result =>
            cases tail : env.cipher.decryptPages result.2 later with
            | error error => simp [PageCipher.decryptPages, answer, tail, Except.map] at decoded
            | ok more =>
                simp only [PageCipher.decryptPages, answer, tail, Except.map, Except.ok.injEq,
                  Prod.mk.injEq, List.cons.injEq] at decoded
                obtain ⟨⟨rfl, rfl⟩, rfl⟩ := decoded
                refine ⟨{ source with
                  swap := later
                  totalSize := source.totalSize - env.page.bytes
                  state := result.2 }, ?_, ⟨more.2, ?_⟩, ⟨by simp, rfl, rfl⟩⟩
                · simp [loadAndDecryptPage, swap, decrypts, answer]
                · simp [decode, decrypts, tail]
  · rw [if_neg decrypts] at decoded
    simp only [Except.ok.injEq, Prod.mk.injEq] at decoded
    refine ⟨{ source with
      swap := rest
      totalSize := source.totalSize - env.page.bytes }, ?_, ⟨source.state, ?_⟩,
      ⟨by simp, rfl, rfl⟩⟩
    · simp [loadAndDecryptPage, decoded.1, decrypts]
    · simp [decode, decrypts]

theorem blockStrays_ok {next : Source env.cipher} {loaded src : Bytes}
    (more : loaded.length < (wordValue (loaded.take 8) + 8) % 2 ^ 64)
    (answer : env.loadAndDecryptPage source = .ok (src, next)) :
    env.blockStrays source loaded =
      (decide (env.page.compressBufSize < loaded.length + env.page.bytes) ||
        env.blockStrays next (loaded ++ src)) := by
  rw [blockStrays, if_pos more]
  congr 1
  split
  · next failed =>
    rw [answer] at failed
    cases failed
  · next found =>
    rw [answer] at found
    cases found
    rfl

variable (env) in
/-- The rest of a block is loaded up to the page that completes it, inside of `read_buffer` if it
has room for the block. -/
theorem loadBlock_reads {loaded : Bytes} {parts rest : List Bytes} {count size : Nat}
    (full : ∀ part ∈ parts, part.length = env.page.bytes)
    (reads : env.Reads source (parts ++ rest)) (some : 0 < count)
    (width : loaded.length = env.page.bytes * count)
    (word : wordValue (loaded.take 8) + 8 = size) (small : size < 2 ^ 64)
    (covers : count + parts.length = covering env.page.bytes size)
    (fits : env.page.bytes * covering env.page.bytes size ≤ env.page.compressBufSize) :
    env.blockStrays source loaded = false ∧
      ∃ next, env.loadBlock source loaded = .ok (loaded ++ parts.flatten, next) ∧
        env.Reads next rest ∧ env.Taken source next parts.length := by
  have positive := env.page.bytes_pos
  have large := env.page.bytes_large
  induction parts generalizing loaded source count with
  | nil =>
      have stop : ¬ loaded.length < (wordValue (loaded.take 8) + 8) % 2 ^ 64 := by
        rw [word, Nat.mod_eq_of_lt small, width, ← lt_covering positive]
        simp only [List.length_nil] at covers
        omega
      constructor
      · rw [blockStrays, if_neg stop, decide_eq_false_iff_not, Nat.not_lt]
        rw [word, Nat.mod_eq_of_lt small] at stop
        omega
      · refine ⟨source, ?_, reads, Taken.none source⟩
        rw [loadBlock, if_neg stop, List.flatten_nil, List.append_nil]
  | cons part parts ih =>
      rw [List.length_cons] at covers
      have more : loaded.length < (wordValue (loaded.take 8) + 8) % 2 ^ 64 := by
        rw [word, Nat.mod_eq_of_lt small, width, ← lt_covering positive]
        omega
      have room : ¬ env.page.compressBufSize < loaded.length + env.page.bytes := by
        have step : env.page.bytes * (count + 1) ≤
            env.page.bytes * covering env.page.bytes size := Nat.mul_le_mul_left _ (by omega)
        rw [Nat.mul_succ, ← width] at step
        omega
      obtain ⟨next, answer, readsNext, taken⟩ := loadAndDecryptPage_reads reads
      have atLeast : 8 ≤ loaded.length := by
        rw [width]
        have step : env.page.bytes * 1 ≤ env.page.bytes * count := Nat.mul_le_mul_left _ some
        omega
      obtain ⟨inside, last, loadedAll, readsLast, takenLast⟩ :=
        @ih next (loaded ++ part) (count + 1)
          (fun other member => full other (by simp [member])) readsNext (by omega)
          (by rw [List.length_append, width, full part (by simp), Nat.mul_succ])
          (by rw [List.take_append_of_le_length atLeast, word]) (by omega)
      constructor
      · rw [blockStrays_ok more answer, decide_eq_false room, Bool.false_or, inside]
      · refine ⟨last, ?_, readsLast, ?_⟩
        · rw [loadBlock, if_pos more]
          split
          · next failed =>
            rw [answer] at failed
            cases failed
          · next found =>
            rw [answer] at found
            cases found
            rw [loadedAll, List.append_assoc]
            rfl
        · rw [List.length_cons, Nat.add_comm]
          exact taken.trans takenLast

variable (env) in
/-- Without compression pages are loaded until the buffer is full or the image ends. -/
theorem loadPages_reads (loaded : Bytes) {parts rest : List Bytes} (count : Nat)
    (full : ∀ part ∈ parts, part.length = env.page.bytes)
    (reads : env.Reads source (parts ++ rest)) (width : loaded.length = env.page.bytes * count)
    (total : source.totalSize = env.page.bytes * (parts.length + rest.length : Nat))
    (fits : count + parts.length ≤ 32) (ends : count + parts.length = 32 ∨ rest = []) :
    ∃ next, env.loadPages source loaded = .ok (loaded ++ parts.flatten, next) ∧
      env.Reads next rest ∧ env.Taken source next parts.length := by
  have positive := env.page.bytes_pos
  induction parts generalizing loaded source count with
  | nil =>
      have stop : ¬ (loaded.length < env.page.bufferSize ∧ 0 < source.totalSize) := by
        rintro ⟨short, more⟩
        rw [width, PageSize.bufferSize] at short
        have below := Nat.lt_of_mul_lt_mul_left short
        rcases ends with filled | empty
        · simp only [List.length_nil] at filled
          omega
        · rw [total, empty] at more
          simp at more
      refine ⟨source, ?_, reads, Taken.none source⟩
      rw [loadPages, if_neg stop, List.flatten_nil, List.append_nil]
  | cons part parts ih =>
      rw [List.length_cons] at total fits ends
      have more : loaded.length < env.page.bufferSize ∧ 0 < source.totalSize := by
        refine ⟨?_, ?_⟩
        · rw [width, PageSize.bufferSize]
          exact Nat.mul_lt_mul_of_pos_left (by omega) positive
        · rw [total]
          exact_mod_cast Nat.mul_pos positive (by omega)
      obtain ⟨next, answer, readsNext, taken⟩ := loadAndDecryptPage_reads reads
      have totalNext : next.totalSize =
          env.page.bytes * (parts.length + rest.length : Nat) := by
        rw [taken.totalSize, total,
          show parts.length + 1 + rest.length = parts.length + rest.length + 1 by omega]
        push_cast
        rw [Int.mul_add, Int.mul_one]
        omega
      obtain ⟨last, loadedAll, readsLast, takenLast⟩ :=
        @ih next (loaded ++ part) (count + 1)
          (fun other member => full other (by simp [member])) readsNext
          (by rw [List.length_append, width, full part (by simp), Nat.mul_succ])
          totalNext (by omega) (ends.imp (fun filled => by omega) id)
      refine ⟨last, ?_, readsLast, ?_⟩
      · rw [loadPages, if_pos more]
        split
        · rename_i error failed
          rw [answer] at failed
          cases failed
        · rename_i src next' found
          rw [answer] at found
          cases found
          rw [loadedAll, List.append_assoc]
          rfl
      · rw [List.length_cons, Nat.add_comm]
        exact taken.trans takenLast

end LoadEnv

end Suspend
