import Mathlib.Data.List.TakeDrop
import Suspend.LoadImage
import Suspend.SwapReader

set_option autoImplicit false

namespace Suspend

open Foundation.Memory

/-- What loading depends on, and what the bytes of a page amount to when it is read as something
other than what it was written as. -/
structure ReadEnv extends LoadEnv where
  other : Reinterpretation Bytes
  tableBytes : Table → Bytes
  headerBytes : ImageHeader → Bytes

/-- `struct swap_reader`, and what has been done with it: the places in the buffer that pages were
to be stored at, the extents that were current when `find_next_image_page` was called, and the swap
locations whose pages were loaded. -/
structure ImageReader (cipher : PageCipher) extends SwapReader Bytes where
  state : cipher.State
  buffer : Bytes
  ctx : List Bytes
  asked : List Nat
  walked : List Nat
  consumed : List Int

namespace ReadEnv

variable (env : ReadEnv)

/-- Whatever is transferred is `page_size` bytes. -/
def fit (src : Bytes) : Bytes := src.takeD env.page.bytes 0

def asBytes : Cell Bytes → Bytes
  | .data src => env.fit src
  | .extents table => env.fit (env.tableBytes table)
  | .header header => env.fit (env.headerBytes header)

/-- `total_size` is counted down, and `find_next_image_page` moves on. -/
def advance (handle : SwapReader Bytes) : SwapReader Bytes :=
  SwapReader.findNextImagePage env.page env.other
    { handle with totalSize := handle.totalSize - env.page.bytes }

/-- `load_and_decrypt_page`, storing at `dst`. -/
def loadAndDecryptPage (dst : Nat) (handle : ImageReader env.cipher) :
    Except ErrorCode Bytes × ImageReader env.cipher :=
  let handle := { handle with asked := handle.asked ++ [dst] }
  if handle.curOffset = 0 then (.error ⟨-EINVAL, einval_ne_zero⟩, handle)
  else
    let read := handle.fd.readPage (.data []) handle.curOffset
    let handle := { handle with fd := read.2.2 }
    if read.1 ≠ 0 then (.error ⟨- EIO, eio_ne_zero⟩, handle)
    else
      let done (state : env.cipher.State) : ImageReader env.cipher :=
        { handle with
          toSwapReader := env.advance handle.toSwapReader
          state := state
          walked := handle.walked ++ [handle.curExtent]
          consumed := handle.consumed ++ [handle.curOffset] }
      let coded := env.asBytes read.2.1
      if env.settings.doDecrypt then
        match env.cipher.decrypt handle.state coded with
        | .error error => (.error error, handle)
        | .ok (src, state) => (.ok (env.fit src), done state)
      else (.ok coded, done handle.state)

/-- The loop of `load_buffer` over the rest of the pages of a block, given what has been loaded. -/
def loadBlock (block : Bytes) (size : Nat) (handle : ImageReader env.cipher) :
    Except ErrorCode Bytes × ImageReader env.cipher :=
  if size < (wordValue (block.take 8) + 8) % 2 ^ 64 then
    let loaded := env.loadAndDecryptPage size handle
    match loaded.1 with
    | .error error => (.error error, loaded.2)
    | .ok src => loadBlock (block ++ src) (size + env.page.bytes) loaded.2
  else (.ok block, handle)
termination_by 2 ^ 64 - size
decreasing_by
  have positive := env.page.bytes_pos
  have := Nat.mod_lt (wordValue (block.take 8) + 8) (Nat.two_pow_pos 64)
  omega

/-- The loop of `load_buffer` without compression. -/
def loadPages (data : Bytes) (size : Nat) (handle : ImageReader env.cipher) :
    Except ErrorCode Bytes × ImageReader env.cipher :=
  if size < env.page.bufferSize ∧ 0 < handle.totalSize then
    let loaded := env.loadAndDecryptPage size handle
    match loaded.1 with
    | .error error => (.error error, loaded.2)
    | .ok src => loadPages (data ++ src) (size + env.page.bytes) loaded.2
  else (.ok data, handle)
termination_by env.page.bufferSize - size
decreasing_by
  have positive := env.page.bytes_pos
  omega

/-- The end of `load_buffer`: the data is in the buffer and is checksummed. -/
def loaded (data : Bytes) (handle : ImageReader env.cipher) : Nat × ImageReader env.cipher :=
  let ctx := if env.settings.verifyChecksum then handle.ctx ++ [data] else handle.ctx
  (data.length, { handle with buffer := overwrite data handle.buffer, ctx := ctx })

/-- The block is decompressed into the buffer. -/
def unpack (block : Bytes) (handle : ImageReader env.cipher) : Nat × ImageReader env.cipher :=
  match env.lzo.decompress ((block.drop 8).take (wordValue (block.take 8))) with
  | none => (0, handle)
  | some data => env.loaded data handle

/-- `load_buffer`: the number of bytes loaded, `0` after an error. -/
def loadBuffer (handle : ImageReader env.cipher) : Nat × ImageReader env.cipher :=
  if env.settings.doDecompress then
    let first := env.loadAndDecryptPage 0 handle
    match first.1 with
    | .error _ => (0, first.2)
    | .ok src =>
        let rest := env.loadBlock src env.page.bytes first.2
        match rest.1 with
        | .error _ => (0, rest.2)
        | .ok block => env.unpack block rest.2
  else
    let all := env.loadPages [] 0 handle
    match all.1 with
    | .error _ => (0, all.2)
    | .ok data => env.loaded data all.2

/-- The locals of `load_image`, and the pages passed on so far. -/
structure Loading where
  handle : ImageReader env.cipher
  position : Nat
  bufSize : Int
  delivered : List Bytes

/-- The start of the loop body: the buffer is loaded when it is used up. -/
def refill (loading : env.Loading) : env.Loading :=
  if loading.bufSize ≤ 0 then
    let answer := env.loadBuffer loading.handle
    { loading with handle := answer.2, position := 0, bufSize := answer.1 }
  else loading

/-- The loop body of `load_image`. -/
def loadPage (n : Nat) (loading : env.Loading) : Int × env.Loading :=
  let loading := env.refill loading
  if loading.bufSize ≤ 0 then (- EIO, loading)
  else if env.verifyOnly || env.accepts n then
    (0, { loading with
      position := loading.position + env.page.bytes
      bufSize := loading.bufSize - env.page.bytes
      delivered := loading.delivered ++
        [(loading.handle.buffer.drop loading.position).take env.page.bytes] })
  else (- EIO, loading)

/-- The do-while loop, with so many rounds to go after this one. -/
def loadLoop : Nat → Nat → env.Loading → Int × env.Loading
  | 0, n, loading => env.loadPage n loading
  | left + 1, n, loading =>
      let loaded := env.loadPage n loading
      if loaded.1 ≠ 0 then loaded else loadLoop left (n + 1) loaded.2

/-- `load_image`. -/
def loadImage (pages : Nat) (handle : ImageReader env.cipher) : Int × env.Loading :=
  let nrPages := pages % 2 ^ 32
  env.loadLoop (nrPages - 1) 0 ⟨handle, 0, 0, []⟩

/-- `init_swap_reader`, with the buffers in the state they are allocated in. -/
def initSwapReader (extents : Table) (buffer : Bytes) (state : env.cipher.State)
    (fd : Device Bytes) (start imageSize : Int) : Int × ImageReader env.cipher :=
  let reader : SwapReader Bytes := ⟨extents, 0, 0, start, imageSize, fd⟩
  if start = 0 then (-EINVAL, ⟨reader, state, buffer, [], [], [], []⟩)
  else
    let loaded := SwapReader.loadExtentsPage env.page env.other reader
    (loaded.1, ⟨loaded.2, state, buffer, [], [], [], []⟩)

/-- `init_swap_reader` and, if it succeeds, `load_image`. -/
def readImage (pages : Nat) (opened : Int × ImageReader env.cipher) : Int × env.Loading :=
  if opened.1 ≠ 0 then (opened.1, ⟨opened.2, 0, 0, []⟩) else env.loadImage pages opened.2

variable {env} {handle : ImageReader env.cipher}

/-- The reader behind a page that was loaded. -/
def moved (handle : ImageReader env.cipher) (dst : Nat) (state : env.cipher.State) :
    ImageReader env.cipher :=
  { handle with
    toSwapReader := env.advance { handle.toSwapReader with fd := handle.fd.transfer.2 }
    state := state
    asked := handle.asked ++ [dst]
    walked := handle.walked ++ [handle.curExtent]
    consumed := handle.consumed ++ [handle.curOffset] }

/-- A page is loaded from where the reader stands, or nothing but the file position changes. -/
theorem loadAndDecryptPage_cases (dst : Nat) (handle : ImageReader env.cipher) :
    (∃ src state, handle.curOffset ≠ 0 ∧ handle.fd.transfer.1 = true ∧
      env.loadAndDecryptPage dst handle = (.ok src, env.moved handle dst state)) ∨
    ∃ error fd, env.loadAndDecryptPage dst handle =
      (.error error, { handle with fd := fd, asked := handle.asked ++ [dst] }) := by
  unfold loadAndDecryptPage
  dsimp only
  by_cases nowhere : handle.curOffset = 0
  · rw [if_pos nowhere]
    exact .inr ⟨_, handle.fd, rfl⟩
  rw [if_neg nowhere]
  unfold Device.readPage
  rw [if_neg nowhere]
  by_cases read : handle.fd.transfer.1 = true
  · simp only [read, ↓reduceIte, ne_eq, not_true_eq_false]
    by_cases decrypts : env.settings.doDecrypt = true
    · rw [if_pos decrypts]
      split
      · exact .inr ⟨_, _, rfl⟩
      · exact .inl ⟨_, _, nowhere, trivial, rfl⟩
    · rw [if_neg decrypts]
      exact .inl ⟨_, _, nowhere, trivial, rfl⟩
  · simp only [read]
    exact .inr ⟨_, _, rfl⟩

@[simp] theorem fit_length (src : Bytes) : (env.fit src).length = env.page.bytes :=
  List.takeD_length _ _ _

theorem asBytes_length (cell : Cell Bytes) : (env.asBytes cell).length = env.page.bytes := by
  cases cell <;> exact fit_length _

theorem loadAndDecryptPage_length {dst : Nat} {src : Bytes}
    (loaded : (env.loadAndDecryptPage dst handle).1 = .ok src) : src.length = env.page.bytes := by
  unfold loadAndDecryptPage at loaded
  dsimp only at loaded
  split at loaded
  · cases loaded
  split at loaded
  · cases loaded
  split at loaded
  · split at loaded
    · cases loaded
    · cases loaded
      exact fit_length _
  · cases loaded
    exact asBytes_length _

section Invariant

variable {holds : ImageReader env.cipher → Prop}
  (load : ∀ dst handle, holds handle → holds (env.loadAndDecryptPage dst handle).2)
  (store : ∀ handle buffer ctx, holds handle →
    holds { handle with buffer := buffer, ctx := ctx })

include load

theorem loadBlock_invariant (block : Bytes) (size : Nat) (handle : ImageReader env.cipher)
    (before : holds handle) : holds (env.loadBlock block size handle).2 := by
  fun_induction loadBlock env block size handle with
  | case1 block size handle _ loaded error failed => exact load size handle before
  | case2 block size handle _ loaded src found ih => exact ih (load size handle before)
  | case3 block size handle _ => exact before

theorem loadPages_invariant (data : Bytes) (size : Nat) (handle : ImageReader env.cipher)
    (before : holds handle) : holds (env.loadPages data size handle).2 := by
  fun_induction loadPages env data size handle with
  | case1 data size handle _ loaded error failed => exact load size handle before
  | case2 data size handle _ loaded src found ih => exact ih (load size handle before)
  | case3 data size handle _ => exact before

include store

theorem loadBuffer_invariant (handle : ImageReader env.cipher) (before : holds handle) :
    holds (env.loadBuffer handle).2 := by
  unfold loadBuffer
  split
  · dsimp only
    have first := load 0 handle before
    split
    · exact first
    · next src _ =>
      have rest := loadBlock_invariant load src env.page.bytes _ first
      split
      · exact rest
      · unfold unpack
        split
        · exact rest
        · exact store _ _ _ rest
  · dsimp only
    have all := loadPages_invariant load [] 0 handle before
    split
    · exact all
    · exact store _ _ _ all

omit load store in
theorem loadPage_handle (n : Nat) (loading : env.Loading) :
    (env.loadPage n loading).2.handle = (env.refill loading).handle := by
  unfold loadPage
  dsimp only
  split
  · rfl
  · split <;> rfl

theorem loadPage_invariant (n : Nat) (loading : env.Loading) (before : holds loading.handle) :
    holds (env.loadPage n loading).2.handle := by
  have refilled : holds (env.refill loading).handle := by
    unfold refill
    split
    · exact loadBuffer_invariant load store _ before
    · exact before
  rw [loadPage_handle]
  exact refilled

theorem loadLoop_invariant (left n : Nat) (loading : env.Loading)
    (before : holds loading.handle) : holds (env.loadLoop left n loading).2.handle := by
  induction left generalizing n loading with
  | zero => exact loadPage_invariant load store n loading before
  | succ left ih =>
      have after := loadPage_invariant load store n loading before
      unfold loadLoop
      dsimp only
      split
      · exact after
      · exact ih (n + 1) _ after

end Invariant

end ReadEnv

end Suspend
