import Suspend.ImageRoundTrip

set_option autoImplicit false

namespace Suspend

open Foundation.Memory

/-- The calls of `start_threads` that may fail. -/
inductive StartStep where
  | saveMutex
  | saveCond
  | moveMutex
  | moveCond
  | saveThread
  | moveThread
  | finishMutex
  | finishCond
deriving DecidableEq

/-- They are made in this order; those of the save thread with encryption only. -/
def startSteps (doEncrypt : Bool) : List StartStep :=
  (if doEncrypt then [.saveMutex, .saveCond] else []) ++ [.moveMutex, .moveCond] ++
    (if doEncrypt then [.saveThread] else []) ++ [.moveThread, .finishMutex, .finishCond]

/-- Where a new thread is in `while (... && !save_ret) pthread_cond_wait(...)` at the moment its
condition variable is signalled: about to look at `save_ret`, past that look but not waiting yet,
or waiting. -/
inductive WaitPoint where
  | testing
  | decided
  | waiting
deriving DecidableEq

/-- The thread comes to its end after `save_ret` has been set and the variable signalled. A signal
that finds nobody waiting is lost. -/
def WaitPoint.ends : WaitPoint → Bool
  | .testing => true
  | .decided => false
  | .waiting => true

/-- The threads that run when a step fails, in the order in which they are joined. -/
def startedBefore (doEncrypt : Bool) (step : StartStep) : List StartStep :=
  ((startSteps doEncrypt).takeWhile (· ≠ step)).filter
    (fun started => started = .saveThread ∨ started = .moveThread) |>.reverse

/-- `start_threads`: the value of `use_threads` afterwards, or `none` when one of the joins in its
error path never returns. -/
def startThreads (doEncrypt : Bool) (answers : StartStep → Bool)
    (points : StartStep → WaitPoint) : Option Bool :=
  match (startSteps doEncrypt).find? (fun step => !answers step) with
  | none => some true
  | some step =>
      if (startedBefore doEncrypt step).all fun thread => (points thread).ends then some false
      else none

namespace SaveEnv

variable (env : SaveEnv)

/-- The memory pool has room for four compressed buffers, and holds whatever it holds. -/
def Pool (env : SaveEnv) : Type := { pool : Bytes // 4 * env.page.compressBufSize ≤ pool.length }

theorem bufferSize_le (page : PageSize) : page.bufferSize ≤ page.compressBufSize :=
  Nat.le_add_right _ _

/-- `write_buf_size`, `none` where no write buffer is allocated. -/
def writeBufSize (useThreads : Bool) : Option Nat :=
  if env.settings.doCompress then
    some (if useThreads then 4 * env.page.compressBufSize else env.page.compressBufSize)
  else if useThreads then some (4 * env.page.bufferSize) else none

/-- The write buffer that `init_swap_writer` allocates from the pool. -/
def poolBuffers (pool : env.Pool) (useThreads : Bool) : env.Buffers useThreads where
  writeBuffer := (env.writeBufSize useThreads).map pool.val.take
  allocated := by
    have room := pool.property
    have smaller := bufferSize_le env.page
    unfold writeBufSize
    cases env.settings.doCompress <;> cases useThreads <;> simp <;> omega

/-- `save_image` as configured without threads. -/
def saveUnthreaded (pool : env.Pool) (state : env.cipher.State) (image : List Bytes) :
    Int × Pipe env.cipher :=
  env.saveImage image.length (image.map .page)
    (env.initSwapWriter (env.poolBuffers pool false) state)

/-- `save_image` as configured with threads, when `start_threads` fails. -/
def saveAfterFailure (answers : StartStep → Bool) (points : StartStep → WaitPoint)
    (pool : env.Pool) (state : env.cipher.State) (image : List Bytes) :
    Option (Int × Pipe env.cipher) :=
  match startThreads env.settings.doEncrypt answers points with
  | some false => some (env.saveImage image.length (image.map .page)
      (env.initSwapWriter (env.poolBuffers pool true) state))
  | _ => none

variable {env}

/-- The same writer but for the write buffer. -/
def withMemory (pipe : Pipe env.cipher) (memory : Option Bytes) : Pipe env.cipher :=
  { pipe with writeBuffer := memory }

theorem encryptAndSavePage_withMemory (pipe : Pipe env.cipher) (memory : Option Bytes)
    (src : Bytes) : env.encryptAndSavePage (withMemory pipe memory) src =
      ((env.encryptAndSavePage pipe src).1,
        withMemory (env.encryptAndSavePage pipe src).2 memory) := by
  have saves (pipe : Pipe env.cipher) (src : Bytes) :
      env.savePage (withMemory pipe memory) src =
        ((env.savePage pipe src).1, withMemory (env.savePage pipe src).2 memory) := by
    by_cases refused : env.outcome pipe.swap.length = 0 <;> simp [savePage, withMemory, refused]
  unfold encryptAndSavePage
  split
  · cases answer : env.cipher.encrypt pipe.state src with
    | error error => simp [withMemory, answer]
    | ok result =>
        simp only [withMemory, answer]
        exact saves { pipe with state := result.2 } result.1
  · exact saves pipe src

theorem savePagesOf_append (pipe : Pipe env.cipher) (memory : Option Bytes) (src extra : Bytes)
    (size : Nat) (enough : env.page.bytes * covering env.page.bytes size ≤ src.length) :
    env.savePagesOf (withMemory pipe memory) (src ++ extra) size =
      ((env.savePagesOf pipe src size).1, withMemory (env.savePagesOf pipe src size).2 memory) := by
  have positive := env.page.bytes_pos
  induction count : covering env.page.bytes size generalizing pipe src size with
  | zero =>
      have covers := covering_covers size positive
      have empty : ¬ 0 < size := by
        rw [count] at covers
        omega
      rw [savePagesOf, savePagesOf, if_neg empty, if_neg empty]
  | succ count ih =>
      have more : 0 < size := by
        by_contra none
        rw [show size = 0 by omega, covering_zero positive] at count
        omega
      have step := covering_step positive more
      rw [step, Nat.mul_succ] at enough
      rw [savePagesOf, savePagesOf, if_pos more, if_pos more]
      dsimp only
      rw [List.take_append_of_le_length (by omega), List.drop_append_of_le_length (by omega),
        encryptAndSavePage_withMemory]
      dsimp only
      split
      · rfl
      · exact ih _ _ _ (by rw [List.length_drop]; omega) (by omega)

theorem savePagesOf_writeBuffer (pipe : Pipe env.cipher) (src : Bytes) (size : Nat)
    (enough : env.page.bytes * covering env.page.bytes size ≤ src.length) :
    (env.savePagesOf pipe src size).2.writeBuffer = pipe.writeBuffer := by
  have same := savePagesOf_append pipe pipe.writeBuffer src [] size enough
  rw [List.append_nil] at same
  have kept := congrArg (fun result => result.2.writeBuffer) same
  exact kept

/-- The write buffers of the two runs: with compression the longer one starts like the other;
without, there is one in the second run only, and it starts like each of these buffers. -/
def Aligned (env : SaveEnv) (buffers : List Bytes) : Option Bytes → Bytes → Prop
  | some memory, longer => env.settings.doCompress = true ∧
      memory.length = env.page.compressBufSize ∧ memory <+: longer
  | none, longer => env.settings.doCompress = false ∧ ∀ buffer ∈ buffers, buffer <+: longer

/-- The two runs agree on everything but the write buffer. -/
def Alike (env : SaveEnv) (buffers : List Bytes) (first second : Pipe env.cipher) : Prop :=
  ∃ longer, second = withMemory first (some longer) ∧
    Aligned env buffers first.writeBuffer longer

theorem Alike.mono {buffers fewer : List Bytes} {first second : Pipe env.cipher}
    (alike : Alike env buffers first second) (within : ∀ buffer ∈ fewer, buffer ∈ buffers) :
    Alike env fewer first second := by
  obtain ⟨longer, same, aligned⟩ := alike
  refine ⟨longer, same, ?_⟩
  cases memory : first.writeBuffer with
  | some memory =>
      rw [memory] at aligned
      exact aligned
  | none =>
      rw [memory] at aligned
      exact ⟨aligned.1, fun buffer member => aligned.2 buffer (within buffer member)⟩

theorem flushBuffer_alike (documented : env.lzo.Documented) {first second : Pipe env.cipher}
    {buffers : List Bytes} {count : Nat} (whole : first.buffer.length = env.page.bytes * count)
    (few : count ≤ 32) (held : first.buffer ≠ [] → first.buffer ∈ buffers)
    (alike : Alike env buffers first second) :
    (env.flushBuffer second).1 = (env.flushBuffer first).1 ∧
      Alike env buffers (env.flushBuffer first).2 (env.flushBuffer second).2 := by
  obtain ⟨longer, rfl, aligned⟩ := alike
  have small : first.buffer.length ≤ env.page.bufferSize := by
    rw [whole]
    exact Nat.mul_le_mul_left _ few
  by_cases empty : first.buffer = []
  · have emptySecond : (withMemory first (some longer)).buffer = [] := empty
    rw [flushBuffer_empty empty, flushBuffer_empty emptySecond]
    exact ⟨rfl, longer, rfl, aligned⟩
  · have nonemptySecond : ¬ (withMemory first (some longer)).buffer = [] := empty
    unfold flushBuffer
    rw [if_neg empty, if_neg nonemptySecond]
    cases memory : first.writeBuffer with
    | some written =>
        rw [memory] at aligned
        obtain ⟨compresses, width, extra, rfl⟩ := aligned
        have fits := covering_fits documented compresses small
        have blockFits : (env.block first.buffer).length ≤ written.length := by
          rw [block_length compresses, width]
          exact blockSize_le documented compresses small
        have split : overwrite (env.block first.buffer) (written ++ extra) =
            overwrite (env.block first.buffer) written ++ extra := by
          rw [overwrite, overwrite, List.drop_append_of_le_length blockFits, List.append_assoc]
        have enough : env.page.bytes * covering env.page.bytes (env.blockSize first.buffer) ≤
            (overwrite (env.block first.buffer) written).length := by
          rwa [overwrite_length blockFits, width]
        simp only [withMemory, Option.getD_some, Option.map_some, fill, compresses,
          ↓reduceIte, split]
        have same := savePagesOf_append { first with
            ctx := if env.settings.checksums then first.ctx ++ [first.buffer] else first.ctx
            writeBuffer := some (overwrite (env.block first.buffer) written) }
          (some (overwrite (env.block first.buffer) written ++ extra)) _ extra _ enough
        have codes := congrArg Prod.fst same
        have pipes := congrArg Prod.snd same
        refine ⟨codes, _, pipes, ?_⟩
        rw [savePagesOf_writeBuffer _ _ _ enough]
        exact ⟨compresses, by rw [overwrite_length blockFits, width], List.prefix_append _ _⟩
    | none =>
        rw [memory] at aligned
        obtain ⟨plain, prefixes⟩ := aligned
        obtain ⟨extra, rfl⟩ := prefixes _ (held empty)
        have enough : env.page.bytes * covering env.page.bytes first.buffer.length ≤
            first.buffer.length := by
          rw [whole, covering_mul env.page.bytes_pos]
        simp only [withMemory, Option.getD_some, Option.getD_none, Option.map_some,
          Option.map_none, fill, blockSize, plain, Bool.false_eq_true, ↓reduceIte]
        have same := savePagesOf_append { first with
            ctx := if env.settings.checksums then first.ctx ++ [first.buffer] else first.ctx
            writeBuffer := none } (some (first.buffer ++ extra)) _ extra _ enough
        have codes := congrArg Prod.fst same
        have pipes := congrArg Prod.snd same
        refine ⟨codes, _, pipes, ?_⟩
        rw [savePagesOf_writeBuffer _ _ _ enough]
        exact ⟨plain, prefixes⟩

theorem Alike.passed {buffers : List Bytes} {first second : Pipe env.cipher}
    (alike : Alike env buffers first second) : second.passed = first.passed := by
  obtain ⟨longer, rfl, _⟩ := alike
  rfl

theorem Alike.buffer {buffers : List Bytes} {first second : Pipe env.cipher}
    (alike : Alike env buffers first second) (buffer : Bytes → Bytes) :
    Alike env buffers { first with buffer := buffer first.buffer }
      { second with buffer := buffer second.buffer } := by
  obtain ⟨longer, rfl, aligned⟩ := alike
  exact ⟨longer, rfl, aligned⟩

theorem Alike.buffer_eq {buffers : List Bytes} {first second : Pipe env.cipher}
    (alike : Alike env buffers first second) : second.buffer = first.buffer := by
  obtain ⟨longer, rfl, _⟩ := alike
  rfl

/-- The save loop with the flush behind it. -/
def saveRest (env : SaveEnv) (m nrPages : Nat) (image : List Bytes) (pipe : Pipe env.cipher) :
    Int × Pipe env.cipher :=
  let looped := env.saveLoop m nrPages (image.map .page) pipe
  if looped.1 ≠ 0 then looped else env.flushBuffer looped.2

theorem saveRest_cons (m nrPages : Nat) (src : Bytes) (rest : List Bytes)
    (pipe : Pipe env.cipher) : env.saveRest m nrPages (src :: rest) pipe =
      let pipe := { pipe with buffer := pipe.buffer ++ src }
      if nrPages % m = 0 ∧ env.aborted nrPages then (-EINTR, pipe)
      else if env.page.bufferSize ≤ pipe.buffer.length then
        let flushed := env.flushBuffer pipe
        if flushed.1 ≠ 0 then flushed
        else env.saveRest m (nrPages + 1) rest { flushed.2 with buffer := [] }
      else env.saveRest m (nrPages + 1) rest pipe := by
  unfold saveRest
  simp only [List.map_cons, saveLoop]
  split
  · simp [EINTR]
  · split
    · split <;> rfl
    · rfl

theorem saveRest_alike (env : SaveEnv) (documented : env.lzo.Documented) (m nrPages : Nat)
    {image : List Bytes} (filled : List Bytes) {first second : Pipe env.cipher}
    (full : ∀ src ∈ filled ++ image, src.length = env.page.bytes)
    (room : filled.length < 32) (buffered : first.buffer = filled.flatten)
    (alike : Alike env (buffersOf (filled ++ image)) first second) :
    (env.saveRest m nrPages image second).1 = (env.saveRest m nrPages image first).1 ∧
      (env.saveRest m nrPages image second).2.passed =
        (env.saveRest m nrPages image first).2.passed := by
  have positive := env.page.bytes_pos
  induction image generalizing nrPages filled first second with
  | nil =>
      rw [List.append_nil] at full alike
      have whole : first.buffer.length = env.page.bytes * filled.length := by
        rw [buffered, flatten_length full]
      have held : first.buffer ≠ [] → first.buffer ∈ buffersOf filled := by
        intro nonempty
        have some : filled ≠ [] := by
          rintro rfl
          exact nonempty buffered
        rw [buffersOf, batches_single some (by omega), buffered]
        exact List.mem_singleton.mpr rfl
      obtain ⟨codes, later⟩ := flushBuffer_alike documented whole (by omega) held alike
      exact ⟨codes, later.passed⟩
  | cons src rest ih =>
      have width : src.length = env.page.bytes := full src (by simp)
      have fullFilled : ∀ part ∈ filled ++ [src], part.length = env.page.bytes := by
        intro part member
        refine full part ?_
        rcases List.mem_append.mp member with old | new
        · exact List.mem_append_left _ old
        · rw [List.mem_singleton.mp new]
          simp
      have joined : first.buffer ++ src = (filled ++ [src]).flatten := by
        rw [buffered]
        simp
      have size := flatten_length fullFilled
      rw [List.length_append, List.length_singleton] at size
      have appended := alike.buffer (· ++ src)
      rw [show filled ++ src :: rest = (filled ++ [src]) ++ rest by simp] at full appended
      rw [saveRest_cons, saveRest_cons]
      dsimp only at appended ⊢
      by_cases abort : nrPages % m = 0 ∧ env.aborted nrPages = true
      · rw [if_pos abort, if_pos abort]
        exact ⟨rfl, appended.passed⟩
      · rw [if_neg abort, if_neg abort, alike.buffer_eq, joined, size]
        rw [alike.buffer_eq, joined] at appended
        have count : env.page.bufferSize ≤ env.page.bytes * (filled.length + 1) ↔
            32 ≤ filled.length + 1 := by
          rw [PageSize.bufferSize]
          exact Nat.mul_le_mul_left_iff positive
        by_cases reached : 32 ≤ filled.length + 1
        · rw [if_pos (count.mpr reached), if_pos (count.mpr reached)]
          have batch : buffersOf ((filled ++ [src]) ++ rest) =
              (filled ++ [src]).flatten :: buffersOf rest := by
            rw [buffersOf, batches_append rest (by decide)
              (by rw [List.length_append, List.length_singleton]; omega), List.map_cons]
            rfl
          rw [batch] at appended
          obtain ⟨codes, later⟩ := flushBuffer_alike documented size (by omega)
            (fun _ => List.mem_cons_self) appended
          rw [codes]
          split
          · exact ⟨codes, later.passed⟩
          · exact ih _ [] (fun part member => full part (List.mem_append_right _ member))
              (by simp) rfl ((later.buffer fun _ => []).mono
                fun buffer member => List.mem_cons_of_mem _ member)
        · rw [if_neg (fun above => reached (count.mp above)),
            if_neg (fun above => reached (count.mp above))]
          exact ih _ (filled ++ [src]) full
            (by rw [List.length_append, List.length_singleton]; omega) rfl appended

/-- Without compression and threads nothing is copied to the write buffer. -/
theorem pagesOf_unfilled (plain : env.settings.doCompress = false) (memory buffer : Bytes) :
    env.pagesOf (some memory) buffer =
      slices env.page.bytes (covering env.page.bytes buffer.length) memory := by
  simp [pagesOf, blockSize, fill, plain]

theorem refilled_unfilled (plain : env.settings.doCompress = false) (memory buffer : Bytes) :
    env.refilled (some memory) buffer = some memory := by
  simp [refilled, fill, plain]

theorem plainPages_unfilled_full (plain : env.settings.doCompress = false) {memory : Bytes}
    (large : env.page.bufferSize ≤ memory.length) {buffers : List Bytes}
    (whole : ∀ buffer ∈ buffers, ∃ count ≤ 32, buffer.length = env.page.bytes * count) :
    ∀ src ∈ env.plainPages (some memory) buffers, src.length = env.page.bytes := by
  induction buffers with
  | nil => simp [plainPages]
  | cons buffer rest ih =>
      rw [plainPages, pagesOf_unfilled plain, refilled_unfilled plain]
      obtain ⟨count, few, size⟩ := whole buffer (by simp)
      intro src member
      rcases List.mem_append.mp member with here | later
      · refine mem_slices_length ?_ here
        rw [size, covering_mul env.page.bytes_pos]
        exact (Nat.mul_le_mul_left _ few).trans large
      · exact ih (fun other inside => whole other (by simp [inside])) src later

/-- The pages saved from it are the image only if the buffers happen to lie there already. -/
theorem plainPages_unfilled (plain : env.settings.doCompress = false) {memory : Bytes}
    {buffers : List Bytes}
    (whole : ∀ buffer ∈ buffers, ∃ count ≤ 32, buffer.length = env.page.bytes * count)
    (same : env.plainPages (some memory) buffers = env.plainPages none buffers) :
    ∀ buffer ∈ buffers, buffer <+: memory := by
  induction buffers with
  | nil => simp
  | cons buffer rest ih =>
      obtain ⟨count, _, size⟩ := whole buffer (by simp)
      rw [plainPages, plainPages, pagesOf_unfilled plain, refilled_unfilled plain] at same
      have unbuffered : env.pagesOf none buffer =
          slices env.page.bytes (covering env.page.bytes buffer.length) buffer := by
        simp [pagesOf, blockSize, fill, plain]
      rw [unbuffered] at same
      obtain ⟨here, later⟩ := List.append_inj same (by simp)
      have joined := congrArg List.flatten here
      rw [slices_flatten, slices_flatten, size, covering_mul env.page.bytes_pos, ← size,
        List.take_length] at joined
      intro other member
      rcases List.mem_cons.mp member with rfl | inside
      · rw [← joined]
        exact List.take_prefix _ _
      · exact ih (fun other inside => whole other (by simp [inside])) later other inside

theorem code_injective {start : env.cipher.State} (inverts : env.cipher.Inverts env.page start)
    {srcs others coded : List Bytes} {last lastOther : env.cipher.State}
    (full : ∀ src ∈ srcs, src.length = env.page.bytes)
    (fullOthers : ∀ src ∈ others, src.length = env.page.bytes)
    (first : env.code start srcs = .ok (coded, last))
    (second : env.code start others = .ok (coded, lastOther)) : srcs = others := by
  unfold code at first second
  by_cases encrypts : env.settings.doEncrypt = true
  · rw [if_pos encrypts] at first second
    obtain ⟨_, back⟩ := inverts _ _ _ full first
    obtain ⟨_, backOther⟩ := inverts _ _ _ fullOthers second
    rw [back] at backOther
    cases backOther
    rfl
  · rw [if_neg encrypts] at first second
    cases first
    cases second
    rfl

/-- Whatever becomes of the writes and of the abort key, the save goes on without threads and
passes the same pages to `save_page`, with the same result, as if threads had been off. -/
def SavesTheSame (env : SaveEnv) (answers : StartStep → Bool) (points : StartStep → WaitPoint)
    (pool : env.Pool) (state : env.cipher.State) (image : List Bytes) : Prop :=
  ∀ (outcome : Nat → Int) (aborted : Nat → Bool), ∃ result,
    { env with outcome := outcome, aborted := aborted }.saveAfterFailure answers points pool state
      image = some result ∧
    result.1 = ({ env with outcome := outcome, aborted := aborted }.saveUnthreaded pool state
      image).1 ∧
    result.2.passed = ({ env with outcome := outcome, aborted := aborted }.saveUnthreaded pool
      state image).2.passed

/-- No thread that the error path joins is past its look at `save_ret` but not waiting yet. -/
def NoneDecided (doEncrypt : Bool) (answers : StartStep → Bool)
    (points : StartStep → WaitPoint) : Prop :=
  ∀ step, (startSteps doEncrypt).find? (fun step => !answers step) = some step →
    ∀ thread ∈ startedBefore doEncrypt step, points thread ≠ .decided

theorem startThreads_fails {doEncrypt : Bool} {answers : StartStep → Bool}
    {points : StartStep → WaitPoint} (fails : ∃ step ∈ startSteps doEncrypt, answers step = false) :
    startThreads doEncrypt answers points = some false ↔
      NoneDecided doEncrypt answers points := by
  cases found : (startSteps doEncrypt).find? (fun step => !answers step) with
  | none =>
      obtain ⟨step, member, failed⟩ := fails
      have passed := List.find?_eq_none.mp found step member
      simp [failed] at passed
  | some step =>
      have ends (point : WaitPoint) : point.ends = true ↔ point ≠ .decided := by
        cases point <;> decide
      unfold startThreads NoneDecided
      simp only [found, Option.some.injEq, forall_eq']
      by_cases all : ((startedBefore doEncrypt step).all fun thread => (points thread).ends) = true
      · simp only [all, ↓reduceIte, true_iff]
        intro thread member
        exact (ends _).mp (List.all_eq_true.mp all thread member)
      · simp only [all, Bool.false_eq_true, ↓reduceIte, reduceCtorEq, false_iff]
        intro none
        exact all (List.all_eq_true.mpr fun thread member => (ends _).mpr (none thread member))

theorem poolBuffers_alike (env : SaveEnv) (pool : env.Pool) (state : env.cipher.State)
    {buffers : List Bytes}
    (whole : ∀ buffer ∈ buffers, ∃ count ≤ 32, buffer.length = env.page.bytes * count)
    (held : env.settings.doCompress = true ∨ ∀ buffer ∈ buffers, buffer <+: pool.val) :
    Alike env buffers (env.initSwapWriter (env.poolBuffers pool false) state)
      (env.initSwapWriter (env.poolBuffers pool true) state) := by
  have room := pool.property
  cases compresses : env.settings.doCompress with
  | true =>
      refine ⟨pool.val.take (4 * env.page.compressBufSize), ?_, ?_⟩
      · simp [initSwapWriter, poolBuffers, writeBufSize, withMemory, compresses]
      · simp only [initSwapWriter, poolBuffers, writeBufSize, compresses, ↓reduceIte,
          Option.map_some, Bool.false_eq_true]
        refine ⟨compresses, by rw [List.length_take]; omega, ?_⟩
        exact List.take_prefix_take_left (by omega)
  | false =>
      refine ⟨pool.val.take (4 * env.page.bufferSize), ?_, ?_⟩
      · simp [initSwapWriter, poolBuffers, writeBufSize, withMemory, compresses]
      · simp only [initSwapWriter, poolBuffers, writeBufSize, compresses, ↓reduceIte,
          Option.map_none, Bool.false_eq_true]
        refine ⟨compresses, fun buffer member => ?_⟩
        obtain ⟨count, few, size⟩ := whole buffer member
        have small : buffer.length ≤ env.page.bufferSize := by
          rw [size]
          exact Nat.mul_le_mul_left _ few
        exact List.prefix_take_iff.mpr
          ⟨(held.resolve_left (by simp [compresses])) buffer member, by omega⟩

/-- When every save succeeds, equal pages mean that the buffers lay in the write buffer. -/
theorem unfilled_start (env : SaveEnv) {start : env.cipher.State}
    (inverts : env.cipher.Inverts env.page start)
    (documented : env.lzo.Documented) (pool : env.Pool) {image : List Bytes}
    (full : ∀ src ∈ image, src.length = env.page.bytes)
    (plain : env.settings.doCompress = false)
    (unthreaded : (env.saveUnthreaded pool start image).1 = 0)
    (failed : (env.saveImage image.length (image.map .page)
      (env.initSwapWriter (env.poolBuffers pool true) start)).1 = 0)
    (same : (env.saveImage image.length (image.map .page)
        (env.initSwapWriter (env.poolBuffers pool true) start)).2.passed =
      (env.saveUnthreaded pool start image).2.passed) :
    ∀ buffer ∈ buffersOf image, buffer <+: pool.val := by
  have room := pool.property
  have smaller := bufferSize_le env.page
  have whole := buffersOf_whole full
  obtain ⟨coded, encoded, _, passed, _⟩ :=
    (saveImage_success full (by rfl) unthreaded).pages
  obtain ⟨codedOther, encodedOther, _, passedOther, _⟩ :=
    (saveImage_success full (by rfl) failed).pages
  have codes : codedOther = coded := by
    have joined := (passedOther.symm.trans same).trans passed
    simpa [initSwapWriter] using joined
  have memory : (env.poolBuffers pool false).writeBuffer = none := by
    simp [poolBuffers, writeBufSize, plain]
  have memoryOther : (env.poolBuffers pool true).writeBuffer =
      some (pool.val.take (4 * env.page.bufferSize)) := by
    simp [poolBuffers, writeBufSize, plain]
  dsimp only [initSwapWriter] at encoded encodedOther
  rw [memory] at encoded
  rw [memoryOther, codes] at encodedOther
  have large : env.page.bufferSize ≤
      (pool.val.take (4 * env.page.bufferSize)).length := by
    rw [List.length_take]
    omega
  have ready : env.Ready none := by simp [Ready, plain]
  have batched := buffersOf_batched full
  have pages := code_injective inverts (plainPages_unfilled_full plain large whole)
    ((plainPages_paged documented ready batched).full documented batched) encodedOther encoded
  intro buffer member
  exact (plainPages_unfilled plain whole pages buffer member).trans (List.take_prefix _ _)

/-- The save goes on only if the joins return, and is the same only if nothing had to be copied. -/
theorem SavesTheSame.condition {start : env.cipher.State} (documented : env.lzo.Documented)
    (inverts : env.cipher.Inverts env.page start)
    (encrypts : env.settings.doEncrypt = true →
      ∀ state src, ∃ result, env.cipher.encrypt state src = .ok result)
    {answers : StartStep → Bool} {points : StartStep → WaitPoint}
    (fails : ∃ step ∈ startSteps env.settings.doEncrypt, answers step = false)
    {pool : env.Pool} {image : List Bytes} (full : ∀ src ∈ image, src.length = env.page.bytes)
    (same : env.SavesTheSame answers points pool start image) :
    NoneDecided env.settings.doEncrypt answers points ∧
      (env.settings.doCompress = true ∨ ∀ buffer ∈ buffersOf image, buffer <+: pool.val) := by
  obtain ⟨result, saved, _, passed⟩ := same (fun _ => 0) (fun _ => false)
  have started : startThreads env.settings.doEncrypt answers points = some false := by
    cases outcome : startThreads env.settings.doEncrypt answers points with
    | none => simp [saveAfterFailure, outcome] at saved
    | some on =>
        cases on with
        | true => simp [saveAfterFailure, outcome] at saved
        | false => rfl
  refine ⟨(startThreads_fails fails).mp started, ?_⟩
  cases compresses : env.settings.doCompress with
  | true => exact Or.inl rfl
  | false =>
      simp only [saveAfterFailure, started, Option.some.injEq] at saved
      rw [← saved] at passed
      have succeeds (pipe : Pipe env.cipher) :
          ({ env with outcome := fun _ => 0, aborted := fun _ => false }.saveImage image.length
            (image.map .page) pipe).1 = 0 :=
        saveImage_succeeds { env with outcome := fun _ => 0, aborted := fun _ => false }
          encrypts (fun _ => rfl) (fun _ => rfl) _ _ _
      exact Or.inr (unfilled_start
        { env with outcome := fun _ => 0, aborted := fun _ => false } inverts documented
        pool full compresses (succeeds _) (succeeds _) passed)

/-- A failed start changes nothing about what is saved if and only if its joins return, and the
image is compressed or lies in the write buffer by chance. -/
theorem savesTheSame_iff (env : SaveEnv) (documented : env.lzo.Documented)
    (start : env.cipher.State) (inverts : env.cipher.Inverts env.page start)
    (encrypts : env.settings.doEncrypt = true →
      ∀ state src, ∃ result, env.cipher.encrypt state src = .ok result)
    (answers : StartStep → Bool) (points : StartStep → WaitPoint)
    (fails : ∃ step ∈ startSteps env.settings.doEncrypt, answers step = false)
    (pool : env.Pool) (image : List Bytes)
    (full : ∀ src ∈ image, src.length = env.page.bytes) :
    env.SavesTheSame answers points pool start image ↔
      NoneDecided env.settings.doEncrypt answers points ∧
        (env.settings.doCompress = true ∨
          ∀ buffer ∈ buffersOf image, buffer <+: pool.val) := by
  refine ⟨fun same => same.condition documented inverts encrypts fails full, ?_⟩
  rintro ⟨none, held⟩ outcome aborted
  have started := (startThreads_fails fails).mpr none
  have alike := saveRest_alike { env with outcome := outcome, aborted := aborted } documented
    (max 1 (image.length % 2 ^ 32 / 100)) 0 [] (by simpa using full) (by simp) rfl
    (poolBuffers_alike { env with outcome := outcome, aborted := aborted } pool start
      (buffersOf_whole full) held)
  refine ⟨_, ?_, alike⟩
  simp only [saveAfterFailure, started]
  rfl

theorem savesTheSame_compressed : sealing.SavesTheSame (fun step => step ≠ .moveThread)
    (fun _ => .testing)
    ⟨List.replicate (4 * sealing.page.compressBufSize) 0, le_of_eq List.length_replicate.symm⟩
    (7 : UInt8) twoPages :=
  (savesTheSame_iff sealing passThrough_documented (7 : UInt8) (PageCipher.counting_inverts _ _)
    (fun _ _ _ => ⟨_, rfl⟩) _ _ ⟨.moveThread, by decide, by decide⟩ _ twoPages
    twoPages_full).mpr ⟨fun _ _ _ _ => WaitPoint.noConfusion, Or.inl rfl⟩

/-- A memory pool that has not been used yet. -/
def zeroPool : checksumOnly.Pool :=
  ⟨List.replicate (4 * checksumOnly.page.compressBufSize) 0, le_of_eq List.length_replicate.symm⟩

/-- When the move thread cannot be created, zeros from the write buffer are saved in place of an
uncompressed image. -/
theorem unfilled_saved : ¬ checksumOnly.SavesTheSame (fun step => step ≠ .moveThread)
    (fun _ => .testing) zeroPool () twoPages := by
  intro same
  have condition := same.condition passThrough_documented (transparent_inverts _)
    (fun wanted => by cases wanted) ⟨.moveThread, by decide, by decide⟩ twoPages_full
  have nonempty : twoPages ≠ [] := List.cons_ne_nil _ _
  have held := condition.2.resolve_left (by decide) twoPages.flatten (by
    rw [buffersOf, batches_single nonempty (by decide)]
    exact List.mem_singleton.mpr rfl)
  have one : (1 : UInt8) ∈ twoPages.flatten :=
    List.mem_append_left _ (List.mem_replicate.mpr ⟨by decide, rfl⟩)
  have zero := List.eq_of_mem_replicate (held.mem one)
  exact absurd zero (by decide)

end SaveEnv

end Suspend
