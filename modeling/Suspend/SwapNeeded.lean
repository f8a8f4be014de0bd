import Suspend.ImageRoundTrip
import Suspend.SwapSupply
import Suspend.WriteImage

set_option autoImplicit false

namespace Suspend

open Foundation.Memory

namespace SaveEnv

variable {env : SaveEnv} {pipe : Pipe env.cipher} {result : Int × Pipe env.cipher}

/-- An error that does not come from `save_page`. -/
def OwnError (env : SaveEnv) (error : Int) : Prop :=
  error = -EINTR ∧ (∃ nrPages, env.aborted nrPages = true) ∨
    ∃ state src refused, env.cipher.encrypt state src = .error refused ∧ error = refused

/-- What a part of the save asks of `save_page`: at most `pages` calls, each after the previous one
succeeded. -/
structure Spends (env : SaveEnv) (pipe : Pipe env.cipher) (pages : Nat)
    (result : Int × Pipe env.cipher) : Prop where
  grows : pipe.swap.length ≤ result.2.swap.length
  atMost : result.2.swap.length ≤ pipe.swap.length + pages
  granted : ∀ count, pipe.swap.length ≤ count → count < result.2.swap.length →
    env.outcome count = 0
  calls : result.1 = 0 →
    result.2.passed.length + pipe.swap.length = pipe.passed.length + result.2.swap.length
  stops : result.1 ≠ 0 → env.OwnError result.1 ∨
    result.1 = env.outcome result.2.swap.length ∧
      result.2.swap.length < pipe.swap.length + pages ∧
      result.2.passed.length + pipe.swap.length = pipe.passed.length + result.2.swap.length + 1

namespace Spends

theorem nothing (pipe : Pipe env.cipher) (pages : Nat) : env.Spends pipe pages (0, pipe) where
  grows := Nat.le_refl _
  atMost := Nat.le_add_right _ _
  granted _ low high := absurd high (Nat.not_lt.mpr low)
  calls _ := rfl
  stops failed := absurd rfl failed

theorem own {error : Int} (pipe : Pipe env.cipher) (pages : Nat) (cause : env.OwnError error)
    (failed : error ≠ 0) : env.Spends pipe pages (error, pipe) where
  grows := Nat.le_refl _
  atMost := Nat.le_add_right _ _
  granted _ low high := absurd high (Nat.not_lt.mpr low)
  calls done := absurd done failed
  stops _ := Or.inl cause

theorem mono {pages more : Nat} (spends : env.Spends pipe pages result) (fewer : pages ≤ more) :
    env.Spends pipe more result where
  grows := spends.grows
  atMost := by
    have atMost := spends.atMost
    omega
  granted := spends.granted
  calls := spends.calls
  stops failed := by
    rcases spends.stops failed with own | ⟨error, below, passed⟩
    · exact Or.inl own
    · exact Or.inr ⟨error, by omega, passed⟩

theorem trans {middle : Pipe env.cipher} {pages more : Nat} {first : Int × Pipe env.cipher}
    (spends : env.Spends pipe pages first) (succeeds : first.1 = 0)
    (later : env.Spends middle more result) (swap : middle.swap = first.2.swap)
    (passed : middle.passed = first.2.passed) : env.Spends pipe (pages + more) result := by
  obtain ⟨grows, atMost, granted, calls, _⟩ := spends
  obtain ⟨laterGrows, laterAtMost, laterGranted, laterCalls, laterStops⟩ := later
  rw [swap] at laterGrows laterAtMost laterGranted laterCalls laterStops
  rw [passed] at laterCalls laterStops
  have balance := calls succeeds
  refine ⟨by omega, by omega, ?_, ?_, ?_⟩
  · intro count low high
    by_cases early : count < first.2.swap.length
    · exact granted count low early
    · exact laterGranted count (by omega) high
  · intro done
    have further := laterCalls done
    omega
  · intro failed
    rcases laterStops failed with own | ⟨error, below, further⟩
    · exact Or.inl own
    · exact Or.inr ⟨error, by omega, by omega⟩

end Spends

theorem savePage_spends (pipe : Pipe env.cipher) (src : Bytes) :
    env.Spends pipe 1 (env.savePage pipe src) := by
  unfold savePage
  dsimp only
  by_cases refused : env.outcome pipe.swap.length = 0
  · rw [if_neg (not_not_intro refused)]
    constructor
    · simp
    · simp
    · intro count low high
      rw [List.length_append, List.length_singleton] at high
      rwa [show count = pipe.swap.length by omega]
    · intro _
      simp only [List.length_append, List.length_singleton]
      omega
    · exact fun failed => absurd rfl failed
  · rw [if_pos refused]
    constructor
    · exact Nat.le_refl _
    · exact Nat.le_succ _
    · exact fun count low high => absurd high (Nat.not_lt.mpr low)
    · exact fun done => absurd done refused
    · intro _
      refine Or.inr ⟨rfl, Nat.lt_succ_self _, ?_⟩
      simp only [List.length_append, List.length_singleton]
      omega

theorem encryptAndSavePage_spends (pipe : Pipe env.cipher) (src : Bytes) :
    env.Spends pipe 1 (env.encryptAndSavePage pipe src) := by
  unfold encryptAndSavePage
  split
  · split
    · next error refused =>
      exact Spends.own pipe 1 (Or.inr ⟨_, _, error, refused, rfl⟩) error.2
    · next coded state _ =>
      have saved := savePage_spends { pipe with state := state } coded
      exact ⟨saved.grows, saved.atMost, saved.granted, saved.calls, saved.stops⟩
  · exact savePage_spends pipe src

theorem savePagesOf_spends (pipe : Pipe env.cipher) (src : Bytes) (size : Nat) :
    env.Spends pipe (covering env.page.bytes size) (env.savePagesOf pipe src size) := by
  have positive := env.page.bytes_pos
  fun_induction savePagesOf env pipe src size with
  | case1 pipe src size some saved failed =>
      rw [covering_step positive some]
      exact (encryptAndSavePage_spends pipe _).mono (by omega)
  | case2 pipe src size some saved done ih =>
      rw [covering_step positive some, Nat.add_comm]
      exact (encryptAndSavePage_spends pipe _).trans (by simpa using done) ih rfl rfl
  | case3 pipe src size none => exact Spends.nothing pipe _

theorem flushBuffer_spends (pipe : Pipe env.cipher) :
    env.Spends pipe (covering env.page.bytes (env.blockSize pipe.buffer))
      (env.flushBuffer pipe) := by
  unfold flushBuffer
  split
  · exact Spends.nothing pipe _
  · have saved := @savePagesOf_spends env
      { pipe with
        ctx := if env.settings.checksums then pipe.ctx ++ [pipe.buffer] else pipe.ctx
        writeBuffer := pipe.writeBuffer.map fun _ =>
          env.fill (pipe.writeBuffer.getD pipe.buffer) pipe.buffer }
      (env.fill (pipe.writeBuffer.getD pipe.buffer) pipe.buffer) (env.blockSize pipe.buffer)
    exact ⟨saved.grows, saved.atMost, saved.granted, saved.calls, saved.stops⟩

/-- The pages that the buffers of an image are saved as. -/
def pagesNeeded (env : SaveEnv) (image : List Bytes) : Nat :=
  ((buffersOf image).map fun buffer => covering env.page.bytes (env.blockSize buffer)).sum

theorem pagesNeeded_full {filled : List Bytes} (rest : List Bytes) (full : filled.length = 32) :
    env.pagesNeeded (filled ++ rest) =
      covering env.page.bytes (env.blockSize filled.flatten) + env.pagesNeeded rest := by
  rw [pagesNeeded, buffersOf, batches_append rest (by decide) full, List.map_cons, List.map_cons,
    List.sum_cons]
  rfl

theorem pagesNeeded_single {filled : List Bytes} (some : filled ≠ []) (few : filled.length ≤ 32) :
    env.pagesNeeded filled = covering env.page.bytes (env.blockSize filled.flatten) := by
  rw [pagesNeeded, buffersOf, batches_single some few, List.map_singleton, List.map_singleton,
    List.sum_singleton]

theorem saveLoop_spends {m nrPages : Nat} {image : List Bytes} {looped : Int × Pipe env.cipher}
    (filled : List Bytes) (full : ∀ src ∈ filled ++ image, src.length = env.page.bytes)
    (room : filled.length < 32) (buffered : pipe.buffer = filled.flatten)
    (ran : env.saveLoop m nrPages (image.map .page) pipe = looped) :
    env.Spends pipe (env.pagesNeeded (filled ++ image))
      (if looped.1 ≠ 0 then looped else env.flushBuffer looped.2) := by
  have positive := env.page.bytes_pos
  induction image generalizing nrPages filled pipe with
  | nil =>
      simp only [List.map_nil, saveLoop] at ran
      subst ran
      rw [if_neg (by simp), List.append_nil]
      by_cases empty : filled = []
      · subst empty
        rw [flushBuffer_empty buffered]
        exact Spends.nothing pipe _
      · rw [pagesNeeded_single empty (by omega), ← buffered]
        exact flushBuffer_spends pipe
  | cons src rest ih =>
      have size := flatten_length full
      simp only [List.map_cons, saveLoop] at ran
      by_cases aborts : nrPages % m = 0 ∧ env.aborted nrPages = true
      · rw [if_pos aborts] at ran
        subst ran
        rw [if_pos (show -EINTR ≠ 0 by decide)]
        have stopped := @Spends.own env _ pipe (env.pagesNeeded (filled ++ src :: rest))
          (Or.inl ⟨rfl, nrPages, aborts.2⟩) (show -EINTR ≠ 0 by decide)
        exact ⟨stopped.grows, stopped.atMost, stopped.granted, stopped.calls, stopped.stops⟩
      · rw [if_neg aborts] at ran
        rw [List.append_cons] at full ⊢
        have joined : pipe.buffer ++ src = (filled ++ [src]).flatten := by
          rw [buffered]
          simp
        have width := flatten_length fun part member =>
          full part (List.mem_append_left rest member)
        rw [List.length_append, List.length_singleton] at width
        by_cases reached : env.page.bufferSize ≤ (pipe.buffer ++ src).length
        · rw [if_pos reached] at ran
          rw [joined, width, PageSize.bufferSize] at reached
          have count := Nat.le_of_mul_le_mul_left reached positive
          rw [pagesNeeded_full rest (by rw [List.length_append, List.length_singleton]; omega),
            ← joined]
          have flushed := @flushBuffer_spends env
            { pipe with buffer := pipe.buffer ++ src }
          by_cases failed : (env.flushBuffer { pipe with buffer := pipe.buffer ++ src }).1 ≠ 0
          · rw [if_pos failed] at ran
            subst ran
            rw [if_pos failed]
            have stopped := flushed.mono (Nat.le_add_right _ (env.pagesNeeded rest))
            exact ⟨stopped.grows, stopped.atMost, stopped.granted, stopped.calls, stopped.stops⟩
          · rw [if_neg failed] at ran
            have later := ih [] (fun part member => full part (List.mem_append_right _ member))
              (by simp) rfl ran
            rw [List.nil_append] at later
            have whole := flushed.trans (not_not.mp failed) later rfl rfl
            exact ⟨whole.grows, whole.atMost, whole.granted, whole.calls, whole.stops⟩
        · rw [if_neg reached] at ran
          rw [joined, width, PageSize.bufferSize] at reached
          have few : filled.length + 1 < 32 := by
            by_contra many
            exact reached (Nat.mul_le_mul_left _ (by omega))
          have later := ih (filled ++ [src]) full
            (by rw [List.length_append, List.length_singleton]; exact few) joined ran
          exact ⟨later.grows, later.atMost, later.granted, later.calls, later.stops⟩

theorem saveImage_spends (env : SaveEnv) (pipe : Pipe env.cipher) (nrPages : Nat)
    (image filled : List Bytes)
    (full : ∀ src ∈ filled ++ image, src.length = env.page.bytes)
    (room : filled.length < 32) (buffered : pipe.buffer = filled.flatten) :
    env.Spends pipe (env.pagesNeeded (filled ++ image))
      (env.saveImage nrPages (image.map .page) pipe) :=
  saveLoop_spends filled full room buffered rfl

theorem plainPages_length (memory : Option Bytes) (image : List Bytes) :
    (env.plainPages memory (buffersOf image)).length = env.pagesNeeded image := by
  rw [pagesNeeded]
  induction buffersOf image generalizing memory with
  | nil => rfl
  | cons buffer rest ih =>
      rw [plainPages, List.length_append, pagesOf, slices_length, List.map_cons, List.sum_cons, ih]

theorem saveImage_spent {nrPages : Nat} {image : List Bytes} (filled : List Bytes)
    (full : ∀ src ∈ filled ++ image, src.length = env.page.bytes)
    (room : filled.length < 32) (buffered : pipe.buffer = filled.flatten)
    (success : (env.saveImage nrPages (image.map .page) pipe).1 = 0) :
    (env.saveImage nrPages (image.map .page) pipe).2.swap.length =
      pipe.swap.length + env.pagesNeeded (filled ++ image) := by
  obtain ⟨⟨coded, encoded, swap, -, -⟩, -⟩ := saveImage_buffered filled full room buffered success
  rw [swap, List.length_append, code_length encoded, plainPages_length]

/-- Without compression no page is needed beyond those of the image. -/
theorem pagesNeeded_plain {image : List Bytes} (plain : env.settings.doCompress = false)
    (full : ∀ src ∈ image, src.length = env.page.bytes) : env.pagesNeeded image = image.length := by
  have width {part : List Bytes} (whole : ∀ src ∈ part, src.length = env.page.bytes) :
      covering env.page.bytes (env.blockSize part.flatten) = part.length := by
    rw [blockSize, if_neg (by simp [plain]), flatten_length whole,
      covering_mul env.page.bytes_pos]
  induction size : image.length using Nat.strong_induction_on generalizing image with
  | _ size ih =>
      by_cases few : image.length ≤ 32
      · by_cases empty : image = []
        · subst empty
          rw [← size, pagesNeeded, buffersOf_nil]
          rfl
        · rw [pagesNeeded_single empty few, width full, size]
      · rw [← List.take_append_drop 32 image] at full
        have whole := @pagesNeeded_full env _ (image.drop 32)
          (show (image.take 32).length = 32 by rw [List.length_take]; omega)
        rw [List.take_append_drop] at whole
        rw [whole, width fun src member => full src (List.mem_append_left _ member),
          ih (image.drop 32).length (by rw [List.length_drop]; omega)
            (fun src member => full src (List.mem_append_right _ member)) rfl,
          List.length_take, List.length_drop]
        omega

/-- Each page is saved with the next call of the writer's `save_page`. What the pages hold makes
no difference to it. -/
def onSwap (env : SaveEnv) (writer : SwapWriter Unit) : SaveEnv :=
  { env with outcome := fun count =>
      (writer.savePages env.page env.settings.doCompress (List.replicate (count + 1) ())).1 }

end SaveEnv

namespace WriteEnv

variable (write : WriteEnv Unit)

/-- A kernel that grants distinct pages, and a device that does not fail to write, for a
`write_image` that gets to `save_image` with an image of `size` bytes. -/
structure Occasion (size : Nat) where
  grants : Grants
  distinct : grants.Nodup
  pages : ∀ offset ∈ grants, 0 < offset ∧ (write.page.bytes : Int) ∣ offset
  freeSwap : Int
  enough : { write with freeSwap := freeSwap }.enoughSwap (write.swapNeeded size) = true
  fd : Device Unit
  writes : ∀ outcome ∈ fd.outcomes, outcome = true
  started : SwapWriter.Started Unit
  starts : SwapWriter.startSaving write.page write.settings.doCompress grants fd
    (write.swapNeeded size) = .ok started
  cipher : PageCipher
  codes : ∀ state src error, cipher.encrypt state src = .error error → 0 < error.val
  aborted : Nat → Bool

/-- The page that `write_image` has read by itself to learn the size. -/
def preread (image : List Bytes) : List Bytes := if 0 < write.imageSize then [] else image.take 1

namespace Occasion

variable {write} {size : Nat} (occasion : Occasion write size) (lzo : Lzo)

def env : SaveEnv :=
  { page := write.page
    settings := write.settings
    lzo := lzo
    cipher := occasion.cipher
    outcome := fun _ => 0
    aborted := occasion.aborted : SaveEnv }.onSwap occasion.started.writer

/-- `save_image` on that swap. -/
def saveImage (nrPages : Nat) (image : List Bytes) (buffers : (occasion.env lzo).Buffers false)
    (state : (occasion.env lzo).cipher.State) : Int × Pipe (occasion.env lzo).cipher :=
  (occasion.env lzo).saveImage nrPages ((image.drop (write.preread image).length).map .page)
    { (occasion.env lzo).initSwapWriter buffers state with
      buffer := (write.preread image).flatten }

/-- The swap writer after a number of calls of `save_page`. -/
def after (calls : Nat) : SwapWriter Unit :=
  (occasion.started.writer.savePages write.page write.settings.doCompress
    (List.replicate calls ())).2.2

end Occasion

/-- As long as the kernel has another page to give and the device takes another write,
`save_image` does not fail for want of swap. -/
def NeverOutOfSwap (lzo : Lzo) (image : List Bytes) : Prop :=
  ∀ size nrPages, write.imageInfo = .ok (size, nrPages) →
    ∀ (occasion : Occasion write size) (buffers : (occasion.env lzo).Buffers false)
      (state : (occasion.env lzo).cipher.State),
      let saved := occasion.saveImage lzo nrPages image buffers state
      ¬ (occasion.after saved.2.passed.length).Exhausted → saved.1 ≠ -ENOSPC

/-- The pages that `swap_needed` is good for. -/
def estimate (pages : Nat) : Nat :=
  pages + if write.settings.doCompress then
    covering write.page.bytes (write.page.bytes * pages / 16 + 67) else 0

variable {write}

theorem swapNeeded_estimate (pages : Nat) :
    write.swapNeeded (write.page.bytes * pages) = write.page.offset (write.estimate pages) := by
  unfold swapNeeded estimate PageSize.offset PageSize.roundUp
  split
  · push_cast
    rw [Int.mul_add]
  · push_cast
    rw [Int.add_zero]

theorem preread_append (image : List Bytes) :
    write.preread image ++ image.drop (write.preread image).length = image := by
  unfold preread
  split
  · rfl
  · cases image with
    | nil => rfl
    | cons first rest => rfl

theorem preread_few (image : List Bytes) : (write.preread image).length < 32 := by
  unfold preread
  split
  · decide
  · rw [List.length_take]
    omega

section Counts

variable {size : Nat} {occasion : Occasion write size} {lzo : Lzo} {image : List Bytes}
  {nrPages : Nat} {buffers : (occasion.env lzo).Buffers false}
  {state : (occasion.env lzo).cipher.State}

variable (occasion lzo nrPages buffers state) in
theorem occasion_spends (full : ∀ src ∈ image, src.length = write.page.bytes) :
    (occasion.env lzo).Spends
      { (occasion.env lzo).initSwapWriter buffers state with
        buffer := (write.preread image).flatten }
      ((occasion.env lzo).pagesNeeded image)
      (occasion.saveImage lzo nrPages image buffers state) := by
  have spends := SaveEnv.saveImage_spends (occasion.env lzo)
    { (occasion.env lzo).initSwapWriter buffers state with
      buffer := (write.preread image).flatten } nrPages
    (image.drop (write.preread image).length) (write.preread image)
    (by rwa [preread_append]) (preread_few image) rfl
  rwa [preread_append] at spends

variable (occasion lzo nrPages buffers state) in
theorem occasion_spent (full : ∀ src ∈ image, src.length = write.page.bytes)
    (success : (occasion.saveImage lzo nrPages image buffers state).1 = 0) :
    (occasion.saveImage lzo nrPages image buffers state).2.swap.length =
      (occasion.env lzo).pagesNeeded image := by
  have spent := SaveEnv.saveImage_spent (preread write image) (by rwa [preread_append])
    (preread_few image) rfl success
  rw [preread_append] at spent
  exact spent.trans (Nat.zero_add _)

theorem never_of_fits (full : ∀ src ∈ image, src.length = write.page.bytes)
    (sized : size = write.page.bytes * image.length)
    (fits : (occasion.env lzo).pagesNeeded image ≤ write.estimate image.length)
    (answering : ¬ (occasion.after
      (occasion.saveImage lzo nrPages image buffers state).2.passed.length).Exhausted) :
    (occasion.saveImage lzo nrPages image buffers state).1 ≠ -ENOSPC := by
  intro failed
  obtain ⟨_, _, _, _, stops⟩ := occasion_spends occasion lzo nrPages buffers state full
  have starts := occasion.starts
  rw [show write.swapNeeded size = write.page.offset (write.estimate image.length) by
    rw [sized, swapNeeded_estimate]] at starts
  have running := SwapWriter.startSaving_running
    (fun offset member => (occasion.pages offset member).1) occasion.writes starts
  rcases stops (by rw [failed]; decide) with
    (⟨aborted, _⟩ | ⟨_, _, refused, answer, same⟩) | ⟨error, below, calls⟩
  · rw [failed] at aborted
    exact absurd aborted (by decide)
  · have positive := occasion.codes _ _ _ answer
    rw [failed] at same
    have negative : refused.val < 0 := by
      rw [← same]
      decide
    omega
  · rw [show ({ (occasion.env lzo).initSwapWriter buffers state with
      buffer := (write.preread image).flatten } : Pipe _).swap.length = 0 from rfl] at below calls
    rw [show ({ (occasion.env lzo).initSwapWriter buffers state with
      buffer := (write.preread image).flatten } : Pipe _).passed.length = 0 from rfl] at calls
    rw [Nat.add_zero, Nat.zero_add] at calls
    rw [calls] at answering
    have outcome : (occasion.started.writer.savePages write.page write.settings.doCompress
        (List.replicate ((occasion.saveImage lzo nrPages image buffers state).2.swap.length + 1)
          ())).1 = -ENOSPC := error.symm.trans failed
    rcases SwapWriter.savePages_running write.settings.doCompress (List.replicate
        ((occasion.saveImage lzo nrPages image buffers state).2.swap.length + 1) ()) running
      (by rw [List.length_replicate]; omega) with ⟨granted, -⟩ | exhausted
    · rw [outcome] at granted
      exact absurd granted (by decide)
    · exact answering exhausted

end Counts

/-- A swap area of pages whose contents are left out. -/
def blankDisk : DiskContent Unit
  | .page _ => .data ()
  | .record => ⟨0, SWAPSPACE2, SWAPSPACE2⟩

variable (write) in
theorem enough_large (size : Nat) :
    { write with freeSwap := write.swapNeeded size + 1 }.enoughSwap (write.swapNeeded size) =
      true := by
  have nonnegative : 0 ≤ write.swapNeeded size := by
    unfold swapNeeded
    split <;> omega
  unfold enoughSwap
  dsimp only
  rw [decide_eq_true_eq]
  split <;> omega

/-- Every buffer whose pages the estimate leaves out lets the save run out of swap, if the pages
are granted in order. -/
theorem outOfSwap_of_exceeds {lzo : Lzo} {image : List Bytes} {nrPages : Nat}
    (full : ∀ src ∈ image, src.length = write.page.bytes)
    (known : write.imageInfo = .ok (write.page.bytes * image.length, nrPages))
    (compresses : write.settings.doCompress = true)
    (exceeds : write.estimate image.length < ((SaveEnv.buffersOf image).map fun buffer =>
      covering write.page.bytes ((lzo.compress buffer).length + 8)).sum) :
    ¬ write.NeverOutOfSwap lzo image := by
  intro never
  have positive : 0 < write.estimate image.length := by
    have rounded := covering_covers (write.page.bytes * image.length / 16 + 67)
      write.page.bytes_pos
    unfold estimate
    rw [if_pos compresses]
    by_contra none
    rw [show covering write.page.bytes (write.page.bytes * image.length / 16 + 67) = 0 by omega]
      at rounded
    omega
  obtain ⟨grants, fd, started, distinct, pages, writes, starts, first, here, last, next, count,
    spare, ascending⟩ := SwapWriter.exists_ascending write.page write.settings.doCompress
    positive blankDisk
  rw [← swapNeeded_estimate] at starts
  let occasion : Occasion write (write.page.bytes * image.length) :=
    { grants := grants
      distinct := distinct
      pages := pages
      freeSwap := write.swapNeeded (write.page.bytes * image.length) + 1
      enough := enough_large write _
      fd := fd
      writes := writes
      started := started
      starts := starts
      cipher := SaveEnv.transparent
      codes := fun _ _ _ refused => by cases refused
      aborted := fun _ => false }
  let buffers : (occasion.env lzo).Buffers false :=
    ⟨some (List.replicate write.page.compressBufSize 0), by
      simp [Occasion.env, SaveEnv.onSwap, compresses]⟩
  have needed : (occasion.env lzo).pagesNeeded image = ((SaveEnv.buffersOf image).map fun buffer =>
      covering write.page.bytes ((lzo.compress buffer).length + 8)).sum := by
    simp only [SaveEnv.pagesNeeded, SaveEnv.blockSize, Occasion.env, SaveEnv.onSwap, compresses,
      ↓reduceIte]
  rw [← needed] at exceeds
  have spends := occasion_spends occasion lzo nrPages buffers () full
  have refused := never _ nrPages known occasion buffers ()
  have spent := occasion_spent occasion lzo nrPages buffers () full
  generalize occasion.saveImage lzo nrPages image buffers () = saved at spends refused spent
  obtain ⟨_, _, granted, _, stops⟩ := spends
  have zero : ({ (occasion.env lzo).initSwapWriter buffers () with
      buffer := (write.preread image).flatten } : Pipe _).swap.length = 0 := rfl
  have none : ({ (occasion.env lzo).initSwapWriter buffers () with
      buffer := (write.preread image).flatten } : Pipe _).passed.length = 0 := rfl
  rw [zero] at granted stops
  rw [none] at stops
  have succeeds (calls : Nat) (few : calls < write.estimate image.length) :
      (occasion.env lzo).outcome calls = 0 :=
    (ascending.savePages _).1 (by rw [List.length_replicate]; omega)
  have exhausts : (occasion.env lzo).outcome (write.estimate image.length) = -ENOSPC ∧
      ¬ (occasion.after (write.estimate image.length + 1)).Exhausted :=
    (ascending.savePages _).2 (by rw [List.length_replicate]; omega)
  have fails : (occasion.env lzo).outcome (write.estimate image.length) ≠ 0 := by
    rw [exhausts.1]
    decide
  have stopped : saved.1 ≠ 0 := by
    intro success
    have all := spent success
    exact fails (granted _ (Nat.zero_le _) (by omega))
  rcases stops stopped with (⟨_, _, aborted⟩ | ⟨_, _, _, rejected, _⟩) | ⟨error, _, calls⟩
  · cases aborted
  · cases rejected
  · -- the first call that fails is the one behind the estimate
    have reached : saved.2.swap.length = write.estimate image.length := by
      rcases Nat.lt_trichotomy saved.2.swap.length (write.estimate image.length) with
        fewer | same | more
      · exact absurd (error.trans (succeeds _ fewer)) stopped
      · exact same
      · exact absurd (granted _ (Nat.zero_le _) more) fails
    rw [Nat.add_zero, Nat.zero_add, reached] at calls
    dsimp only at refused
    rw [calls] at refused
    rw [reached] at error
    exact refused exhausts.2 (error.trans exhausts.1)

/-- A `save_image` that the kernel never refuses a page and that never fails to write does not run
out of swap, whatever offsets it is granted, if and only if the compressed buffers, each rounded up
to whole pages by itself, are no more pages than the estimate made from the image as a whole. -/
theorem never_out_of_swap_iff (write : WriteEnv Unit) (lzo : Lzo) (image : List Bytes)
    (nrPages : Nat) (full : ∀ src ∈ image, src.length = write.page.bytes)
    (known : write.imageInfo = .ok (write.page.bytes * image.length, nrPages)) :
    write.NeverOutOfSwap lzo image ↔ (write.settings.doCompress = true →
      ((SaveEnv.buffersOf image).map fun buffer =>
          covering write.page.bytes ((lzo.compress buffer).length + 8)).sum ≤
        image.length + covering write.page.bytes (write.page.bytes * image.length / 16 + 67)) := by
  constructor
  · intro never compresses
    by_contra exceeds
    apply outOfSwap_of_exceeds full known compresses _ never
    rw [estimate, if_pos compresses]
    omega
  · intro fits size pages answer occasion buffers state
    rw [known, Except.ok.injEq, Prod.mk.injEq] at answer
    apply never_of_fits full answer.1.symm
    unfold estimate
    split
    · next compresses =>
      have enough := fits compresses
      simpa only [SaveEnv.pagesNeeded, SaveEnv.blockSize, Occasion.env, SaveEnv.onSwap, compresses,
        ↓reduceIte] using enough
    · next plain =>
      have off : write.settings.doCompress = false := by simpa using plain
      have whole : (occasion.env lzo).pagesNeeded image = image.length :=
        SaveEnv.pagesNeeded_plain off full
      omega

/-- A save with compression only, of an image of which the kernel tells the size. -/
def compressed (size : Int) : WriteEnv Unit where
  page := PageSize.fourKilobytes
  settings := ⟨true, false, false, false⟩
  testMode := false
  platform := false
  resumePause := 0
  crypto := Crypto.rejecting []
  salt := []
  dev := []
  imageSize := size
  info := .error ⟨-EFAULT, efault_ne_zero⟩
  freeSwap := 0
  data := ⟨[], 0⟩
  checksum := []
  verified := 0

def zeroPage : Bytes := List.replicate PageSize.fourKilobytes.bytes 0

theorem zeroPage_length : zeroPage.length = PageSize.fourKilobytes.bytes := List.length_replicate

theorem zeroPages_full (count : Nat) :
    ∀ src ∈ List.replicate count zeroPage, src.length = PageSize.fourKilobytes.bytes := by
  intro src member
  rw [List.eq_of_mem_replicate member, zeroPage_length]

theorem zeroPages_flatten (count : Nat) :
    (List.replicate count zeroPage).flatten.length = 4096 * count := by
  rw [flatten_length (zeroPages_full count), List.length_replicate]
  rfl

theorem two_buffers :
    SaveEnv.buffersOf (List.replicate 64 zeroPage) =
      [(List.replicate 32 zeroPage).flatten, (List.replicate 32 zeroPage).flatten] := by
  have halves : List.replicate 64 zeroPage =
      List.replicate 32 zeroPage ++ List.replicate 32 zeroPage := by
    rw [List.replicate_append_replicate]
  rw [halves, SaveEnv.buffersOf, batches_append _ (by decide) List.length_replicate,
    batches_single (by simp) (by simp), List.map_cons, List.map_singleton]

/-- Blocks that do not shrink fit as they are. -/
theorem never_out_of_swap_two :
    (compressed 262144).NeverOutOfSwap ⟨id, some⟩ (List.replicate 64 zeroPage) := by
  apply (never_out_of_swap_iff (compressed 262144) ⟨id, some⟩ (List.replicate 64 zeroPage) 64
    (zeroPages_full 64) (by rw [List.length_replicate]; rfl)).mpr
  intro _
  have length : (Lzo.compress ⟨id, some⟩ (List.replicate 32 zeroPage).flatten).length = 4096 * 32 :=
    zeroPages_flatten 32
  rw [two_buffers, List.map_cons, List.map_singleton, List.sum_cons, List.sum_singleton, length,
    List.length_replicate]
  decide

/-- A compression that makes every block as long as it may get. -/
def padding : Lzo where
  compress block := List.replicate (block.length / 16 + 66) 1 ++ 0 :: block
  decompress coded := some ((coded.dropWhile (· == 1)).drop 1)

theorem padding_length (block : Bytes) :
    (padding.compress block).length = block.length + block.length / 16 + 67 := by
  simp only [padding, List.length_append, List.length_replicate, List.length_cons]
  omega

theorem padding_documented : padding.Documented where
  bound block := Nat.le_of_eq (padding_length block)
  inverts block := by
    have strip (count : Nat) : (List.replicate count (1 : UInt8) ++ 0 :: block).dropWhile (· == 1) =
        0 :: block := by
      induction count with
      | zero => rfl
      | succ count ih => exact ih
    simp only [padding, strip, List.drop_succ_cons, List.drop_zero]

/-- Two full buffers of blocks as long as they may get are one page more than the estimate. -/
theorem two_buffers_out_of_swap :
    let image := List.replicate 64 zeroPage
    padding.Documented ∧ (∀ src ∈ image, src.length = PageSize.fourKilobytes.bytes) ∧
      (compressed 262144).imageInfo = .ok (PageSize.fourKilobytes.bytes * image.length, 64) ∧
      ¬ (compressed 262144).NeverOutOfSwap padding image := by
  have known : (compressed 262144).imageInfo =
      .ok (PageSize.fourKilobytes.bytes * (List.replicate 64 zeroPage).length, 64) := by
    rw [List.length_replicate]
    rfl
  refine ⟨padding_documented, zeroPages_full 64, known, ?_⟩
  apply outOfSwap_of_exceeds (zeroPages_full 64) known rfl
  rw [two_buffers, List.map_cons, List.map_singleton, List.sum_cons, List.sum_singleton,
    padding_length, zeroPages_flatten, List.length_replicate]
  decide

end WriteEnv

end Suspend
