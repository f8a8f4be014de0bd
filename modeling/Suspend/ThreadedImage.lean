import Suspend.Hibernation
import Suspend.ThreadRefinement

set_option autoImplicit false

namespace Suspend

open Foundation.CachedDisk Foundation.Memory Foundation.Runs

namespace SaveEnv

variable {env : SaveEnv} {verify verifyOnly : Bool} {accepts : Nat → Bool}
  {fed pages image : List Bytes}

/-- The write buffers of the threads are large enough. -/
def Roomy (env : SaveEnv) (memory : Nat → Bytes) : Prop :=
  env.settings.doCompress = true → ∀ index, (memory index).length = env.page.compressBufSize

theorem pagesIn_fillSlot {memory : Bytes} {batch : List Bytes}
    (roomy : env.settings.doCompress = true → memory.length = env.page.compressBufSize)
    (full : ∀ src ∈ batch, src.length = env.page.bytes) :
    ∃ plain, env.Ready plain ∧
      env.pagesIn (env.fillSlot memory batch.flatten, env.blockSize batch.flatten) =
        env.pagesOf plain batch.flatten := by
  by_cases compresses : env.settings.doCompress = true
  · refine ⟨some memory, ?_, ?_⟩
    · rw [Ready, if_pos compresses, Option.map_some, roomy compresses]
    · simp only [pagesIn, fillSlot, pagesOf, fill, if_pos compresses, Option.getD_some]
  · refine ⟨none, ?_, ?_⟩
    · rw [Ready, if_neg compresses]
      rfl
    · simp only [pagesIn, fillSlot, pagesOf, fill, blockSize, if_neg compresses, Option.getD_none]
      rw [overwrite, slices_append]
      rw [flatten_length full, covering_mul env.page.bytes_pos]

theorem slotBlocks_paged (documented : env.lzo.Documented) {memory : Nat → Bytes}
    (roomy : env.Roomy memory) (count : Nat) {buffers : List Bytes}
    (batched : env.Batched buffers) :
    env.Paged buffers ((env.slotBlocks memory count buffers).flatMap env.pagesIn) := by
  induction buffers generalizing memory count with
  | nil => exact .nil
  | cons buffer rest ih =>
      obtain ⟨batch, rfl, few, full⟩ := batched _ List.mem_cons_self
      have small : batch.flatten.length ≤ env.page.bufferSize := by
        rw [flatten_length full, PageSize.bufferSize]
        exact Nat.mul_le_mul_left _ few
      obtain ⟨plain, ready, same⟩ := pagesIn_fillSlot
        (fun compresses => roomy compresses (count % WRITE_BUFFERS)) full
      rw [slotBlocks, List.flatMap_cons, same]
      refine .cons ready (ih ?_ _ fun other inside => batched other
        (List.mem_cons_of_mem _ inside))
      intro compresses index
      -- the buffer that has just been filled keeps its size, and the others are as they were
      by_cases here : index = count % WRITE_BUFFERS
      · rw [here, Function.update_self, fillSlot, if_pos compresses, overwrite_length]
        · exact roomy compresses _
        · rw [block_length compresses, roomy compresses]
          exact blockSize_le documented compresses small
      · rw [Function.update_of_ne here]
        exact roomy compresses index

end SaveEnv

namespace Threads

variable {env : SaveEnv} {threads after : Threads env} {other : Bool}
  {blocks : List (Bytes × Nat)} {start : env.cipher.State}

/-- When the main thread finds the write buffers empty, every page has been encrypted. -/
theorem Ordered.all_handled (ordered : threads.Ordered blocks start)
    (finishing : threads.main = .finish) (fresh : threads.saveRet = 0)
    (write : threads.moveStart = threads.moveEnd) :
    env.code start (blocks.flatMap env.pagesIn) = .ok (threads.handled, threads.state) := by
  obtain ⟨sane, filling, emptying, ⟨count, handling⟩, -, -⟩ := ordered
  have published : threads.published = threads.emptied := by
    rw [filling.start, filling.stop] at write
    exact (Foundation.Ring.mod_eq_iff filling.order
      (Nat.lt_succ_of_le (filling.calm (.inl fresh)))).mp write
  have flushed : threads.flushed.length = threads.emptied := by
    rw [filling.count, finishing, ← published]
    rfl
  have laid : threads.flushed = blocks := by
    rw [← filling.laid, filling.all (by rw [finishing]; rfl), SaveEnv.slotBlocks,
      List.append_nil]
  -- the "move" thread is not in the middle of a buffer, as there is none left for it
  have outside : threads.move.atBuffer = false := by
    by_contra inside
    have further := emptying.buffered (by simpa using inside)
    omega
  have running : threads.move ≠ .done := fun ended => sane.move.done ended fresh
  have code := handling.code
  rwa [handling.between outside running, SaveEnv.pagesBefore, ← flushed, laid, List.take_length,
    List.take_length] at code

/-- How the main thread comes to the end of `wait_for_finish`, and past it. -/
theorem stepMain_finishes (taken : threads.stepMain other = some after) :
    (after.main = .finishRet → after.saveRet = 0 → threads.main = .finish ∧
        threads.saveRet = 0 ∧ threads.moveStart = threads.moveEnd) ∧
      (after.finished = threads.finished ∨
        threads.main = .finishRet ∧ after.finished = some threads.saveRet) := by
  cases place : threads.main <;> simp only [stepMain, place] at taken
  case finish =>
    split at taken
    · cases taken
      exact ⟨MainAt.noConfusion, .inl rfl⟩
    · next empty =>
      cases taken
      refine ⟨fun _ fresh => ⟨rfl, fresh, ?_⟩, .inl rfl⟩
      by_contra busy
      exact empty ⟨.inr busy, fresh⟩
  case finishRet =>
    cases taken
    exact ⟨MainAt.noConfusion, .inr ⟨rfl, rfl⟩⟩
  case published last =>
    have stays := signalMove_main { threads with main := .publishedRet last } other
    rw [signalMove_eq] at taken
    cases taken
    refine ⟨?_, .inl rfl⟩
    grind -ring -linarith [MainAt.Woken]
  case stopMove =>
    have stays := signalMove_main { threads with main := .joinMove } other
    rw [signalMove_eq] at taken
    cases taken
    refine ⟨?_, .inl rfl⟩
    grind -ring -linarith [MainAt.Woken]
  case stopSave =>
    rw [signalSave_eq] at taken
    cases taken
    exact ⟨MainAt.noConfusion, .inl rfl⟩
  case publishedRet last =>
    cases taken
    refine ⟨?_, .inl rfl⟩
    grind -ring -linarith
  case joinMove =>
    split at taken <;> cases taken
    refine ⟨?_, .inl rfl⟩
    grind -ring -linarith
  all_goals
    repeat' split at taken
    all_goals cases taken
    all_goals exact ⟨MainAt.noConfusion, .inl rfl⟩

/-- `wait_for_finish` only returns 0 when every page could be encrypted. -/
structure Encrypted (blocks : List (Bytes × Nat)) (start : env.cipher.State)
    (threads : Threads env) : Prop where
  refines : threads.Refines blocks start
  returning : threads.main = .finishRet → threads.saveRet = 0 →
    ∃ coded, env.code start (blocks.flatMap env.pagesIn) = .ok coded
  returned : threads.finished = some 0 →
    ∃ coded, env.code start (blocks.flatMap env.pagesIn) = .ok coded

theorem Encrypted.others (encrypted : threads.Encrypted blocks start)
    (refines : after.Refines blocks start) (main : threads.main.Woken after.main)
    (kept : threads.saveRet ≠ 0 → after.saveRet ≠ 0)
    (finished : after.finished = threads.finished) : after.Encrypted blocks start where
  refines := refines
  returning at_ fresh := by
    apply encrypted.returning
    · rcases main with same | ⟨last, -, later⟩ | ⟨-, later⟩
      · rw [← same, at_]
      · rw [later] at at_
        cases at_
      · rw [later] at at_
        cases at_
    · exact by_contra fun failed => kept failed fresh
  returned complete := encrypted.returned (finished ▸ complete)

theorem Encrypted.step {turn : Turn} (encrypted : threads.Encrypted blocks start)
    (positive : ∀ slot ∈ blocks, 0 < slot.2) (taken : Threads.step turn threads = some after) :
    after.Encrypted blocks start := by
  have refines := encrypted.refines.step positive taken
  -- only the main thread gets to the end of `wait_for_finish`; the others leave it where it is
  cases turn with
  | main other =>
      obtain ⟨finishing, finished⟩ := stepMain_finishes taken
      refine ⟨refines, fun at_ fresh => ?_, fun complete => ?_⟩
      · obtain ⟨place, fresh, write⟩ := finishing at_ fresh
        exact ⟨_, encrypted.refines.ordered.all_handled place fresh write⟩
      · rcases finished with same | ⟨place, returned⟩
        · exact encrypted.returned (same ▸ complete)
        · exact encrypted.returning place (Option.some.inj (returned.symm.trans complete))
  | abort =>
      simp only [Threads.step, stepAbort] at taken
      split at taken
      · cases taken
        exact ⟨refines, MainAt.noConfusion, encrypted.returned⟩
      · cases taken
  | move other =>
      have leaves := stepMove_leaves taken
      exact encrypted.others refines leaves.main (stepMove_kept taken) leaves.finished
  | save other =>
      have leaves := stepSave_leaves taken
      exact encrypted.others refines leaves.main (stepSave_kept taken) leaves.finished

/-- All pages of the write buffers have been passed to `save_page`, as they are encrypted. -/
theorem finished_code {image : List Bytes} (full : ∀ src ∈ image, src.length = env.page.bytes)
    {memory pages : Nat → Bytes}
    (reached : Reached Threads.step (fun _ _ => True)
      (Threads.started memory pages start (SaveEnv.buffersOf image)) threads)
    (finished : threads.finished = some 0) :
    ∃ last, env.code start ((env.slotBlocks memory 0 (SaveEnv.buffersOf image)).flatMap
      env.pagesIn) = .ok (threads.passed, last) := by
  have encrypted : threads.Encrypted (env.slotBlocks memory 0 (SaveEnv.buffersOf image)) start := by
    refine reached.invariant ⟨⟨Threads.started_ordered memory pages
      (SaveEnv.buffersOf_lastPartial full), MainAt.noConfusion, (by intros; contradiction)⟩,
      MainAt.noConfusion, (by intros; contradiction)⟩ ?_
    intro turn before next encrypted _ taken
    exact encrypted.step (SaveEnv.slotBlocks_positive 0 (SaveEnv.buffersOf_nonempty full)) taken
  obtain ⟨⟨coded, last⟩, code⟩ := encrypted.returned finished
  refine ⟨last, ?_⟩
  rw [encrypted.refines.finishing.returned finished, expected, SaveEnv.codeUntil_all code, code]

end Threads

namespace ImageSave

variable {save : ImageSave} {key : KeyState} {fd : Device Bytes} {image : List Bytes}
  {outcome : Nat → Int} {memory pages : Nat → Bytes} {threads : Threads (save.saveEnv outcome)}

/-- `write_image` with threads that have come this far. `interrupted` is the error of a `save_image`
that does not come to the end of `wait_for_finish`. -/
def threadedWrite (save : ImageSave) {outcome : Nat → Int}
    (threads : Threads (save.saveEnv outcome)) (image : List Bytes) (interrupted : ErrorCode)
    (verified : Int) : WriteEnv Bytes :=
  save.around ⟨threads.passed, threads.finished.getD interrupted⟩
    (save.machine.crypto.md5
      (if save.settings.checksums then SaveEnv.buffersOf image else []).flatten) verified

section Finished

variable (regular : save.Regular key fd image)
  (reached : Reached Threads.step (fun _ _ => True)
    (Threads.started memory pages (save.start key) (SaveEnv.buffersOf image)) threads)
  (finished : threads.finished = some 0)
include regular reached finished

/-- Loading starts with the whole of the image ahead. -/
theorem finished_between (roomy : (save.saveEnv outcome).Roomy memory) (accepts : Nat → Bool) :
    LoadEnv.Between ((save.saveEnv outcome).reader false false accepts)
      ((save.saveEnv outcome).Ahead false false accepts
        (if (save.settings.computeChecksum || false) = true then SaveEnv.buffersOf image else []))
      [] image ⟨⟨threads.passed, save.start key, save.machine.page.bytes * threads.passed.length,
        save.machine.memory, []⟩, 0, 0, []⟩ := by
  obtain ⟨last, code⟩ := Threads.finished_code regular.full reached finished
  have batched := @SaveEnv.buffersOf_batched (save.saveEnv outcome) image regular.full
  have paged := SaveEnv.slotBlocks_paged regular.documented roomy 0 batched
  refine ⟨regular.full, by simp, by simp, ⟨⟨_, paged, ?_, ?_⟩, rfl⟩⟩
  · exact SaveEnv.code_reads regular.inverts code (paged.full regular.documented batched) rfl rfl
  · dsimp only
    rw [SaveEnv.code_length code]
    rfl

/-- What has been passed to `save_page` is loaded as the image. -/
theorem finished_reloads (roomy : (save.saveEnv outcome).Roomy memory) :
    save.Reloads key image threads.passed := by
  intro header accepts extra size flags rounded
  have between := finished_between regular reached finished roomy accepts
  have supplies (fed : List Bytes) : ((save.saveEnv outcome).reader false false accepts).Supplies
      ((save.saveEnv outcome).Ahead false false accepts fed) :=
    SaveEnv.ahead_supplies regular.documented
  have count : ([] ++ image).length = header.pages % 2 ^ 32 - 1 + 1 := by
    rw [List.nil_append, ← rounded, rounds]
    omega
  constructor
  · unfold ResumeEnv.straysFor ResumeEnv.loader
    rw [flags, size]
    exact between.inside (supplies _) 0 (header.pages % 2 ^ 32 - 1) count.ge extra
  · intro accepted
    obtain ⟨later, ran, ended, delivered⟩ := between.run (supplies _) 0
      (header.pages % 2 ^ 32 - 1) count (fun index below => accepted index (by
        rw [List.nil_append] at count
        omega))
    have whole := LoadEnv.loadLoop_followed extra (congrArg Prod.fst ran)
    rw [ran] at whole
    refine ⟨later.source.ctx, ?_, fun computes => ?_⟩
    · unfold ResumeEnv.loadFor LoadEnv.loadImage
      dsimp only
      rw [flags, size]
      refine Prod.ext (congrArg (fun result => result.1) whole) (Prod.ext ?_ ?_)
      · exact (congrArg (fun result => result.2.delivered) whole).trans delivered
      · exact congrArg (fun result => result.2.source.ctx) whole
    · have fed := ended.queue.ctx
      rw [SaveEnv.buffersOf_nil, List.append_nil] at fed
      have checks : ((save.saveEnv outcome).settings.computeChecksum || false) = true := by
        rw [Bool.or_false]
        exact computes
      rw [if_pos checks,
        if_pos (show (save.settings.computeChecksum || false) = true from checks)] at fed
      exact fed

/-- Without compression as many pages are passed as the image has. -/
theorem finished_plain (plain : save.settings.doCompress = false) :
    threads.passed.length = image.length := by
  obtain ⟨last, code⟩ := Threads.finished_code regular.full reached finished
  rw [SaveEnv.code_length code, SaveEnv.slotBlocks_plain plain 0
    (SaveEnv.buffersOf_whole regular.full), ← SaveEnv.plainPages_eq]
  apply (SaveEnv.plainPages_length _ _).trans
  exact SaveEnv.pagesNeeded_plain plain regular.full

end Finished

/-- Without compression no call of `next_swap_page` finds a leftover extent. -/
theorem plain_never {data : DataPath Bytes} {checksum : Bytes} {verified : Int}
    {started : SwapWriter.Started Bytes} (regular : save.Regular key fd image)
    (done : (save.around data checksum verified).Done key fd
      (save.machine.page.bytes * image.length) image.length started)
    (plain : save.settings.doCompress = false) (count : data.passed.length = image.length) :
    started.writer.NeverLeftover save.machine.page save.settings.doCompress data.passed := by
  have starts := done.prepared.starts
  have saved := done.saved.pages
  change SwapWriter.startSaving save.machine.page save.settings.doCompress save.dev fd _ = _
    at starts
  change (started.writer.savePages save.machine.page save.settings.doCompress data.passed).1 = 0
    at saved
  have needed : (save.around data checksum verified).swapNeeded
      (save.machine.page.bytes * image.length) =
        save.machine.page.offset data.passed.length := by
    unfold WriteEnv.swapNeeded PageSize.offset
    rw [count]
    change (if save.settings.doCompress = true then _ else _) = _
    rw [plain, if_neg Bool.false_ne_true]
    push_cast
    rfl
  rw [plain] at starts saved ⊢
  rw [needed] at starts
  obtain ⟨surplus, _, balanced, _⟩ :=
    SwapWriter.startSaving_balanced regular.aligned regular.distinct regular.fresh starts
  have laid := SwapWriter.startSaving_laid regular.aligned regular.distinct regular.fresh starts
  exact (SwapWriter.Balanced.run laid regular.aligned regular.distinct balanced saved).1

/-- Everything works as far as that, and the threads have come this far with the swap that has been
preallocated. -/
structure Threaded (save : ImageSave) (key : KeyState) (fd : Device Bytes) (image : List Bytes)
    (opened : SwapWriter.Started Bytes)
    (threads : Threads (save.saveEnv (save.outcomes opened.writer))) : Prop
    extends save.Regular key fd image where
  opens : SwapWriter.startSaving save.machine.page save.settings.doCompress save.dev fd
    ((save.around ⟨[], 0⟩ [] 0).swapNeeded (save.machine.page.bytes * image.length)) = .ok opened
  ran : ∃ memory pages, (save.saveEnv (save.outcomes opened.writer)).Roomy memory ∧
    Reached Threads.step (fun _ _ => True)
      (Threads.started memory pages (save.start key) (SaveEnv.buffersOf image)) threads
  clean : save.settings.doCompress = true →
    opened.writer.NeverLeftover save.machine.page save.settings.doCompress threads.passed

variable {opened : SwapWriter.Started Bytes}
  {threads : Threads (save.saveEnv (save.outcomes opened.writer))} {boots : List ResumeEnv.Boot}
  {issued : List (DiskOp Bytes)} {interrupted : ErrorCode} {verified : Int}

/-- With threads, too, a save that has succeeded is restorable. -/
theorem Threaded.restorable (threaded : save.Threaded key fd image opened threads)
    {passphrase : Bytes} (recoverable : save.settings.doEncrypt = true →
      save.machine.crypto.Recoverable passphrase save.salt key)
    (success : ((save.threadedWrite threads image interrupted verified).writeImage key fd).error =
      0) :
    save.machine.Restorable (save.start key) passphrase image threads.passed
      ((save.threadedWrite threads image interrupted verified).writeImage key fd) := by
  obtain ⟨regular, opens, ⟨memory, pages, roomy, reached⟩, clean⟩ := threaded
  obtain ⟨started, done⟩ := regular.done success
  obtain rfl : opened = started := Except.ok.inj (opens.symm.trans done.prepared.starts)
  have finished : threads.finished = some 0 := by
    have returned : threads.finished.getD interrupted = 0 := done.saved.data
    cases answer : threads.finished with
    | none =>
        rw [answer] at returned
        exact absurd returned interrupted.property
    | some error =>
        rw [answer] at returned
        exact congrArg some returned
  have never : opened.writer.NeverLeftover save.machine.page save.settings.doCompress
      threads.passed := by
    by_cases compresses : save.settings.doCompress = true
    · exact clean compresses
    · rw [Bool.not_eq_true] at compresses
      exact plain_never regular done compresses
        (finished_plain regular reached finished compresses)
  have reloads := finished_reloads regular reached finished roomy
  apply regular.restorable recoverable done success never reloads
  intro computes
  rw [if_pos (Settings.checksums_of_compute computes)]

set_option maxRecDepth 100000 in
/-- The swap area with room for two pages. -/
def openedForTwo : SwapWriter.Started Bytes :=
  (SwapWriter.startSaving (ofTwo 8192).machine.page (ofTwo 8192).settings.doCompress
    (ofTwo 8192).dev swapArea (((ofTwo 8192).around ⟨[], 0⟩ [] 0).swapNeeded
      ((ofTwo 8192).machine.page.bytes * twoPages.length))).toOption.get (by decide +kernel)

def startForTwo : Threads ((ofTwo 8192).saveEnv ((ofTwo 8192).outcomes openedForTwo.writer)) :=
  Threads.started (fun _ => []) (fun _ => []) ((ofTwo 8192).start WriteEnv.noKey)
    (SaveEnv.buffersOf twoPages)

/-- The main thread flushes the buffer, the "move" thread saves it, and the main thread sees that it
is saved. -/
def bufferSaved : List Turn :=
  List.replicate 4 (.main false) ++ List.replicate 9 (.move false) ++
    List.replicate 2 (.main false)

set_option maxRecDepth 100000 in
def threadsOfTwo : Threads ((ofTwo 8192).saveEnv ((ofTwo 8192).outcomes openedForTwo.writer)) :=
  (follow Threads.step startForTwo bufferSaved).get (by decide +kernel)

theorem threadsOfTwo_reached :
    Reached Threads.step (fun _ _ => True) startForTwo threadsOfTwo :=
  Reached.start.follow (Option.some_get _).symm

theorem ofTwo_opens : SwapWriter.startSaving (ofTwo 8192).machine.page
    (ofTwo 8192).settings.doCompress (ofTwo 8192).dev swapArea
    (((ofTwo 8192).around ⟨[], 0⟩ [] 0).swapNeeded
      ((ofTwo 8192).machine.page.bytes * twoPages.length)) = .ok openedForTwo :=
  SwapWriter.startSaving_found (Option.get_mem _)

set_option maxRecDepth 100000 in
theorem threadsOfTwo_finished : threadsOfTwo.finished = some 0 := by
  decide +kernel

set_option maxRecDepth 100000 in
theorem threadsOfTwo_passed : threadsOfTwo.passed =
    ((ofTwo 8192).dataPath WriteEnv.noKey swapArea).1.passed := by
  decide +kernel

def writtenForTwo : Written Bytes :=
  ((ofTwo 8192).threadedWrite threadsOfTwo twoPages ⟨-EINVAL, einval_ne_zero⟩
    ((ofTwo 8192).verified WriteEnv.noKey swapArea)).writeImage WriteEnv.noKey swapArea

set_option maxRecDepth 100000 in
/-- It is the same as without threads. -/
theorem writtenForTwo_alone :
    writtenForTwo = (ofTwo 8192).writeImage WriteEnv.noKey swapArea := by
  have error : threadsOfTwo.finished.getD (-EINVAL) =
      ((ofTwo 8192).dataPath WriteEnv.noKey swapArea).1.error := by
    rw [threadsOfTwo_finished]
    decide +kernel
  have checksum : (ofTwo 8192).machine.crypto.md5
      (if (ofTwo 8192).settings.checksums then SaveEnv.buffersOf twoPages else []).flatten =
        ((ofTwo 8192).dataPath WriteEnv.noKey swapArea).2 := by
    decide +kernel
  unfold writtenForTwo threadedWrite
  rw [threadsOfTwo_passed, error, checksum]
  rfl

theorem threadsOfTwo_threaded : (ofTwo 8192).Threaded WriteEnv.noKey swapArea twoPages openedForTwo
    threadsOfTwo :=
  { ofTwo_ordinary with
    opens := ofTwo_opens
    ran := ⟨_, _, fun compresses => absurd compresses Bool.false_ne_true, threadsOfTwo_reached⟩
    clean := fun compresses => absurd compresses Bool.false_ne_true }

/-- Whatever the threads do and in whatever order, and whatever is lost when the power goes
meanwhile, behind them or during one of the boots: no image is restored but the one that was to be
saved, page for page, and if the record reaches the disk it is restored once at most. -/
theorem threads_restore_saved (threaded : save.Threaded key fd image opened threads)
    (unmarked : fd.Unmarked) (passphrase : Bytes)
    (recoverable : save.settings.doEncrypt = true →
      save.machine.crypto.Recoverable passphrase save.salt key)
    (started : fd.log <+: issued) (extended : issued <+:
      ((save.threadedWrite threads image interrupted verified).writeImage key fd).fd.log)
    (run : ResumeEnv.Boots save.machine boots) (reserved : ResumeEnv.Reserved boots)
    (lost : ∀ boot, boots.head? = some boot → MayLeave fd.initial issued boot.found)
    (typed : ∀ boot ∈ boots, boot.answers.typed = [passphrase]) :
    let written := (save.threadedWrite threads image interrupted verified).writeImage key fd
    (∀ boot ∈ boots, ∀ result, boot.restores save.machine = some result →
        result.header = written.header ∧ result.delivered = image) ∧
      ((∀ boot ∈ boots, boot.answers.persists = true) →
        (boots.filter fun boot => (boot.restores save.machine).isSome).length ≤ 1) :=
  run.restore_saved reserved unmarked started extended lost
    (fun success => threaded.restorable recoverable success) typed

/-- The two pages, if anything, and at most once. -/
theorem threadsOfTwo_saved :
    (∀ result, bootOfTwo.restores (ofTwo 8192).machine = some result →
        result.header = writtenForTwo.header ∧ result.delivered = twoPages) ∧
      ([bootOfTwo].filter fun boot =>
        (boot.restores (ofTwo 8192).machine).isSome).length ≤ 1 := by
  have extended : ((ofTwo 8192).writeImage WriteEnv.noKey swapArea).fd.log <+:
      writtenForTwo.fd.log := by
    rw [writtenForTwo_alone]
  have restores := threads_restore_saved threadsOfTwo_threaded
    (Device.unmarked_fresh (by decide) _) [] (fun encrypts => absurd encrypts Bool.false_ne_true)
    List.nil_prefix extended bootOfTwo_run (.singleton _) bootOfTwo_lost
    (fun boot member => by rw [List.mem_singleton.mp member]; rfl)
  constructor
  · exact restores.1 bootOfTwo List.mem_cons_self
  · exact restores.2 fun boot member => by rw [List.mem_singleton.mp member]; rfl

end ImageSave

end Suspend
