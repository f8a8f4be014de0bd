import Suspend.PassedPages
import Suspend.EncryptOrder

set_option autoImplicit false

namespace Suspend

open Foundation.Memory Foundation.Ring Foundation.Runs

namespace Threads

variable {env : SaveEnv} {threads after : Threads env} {other : Bool}
  {blocks : List (Bytes × Nat)} {start : env.cipher.State}

/-- All that is known about the order of the pages. -/
structure Ordered (blocks : List (Bytes × Nat)) (start : env.cipher.State)
    (threads : Threads env) : Prop where
  sane : threads.Sane
  filling : threads.Filling blocks
  emptying : threads.Emptying
  handling : ∃ count, threads.Handling blocks start count
  placing : threads.Placing
  taking : threads.Taking

/-- What is to be passed to `save_page` in the end. -/
def expected (blocks : List (Bytes × Nat)) (start : env.cipher.State) : List Bytes :=
  env.codeUntil start (blocks.flatMap env.pagesIn)

theorem Ordered.main (ordered : threads.Ordered blocks start)
    (taken : threads.stepMain other = some after) : after.Ordered blocks start := by
  obtain ⟨count, handling⟩ := ordered.handling
  have leaves := stepMain_leaves taken
  exact {
    sane := ordered.sane.stepMain taken
    filling := ordered.filling.main taken
    emptying := ordered.emptying.woken leaves.move (stepMain_kept taken) leaves.published
      leaves.emptied
    handling := ⟨count, handling.main taken⟩
    placing := ordered.placing.main taken
    taking := ordered.taking.main taken }

theorem Ordered.move (ordered : threads.Ordered blocks start)
    (positive : ∀ slot ∈ blocks, 0 < slot.2) (taken : threads.stepMove other = some after) :
    after.Ordered blocks start := by
  obtain ⟨count, handling⟩ := ordered.handling
  exact {
    sane := ordered.sane.stepMove taken
    filling := ordered.filling.move ordered.emptying.buffered taken
    emptying := ordered.emptying.move ordered.filling ordered.sane.move taken
    handling := handling.move ordered.filling ordered.emptying ordered.sane.move positive taken
    placing := ordered.placing.move taken
    taking := ordered.taking.move handling taken }

theorem Ordered.save (ordered : threads.Ordered blocks start)
    (taken : threads.stepSave other = some after) : after.Ordered blocks start := by
  obtain ⟨count, handling⟩ := ordered.handling
  have leaves := stepSave_leaves taken
  exact {
    sane := ordered.sane.stepSave taken
    filling := ordered.filling.save taken
    emptying := ordered.emptying.woken leaves.move (stepSave_kept taken)
      (Nat.le_of_eq leaves.published.symm) leaves.emptied
    handling := ⟨count, handling.save ordered.sane.save taken⟩
    placing := ordered.placing.save ordered.taking.atPage taken
    taking := ordered.taking.save ordered.placing taken }

theorem Ordered.abort (ordered : threads.Ordered blocks start)
    (taken : threads.stepAbort = some after) : after.Ordered blocks start := by
  obtain ⟨count, handling⟩ := ordered.handling
  have sane := ordered.sane.stepAbort taken
  unfold stepAbort at taken
  split at taken
  · next reading =>
    cases taken
    exact {
      sane := sane
      filling :=
        ordered.filling.mainTo .stop (by rw [reading]; rfl) Bool.noConfusion Bool.noConfusion
      emptying := ordered.emptying.woken (.inl rfl) id (Nat.le_refl _) rfl
      handling := ⟨count, handling.woken (.inl rfl) id rfl rfl rfl⟩
      placing := ordered.placing.woken (.inl rfl) id rfl rfl rfl rfl rfl rfl
      taking := ordered.taking.woken (.inl rfl) id (Nat.le_refl _) rfl (List.prefix_refl _)
        (fun _ => rfl) }
  · cases taken

theorem Ordered.passed_prefix (ordered : threads.Ordered blocks start) :
    threads.passed <+: expected blocks start := by
  obtain ⟨count, code, -⟩ := ordered.handling
  have handled : threads.handled <+: expected blocks start := by
    have whole := SaveEnv.codeUntil_append ((blocks.flatMap env.pagesIn).drop count) code
    rw [List.take_append_drop] at whole
    rw [expected, whole]
    exact List.prefix_append _ _
  unfold Threads.handled at handled
  by_cases encrypts : env.settings.doEncrypt = true
  · obtain ⟨count, -, same, -⟩ := ordered.taking.passed encrypts
    rw [if_pos encrypts] at handled
    rw [same]
    exact (List.take_prefix _ _).trans handled
  · rwa [if_neg encrypts] at handled

/-- Between two write buffers the "move" thread has passed on all pages before the next. -/
theorem Handling.between {count : Nat} (handling : threads.Handling blocks start count)
    (outside : threads.move.atBuffer = false) (running : threads.move ≠ .done) :
    count = env.pagesBefore blocks threads.emptied := by
  have here := handling.place
  cases place : threads.move <;> rw [place] at here outside
  case done => exact absurd place running
  all_goals first | exact here | cases outside

/-- When the main thread finds both buffers empty, everything has been passed. -/
theorem Ordered.complete (ordered : threads.Ordered blocks start)
    (finishing : threads.main = .finish) (fresh : threads.saveRet = 0)
    (write : threads.moveStart = threads.moveEnd) (encrypt : threads.saveEnd = threads.saveStart) :
    threads.passed = expected blocks start := by
  obtain ⟨sane, filling, emptying, ⟨count, handling⟩, placing, taking⟩ := ordered
  have published : threads.published = threads.emptied := by
    rw [filling.start, filling.stop] at write
    exact (mod_eq_iff filling.order (Nat.lt_succ_of_le (filling.calm (.inl fresh)))).mp write
  have flushed : threads.flushed.length = threads.emptied := by
    rw [filling.count, finishing, ← published]
    rfl
  have laid : threads.flushed = blocks := by
    rw [← filling.laid, filling.all (by rw [finishing]; rfl), SaveEnv.slotBlocks,
      List.append_nil]
  have outside : threads.move.atBuffer = false := by
    by_contra inside
    have more := emptying.buffered (by simpa using inside)
    omega
  have running : threads.move ≠ .done := fun ended => sane.move.done ended fresh
  have whole : (blocks.flatMap env.pagesIn).take count = blocks.flatMap env.pagesIn := by
    rw [handling.between outside running, SaveEnv.pagesBefore, ← flushed, laid, List.take_length,
      List.take_length]
  have code := handling.code
  rw [whole] at code
  rw [expected, SaveEnv.codeUntil_all code, handled]
  by_cases encrypts : env.settings.doEncrypt = true
  · rw [if_pos encrypts]
    have placed : threads.placed = threads.taken := by
      rw [placing.start, placing.stop] at encrypt
      exact (mod_eq_iff placing.order
        (Nat.lt_succ_of_le (placing.calm (.inl fresh)))).mp encrypt.symm
    have alive : threads.save ≠ .done := fun ended => by
      rcases sane.save.done ended with failed | without
      · exact failed fresh
      · rw [without] at encrypts
        cases encrypts
    have unplaced : threads.move.unplaced = false := by
      revert outside
      cases threads.move <;> first | exact fun _ => rfl | exact Bool.noConfusion
    have length := placing.count
    rw [placed, unplaced] at length
    obtain ⟨within, same⟩ := taking.running encrypts alive
    rw [same, List.take_of_length_le]
    rw [length]
    exact Nat.le_add_right _ _
  · rw [if_neg encrypts]

/-- `wait_for_finish` only returns 0 when everything has been passed. -/
structure Finishing (blocks : List (Bytes × Nat)) (start : env.cipher.State)
    (threads : Threads env) : Prop where
  returning : threads.main = .finishRet → threads.saveRet = 0 →
    threads.passed = expected blocks start
  returned : threads.finished = some 0 → threads.passed = expected blocks start

/-- What has been passed completely stays so. -/
theorem Ordered.stays (ordered : after.Ordered blocks start)
    (grows : threads.passed <+: after.passed) (complete : threads.passed = expected blocks start) :
    after.passed = expected blocks start := by
  rw [complete] at grows
  exact (grows.eq_of_length_le ordered.passed_prefix.length_le).symm

theorem Finishing.others (finishing : threads.Finishing blocks start)
    (ordered : after.Ordered blocks start) (grows : threads.passed <+: after.passed)
    (main : threads.main.Woken after.main) (kept : threads.saveRet ≠ 0 → after.saveRet ≠ 0)
    (finished : after.finished = threads.finished) : after.Finishing blocks start where
  returning at_ fresh := by
    apply ordered.stays grows
    apply finishing.returning
    · rcases main with same | ⟨last, -, later⟩ | ⟨-, later⟩
      · rw [← same, at_]
      · rw [later] at at_
        cases at_
      · rw [later] at at_
        cases at_
    · exact by_contra fun failed => kept failed fresh
  returned complete := by
    apply ordered.stays grows
    apply finishing.returned
    rw [← finished, complete]

theorem Finishing.main (finishing : threads.Finishing blocks start)
    (ordered : threads.Ordered blocks start) (taken : threads.stepMain other = some after) :
    after.Finishing blocks start := by
  have returned := finishing.returned
  cases place : threads.main <;> simp only [stepMain, place] at taken
  case finish =>
    split at taken
    · cases taken
      exact ⟨MainAt.noConfusion, returned⟩
    · next done =>
      cases taken
      refine ⟨fun _ fresh => ?_, returned⟩
      have empty : threads.saveEnd = threads.saveStart ∧ threads.moveStart = threads.moveEnd := by
        by_contra busy
        apply done
        refine ⟨?_, fresh⟩
        rw [← not_and_or]
        exact busy
      exact ordered.complete place fresh empty.2 empty.1
  case finishRet =>
    cases taken
    refine ⟨MainAt.noConfusion, fun complete => ?_⟩
    exact finishing.returning place (Option.some.inj complete)
  case published last =>
    have stays := signalMove_main { threads with main := .publishedRet last } other
    rw [signalMove_eq] at taken
    cases taken
    refine ⟨?_, returned⟩
    grind -ring -linarith [MainAt.Woken]
  case stopMove =>
    have stays := signalMove_main { threads with main := .joinMove } other
    rw [signalMove_eq] at taken
    cases taken
    refine ⟨?_, returned⟩
    grind -ring -linarith [MainAt.Woken]
  case stopSave =>
    rw [signalSave_eq] at taken
    cases taken
    exact ⟨MainAt.noConfusion, returned⟩
  case publishedRet last =>
    cases taken
    refine ⟨?_, returned⟩
    grind -ring -linarith
  case joinMove =>
    split at taken <;> cases taken
    refine ⟨?_, returned⟩
    grind -ring -linarith
  all_goals
    repeat' split at taken
    all_goals cases taken
    all_goals exact ⟨MainAt.noConfusion, returned⟩

theorem started_ordered (memory pages : Nat → Bytes) {buffers : List Bytes}
    (last : env.LastPartial buffers) :
    (started memory pages start buffers).Ordered (env.slotBlocks memory 0 buffers) start := by
  constructor
  · exact started_sane memory pages start buffers
  · exact ⟨rfl, rfl, Nat.le_refl _, Nat.zero_le _, fun _ => Nat.zero_le _, rfl, rfl,
      Holds.nil _ _, last,
      Bool.noConfusion⟩
  · exact ⟨MoveAt.noConfusion, Bool.noConfusion, Bool.noConfusion⟩
  · refine ⟨0, ?_, rfl⟩
    rw [List.take_zero, SaveEnv.code_nil]
    simp only [handled, started, ite_self]
  · exact ⟨rfl, rfl, Nat.le_refl _, Nat.zero_le _, fun _ => Nat.zero_le _, rfl, Holds.nil _ _⟩
  · refine ⟨?_, ?_, ?_⟩
    · simp only [started]
      split <;> exact SaveAt.noConfusion
    · simp only [started]
      split <;> exact Bool.noConfusion
    · intro encrypts
      refine ⟨0, Nat.le_refl _, rfl, .inr ?_⟩
      simp only [started, if_pos encrypts]
      rfl

/-- The whole statement about a run. -/
structure Refines (blocks : List (Bytes × Nat)) (start : env.cipher.State)
    (threads : Threads env) : Prop where
  ordered : threads.Ordered blocks start
  finishing : threads.Finishing blocks start

theorem Refines.step {turn : Turn} (refines : threads.Refines blocks start)
    (positive : ∀ slot ∈ blocks, 0 < slot.2) (taken : Threads.step turn threads = some after) :
    after.Refines blocks start := by
  obtain ⟨ordered, finishing⟩ := refines
  cases turn with
  | main other => exact ⟨ordered.main taken, finishing.main ordered taken⟩
  | abort =>
      have later := ordered.abort taken
      refine ⟨later, ?_⟩
      simp only [Threads.step, stepAbort] at taken
      split at taken
      · cases taken
        exact ⟨MainAt.noConfusion, finishing.returned⟩
      · cases taken
  | move other =>
      have later := ordered.move positive taken
      have leaves := stepMove_leaves taken
      exact ⟨later, finishing.others later (stepMove_adds taken).passed leaves.main
        (stepMove_kept taken) leaves.finished⟩
  | save other =>
      have later := ordered.save taken
      have leaves := stepSave_leaves taken
      exact ⟨later, finishing.others later (stepSave_passed taken) leaves.main
        (stepSave_kept taken) leaves.finished⟩

end Threads

namespace SaveEnv

variable {env : SaveEnv} {image : List Bytes}

variable (env) in
/-- The blocks that are saved without threads, where every one is put into the same memory. -/
def plainBlocks : Option Bytes → List Bytes → List (Bytes × Nat)
  | _, [] => []
  | memory, buffer :: rest =>
      (env.fill (memory.getD buffer) buffer, env.blockSize buffer) ::
        plainBlocks (env.refilled memory buffer) rest

theorem plainPages_eq (memory : Option Bytes) (buffers : List Bytes) :
    env.plainPages memory buffers = (env.plainBlocks memory buffers).flatMap env.pagesIn := by
  induction buffers generalizing memory with
  | nil => rfl
  | cons buffer rest ih =>
      rw [plainPages, plainBlocks, List.flatMap_cons, ih]
      rfl

/-- Blocks of the same size and with the same data, up to what lies behind their end in the last
page. -/
def SameBlock (one other : Bytes × Nat) : Prop :=
  one.2 = other.2 ∧ one.1.take one.2 = other.1.take one.2

/-- The data of a block do not depend on the memory that it is put into. -/
theorem slotBlocks_same {memory : Nat → Bytes} {plain : Option Bytes}
    (ready : env.settings.doCompress = false → plain = none) (count : Nat)
    (buffers : List Bytes) :
    List.Forall₂ SameBlock (env.slotBlocks memory count buffers)
      (env.plainBlocks plain buffers) := by
  induction buffers generalizing memory plain count with
  | nil => exact .nil
  | cons buffer rest ih =>
      rw [slotBlocks, plainBlocks]
      refine .cons ⟨rfl, ?_⟩ (ih ?_ _)
      · unfold fillSlot fill blockSize
        by_cases compresses : env.settings.doCompress = true
        · simp only [if_pos compresses]
          have size : (env.lzo.compress buffer).length + 8 = (env.block buffer).length := by
            rw [block, List.length_append, wordBytes_length, Nat.add_comm]
          rw [size, overwrite_take, overwrite_take]
        · simp only [if_neg compresses]
          rw [overwrite_take, ready (by simpa using compresses), Option.getD_none, List.take_length]
      · intro compresses
        rw [refilled, ready compresses]
        rfl

theorem slotBlocks_plain (compresses : env.settings.doCompress = false) {memory : Nat → Bytes}
    (count : Nat) {buffers : List Bytes}
    (whole : ∀ buffer ∈ buffers, ∃ count ≤ 32, buffer.length = env.page.bytes * count) :
    (env.slotBlocks memory count buffers).flatMap env.pagesIn =
      (env.plainBlocks none buffers).flatMap env.pagesIn := by
  induction buffers generalizing memory count with
  | nil => rfl
  | cons buffer rest ih =>
      have whole' : ∀ other ∈ rest, ∃ count ≤ 32, other.length = env.page.bytes * count :=
        fun other member => whole other (List.mem_cons_of_mem _ member)
      have later := @ih (Function.update memory (count % WRITE_BUFFERS)
        (env.fillSlot (memory (count % WRITE_BUFFERS)) buffer)) (count + 1) whole'
      have plain : ¬ env.settings.doCompress = true := by simp [compresses]
      obtain ⟨pages, -, length⟩ := whole buffer (List.mem_cons_self ..)
      rw [slotBlocks, plainBlocks, List.flatMap_cons, List.flatMap_cons, later]
      congr 1
      simp only [pagesIn, fillSlot, fill, blockSize, if_neg plain, Option.getD_none]
      rw [overwrite, slices_append]
      rw [length, covering_mul env.page.bytes_pos]

theorem slotBlocks_positive {memory : Nat → Bytes} (count : Nat) {buffers : List Bytes}
    (nonempty : ∀ buffer ∈ buffers, buffer ≠ []) :
    ∀ slot ∈ env.slotBlocks memory count buffers, 0 < slot.2 := by
  induction buffers generalizing memory count with
  | nil => exact (by intro _ same; cases same)
  | cons buffer rest ih =>
      intro slot member
      rw [slotBlocks] at member
      rcases List.mem_cons.mp member with rfl | later
      · have some := List.length_pos_iff.mpr (nonempty buffer (List.mem_cons_self ..))
        unfold blockSize
        split
        · exact Nat.succ_pos _
        · exact some
      · exact ih _ (fun other inside => nonempty other (List.mem_cons_of_mem _ inside)) slot later

theorem buffersOf_nonempty (full : ∀ src ∈ image, src.length = env.page.bytes) :
    ∀ buffer ∈ buffersOf image, buffer ≠ [] := by
  induction size : image.length using Nat.strong_induction_on generalizing image with
  | _ size ih =>
      by_cases empty : image = []
      · rw [empty, buffersOf_nil]
        exact (by intro _ same; cases same)
      · have some := List.length_pos_iff.mpr empty
        rw [buffersOf_cons empty]
        intro buffer member
        rcases List.mem_cons.mp member with rfl | later
        · rw [← List.length_pos_iff,
            flatten_length fun src inside => full src (List.mem_of_mem_take inside)]
          apply Nat.mul_pos env.page.bytes_pos
          rw [List.length_take]
          omega
        · exact ih (image.drop 32).length (by rw [List.length_drop]; omega)
            (fun src inside => full src (List.mem_of_mem_drop inside)) rfl buffer later

theorem buffersOf_lastPartial (full : ∀ src ∈ image, src.length = env.page.bytes) :
    env.LastPartial (buffersOf image) := by
  induction size : image.length using Nat.strong_induction_on generalizing image with
  | _ size ih =>
      intro front buffer rest same short
      by_cases empty : image = []
      · rw [empty, buffersOf_nil] at same
        cases front <;> cases same
      · have some := List.length_pos_iff.mpr empty
        rw [buffersOf_cons empty] at same
        cases front with
        | nil =>
            obtain ⟨rfl, rfl⟩ := List.cons.inj same
            rw [flatten_length fun src inside => full src (List.mem_of_mem_take inside),
              PageSize.bufferSize] at short
            have few := Nat.lt_of_mul_lt_mul_left short
            rw [List.length_take] at few
            rw [List.drop_eq_nil_of_le (by omega), buffersOf_nil]
        | cons first front =>
            exact ih (image.drop 32).length (by rw [List.length_drop]; omega)
              (fun src inside => full src (List.mem_of_mem_drop inside)) rfl front buffer rest
              (List.cons.inj same).2 short

/-- The same save when every write succeeds and nobody aborts it. -/
abbrev unhindered (env : SaveEnv) : SaveEnv :=
  { env with outcome := fun _ => 0, aborted := fun _ => false }

theorem plainBlocks_unhindered (memory : Option Bytes) (buffers : List Bytes) :
    env.unhindered.plainBlocks memory buffers = env.plainBlocks memory buffers := by
  induction buffers generalizing memory with
  | nil => rfl
  | cons buffer rest ih => exact congrArg (List.cons _) (ih _)

/-- What a save with threads has done so far, compared with the pages that it passes `alone`, that
is, without threads. -/
structure LikeAlone (env : SaveEnv) (memory : Nat → Bytes) (plain : Option Bytes)
    (start : env.cipher.State) (image alone : List Bytes) (threads : Threads env) : Prop where
  passed : threads.passed <+:
    env.codeUntil start ((env.slotBlocks memory 0 (buffersOf image)).flatMap env.pagesIn)
  finished : threads.finished = some 0 → threads.passed =
    env.codeUntil start ((env.slotBlocks memory 0 (buffersOf image)).flatMap env.pagesIn)
  unthreaded : alone =
    env.codeUntil start ((env.plainBlocks plain (buffersOf image)).flatMap env.pagesIn)
  blocks : List.Forall₂ SameBlock (env.slotBlocks memory 0 (buffersOf image))
    (env.plainBlocks plain (buffersOf image))
  exact : env.settings.doCompress = false → threads.passed <+: alone ∧
    (threads.finished = some 0 → threads.passed = alone)
  slots : Holds WRITE_BUFFERS threads.slots threads.flushed threads.emptied
  pages : Holds ENCRYPT_BUF_PAGES threads.pages threads.coded threads.taken

/-- Whatever the threads do and in whatever order, the pages passed to `save_page` are those that
are passed without threads, as far as they are data. -/
theorem refines_unthreaded (env : SaveEnv) {image : List Bytes}
    (full : ∀ src ∈ image, src.length = env.page.bytes) (memory pages : Nat → Bytes)
    (start : env.cipher.State) (buffers : env.unhindered.Buffers false) (nrPages : Nat)
    {threads : Threads env}
    (reached : Reached Threads.step (fun _ _ => True)
      (Threads.started memory pages start (buffersOf image)) threads) :
    env.LikeAlone memory buffers.writeBuffer start image
      (env.unhindered.saveImage nrPages (image.map .page)
        (env.unhindered.initSwapWriter buffers start)).2.passed threads := by
  have refines : threads.Refines (env.slotBlocks memory 0 (buffersOf image)) start := by
    refine reached.invariant ⟨Threads.started_ordered memory pages (buffersOf_lastPartial full),
      MainAt.noConfusion, (by intros; contradiction)⟩ ?_
    intro turn before next refines _ taken
    exact refines.step (slotBlocks_positive 0 (buffersOf_nonempty full)) taken
  have ready : env.settings.doCompress = false → buffers.writeBuffer = none := by
    intro plain
    have allocated := buffers.allocated
    simpa [plain] using allocated
  have alone : (env.unhindered.saveImage nrPages (image.map .page)
      (env.unhindered.initSwapWriter buffers start)).2.passed =
        env.codeUntil start
          ((env.plainBlocks buffers.writeBuffer (buffersOf image)).flatMap env.pagesIn) := by
    have granted : ∀ count, env.unhindered.outcome count = 0 := fun _ => rfl
    have undisturbed : ∀ nrPages, env.unhindered.aborted nrPages = false := fun _ => rfl
    have empty : (env.unhindered.initSwapWriter buffers start).buffer = [] := rfl
    rw [saveImage_passed granted undisturbed nrPages full empty, plainPages_eq,
      plainBlocks_unhindered]
    rfl
  have same : env.settings.doCompress = false → env.codeUntil start
      ((env.slotBlocks memory 0 (buffersOf image)).flatMap env.pagesIn) =
        (env.unhindered.saveImage nrPages (image.map .page)
          (env.unhindered.initSwapWriter buffers start)).2.passed := by
    intro plain
    rw [alone, ready plain, slotBlocks_plain plain 0 (buffersOf_whole full)]
  have ordered := refines.ordered
  exact {
    passed := ordered.passed_prefix
    finished := refines.finishing.returned
    unthreaded := alone
    blocks := slotBlocks_same ready 0 (buffersOf image)
    exact plain := by
      rw [← same plain]
      exact ⟨ordered.passed_prefix, refines.finishing.returned⟩
    slots := ordered.filling.held
    pages := ordered.placing.held }

/-- A compression that is good at one block only. -/
def oneBlockLzo : Lzo where
  compress block := if block = List.replicate 1024 1 then List.replicate 56 1 else 0 :: block
  decompress
    | 0 :: block => some block
    | _ => some (List.replicate 1024 1)

theorem oneBlockLzo_documented : oneBlockLzo.Documented where
  bound block := by
    unfold oneBlockLzo
    dsimp only
    split
    · next same =>
      rw [same, List.length_replicate, List.length_replicate]
      decide
    · rw [List.length_cons]
      omega
  inverts block := by
    unfold oneBlockLzo
    dsimp only
    by_cases same : block = List.replicate 1024 1
    · rw [if_pos same, same]
      rfl
    · rw [if_neg same]
      rfl

def compressOnly : SaveEnv where
  page := PageSize.thirtyTwoBytes
  settings := ⟨true, false, false, false⟩
  lzo := oneBlockLzo
  cipher := ⟨Unit, fun _ src => .ok (src, ()), fun _ src => .ok (src, ())⟩
  outcome := fun _ => 0
  aborted := fun _ => false

/-- A buffer full of pages and one page more. -/
def raggedImage : List Bytes := List.replicate 32 (List.replicate 32 1) ++ [List.replicate 32 2]

def zeroMemory : Bytes := List.replicate compressOnly.page.compressBufSize 0

def zeroBuffers : compressOnly.unhindered.Buffers false :=
  ⟨some zeroMemory, congrArg some List.length_replicate⟩

theorem raggedImage_full : ∀ src ∈ raggedImage, src.length = compressOnly.page.bytes := by
  intro src member
  rcases List.mem_append.mp member with front | last
  · rw [List.eq_of_mem_replicate front]
    rfl
  · rw [List.mem_singleton.mp last]
    rfl

def raggedStart : Threads compressOnly :=
  Threads.started (fun _ => zeroMemory) (fun _ => []) () (buffersOf raggedImage)

/-- The pages that are passed without threads. -/
def raggedAlone : List Bytes :=
  (compressOnly.unhindered.saveImage 33 (raggedImage.map .page)
    (compressOnly.unhindered.initSwapWriter zeroBuffers ())).2.passed

/-- The main thread flushes both buffers, the "move" thread saves them, and the main thread sees
that they are saved. -/
def bothSaved : List Turn :=
  List.replicate 8 (.main false) ++ List.replicate 18 (.move false) ++
    List.replicate 2 (.main false)

theorem ragged_alike : ∃ threads, Reached Threads.step (fun _ _ => True) raggedStart threads ∧
    threads.finished = some 0 ∧ compressOnly.LikeAlone (fun _ => zeroMemory)
      zeroBuffers.writeBuffer () raggedImage raggedAlone threads := by
  have led : (follow Threads.step raggedStart bothSaved).map Threads.finished =
      some (some 0) := by
    decide +kernel
  obtain ⟨threads, led, finished⟩ := Option.map_eq_some_iff.mp led
  have reached := Reached.start.follow led
  exact ⟨threads, reached, finished,
    refines_unthreaded compressOnly raggedImage_full _ _ _ zeroBuffers 33 reached⟩

/-- Behind the end of the second block lie data of the first one if both are put into the same
memory. -/
theorem leftovers_differ : compressOnly.lzo.Documented ∧ ∃ threads,
    Reached Threads.step (fun _ _ => True) raggedStart threads ∧ threads.finished = some 0 ∧
      ¬ threads.passed <+: raggedAlone := by
  have led : (follow Threads.step raggedStart bothSaved).map (fun threads =>
      (threads.finished, decide (threads.passed <+: raggedAlone))) = some (some 0, false) := by
    decide +kernel
  obtain ⟨threads, led, facts⟩ := Option.map_eq_some_iff.mp led
  obtain ⟨finished, differ⟩ := Prod.mk.inj facts
  exact ⟨oneBlockLzo_documented, threads, Reached.start.follow led, finished,
    of_decide_eq_false differ⟩

end SaveEnv

end Suspend
