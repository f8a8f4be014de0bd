import Suspend.Encryption
import Suspend.Signature
import Suspend.SwapWriter

set_option autoImplicit false

namespace Suspend

open Foundation.CachedDisk Foundation.Memory

namespace SwapWriter

variable {Page : Type} {page : PageSize} {doCompress : Bool}

variable (page) in
theorem saveExtents_extends (handle : SwapWriter Page) (finish : Bool) :
    ∃ more, handle.fd.Extends (handle.saveExtents page finish).2.fd more := by
  unfold saveExtents
  split
  · exact handle.fd.writePage_extends _ _
  · dsimp only
    split
    · exact ⟨[], .refl _⟩
    · exact handle.fd.writePage_extends _ _

variable (page doCompress) in
theorem nextTable_extends (handle : SwapWriter Page) :
    ∃ more, handle.fd.Extends (nextTable page doCompress handle).2.fd more := by
  have saves (used : SwapWriter Page) (same : used.fd = handle.fd) (fresh : Table) :
      ∃ more, handle.fd.Extends (if (used.saveExtents page false).1 ≠ 0 then
          (0, (used.saveExtents page false).2)
        else preallocateSwap page doCompress
          { (used.saveExtents page false).2 with extents := fresh }).2.fd more := by
    obtain ⟨more, grown⟩ := saveExtents_extends page used false
    rw [same] at grown
    refine ⟨more, ?_⟩
    split
    · exact grown
    · rw [preallocateSwap_fd]
      exact grown
  unfold nextTable
  dsimp only
  split
  · exact saves _ (by rfl) _
  · exact saves _ (by rfl) _

variable (page doCompress) in
theorem nextSwapPage_extends (handle : SwapWriter Page) :
    ∃ more, handle.fd.Extends (nextSwapPage page doCompress handle).2.fd more := by
  unfold nextSwapPage
  dsimp only
  split
  · exact ⟨[], .refl _⟩
  · split
    · exact ⟨[], .refl _⟩
    · exact nextTable_extends page doCompress
        { handle with
          curExtentIdx := handle.curExtentIdx + 1
          curOffset := handle.curOffset + page.bytes }

variable (page doCompress) in
theorem savePage_extends (handle : SwapWriter Page) (src : Page) :
    ∃ more, handle.fd.Extends (savePage page doCompress handle src).2.fd more := by
  obtain ⟨more, grown⟩ := nextSwapPage_extends page doCompress handle
  unfold savePage
  dsimp only
  split
  · exact ⟨more, grown⟩
  · obtain ⟨later, written⟩ := (nextSwapPage page doCompress handle).2.fd.writePage_extends
      (.data src) (nextSwapPage page doCompress handle).1
    split <;> exact ⟨more ++ later, grown.trans written⟩

variable (page doCompress) in
theorem savePages_extends (handle : SwapWriter Page) (srcs : List Page) :
    ∃ more, handle.fd.Extends (savePages page doCompress handle srcs).2.2.fd more := by
  induction srcs generalizing handle with
  | nil => exact ⟨[], .refl _⟩
  | cons src rest ih =>
      obtain ⟨more, grown⟩ := savePage_extends page doCompress handle src
      unfold savePages
      dsimp only
      split
      · exact ⟨more, grown⟩
      · obtain ⟨later, written⟩ := ih (savePage page doCompress handle src).2
        exact ⟨more ++ later, grown.trans written⟩

end SwapWriter

/-- What the data path of `save_image` does, with or without threads: the pages it calls
`save_page` with, up to the first call that fails, and the error it ends with by itself. -/
structure DataPath (Page : Type) where
  passed : List Page
  error : Int

/-- The configuration of a `write_image`, and what it is answered. -/
structure WriteEnv (Page : Type) where
  page : PageSize
  settings : Settings
  testMode : Bool
  platform : Bool
  resumePause : Int
  crypto : Crypto
  salt : Bytes
  dev : Grants
  imageSize : Int
  info : Except ErrorCode (Nat × Nat)
  freeSwap : Int
  data : DataPath Page
  checksum : Bytes
  verified : Int

/-- What `write_image` leaves. -/
structure Written (Page : Type) where
  error : Int
  start : Int
  header : ImageHeader
  key : KeyState
  fd : Device Page

namespace WriteEnv

variable {Page : Type} (env : WriteEnv Page)

/-- The size of the image, and the number of its pages that are still to be read. When the kernel
does not tell, they are in the first page of the image. -/
def imageInfo : Except Int (Nat × Nat) :=
  if 0 < env.imageSize then
    .ok (env.imageSize.toNat, covering env.page.bytes env.imageSize.toNat)
  else
    match env.info with
    | .error error => .error error
    | .ok (size, pages) => if pages = 0 then .error (-ENODATA) else .ok (size, pages - 1)

def swapNeeded (size : Nat) : Int :=
  if env.settings.doCompress then size + env.page.roundUp (size / 16 + 67) else size

/-- `enough_swap`. -/
def enoughSwap (swapNeeded : Int) : Bool :=
  decide ((if env.settings.doCompress then swapNeeded / 2 else swapNeeded) < env.freeSwap)

/-- `save_image`, below the data path. -/
def saveImage (handle : SwapWriter Page) : Int × SwapWriter Page :=
  let saved := handle.savePages env.page env.settings.doCompress env.data.passed
  let error := if env.data.error ≠ 0 then env.data.error else saved.1
  if error ≠ 0 then (error, saved.2.2) else saved.2.2.saveExtents env.page true

/-- The header as far as it is filled in before the image is saved. -/
def firstHeader (nrPages : Nat) (handle : SwapWriter Page) : ImageHeader :=
  { ImageHeader.zero with
    pages := nrPages
    mapStart := handle.extentsSpc
    flags :=
      { checksum := env.settings.computeChecksum
        compressed := env.settings.doCompress } }

/-- The rest of the header, filled in after the image is saved. -/
def fullHeader (header : ImageHeader) (writtenData : Int) : ImageHeader :=
  { header with
    imageDataSize := writtenData
    flags := { header.flags with platformSuspend := env.platform }
    checksum := if env.settings.checksums then env.checksum else header.checksum
    resumePause := env.resumePause }

/-- The header is written, the image is verified, and the swap is marked. -/
def commit (start : Int) (header : ImageHeader) (key : KeyState) (fd : Device Page) :
    Written Page :=
  let headed := fd.writePage (.header header) start
  let synced := headed.2.fsync
  if headed.1 ≠ 0 then ⟨headed.1, start, header, key, synced⟩
  -- `read_or_verify` does not write to the device
  else if (env.settings.verifyImage ∨ env.testMode) ∧ env.verified ≠ 0 then
    ⟨env.verified, start, header, key, synced⟩
  else
    let marked := synced.markSwap start
    if marked.1 ≠ 0 then ⟨marked.1, start, header, key, marked.2⟩
    else ⟨0, start, header, key, marked.2.fsync⟩

/-- `write_image` from `Save_image` on. -/
def finish (start : Int) (header : ImageHeader) (key : KeyState) (handle : SwapWriter Page) :
    Written Page :=
  let saved := env.saveImage handle
  if saved.1 ≠ 0 then ⟨saved.1, start, header, key, saved.2.fd⟩
  else env.commit start (env.fullHeader header saved.2.writtenData) key saved.2.fd.fsync

/-- The key set-up, when there is one. -/
def keyHeader (key : KeyState) (header : ImageHeader) : Int × ImageHeader × KeyState :=
  if env.settings.doEncrypt then env.crypto.setupKey env.salt key header else (0, header, key)

/-- `write_image` from `enough_swap` to `Save_image`. -/
def prepare (start : Int) (key : KeyState) (handle : SwapWriter Page) (nrPages : Nat) :
    Written Page :=
  let allocated := handle.preallocateSwap env.page env.settings.doCompress
  if env.enoughSwap handle.swapNeeded = false then
    ⟨-ENOSPC, start, ImageHeader.zero, key, handle.fd⟩
  else if allocated.1 = 0 then ⟨-ENOSPC, start, ImageHeader.zero, key, allocated.2.fd⟩
  else
    let keyed := env.keyHeader key (env.firstHeader nrPages allocated.2)
    if keyed.1 ≠ 0 then ⟨keyed.1, start, keyed.2.1, keyed.2.2, allocated.2.fd⟩
    else env.finish start keyed.2.1 keyed.2.2
      { allocated.2 with curOffset := allocated.2.curOffset - env.page.bytes }

/-- `write_image`. -/
def writeImage (key : KeyState) (fd : Device Page) : Written Page :=
  let answer := getSwapPage env.dev
  if answer.1 = 0 then ⟨-ENOSPC, answer.1, ImageHeader.zero, key, fd⟩
  else
    let opened := SwapWriter.init answer.2 fd
    if opened.1 ≠ 0 then ⟨opened.1, answer.1, ImageHeader.zero, key, opened.2.fd⟩
    else
      match env.imageInfo with
      | .error error => ⟨error, answer.1, ImageHeader.zero, key, opened.2.fd⟩
      | .ok (size, nrPages) =>
          env.prepare answer.1 key { opened.2 with swapNeeded := env.swapNeeded size } nrPages

theorem saveImage_extends (handle : SwapWriter Page) :
    ∃ more, handle.fd.Extends (env.saveImage handle).2.fd more := by
  obtain ⟨more, grown⟩ := handle.savePages_extends env.page
    env.settings.doCompress env.data.passed
  obtain ⟨later, written⟩ := SwapWriter.saveExtents_extends env.page
    (handle.savePages env.page env.settings.doCompress env.data.passed).2.2 true
  unfold saveImage
  dsimp only
  generalize (if env.data.error ≠ 0 then env.data.error
    else (handle.savePages env.page env.settings.doCompress env.data.passed).1) = error
  split
  · exact ⟨more, grown⟩
  · exact ⟨more ++ later, grown.trans written⟩

/-- What a `write_image` that returns `0` has written after `more`: the header, a barrier, the
record, and a barrier. -/
structure Committed (fd : Device Page) (written : Written Page) (more : List (DiskOp Page)) :
    Prop where
  success : written.error = 0
  swap : IsSwap (fd.content .record).sig
  elsewhere : ∀ op ∈ more, ¬ op.Touches .record
  initial : written.fd.initial = fd.initial
  log : written.fd.log = fd.log ++ more ++
    [.write (.page written.start) (.header written.header), .sync,
      .write .record ⟨written.start, (fd.content .record).sig, SWSUSP_SIG⟩, .sync]

/-- The signature is set at the very end, or not at all. -/
def Outcome (fd : Device Page) (written : Written Page) : Prop :=
  (written.error ≠ 0 ∧ ∃ more, fd.Extends written.fd more) ∨ ∃ more, Committed fd written more

theorem commit_outcome (start : Int) (header : ImageHeader) (key : KeyState)
    (fd : Device Page) : Outcome fd (env.commit start header key fd) := by
  obtain ⟨more, grown⟩ := fd.writePage_extends (.header header) start
  have synced := grown.trans (fd.writePage (.header header) start).2.fsync_extends
  unfold commit
  dsimp only
  by_cases headed : (fd.writePage (.header header) start).1 = 0
  · rw [if_neg (not_not_intro headed)]
    by_cases refused : (env.settings.verifyImage = true ∨ env.testMode = true) ∧ env.verified ≠ 0
    · rw [if_pos refused]
      exact .inl ⟨refused.2, _, synced⟩
    · rw [if_neg refused]
      rcases (fd.writePage (.header header) start).2.fsync.markSwap_cases start with
        ⟨marked, swap, initial, log⟩ | ⟨failed, unmarked⟩
      · rw [if_neg (not_not_intro marked)]
        have written := (Device.writePage_success headed).2
        rw [synced.content] at swap
        refine .inr ⟨[], rfl, swap, fun _ member => absurd member List.not_mem_nil, ?_, ?_⟩
        · exact initial.trans synced.initial
        · have record : (fd.writePage (.header header) start).2.fsync.marked start =
              ⟨start, (fd.content .record).sig, SWSUSP_SIG⟩ := by
            rw [Device.marked, synced.content]
          rw [Device.fsync, Device.append, log, record, written]
          simp [Device.fsync, Device.append]
      · rw [if_pos failed]
        exact .inl ⟨failed, _, synced.trans unmarked⟩
  · rw [if_pos headed]
    exact .inl ⟨headed, _, synced⟩

theorem Outcome.after {before middle : Device Page} {more : List (DiskOp Page)}
    {written : Written Page} (grown : before.Extends middle more)
    (outcome : Outcome middle written) : Outcome before written := by
  rcases outcome with ⟨failed, later, unmarked⟩ | ⟨later, committed⟩
  · exact .inl ⟨failed, _, grown.trans unmarked⟩
  · refine .inr ⟨more ++ later, committed.success, grown.content ▸ committed.swap, ?_,
      committed.initial.trans grown.initial, ?_⟩
    · intro op member
      exact (List.mem_append.mp member).elim (grown.elsewhere op) (committed.elsewhere op)
    · rw [committed.log, grown.log, grown.content, List.append_assoc before.log]

theorem finish_outcome (start : Int) (header : ImageHeader) (key : KeyState)
    (handle : SwapWriter Page) :
    Outcome handle.fd (env.finish start header key handle) := by
  obtain ⟨more, grown⟩ := saveImage_extends env handle
  unfold finish
  dsimp only
  by_cases saved : (env.saveImage handle).1 = 0
  · rw [if_neg (not_not_intro saved)]
    exact (env.commit_outcome ..).after (grown.trans (env.saveImage handle).2.fd.fsync_extends)
  · rw [if_pos saved]
    exact .inl ⟨saved, more, grown⟩

theorem prepare_outcome (start : Int) (key : KeyState) (handle : SwapWriter Page)
    (nrPages : Nat) : Outcome handle.fd (env.prepare start key handle nrPages) := by
  unfold prepare
  dsimp only
  rw [SwapWriter.preallocateSwap_fd]
  split
  · exact .inl ⟨show -ENOSPC ≠ 0 by decide, [], .refl _⟩
  · split
    · exact .inl ⟨show -ENOSPC ≠ 0 by decide, [], .refl _⟩
    · split
      · exact .inl ⟨‹_›, [], .refl _⟩
      · have finished := finish_outcome env start
          (env.keyHeader key (env.firstHeader nrPages
            (handle.preallocateSwap env.page env.settings.doCompress).2)).2.1
          (env.keyHeader key (env.firstHeader nrPages
            (handle.preallocateSwap env.page env.settings.doCompress).2)).2.2
          { (handle.preallocateSwap env.page env.settings.doCompress).2 with
            curOffset := (handle.preallocateSwap env.page env.settings.doCompress).2.curOffset -
              env.page.bytes }
        dsimp only at finished
        rwa [SwapWriter.preallocateSwap_fd] at finished

variable {env}

theorem imageInfo_error {error : Int} (failed : env.imageInfo = .error error) : error ≠ 0 := by
  unfold imageInfo at failed
  split at failed
  · cases failed
  · split at failed
    · next code _ =>
      cases failed
      exact code.2
    · split at failed
      · cases failed
        decide
      · cases failed

theorem init_fd (dev : Grants) (fd : Device Page) : (SwapWriter.init dev fd).2.fd = fd := by
  unfold SwapWriter.init
  dsimp only
  split <;> rfl

theorem writeImage_outcome (env : WriteEnv Page) (key : KeyState) (fd : Device Page) :
    Outcome fd (env.writeImage key fd) := by
  unfold writeImage
  dsimp only
  rw [init_fd]
  split
  · exact .inl ⟨show -ENOSPC ≠ 0 by decide, [], .refl _⟩
  · split
    · exact .inl ⟨‹_›, [], .refl _⟩
    · split
      · next failed => exact .inl ⟨imageInfo_error failed, [], .refl _⟩
      · next size nrPages _ =>
        have prepared := prepare_outcome env (getSwapPage env.dev).1 key
          { (SwapWriter.init (getSwapPage env.dev).2 fd).2 with swapNeeded := env.swapNeeded size }
          nrPages
        dsimp only at prepared
        rwa [init_fd] at prepared

/-- As long as the record has not been written, no loss of power leaves a signature. -/
theorem unsigned_before {fd : Device Page} (unmarked : fd.Unmarked)
    {quiet issued : List (DiskOp Page)}
    (elsewhere : ∀ op ∈ quiet, ¬ op.Touches .record) (started : fd.log <+: issued)
    (reached : issued <+: fd.log ++ quiet) {left : DiskContent Page}
    (lost : MayLeave fd.initial issued left) : (left .record).sig ≠ SWSUSP_SIG := by
  obtain ⟨done, rfl⟩ := started
  have part : done <+: quiet := (List.prefix_append_right_inj fd.log).mp reached
  obtain ⟨before, first, same⟩ := lost.frame fun op member => elsewhere op (part.subset member)
  rw [same]
  exact unmarked before first

/-- Once the record has been written, every page is there as it was last written. -/
theorem pages_synced {disk left : DiskContent Page} {early : List (DiskOp Page)} {start : Int}
    (record : SwsuspHeader) (late : List (DiskOp Page))
    (lost : MayLeave disk (early ++ .sync :: .write .record record :: late) left)
    (elsewhere : ∀ op ∈ late, ¬ op.Touches (.page start)) :
    left (.page start) = content disk early (.page start) := by
  apply lost.synced
  intro op member
  rcases List.mem_cons.mp member with rfl | later
  · rw [Op.touches_write]
    exact Place.noConfusion
  · exact elsewhere op later

/-- A signature after a loss of power is the last thing that was written: every page is there as it
was last written. -/
theorem committed_left {fd : Device Page} (unmarked : fd.Unmarked) {written : Written Page}
    {more : List (DiskOp Page)} (committed : Committed fd written more)
    {issued : List (DiskOp Page)} (started : fd.log <+: issued)
    (reached : issued <+: written.fd.log) {left : DiskContent Page}
    (lost : MayLeave fd.initial issued left) (signed : (left .record).sig = SWSUSP_SIG) :
    left .record = ⟨written.start, (fd.content .record).sig, SWSUSP_SIG⟩ ∧
      ∀ offset, left (.page offset) = written.fd.content (.page offset) := by
  let quiet := more ++ [.write (.page written.start) (.header written.header), .sync]
  let record : SwsuspHeader := ⟨written.start, (fd.content .record).sig, SWSUSP_SIG⟩
  have log : written.fd.log = fd.log ++ quiet ++ [.write .record record] ++ [.sync] := by
    rw [committed.log]
    simp [quiet, record]
  have elsewhere : ∀ op ∈ quiet, ¬ op.Touches .record := by
    intro op member
    simp only [quiet, List.mem_append, List.mem_cons, List.not_mem_nil, or_false] at member
    rcases member with early | rfl | rfl
    · exact committed.elsewhere op early
    · rw [Op.touches_write]
      exact Place.noConfusion
    · exact Op.not_touches_sync _
  have unsigned {before : DiskContent Page} (first : MayLeave fd.initial (fd.log ++ quiet) before) :
      (before .record).sig ≠ SWSUSP_SIG :=
    unsigned_before unmarked elsewhere (List.prefix_append ..) (List.prefix_refl _) first
  -- the record is the new one, since the old one has no signature
  have renewed {left : DiskContent Page} (signed : (left .record).sig = SWSUSP_SIG)
      (lost : MayLeave fd.initial (fd.log ++ quiet ++ [.write .record record]) left) :
      left .record = record := by
    obtain ⟨before, first, rfl | rfl⟩ := lost.snoc
    · exact absurd signed (unsigned first)
    · exact Function.update_self (β := Place.Content Page) .record record before
  have final (offset : Int) : written.fd.content (.page offset) =
      content fd.initial (fd.log ++ more ++
        [.write (.page written.start) (.header written.header)]) (.page offset) := by
    rw [Device.content, committed.initial, committed.log, List.append_cons, content_append]
    exact content_untouched _ _ (by simp)
  rw [log] at reached
  rcases List.prefix_concat_iff.mp reached with all | shorter
  · rw [all] at lost
    obtain ⟨before, first, same⟩ := lost.snoc
    have unchanged : left = before := same.elim id id
    rw [unchanged] at signed ⊢
    refine ⟨renewed signed first, fun offset => ?_⟩
    rw [final, ← unchanged]
    refine pages_synced record [.sync] ?_ (by simp)
    simpa [quiet] using lost
  · rcases List.prefix_concat_iff.mp shorter with all | early
    · rw [all] at lost
      refine ⟨renewed signed lost, fun offset => ?_⟩
      rw [final]
      refine pages_synced record [] ?_ (by simp)
      simpa [quiet] using lost
    · exact absurd signed (unsigned_before unmarked elsewhere started early lost)

theorem committed_complete {fd : Device Page} (unmarked : fd.Unmarked) {written : Written Page}
    {more : List (DiskOp Page)} (committed : Committed fd written more)
    {issued : List (DiskOp Page)} (started : fd.log <+: issued)
    (reached : issued <+: written.fd.log) {left : DiskContent Page}
    (lost : MayLeave fd.initial issued left) (signed : (left .record).sig = SWSUSP_SIG) :
    (left .record).image = written.start ∧
      ∀ offset, left (.page offset) = written.fd.content (.page offset) := by
  obtain ⟨record, pages⟩ := committed_left unmarked committed started reached lost signed
  exact ⟨by rw [record], pages⟩

/-- Wherever power is lost during `write_image`: if the device then carries the signature, the
page that the record points to holds the final header, and every page holds what was last
written to it. -/
theorem signed_implies_complete (env : WriteEnv Page) (key : KeyState) (fd : Device Page)
    (unmarked : fd.Unmarked) (issued : List (DiskOp Page)) (started : fd.log <+: issued)
    (reached : issued <+: (env.writeImage key fd).fd.log) (left : DiskContent Page)
    (lost : MayLeave fd.initial issued left) (signed : (left .record).sig = SWSUSP_SIG) :
    left (.page (left .record).image) = .header (env.writeImage key fd).header ∧
      ∀ offset cell earlier later, (env.writeImage key fd).fd.log =
          earlier ++ .write (.page offset) cell :: later →
        (∀ op ∈ later, ¬ op.Touches (.page offset)) → left (.page offset) = cell := by
  rcases writeImage_outcome env key fd with ⟨_, more, grown⟩ | ⟨more, committed⟩
  · rw [grown.log] at reached
    exact absurd signed (unsigned_before unmarked grown.elsewhere started reached lost)
  · obtain ⟨image, pages⟩ := committed_complete unmarked committed started reached lost signed
    have last (offset : Int) (cell : Cell Page) (earlier later : List (DiskOp Page))
        (log : (env.writeImage key fd).fd.log = earlier ++ .write (.page offset) cell :: later)
        (final : ∀ op ∈ later, ¬ op.Touches (.page offset)) : left (.page offset) = cell := by
      rw [pages, Device.content, log]
      exact content_last_write _ _ _ _ _ final
    refine ⟨?_, last⟩
    rw [image]
    exact last _ _ (fd.log ++ more) _ committed.log (by simp)

/-- A swap area that nothing has been saved to. -/
def freshSwap (outcomes : List Bool) : Device Bytes where
  initial
    | .page _ => .data []
    | .record => ⟨0, SWAPSPACE2, SWAPSPACE2⟩
  log := []
  outcomes := outcomes

def noKey : KeyState := ⟨⟨[], [], ImageHeader.zero.rsa, ⟨0, []⟩⟩, false, []⟩

/-- A save of one page, with nothing but the page. -/
def onePage : WriteEnv Bytes where
  page := PageSize.fourKilobytes
  settings := ⟨false, false, false, false⟩
  testMode := false
  platform := false
  resumePause := 0
  crypto := Crypto.rejecting []
  salt := []
  dev := [4096, 8192, 12288]
  imageSize := 4096
  info := .error ⟨-EFAULT, efault_ne_zero⟩
  freeSwap := 8192
  data := ⟨[[1]], 0⟩
  checksum := []
  verified := 0

theorem onePage_complete :
    let written := onePage.writeImage noKey (freshSwap (List.replicate 5 true))
    (written.fd.content .record).sig = SWSUSP_SIG ∧
      written.fd.content (.page (written.fd.content .record).image) = .header written.header := by
  intro written
  have signed : (written.fd.content .record).sig = SWSUSP_SIG := by decide +kernel
  obtain ⟨settled, recent, crash⟩ := crash_content (freshSwap []).initial written.fd.log
  exact ⟨signed, (signed_implies_complete onePage noKey (freshSwap (List.replicate 5 true))
    (Device.unmarked_fresh (by decide) _) written.fd.log List.nil_prefix (List.prefix_refl _)
    written.fd.content ⟨settled, recent, recent, crash⟩ signed).1⟩

end WriteEnv

end Suspend
