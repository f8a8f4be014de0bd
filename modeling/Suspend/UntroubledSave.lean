import Suspend.PageCount

set_option autoImplicit false

namespace Suspend

open ReadEnv (Plenty)

namespace Device

theorem writePage_plenty {fd : Device Bytes} {count : Nat} (plenty : Plenty fd (count + 1))
    (cell : Cell Bytes) (offset : Int) :
    Plenty (fd.writePage cell offset).2 count ∧
      (offset ≠ 0 → (fd.writePage cell offset).1 = 0) := by
  obtain ⟨writes, left⟩ := plenty.transfer
  unfold writePage
  by_cases nowhere : offset = 0
  · rw [if_pos nowhere]
    exact ⟨plenty.fewer (Nat.le_succ _), fun somewhere => absurd nowhere somewhere⟩
  · rw [if_neg nowhere, if_pos writes]
    exact ⟨left, fun _ => rfl⟩

theorem readPage_plenty {fd : Device Bytes} {count : Nat} (plenty : Plenty fd (count + 1))
    (buffer : Cell Bytes) {offset : Int} (somewhere : offset ≠ 0) :
    fd.readPage buffer offset = (0, fd.content (.page offset), fd.transfer.2) := by
  unfold readPage
  rw [if_neg somewhere, if_pos plenty.transfer.1]

theorem markSwap_plenty {fd : Device Bytes} (plenty : Plenty fd 2)
    (swap : IsSwap (fd.content .record).sig) (start : Int) : (fd.markSwap start).1 = 0 := by
  obtain ⟨reads, left⟩ := plenty.transfer
  obtain ⟨writes, -⟩ := left.transfer
  unfold markSwap
  dsimp only
  rw [if_pos reads, if_pos swap, if_pos writes]

end Device

namespace SwapWriter

variable {page : PageSize} {doCompress : Bool} {handle : SwapWriter Bytes} {more : Nat}

variable (page) in
theorem saveExtents_plenty (finish : Bool) (plenty : Plenty handle.fd (more + 1)) :
    Plenty (handle.saveExtents page finish).2.fd more := by
  unfold saveExtents
  split
  · exact (Device.writePage_plenty plenty _ _).1
  · dsimp only
    split
    · exact plenty.fewer (Nat.le_succ _)
    · exact (Device.writePage_plenty plenty _ _).1

variable (page doCompress) in
theorem nextSwapPage_plenty (plenty : Plenty handle.fd (more + 1)) :
    Plenty (nextSwapPage page doCompress handle).2.fd more := by
  have table (left : SwapWriter Bytes) (same : left.fd = handle.fd) (fresh : Table) :
      Plenty (if (left.saveExtents page false).1 ≠ 0 then (0, (left.saveExtents page false).2)
        else preallocateSwap page doCompress
          { (left.saveExtents page false).2 with extents := fresh }).2.fd more := by
    rw [← same] at plenty
    have saved := saveExtents_plenty page false plenty
    split
    · exact saved
    · rw [preallocateSwap_fd]
      exact saved
  unfold nextSwapPage
  dsimp only
  split
  · exact plenty.fewer (Nat.le_succ _)
  · split
    · exact plenty.fewer (Nat.le_succ _)
    · unfold nextTable
      dsimp only
      split
      · exact table _ (by rfl) _
      · exact table _ (by rfl) _

variable (page doCompress) in
/-- A page takes one write, and one for the table in front of it. -/
theorem savePage_plenty (src : Bytes) (plenty : Plenty handle.fd (more + 2)) :
    Plenty (savePage page doCompress handle src).2.fd more := by
  have found := nextSwapPage_plenty page doCompress plenty
  unfold savePage
  dsimp only
  split
  · exact found.fewer (Nat.le_succ _)
  · have written := (Device.writePage_plenty found (.data src)
      (nextSwapPage page doCompress handle).1).1
    split <;> exact written

variable (page doCompress) in
theorem savePages_plenty (srcs : List Bytes)
    (plenty : Plenty handle.fd (2 * srcs.length + more)) :
    Plenty (savePages page doCompress handle srcs).2.2.fd more := by
  induction srcs generalizing handle with
  | nil => exact plenty.fewer (Nat.le_add_left _ _)
  | cons src rest ih =>
      have later := savePage_plenty page doCompress src
        (show Plenty handle.fd (2 * rest.length + more + 2) from plenty.fewer (by
          rw [List.length_cons]
          omega))
      unfold savePages
      dsimp only
      split
      · exact later.fewer (Nat.le_add_left _ _)
      · exact ih later

theorem startSaving_fd {Page : Type} {page : PageSize} {doCompress : Bool} {grants : Grants}
    {fd : Device Page} {swapNeeded : Int} {started : Started Page}
    (starts : startSaving page doCompress grants fd swapNeeded = .ok started) :
    started.writer.fd = fd := by
  obtain ⟨_, _, _, _, _, _, rfl, _, rfl⟩ := startSaving_success starts
  exact preallocateSwap_fd _

end SwapWriter

namespace WriteEnv

section Commit

variable {Page : Type} {env : WriteEnv Page} {key : KeyState} {fd : Device Page} {start : Int}
  {header : ImageHeader}

theorem headed_extends (fd : Device Page) (start : Int) (header : ImageHeader) :
    ∃ more, fd.Extends (headed fd start header) more := by
  obtain ⟨more, written⟩ := fd.fsync.writePage_extends (.header header) start
  exact ⟨_, (fd.fsync_extends.trans written).trans (Device.fsync_extends _)⟩

theorem commit_succeeds (written : (fd.fsync.writePage (.header header) start).1 = 0)
    (verified : env.verified = 0) (marked : ((headed fd start header).markSwap start).1 = 0) :
    (env.commit start header key fd.fsync).error = 0 := by
  unfold commit
  dsimp only
  rw [if_neg (not_not_intro written), if_neg (fun refused => refused.2 verified)]
  rw [headed] at marked
  rw [if_neg (not_not_intro marked)]

/-- A verification that fails leaves the header page, and nothing behind it. -/
theorem commit_refused (written : (fd.fsync.writePage (.header header) start).1 = 0)
    (verifies : env.settings.verifyImage = true ∨ env.testMode = true)
    (refused : env.verified ≠ 0) :
    env.commit start header key fd.fsync =
      ⟨env.verified, start, header, key, headed fd start header⟩ := by
  unfold commit headed
  dsimp only
  rw [if_neg (not_not_intro written), if_pos ⟨verifies, refused⟩]

variable {size nrPages : Nat} {started : SwapWriter.Started Page}

/-- `write_image` behind `save_image`. -/
theorem writeImage_saved (prepared : env.Prepared key fd size nrPages started)
    (saved : env.Saved started.writer) :
    env.writeImage key fd =
      let keyed := env.keyHeader key (env.firstHeader nrPages started.writer)
      env.commit started.start
        (env.fullHeader keyed.2.1 (env.savedWriter started.writer).writtenData) keyed.2.2
        (env.savedWriter started.writer).fd.fsync := by
  rw [writeImage_prepared prepared]
  unfold resumeAt finish
  dsimp only
  rw [saveImage_saved saved]
  exact if_neg (not_not_intro rfl)

theorem Done.somewhere (done : env.Done key fd size nrPages started)
    (success : (env.writeImage key fd).error = 0) : started.start ≠ 0 := by
  rw [writeImage_saved done.prepared done.saved] at success
  exact (Device.writePage_success (commit_success success).1).1

theorem Done.refused (done : env.Done key fd size nrPages started)
    (success : (env.writeImage key fd).error = 0)
    (verifies : env.settings.verifyImage = true ∨ env.testMode = true) {verified : Int}
    (fails : verified ≠ 0) :
    ({ env with verified := verified }.writeImage key fd).start = started.start ∧
      ∀ offset, ({ env with verified := verified }.writeImage key fd).fd.content (.page offset) =
        (env.writeImage key fd).fd.content (.page offset) := by
  have whole := writeImage_saved done.prepared done.saved
  rw [whole] at success
  obtain ⟨written, _, _, _, _, pages⟩ := commit_success success
  have prepared : { env with verified := verified }.Prepared key fd size nrPages started :=
    ⟨done.prepared.info, done.prepared.starts, done.prepared.enough, done.prepared.keyed⟩
  have saved : { env with verified := verified }.Saved started.writer :=
    ⟨done.saved.data, done.saved.pages, done.saved.extents⟩
  have left := (writeImage_saved prepared saved).trans (commit_refused written verifies fails)
  rw [left, whole]
  exact ⟨rfl, fun offset => (pages offset).symm⟩

end Commit

end WriteEnv

theorem Settings.checksums_of_compute {settings : Settings}
    (computes : settings.computeChecksum = true) : settings.checksums = true := by
  unfold checksums
  rw [computes, Bool.true_or]

namespace ImageSave

/-- The pages that an image is saved as. -/
def pagesNeeded (save : ImageSave) (image : List Bytes) : Nat :=
  (save.saveEnv fun _ => 0).pagesNeeded image

/-- The pages that `swap_needed` is good for. -/
def estimate (save : ImageSave) (pages : Nat) : Nat :=
  pages + if save.settings.doCompress then
    Foundation.Memory.covering save.machine.page.bytes (save.machine.page.bytes * pages / 16 + 67)
  else 0

/-- Nothing is refused while an image is saved: the kernel grants every swap page that is asked
for, all that is read or written succeeds, the libraries work, and nobody presses the abort key. -/
structure Untroubled (save : ImageSave) (key : KeyState) (fd : Device Bytes)
    (image : List Bytes) : Prop where
  granted : ∀ offset ∈ save.dev, 0 < offset ∧ (save.machine.page.bytes : Int) ∣ offset
  distinct : save.dev.Nodup
  enough : (save.around ⟨[], 0⟩ [] 0).enoughSwap
    ((save.around ⟨[], 0⟩ [] 0).swapNeeded (save.machine.page.bytes * image.length)) = true
  answers : ∃ started, SwapWriter.startSaving save.machine.page save.settings.doCompress save.dev
      fd ((save.around ⟨[], 0⟩ [] 0).swapNeeded (save.machine.page.bytes * image.length)) =
        .ok started ∧
    ∀ srcs : List Bytes, srcs.length ≤ save.pagesNeeded image →
      (started.writer.savePages save.machine.page save.settings.doCompress srcs).2.2.dev ≠ []
  fresh : fd.tablesWritten = []
  writes : Plenty fd (2 * save.pagesNeeded image + 4)
  swap : IsSwap (fd.content .record).sig
  reads : 2 * save.pagesNeeded image + 2 ≤ save.verifyReads.length ∧
    ∀ outcome ∈ save.verifyReads, outcome = true
  keyed : save.settings.doEncrypt = true →
    ∀ header, (save.machine.crypto.setupKey save.salt key header).1 = 0
  encrypts : ∀ state src, ∃ result, save.machine.cipher.encrypt state src = .ok result
  lzo : save.lzoInit = 0
  undisturbed : ∀ nrPages, save.aborted nrPages = false

variable {save : ImageSave} {key : KeyState} {fd : Device Bytes} {image : List Bytes}
  {nrPages : Nat} {started : SwapWriter.Started Bytes}

theorem swapNeeded_estimate (save : ImageSave) (pages : Nat) :
    (save.around ⟨[], 0⟩ [] 0).swapNeeded (save.machine.page.bytes * pages) =
      save.machine.page.offset (save.estimate pages) := by
  unfold WriteEnv.swapNeeded estimate PageSize.offset PageSize.roundUp
  change (if save.settings.doCompress = true then _ else _) = _
  split
  · push_cast
    rw [Int.mul_add]
    rfl
  · push_cast
    rw [Int.add_zero]

namespace Untroubled

/-- The swap writer does not refuse a page that the estimate leaves room for. -/
theorem savePages (untroubled : save.Untroubled key fd image)
    (fits : save.pagesNeeded image ≤ save.estimate image.length)
    (starts : SwapWriter.startSaving save.machine.page save.settings.doCompress save.dev fd
      ((save.around ⟨[], 0⟩ [] 0).swapNeeded (save.machine.page.bytes * image.length)) =
        .ok started) (srcs : List Bytes) (few : srcs.length ≤ save.pagesNeeded image) :
    let saved := started.writer.savePages save.machine.page save.settings.doCompress srcs
    saved.1 = 0 ∧ saved.2.2.extentsSpc ≠ 0 ∧ Plenty saved.2.2.fd 4 := by
  have left : Plenty (started.writer.savePages save.machine.page save.settings.doCompress
      srcs).2.2.fd 4 := by
    apply SwapWriter.savePages_plenty
    rw [SwapWriter.startSaving_fd starts]
    exact untroubled.writes.fewer (by omega)
  obtain ⟨other, same, answers⟩ := untroubled.answers
  obtain rfl : started = other := Except.ok.inj (starts.symm.trans same)
  rw [swapNeeded_estimate] at starts
  have running := SwapWriter.startSaving_running
    (fun offset member => (untroubled.granted offset member).1) untroubled.writes.2 starts
  rcases SwapWriter.savePages_running save.settings.doCompress srcs running (few.trans fits) with
    ⟨saved, further⟩ | noGrants | noWrites
  · exact ⟨saved, further.chained, left⟩
  · exact absurd noGrants (answers srcs few)
  · have some := left.1
    rw [noWrites] at some
    exact absurd some (by decide)

theorem saved (untroubled : save.Untroubled key fd image) (input : save.input = image.map .page)
    (full : ∀ src ∈ image, src.length = save.machine.page.bytes)
    (fits : save.pagesNeeded image ≤ save.estimate image.length)
    (starts : SwapWriter.startSaving save.machine.page save.settings.doCompress save.dev fd
      ((save.around ⟨[], 0⟩ [] 0).swapNeeded (save.machine.page.bytes * image.length)) =
        .ok started) :
    (save.saved key nrPages started.writer).1 = 0 := by
  have spends := SaveEnv.saveImage_spends (save.saveEnv (save.outcomes started.writer))
    { (save.saveEnv (save.outcomes started.writer)).initSwapWriter (save.buffers _)
        (save.start key) with
      buffer := (save.filled image).flatten } nrPages
    (image.drop (save.filled image).length) (save.filled image)
    (show ∀ src ∈ save.filled image ++ image.drop (save.filled image).length,
      src.length = save.machine.page.bytes by rwa [filled_append]) filled_few rfl
  rw [filled_append, ← remaining_eq input, ← preread_eq input] at spends
  have stops := spends.stops
  change (save.saved key nrPages started.writer).1 ≠ 0 → _ ∨
    (save.saved key nrPages started.writer).1 =
        save.outcomes started.writer (save.saved key nrPages started.writer).2.swap.length ∧
      (save.saved key nrPages started.writer).2.swap.length < 0 + save.pagesNeeded image ∧
      _ at stops
  by_contra failed
  rcases stops failed with (⟨_, page, aborted⟩ | ⟨state, src, _, refused, _⟩) |
    ⟨error, below, _⟩
  · exact Bool.false_ne_true ((untroubled.undisturbed page).symm.trans aborted)
  · obtain ⟨result, encrypted⟩ := untroubled.encrypts state src
    cases encrypted.symm.trans refused
  · have granted := untroubled.savePages fits starts (List.replicate
      ((save.saved key nrPages started.writer).2.swap.length + 1) [])
      (by rw [List.length_replicate]; omega)
    exact failed (error.trans granted.1)

theorem passed_needed (input : save.input = image.map .page)
    (full : ∀ src ∈ image, src.length = save.machine.page.bytes)
    (saved : (save.saved key nrPages started.writer).1 = 0) :
    (save.saved key nrPages started.writer).2.passed.length = save.pagesNeeded image := by
  obtain ⟨coded, encoded, _, passed, _⟩ := (saved_stored input full saved).pages
  rw [passed]
  apply (SaveEnv.code_length encoded).trans
  exact SaveEnv.plainPages_length _ _

theorem prepared (untroubled : save.Untroubled key fd image) (verified : Int)
    (known : (save.around ⟨[], 0⟩ [] 0).imageInfo =
      .ok (save.machine.page.bytes * image.length, nrPages))
    (starts : SwapWriter.startSaving save.machine.page save.settings.doCompress save.dev fd
      ((save.around ⟨[], 0⟩ [] 0).swapNeeded (save.machine.page.bytes * image.length)) =
        .ok started) :
    (save.write key fd verified).Prepared key fd (save.machine.page.bytes * image.length) nrPages
      started := by
  refine ⟨known, starts, untroubled.enough, ?_⟩
  unfold WriteEnv.keyHeader
  split
  · next encrypts => exact untroubled.keyed encrypts _
  · rfl

/-- A verification that finds nothing to complain about lets `write_image` succeed. -/
theorem write (untroubled : save.Untroubled key fd image) (input : save.input = image.map .page)
    (full : ∀ src ∈ image, src.length = save.machine.page.bytes)
    (known : (save.around ⟨[], 0⟩ [] 0).imageInfo =
      .ok (save.machine.page.bytes * image.length, nrPages))
    (fits : save.pagesNeeded image ≤ save.estimate image.length) :
    ((save.write key fd 0).writeImage key fd).error = 0 := by
  obtain ⟨started, starts, _⟩ := untroubled.answers
  have complete := @saved save key fd image nrPages started untroubled input full fits starts
  have path := dataPath_started key known starts
  have data : (save.write key fd 0).data = (save.dataPath key fd).1 := rfl
  rw [path] at data
  have few := (passed_needed input full complete).le
  obtain ⟨pages, chained, left⟩ := untroubled.savePages fits starts _ few
  have saved : (save.write key fd 0).Saved started.writer := by
    refine ⟨by rw [data, complete], by rwa [data], ?_⟩
    rw [data]
    exact (Device.writePage_plenty left _ _).2 chained
  have finished : Plenty ((save.write key fd 0).savedWriter started.writer).fd 3 := by
    unfold WriteEnv.savedWriter
    rw [data]
    exact SwapWriter.saveExtents_plenty save.machine.page true left
  obtain ⟨_, extended⟩ := (save.write key fd 0).saveImage_extends started.writer
  rw [WriteEnv.saveImage_saved saved, SwapWriter.startSaving_fd starts] at extended
  have somewhere : started.start ≠ 0 := by
    obtain ⟨header, _, _, _, grants, _, _, _, rfl⟩ := SwapWriter.startSaving_success starts
    exact (untroubled.granted header (by rw [grants]; exact List.mem_cons_self)).1.ne'
  rw [WriteEnv.writeImage_saved (untroubled.prepared 0 known starts) saved]
  have synced : Plenty ((save.write key fd 0).savedWriter started.writer).fd.fsync 3 := finished
  obtain ⟨left, written⟩ := Device.writePage_plenty synced (.header _) started.start
  apply WriteEnv.commit_succeeds (written somewhere) rfl
  apply Device.markSwap_plenty (show Plenty (WriteEnv.headed _ _ _) 2 from left)
  obtain ⟨_, headed⟩ := WriteEnv.headed_extends
    ((save.write key fd 0).savedWriter started.writer).fd started.start _
  rw [(extended.trans headed).content]
  exact untroubled.swap

end Untroubled

theorem keyed_setiv (keyed : ∀ header, (save.machine.crypto.setupKey save.salt key header).1 = 0)
    (encrypts : save.settings.doEncrypt = true) :
    save.machine.crypto.setiv (save.keyed key).keyData.ivec = 0 := by
  have success := keyed ImageHeader.zero
  have set (name ivec : Bytes) (accepted : save.machine.crypto.setCipher name ivec = 0) :
      save.machine.crypto.setiv ivec = 0 := by
    unfold Crypto.setCipher at accepted
    by_cases refused : save.machine.crypto.setkey name = 0
    · rwa [if_neg (not_not_intro refused)] at accepted
    · rw [if_pos refused] at accepted
      exact absurd accepted refused
  unfold ImageSave.keyed
  rw [if_pos encrypts]
  unfold Crypto.setupKey at success ⊢
  split
  · next accepted => exact set _ _ accepted.2
  · next asked =>
    rw [if_neg asked] at success
    dsimp only at success ⊢
    split at success
    · next refused => exact absurd success refused
    · next accepted =>
      rw [if_neg accepted]
      exact set _ _ (not_not.mp accepted)

section Fields

variable {size : Nat} {data : DataPath Bytes} {checksum : Bytes} {verified : Int}
  (done : (save.around data checksum verified).Done key fd size nrPages started)
include done

theorem done_flags :
    let flags := ((save.around data checksum verified).writeImage key fd).header.flags
    flags.compressed = save.settings.doCompress ∧ flags.encrypted = save.settings.doEncrypt ∧
      flags.checksum = save.settings.computeChecksum := by
  have flags := done.header_fields.2.2.2 false
  have verifies := congrArg LoadSettings.verifyChecksum flags
  change (_ || false) = (save.settings.computeChecksum || false) at verifies
  rw [Bool.or_false, Bool.or_false] at verifies
  exact ⟨congrArg LoadSettings.doDecompress flags, congrArg LoadSettings.doDecrypt flags, verifies⟩

theorem done_sum (sums : save.settings.checksums = true) :
    ((save.around data checksum verified).writeImage key fd).header.checksum = checksum := by
  rw [done.header]
  exact if_pos sums

end Fields

theorem done_checksum {size : Nat} {verified : Int}
    (done : (save.write key fd verified).Done key fd size nrPages started)
    (input : save.input = image.map .page)
    (full : ∀ src ∈ image, src.length = save.machine.page.bytes)
    (sums : save.settings.checksums = true) :
    ((save.write key fd verified).writeImage key fd).header.checksum =
      save.machine.crypto.md5 (SaveEnv.buffersOf image).flatten := by
  have stored := (saved_stored input full (done_saved input full done).1).ctx
  have path := dataPath_started key done.prepared.info done.prepared.starts
  apply (done_sum done sums).trans
  rw [path, stored]
  change save.machine.crypto.md5
    (if save.settings.checksums = true then [] ++ SaveEnv.buffersOf image else []).flatten = _
  rw [if_pos sums, List.nil_append]

/-- The image that has been saved passes the verification. -/
theorem verified_done {size : Nat} (documented : save.machine.lzo.Documented)
    (inverts : save.machine.cipher.Inverts save.machine.page (save.start key))
    (pages : ∀ src, save.machine.bytes (.data src) = src)
    (headers : ∀ header, save.machine.headerOf (.header header) = header)
    (untroubled : save.Untroubled key fd image) (input : save.input = image.map .page)
    (full : ∀ src ∈ image, src.length = save.machine.page.bytes)
    (success : ((save.write key fd 0).writeImage key fd).error = 0)
    (done : (save.write key fd 0).Done key fd size nrPages started)
    (never : started.writer.NeverLeftover save.machine.page save.settings.doCompress
      (save.write key fd 0).data.passed)
    (rounded : rounds ((save.write key fd 0).writeImage key fd).header.pages = image.length)
    (verifies : save.settings.verifyImage = true ∨ save.testMode = true) :
    save.verified key fd = 0 := by
  obtain ⟨saved, passed, written⟩ := done_saved input full done
  have somewhere := done.somewhere success
  obtain ⟨start, content⟩ := done.refused success verifies eio_ne_zero
  have needed : (save.write key fd 0).data.passed.length = save.pagesNeeded image :=
    passed_length input full done
  unfold verified
  dsimp only
  change save.machine.verifyImage _ _ _ _
    ⟨({ save.write key fd 0 with verified := - EIO }.writeImage key fd).fd.content, [], _⟩
    ({ save.write key fd 0 with verified := - EIO }.writeImage key fd).start = 0
  rw [start]
  generalize device : (⟨({ save.write key fd 0 with verified := - EIO }.writeImage key
    fd).fd.content, [], save.verifyReads⟩ : Device Bytes) = reader
  have same : ∀ offset, reader.content (.page offset) =
      ((save.write key fd 0).writeImage key fd).fd.content (.page offset) := by
    rw [← device]
    exact content
  have plenty : Plenty reader (2 * (save.write key fd 0).data.passed.length + 2) := by
    rw [← device, needed]
    exact untroubled.reads
  unfold ResumeEnv.verifyImage
  rw [Device.readPage_plenty plenty _ somewhere, same, done.headerPage]
  dsimp only
  rw [headers, if_neg (not_not_intro rfl), if_neg (fun refused => refused.2 untroubled.lzo)]
  obtain ⟨_, encrypted, checksummed⟩ := done_flags done
  change ((save.write key fd 0).writeImage key fd).header.flags.checksum = _ at checksummed
  rw [if_neg (fun refused => refused.2 (keyed_setiv (untroubled.keyed (encrypted ▸ refused.1))
    (encrypted ▸ refused.1)))]
  obtain ⟨extra, ahead⟩ : ∃ extra, save.machine.initSwapReader
      ((save.write key fd 0).writeImage key fd).header reader.transfer.2 =
        .ok ((save.write key fd 0).data.passed ++ extra) :=
    passed_ahead (fun offset member => ⟨(untroubled.granted offset member).1.le,
      (untroubled.granted offset member).2⟩) untroubled.distinct untroubled.fresh pages done never
      (fun offset => by
        rw [Device.transfer_content]
        exact same offset) plenty.transfer.2
  obtain ⟨loads, _, fed⟩ := @loadFor_saved save key image nrPages started.writer documented inverts
    input full saved _ save.settings.verifyImage true (fun _ => false) written
    (done.header_fields.2.2.2 save.settings.verifyImage) rounded.le (fun _ _ => rfl) extra
  rw [ahead, passed]
  dsimp only
  rw [if_neg (not_not_intro loads), if_neg]
  rintro ⟨checks, differs⟩
  rw [checksummed] at checks
  have sums : save.settings.checksums = true := by
    unfold Settings.checksums
    simpa using checks
  apply differs
  rw [fed rounded sums, done_checksum done input full sums]

/-- Where the image is verified, `write_image` succeeds, if as many pages are announced as there
are. -/
theorem writeImage_verified (documented : save.machine.lzo.Documented)
    (inverts : save.machine.cipher.Inverts save.machine.page (save.start key))
    (pages : ∀ src, save.machine.bytes (.data src) = src)
    (headers : ∀ header, save.machine.headerOf (.header header) = header)
    (untroubled : save.Untroubled key fd image) (input : save.input = image.map .page)
    (full : ∀ src ∈ image, src.length = save.machine.page.bytes)
    (known : (save.around ⟨[], 0⟩ [] 0).imageInfo =
      .ok (save.machine.page.bytes * image.length, nrPages))
    (fits : save.pagesNeeded image ≤ save.estimate image.length)
    (clean : save.settings.doCompress = true → save.Clean key fd)
    (rounded : rounds nrPages = image.length)
    (verifies : save.settings.verifyImage = true ∨ save.testMode = true) :
    (save.writeImage key fd).error = 0 := by
  have success := untroubled.write input full known fits
  obtain ⟨size, pages', started, done⟩ := WriteEnv.done_of_success success
  obtain ⟨rfl, rfl⟩ := Prod.mk.inj (Except.ok.inj (known.symm.trans done.prepared.info))
  have aligned : ∀ offset ∈ save.dev, 0 ≤ offset ∧
      (save.machine.page.bytes : Int) ∣ offset :=
    fun offset member => ⟨(untroubled.granted offset member).1.le,
      (untroubled.granted offset member).2⟩
  have never := never_leftover aligned untroubled.distinct untroubled.fresh input full rfl done
    clean
  have verified := verified_done documented inverts pages headers untroubled input full success
    done never (by rwa [done.header_fields.1]) verifies
  unfold writeImage
  rwa [verified]

end ImageSave

end Suspend
