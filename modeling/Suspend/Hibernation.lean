import Suspend.RestorableImage

set_option autoImplicit false

namespace Suspend

open Foundation.CachedDisk
open ReadEnv (Plenty)

namespace ImageSave

variable {save : ImageSave} {key : KeyState} {fd : Device Bytes} {data : DataPath Bytes}
  {checksum : Bytes} {verified : Int} {image : List Bytes}

/-- The libraries do what is documented, the kernel tells the size of the image and grants distinct
pages, and the image is of pages that can be counted. -/
structure Regular (save : ImageSave) (key : KeyState) (fd : Device Bytes)
    (image : List Bytes) : Prop where
  documented : save.machine.lzo.Documented
  inverts : save.machine.cipher.Inverts save.machine.page (save.start key)
  pages : ∀ src, save.machine.bytes (.data src) = src
  headers : ∀ header, save.machine.headerOf (.header header) = header
  aligned : ∀ offset ∈ save.dev, 0 ≤ offset ∧ (save.machine.page.bytes : Int) ∣ offset
  distinct : save.dev.Nodup
  fresh : fd.tablesWritten = []
  input : save.input = image.map .page
  full : ∀ src ∈ image, src.length = save.machine.page.bytes
  told : save.imageSize = save.machine.page.bytes * image.length
  nonempty : image ≠ []
  small : image.length < 2 ^ 32

/-- So it is, and without threads no call of `next_swap_page` finds a leftover extent. -/
structure Ordinary (save : ImageSave) (key : KeyState) (fd : Device Bytes)
    (image : List Bytes) : Prop extends save.Regular key fd image where
  clean : save.settings.doCompress = true → save.Clean key fd

/-- These pages are loaded as the image, whatever follows them, and inside of the buffers. -/
def Reloads (save : ImageSave) (key : KeyState) (image passed : List Bytes) : Prop :=
  ∀ (header : ImageHeader) (accepts : Nat → Bool) (extra : List Bytes),
    header.imageDataSize = save.machine.page.bytes * passed.length →
    LoadSettings.ofFlags header.flags false = LoadSettings.ofFlags save.settings.flags false →
    rounds header.pages = image.length →
    save.machine.straysFor accepts (save.start key) header (passed ++ extra) = false ∧
      ((∀ index < image.length, accepts index = true) →
        ∃ ctx, save.machine.loadFor (LoadSettings.ofFlags header.flags false) false accepts
            (save.start key) header (passed ++ extra) = (0, image, ctx) ∧
          (save.settings.computeChecksum = true → ctx = SaveEnv.buffersOf image))

namespace Regular

theorem imageInfo (regular : save.Regular key fd image) :
    (save.around data checksum verified).imageInfo =
      .ok (save.machine.page.bytes * image.length, image.length) := by
  have positive := save.machine.page.bytes_pos
  have some := List.length_pos_iff.mpr regular.nonempty
  have tells : 0 < save.imageSize := by
    rw [regular.told]
    exact_mod_cast Nat.mul_pos positive some
  have size : save.imageSize.toNat = save.machine.page.bytes * image.length := by
    rw [regular.told]
    norm_cast
  apply (if_pos tells).trans
  change Except.ok (save.imageSize.toNat,
    Foundation.Memory.covering save.machine.page.bytes save.imageSize.toNat) = _
  rw [size, Foundation.Memory.covering_mul positive]

theorem done (regular : save.Regular key fd image)
    (success : ((save.around data checksum verified).writeImage key fd).error = 0) :
    ∃ started, (save.around data checksum verified).Done key fd
      (save.machine.page.bytes * image.length) image.length started := by
  obtain ⟨size, nrPages, started, done⟩ := WriteEnv.done_of_success success
  obtain ⟨rfl, rfl⟩ := Prod.mk.inj (Except.ok.inj
    (regular.imageInfo.symm.trans done.prepared.info))
  exact ⟨started, done⟩

theorem rounded (regular : save.Regular key fd image) {started : SwapWriter.Started Bytes}
    (done : (save.around data checksum verified).Done key fd
      (save.machine.page.bytes * image.length) image.length started) :
    rounds ((save.around data checksum verified).writeImage key fd).header.pages =
      image.length := by
  have some := List.length_pos_iff.mpr regular.nonempty
  rw [done.header_fields.1, rounds, Nat.mod_eq_of_lt regular.small]
  omega

theorem restorable (regular : save.Regular key fd image) {passphrase : Bytes}
    (recoverable : save.settings.doEncrypt = true →
      save.machine.crypto.Recoverable passphrase save.salt key)
    {started : SwapWriter.Started Bytes}
    (done : (save.around data checksum verified).Done key fd
      (save.machine.page.bytes * image.length) image.length started)
    (success : ((save.around data checksum verified).writeImage key fd).error = 0)
    (never : started.writer.NeverLeftover save.machine.page save.settings.doCompress data.passed)
    (reloads : save.Reloads key image data.passed)
    (summed : save.settings.computeChecksum = true →
      checksum = save.machine.crypto.md5 (SaveEnv.buffersOf image).flatten) :
    save.machine.Restorable (save.start key) passphrase image data.passed
      ((save.around data checksum verified).writeImage key fd) where
  somewhere := by
    rw [done.start]
    exact done.somewhere success
  headed := by
    rw [done.start, done.headerPage]
    exact regular.headers _
  cipher := done_setupCipher done recoverable
  announced := done.header_fields.1
  nonempty := regular.nonempty
  small := regular.small
  ahead := fun _ same plenty => passed_ahead regular.aligned regular.distinct regular.fresh
    regular.pages done never same plenty
  inside := fun accepts extra => (reloads _ accepts extra (done_size done)
    (done.header_fields.2.2.2 false) (regular.rounded done)).1
  loads := by
    intro accepts extra accepted
    obtain ⟨ctx, loaded, fed⟩ := (reloads _ accepts extra (done_size done)
      (done.header_fields.2.2.2 false) (regular.rounded done)).2 accepted
    refine ⟨ctx, loaded, fun checks => ?_⟩
    have computes : save.settings.computeChecksum = true :=
      (done_flags done).2.2.symm.trans checks
    rw [fed computes, done_sum done (Settings.checksums_of_compute computes), summed computes]
    exact ⟨rfl, rfl⟩

end Regular

/-- Without threads, what has been passed to `save_page` is loaded as the image. -/
theorem Ordinary.restorable (ordinary : save.Ordinary key fd image) {passphrase : Bytes}
    (recoverable : save.settings.doEncrypt = true →
      save.machine.crypto.Recoverable passphrase save.salt key)
    (success : (save.writeImage key fd).error = 0) :
    save.machine.Restorable (save.start key) passphrase image (save.dataPath key fd).1.passed
      (save.writeImage key fd) := by
  have regular := ordinary.toRegular
  have written : ((save.around (save.dataPath key fd).1 (save.dataPath key fd).2
      (save.verified key fd)).writeImage key fd).error = 0 := success
  obtain ⟨started, done⟩ := regular.done written
  have never := never_leftover regular.aligned regular.distinct regular.fresh regular.input
    regular.full rfl done ordinary.clean
  obtain ⟨saved, passed, size⟩ := done_saved regular.input regular.full done
  have passed' : (save.dataPath key fd).1.passed =
      (save.saved key image.length started.writer).2.swap := passed
  have sized : (save.saved key image.length started.writer).2.writtenData =
      save.machine.page.bytes * (save.dataPath key fd).1.passed.length :=
    size.symm.trans (done_size done)
  refine regular.restorable recoverable done written never ?_ fun computes => ?_
  · intro header accepts extra announcedSize flags rounded
    rw [passed']
    refine ⟨straysFor_saved regular.documented regular.inverts regular.input regular.full saved
      (announcedSize.trans sized.symm) flags rounded.le extra, fun accepted => ?_⟩
    obtain ⟨loads, delivered, fed⟩ := @loadFor_saved save key image image.length started.writer
      regular.documented regular.inverts regular.input regular.full saved header false false
      accepts (announcedSize.trans sized.symm) flags rounded.le
      (fun index few => accepted index (rounded ▸ few)) extra
    rw [rounded, List.take_length] at delivered
    refine ⟨_, Prod.ext loads (Prod.ext delivered rfl), fun computes => ?_⟩
    exact fed rounded (by rw [computes, Bool.true_or])
  · have sums := Settings.checksums_of_compute computes
    rw [← done_checksum done regular.input regular.full sums]
    exact (done_sum done sums).symm

end ImageSave

/-- Unless the signature has got lost, so has nothing else. -/
theorem WriteEnv.lost_cases {Page : Type} (env : WriteEnv Page) (key : KeyState)
    {fd : Device Page} (unmarked : fd.Unmarked) {issued : List (DiskOp Page)}
    (started : fd.log <+: issued) (reached : issued <+: (env.writeImage key fd).fd.log)
    {left : DiskContent Page} (lost : MayLeave fd.initial issued left) :
    (left .record).sig ≠ SWSUSP_SIG ∨
      (env.writeImage key fd).error = 0 ∧ IsSwap (fd.content .record).sig ∧
        left .record =
          ⟨(env.writeImage key fd).start, (fd.content .record).sig, SWSUSP_SIG⟩ ∧
        ∀ offset, left (.page offset) = (env.writeImage key fd).fd.content (.page offset) := by
  by_cases signed : (left .record).sig = SWSUSP_SIG
  · rcases env.writeImage_outcome key fd with ⟨_, more, grown⟩ | ⟨more, committed⟩
    · rw [grown.log] at reached
      exact absurd signed (unsigned_before unmarked grown.elsewhere started reached lost)
    · obtain ⟨record, pages⟩ := committed_left unmarked committed started reached lost signed
      exact .inr ⟨committed.success, committed.swap, record, pages⟩
  · exact .inl signed

namespace ResumeEnv

theorem Boot.Possible.pages {env : ResumeEnv} {boot : Boot} (possible : boot.Possible env)
    (inside : env.StaysInside boot.answers boot.found) (offset : Int) :
    boot.left (.page offset) = boot.found (.page offset) := by
  rcases possible.lost.origin (.page offset) with same | ⟨value, member, _⟩
  · exact same
  · have issued := possible.part.subset member
    rcases main_log inside with none | reset
    · rw [none] at issued
      exact absurd issued List.not_mem_nil
    · rw [reset, ResumeAnswers.resetSignature] at issued
      split at issued
      · split at issued <;> simp at issued
      · exact absurd issued List.not_mem_nil

/-- What a saved image amounts to on a disk that carries the signature. -/
structure Standing (written : Written Bytes) (orig : Signature) (disk : DiskContent Bytes) :
    Prop where
  success : written.error = 0
  swap : IsSwap orig
  record : disk .record = ⟨written.start, orig, SWSUSP_SIG⟩
  pages : ∀ offset, disk (.page offset) = written.fd.content (.page offset)

/-- The image stands until the signature is gone. -/
theorem Boot.Possible.standing {env : ResumeEnv} {boot : Boot} (possible : boot.Possible env)
    (inside : env.StaysInside boot.answers boot.found) {written : Written Bytes}
    {orig : Signature} (standing : Standing written orig boot.found) :
    (boot.left .record).sig ≠ SWSUSP_SIG ∨ Standing written orig boot.left := by
  rcases possible.record inside with same | reset
  · exact .inr { standing with
      record := same.trans standing.record
      pages := fun offset => (possible.pages inside offset).trans (standing.pages offset) }
  · left
    rw [reset, standing.record]
    exact standing.swap.unmarked

theorem Boot.Possible.idle {env : ResumeEnv} {boot : Boot} (possible : boot.Possible env)
    (unsigned : (boot.found .record).sig ≠ SWSUSP_SIG) : boot.left = boot.found := by
  have issued := possible.part
  rw [main_unsigned env boot.answers unsigned] at issued
  have lost := possible.lost
  rw [List.prefix_nil.mp issued] at lost
  exact lost.nothing

/-- In between, nothing is swapped to the area as long as it carries the signature. -/
def Reserved (boots : List Boot) : Prop :=
  boots.IsChain fun first second => (first.left .record).sig = SWSUSP_SIG →
    ∀ offset, second.found (.page offset) = first.left (.page offset)

/-- In no boot is there a signature without the image. -/
theorem Boots.standing {env : ResumeEnv} {boots : List Boot} (run : Boots env boots)
    (reserved : Reserved boots) {written : Written Bytes} {orig : Signature}
    (inside : ∀ boot ∈ boots, Standing written orig boot.found →
      env.StaysInside boot.answers boot.found)
    (first : ∀ boot, boots.head? = some boot →
      (boot.found .record).sig ≠ SWSUSP_SIG ∨ Standing written orig boot.found) :
    ∀ boot ∈ boots,
      (boot.found .record).sig ≠ SWSUSP_SIG ∨ Standing written orig boot.found := by
  induction boots with
  | nil => exact fun _ member => absurd member List.not_mem_nil
  | cons boot rest ih =>
      have possible := run.possible boot List.mem_cons_self
      have after : (boot.left .record).sig ≠ SWSUSP_SIG ∨ Standing written orig boot.left := by
        rcases first boot rfl with unsigned | standing
        · left
          rwa [possible.idle unsigned]
        · exact possible.standing (inside boot List.mem_cons_self standing) standing
      have onward : ∀ next, rest.head? = some next →
          (next.found .record).sig ≠ SWSUSP_SIG ∨ Standing written orig next.found := by
        intro next head
        have record := run.next head
        rcases after with unsigned | standing
        · left
          rwa [record]
        · right
          have signed : (boot.left .record).sig = SWSUSP_SIG := by rw [standing.record]
          cases rest with
          | nil => cases head
          | cons other others =>
              cases head
              exact { standing with
                record := record.trans standing.record
                pages := fun offset => ((List.isChain_cons_cons.mp reserved).1 signed offset).trans
                  (standing.pages offset) }
      intro other member
      rcases List.mem_cons.mp member with rfl | elsewhere
      · exact first other rfl
      · exact ih run.tail reserved.of_cons
          (fun next member => inside next (List.mem_cons_of_mem _ member)) onward other elsewhere

namespace Boots

variable {env : ResumeEnv} {boots : List Boot} {write : WriteEnv Bytes} {key : KeyState}
  {fd : Device Bytes} {issued : List (DiskOp Bytes)} {state : env.cipher.State}
  {passphrase : Bytes} {image passed : List Bytes}

/-- What the boots behind a save find, wherever in `write_image` the power has gone. -/
theorem standing_saved (run : Boots env boots) (reserved : Reserved boots) (unmarked : fd.Unmarked)
    (started : fd.log <+: issued) (reached : issued <+: (write.writeImage key fd).fd.log)
    (lost : ∀ boot, boots.head? = some boot → MayLeave fd.initial issued boot.found)
    (inside : ∀ boot ∈ boots,
      Standing (write.writeImage key fd) (fd.content .record).sig boot.found →
        env.StaysInside boot.answers boot.found) :
    ∀ boot ∈ boots, (boot.found .record).sig ≠ SWSUSP_SIG ∨
      Standing (write.writeImage key fd) (fd.content .record).sig boot.found := by
  apply run.standing reserved inside
  intro boot first
  rcases write.lost_cases key unmarked started reached (lost boot first) with
    unsigned | ⟨success, swap, record, pages⟩
  · exact .inl unsigned
  · exact .inr ⟨success, swap, record, pages⟩

/-- No image is restored but the one that was saved, and if the record reaches the disk it is
restored once at most. -/
theorem restore_saved (run : Boots env boots) (reserved : Reserved boots) (unmarked : fd.Unmarked)
    (started : fd.log <+: issued) (reached : issued <+: (write.writeImage key fd).fd.log)
    (lost : ∀ boot, boots.head? = some boot → MayLeave fd.initial issued boot.found)
    (restorable : (write.writeImage key fd).error = 0 →
      env.Restorable state passphrase image passed (write.writeImage key fd))
    (typed : ∀ boot ∈ boots, boot.answers.typed = [passphrase]) :
    (∀ boot ∈ boots, ∀ result, boot.restores env = some result →
        result.header = (write.writeImage key fd).header ∧ result.delivered = image) ∧
      ((∀ boot ∈ boots, boot.answers.persists = true) →
        (boots.filter fun boot => (boot.restores env).isSome).length ≤ 1) := by
  have stays : ∀ boot ∈ boots, Standing (write.writeImage key fd) (fd.content .record).sig
      boot.found → env.StaysInside boot.answers boot.found :=
    fun boot member standing => (restorable standing.success).stays_inside
      (by rw [standing.record]) standing.pages (typed boot member)
  have found := run.standing_saved reserved unmarked started reached lost stays
  have inside : ∀ boot ∈ boots, env.StaysInside boot.answers boot.found :=
    fun boot member => (found boot member).elim (unsigned_inside env boot.answers)
      (stays boot member)
  have saved : ∀ boot ∈ boots, ∀ result, boot.restores env = some result →
      Standing (write.writeImage key fd) (fd.content .record).sig boot.found ∧
        result.header = (write.writeImage key fd).header ∧ result.delivered = image := by
    intro boot member result restores
    have restored := (Boot.restores_main restores).2
    have standing := (found boot member).resolve_left
      (not_not_intro (main_restored (inside boot member) restored).1)
    obtain ⟨header, delivered, _⟩ := (restorable standing.success).restored
      (by rw [standing.record]) standing.pages (typed boot member) restored
    exact ⟨standing, header, delivered⟩
  refine ⟨fun boot member result restores => (saved boot member result restores).2, ?_⟩
  intro persists
  by_cases signed : ∀ boot, boots.head? = some boot → (boot.found .record).sig = SWSUSP_SIG
  · apply run.at_most_once inside
    · intro boot member result restores
      obtain ⟨standing, header, _⟩ := saved boot member result restores
      have announced := (restorable standing.success).announced
      have small := (restorable standing.success).small
      have some := List.length_pos_iff.mpr (restorable standing.success).nonempty
      rw [← announced, ← header] at some small
      exact ⟨.inl (persists boot member), some, small⟩
    · intro boot first
      have standing := (found boot (List.mem_of_head? first)).resolve_left
        (not_not_intro (signed boot first))
      rw [standing.record]
      exact standing.swap
  · push Not at signed
    obtain ⟨boot, first, unsigned⟩ := signed
    have idle := run.none (by
      intro other head
      rwa [Option.some.inj (head.symm.trans first)])
    rw [List.filter_eq_nil_iff.mpr fun other member => by simp [idle other member]]
    exact Nat.zero_le 1

end Boots

end ResumeEnv

namespace ImageSave

open ResumeEnv

variable {save : ImageSave} {key : KeyState} {fd : Device Bytes} {image : List Bytes}
  {boots : List Boot}

theorem ofTwo_ordinary : (ofTwo 8192).Ordinary WriteEnv.noKey swapArea twoPages where
  documented := passThrough_documented
  inverts := SaveEnv.transparent_inverts _
  pages := fun _ => rfl
  headers := fun _ => rfl
  aligned := by decide
  distinct := by decide
  fresh := rfl
  input := rfl
  full := twoPages_full
  told := rfl
  nonempty := List.cons_ne_nil _ _
  small := by decide
  clean := fun compresses => absurd compresses Bool.false_ne_true

/-- The boot behind that save, where everything works. -/
def bootOfTwo : Boot :=
  let found := ((ofTwo 8192).writeImage WriteEnv.noKey swapArea).fd.content
  let answers := { ResumeEnv.working true true with reads := List.replicate 7 true, typed := [[]] }
  let issued := ((ofTwo 8192).machine.main answers found).log
  ⟨answers, found, issued, true, content found issued⟩

theorem bootOfTwo_run : Boots (ofTwo 8192).machine [bootOfTwo] where
  possible := by
    intro boot member
    rw [List.mem_singleton.mp member]
    obtain ⟨settled, recent, crash⟩ := crash_content bootOfTwo.found bootOfTwo.issued
    exact ⟨List.prefix_refl _, fun _ => rfl, settled, recent, recent, crash⟩
  linked := .singleton _

theorem bootOfTwo_lost : ∀ boot, [bootOfTwo].head? = some boot →
    MayLeave swapArea.initial ((ofTwo 8192).writeImage WriteEnv.noKey swapArea).fd.log
      boot.found := by
  intro boot first
  obtain rfl := Option.some.inj first
  obtain ⟨settled, recent, crash⟩ := crash_content swapArea.initial
    ((ofTwo 8192).writeImage WriteEnv.noKey swapArea).fd.log
  obtain ⟨more, committed⟩ :=
    (((ofTwo 8192).write WriteEnv.noKey swapArea _).writeImage_outcome WriteEnv.noKey
      swapArea).resolve_left fun failed => failed.1 ofTwo_succeeds
  have same : bootOfTwo.found = content swapArea.initial
      ((ofTwo 8192).writeImage WriteEnv.noKey swapArea).fd.log :=
    congrArg (content · _) committed.initial
  rw [same]
  exact ⟨settled, recent, recent, crash⟩

/-- Whatever is lost when the power goes during `write_image` or during one of the boots behind it,
no image is restored but the one that was saved, page for page, and if the record reaches the disk
it is restored once at most. -/
theorem boots_restore_saved (ordinary : save.Ordinary key fd image) (unmarked : fd.Unmarked)
    (passphrase : Bytes) (recoverable : save.settings.doEncrypt = true →
      save.machine.crypto.Recoverable passphrase save.salt key)
    {issued : List (DiskOp Bytes)} (started : fd.log <+: issued)
    (reached : issued <+: (save.writeImage key fd).fd.log)
    (run : Boots save.machine boots) (reserved : Reserved boots)
    (lost : ∀ boot, boots.head? = some boot → MayLeave fd.initial issued boot.found)
    (typed : ∀ boot ∈ boots, boot.answers.typed = [passphrase]) :
    (∀ boot ∈ boots, ∀ result, boot.restores save.machine = some result →
        result.header = (save.writeImage key fd).header ∧ result.delivered = image) ∧
      ((∀ boot ∈ boots, boot.answers.persists = true) →
        (boots.filter fun boot => (boot.restores save.machine).isSome).length ≤ 1) :=
  run.restore_saved reserved unmarked started reached lost
    (fun success => ordinary.restorable recoverable success) typed

/-- The two pages, if anything, and at most once. -/
theorem bootOfTwo_saved :
    (∀ result, bootOfTwo.restores (ofTwo 8192).machine = some result →
        result.delivered = twoPages) ∧
      ([bootOfTwo].filter fun boot =>
        (boot.restores (ofTwo 8192).machine).isSome).length ≤ 1 := by
  have restores := boots_restore_saved ofTwo_ordinary
    (Device.unmarked_fresh (by decide) _) [] (fun encrypts => absurd encrypts Bool.false_ne_true)
    List.nil_prefix (List.prefix_refl _) bootOfTwo_run (.singleton _) bootOfTwo_lost
    (fun boot member => by rw [List.mem_singleton.mp member]; rfl)
  constructor
  · intro result restored
    exact (restores.1 bootOfTwo List.mem_cons_self result restored).2
  · exact restores.2 fun boot member => by rw [List.mem_singleton.mp member]; rfl

end ImageSave

end Suspend
