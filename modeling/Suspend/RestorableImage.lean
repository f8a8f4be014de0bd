import Suspend.UntroubledSave

set_option autoImplicit false

namespace Suspend

open Foundation.CachedDisk
open ReadEnv (Plenty)

namespace SwapReader

variable {page : PageSize} {tables : Reinterpretation Bytes} {one other : SwapReader Bytes}
  {few : Nat}

theorem Alike.load_or_fail (alike : Alike one other) (enough : Plenty other.fd (few + 1)) :
    (loadExtentsPage page tables one).1 ≠ 0 ∨
      Alike (loadExtentsPage page tables one).2 (loadExtentsPage page tables other).2 ∧
        (loadExtentsPage page tables other).1 = 0 ∧
        Plenty (loadExtentsPage page tables other).2.fd few := by
  obtain ⟨extents, curExtent, curOffset, nextExtents, pages⟩ := alike
  obtain ⟨reads, enoughLeft⟩ := enough.transfer
  unfold loadExtentsPage Device.readPage
  rw [nextExtents, extents]
  by_cases nowhere : other.nextExtents = 0
  · right
    simp only [nowhere, ↓reduceIte, ne_eq, not_true_eq_false, true_and]
    exact ⟨⟨rfl, rfl, rfl, rfl, pages⟩, enough.fewer (Nat.le_succ _)⟩
  · by_cases readsToo : one.fd.transfer.1 = true
    · right
      simp only [nowhere, reads, readsToo, ↓reduceIte, ne_eq, not_true_eq_false, true_and, pages]
      refine ⟨⟨rfl, rfl, rfl, rfl, fun offset => ?_⟩, enoughLeft⟩
      dsimp only
      rw [Device.transfer_content, Device.transfer_content]
      exact pages offset
    · left
      simp only [nowhere, readsToo, ↓reduceIte, Bool.false_eq_true]
      exact eio_ne_zero

/-- A reader that is refused a table comes to no more pages. -/
theorem Alike.next_or_end (alike : Alike one other) (enough : Plenty other.fd (few + 1)) :
    (findNextImagePage page tables one).curOffset = 0 ∨
      Alike (findNextImagePage page tables one) (findNextImagePage page tables other) ∧
        Plenty (findNextImagePage page tables other).fd few := by
  obtain ⟨extents, index, offset, nextExtents, total, fd⟩ := one
  obtain ⟨extents', index', offset', nextExtents', total', fd'⟩ := other
  obtain ⟨sameExtents, sameIndex, sameOffset, sameNext, pages⟩ := alike
  dsimp only at sameExtents sameIndex sameOffset sameNext pages enough
  subst sameExtents sameIndex sameOffset sameNext
  unfold findNextImagePage
  dsimp only
  split
  · exact .inr ⟨⟨rfl, rfl, rfl, rfl, pages⟩, enough.fewer (Nat.le_succ _)⟩
  · split
    · exact .inr ⟨⟨rfl, rfl, rfl, rfl, pages⟩, enough.fewer (Nat.le_succ _)⟩
    · rcases @Alike.load_or_fail page tables
        ⟨extents, index + 1, offset + page.bytes, nextExtents, total, fd⟩
        ⟨extents, index + 1, offset + page.bytes, nextExtents, total', fd'⟩ few
        ⟨rfl, rfl, rfl, rfl, pages⟩ enough with failed | ⟨loaded, success, left⟩
      · rw [if_pos failed]
        exact .inl rfl
      · rw [if_neg (not_not_intro success)]
        split
        · exact .inl rfl
        · exact .inr ⟨loaded, left⟩

end SwapReader

namespace ResumeEnv

variable {env : ResumeEnv}

/-- Whatever reads are refused, a reader comes to the first pages of those that are there. -/
theorem queue_front (count : Nat) {reads : Nat} {reader visitor : SwapReader Bytes}
    (alike : SwapReader.Alike reader visitor) (enough : Plenty visitor.fd (2 * count))
    (many : count ≤ reads) : env.queue count reader <+: env.queue reads visitor := by
  induction count generalizing reads reader visitor with
  | zero => exact List.nil_prefix
  | succ count ih =>
      obtain ⟨left, rfl⟩ : ∃ left, reads = left + 1 := ⟨reads - 1, by omega⟩
      obtain ⟨extents, index, offset, nextExtents, total, fd⟩ := reader
      obtain ⟨extents', index', offset', nextExtents', total', fd'⟩ := visitor
      obtain ⟨sameExtents, sameIndex, sameOffset, sameNext, pages⟩ := alike
      dsimp only at sameExtents sameIndex sameOffset sameNext pages enough
      subst sameExtents sameIndex sameOffset sameNext
      obtain ⟨read, enoughLeft⟩ := (show Plenty fd' (2 * count + 1 + 1) from enough).transfer
      unfold queue Device.readPage
      dsimp only
      by_cases nowhere : offset = 0
      · rw [if_pos nowhere, if_pos nowhere]
      rw [if_neg nowhere, if_neg nowhere, if_neg nowhere, if_neg nowhere, if_pos read, pages]
      by_cases readsToo : fd.transfer.1 = true
      · rw [if_pos readsToo]
        dsimp only
        rw [if_neg (not_not_intro rfl), if_neg (not_not_intro rfl)]
        apply (List.prefix_cons_inj _).mpr
        have taken : SwapReader.Alike
            ⟨extents, index, offset, nextExtents, total, fd.transfer.2⟩
            ⟨extents, index, offset, nextExtents, total', fd'.transfer.2⟩ := by
          refine ⟨rfl, rfl, rfl, rfl, fun place => ?_⟩
          dsimp only
          rw [Device.transfer_content, Device.transfer_content]
          exact pages place
        rcases @SwapReader.Alike.next_or_end env.page env.tables _ _ _ taken enoughLeft with
          ended | ⟨moved, further⟩
        · cases count with
          | zero => exact List.nil_prefix
          | succ count =>
              rw [queue, if_pos ended]
              exact List.nil_prefix
        · exact ih moved further (Nat.le_of_succ_le_succ many)
      · rw [if_neg readsToo]
        dsimp only
        rw [if_pos eio_ne_zero]
        exact List.nil_prefix

/-- So does `init_swap_reader`, unless it fails. -/
theorem initSwapReader_front {header : ImageHeader} {fd whole : Device Bytes} {swap : List Bytes}
    (opened : env.initSwapReader header fd = .ok swap)
    (same : ∀ offset, fd.content (.page offset) = whole.content (.page offset))
    (enough : Plenty whole (2 * fd.outcomes.length + 1)) :
    ∃ all, env.initSwapReader header whole = .ok all ∧ swap <+: all := by
  unfold initSwapReader at opened ⊢
  by_cases nowhere : header.mapStart = 0
  · rw [if_pos nowhere] at opened
    cases opened
  rw [if_neg nowhere] at opened ⊢
  dsimp only at opened ⊢
  have alike : SwapReader.Alike ⟨Table.zero, 0, 0, header.mapStart, header.imageDataSize, fd⟩
      ⟨Table.zero, 0, 0, header.mapStart, header.imageDataSize, whole⟩ :=
    ⟨rfl, rfl, rfl, rfl, same⟩
  rcases @SwapReader.Alike.load_or_fail env.page env.tables _ _ _ alike enough with
    failed | ⟨loaded, success, left⟩
  · rw [if_pos failed] at opened
    cases opened
  · rw [if_neg (not_not_intro success)]
    split at opened
    · cases opened
    · cases opened
      exact ⟨_, rfl, queue_front _ loaded left (by
        have many := enough.1
        omega)⟩

/-- What is loaded from the first pages is loaded from all of them. -/
theorem loadFor_front {settings : LoadSettings} {verifyOnly : Bool} {accepts : Nat → Bool}
    {state : env.cipher.State} {header : ImageHeader} {swap all : List Bytes}
    (front : swap <+: all)
    (success : (env.loadFor settings verifyOnly accepts state header swap).1 = 0) :
    env.loadFor settings verifyOnly accepts state header all =
      env.loadFor settings verifyOnly accepts state header swap := by
  obtain ⟨extra, rfl⟩ := front
  have run := LoadEnv.loadLoop_followed extra success
  apply Prod.ext
  · exact (congrArg Prod.fst run).trans success.symm
  · apply Prod.ext
    · exact congrArg (fun result => result.2.delivered) run
    · exact congrArg (fun result => result.2.source.ctx) run

/-- Whoever stays inside the buffers with all of the pages does so with the first of them. -/
theorem straysFor_front {accepts : Nat → Bool} {state : env.cipher.State} {header : ImageHeader}
    {swap all : List Bytes} (front : swap <+: all)
    (inside : env.straysFor accepts state header all = false) :
    env.straysFor accepts state header swap = false := by
  obtain ⟨extra, rfl⟩ := front
  by_contra outside
  have followed := LoadEnv.strays_followed extra (Bool.not_eq_false _ ▸ outside)
  exact absurd (followed.symm.trans inside) (by decide)

/-- The kernel has taken every page of an image that has been loaded. -/
theorem loadLoop_accepted {env : LoadEnv} {left n : Nat} {loading : env.Loading}
    (success : (env.loadLoop left n loading).1 = 0) :
    ∀ index ≤ left, (env.verifyOnly || env.accepts (n + index)) = true := by
  induction left generalizing n loading with
  | zero =>
      intro index few
      obtain rfl : index = 0 := by omega
      exact LoadEnv.loadPage_accepted success
  | succ left ih =>
      rw [LoadEnv.loadLoop] at success
      by_cases loaded : (env.loadPage n loading).1 = 0
      · rw [if_neg (not_not_intro loaded)] at success
        intro index few
        cases index with
        | zero => exact LoadEnv.loadPage_accepted loaded
        | succ index =>
            rw [show n + (index + 1) = n + 1 + index by omega]
            exact ih success index (by omega)
      · rw [if_pos loaded] at success
        exact absurd success loaded

theorem openResumeDev_opened {answers : ResumeAnswers} {disk : DiskContent Bytes}
    {found : SwsuspHeader × Device Bytes} (opened : answers.openResumeDev disk = some found) :
    found.2.content = disk := by
  unfold ResumeAnswers.openResumeDev at opened
  dsimp only at opened
  split at opened
  · cases opened
    exact Device.transfer_content _
  · cases opened

theorem openImage_steps {answers : ResumeAnswers} {fd : Device Bytes} {start : Int}
    (somewhere : start ≠ 0) {header : ImageHeader} {source : Source env.cipher}
    (opened : env.openImage answers fd start = some (.ok (header, source))) :
    header = env.headerOf (fd.content (.page start)) ∧
      env.setupCipher header answers.typed = some (.ok source.state) ∧
      env.initSwapReader header fd.transfer.2 = .ok source.swap ∧
      source = ⟨source.swap, source.state, header.imageDataSize, env.memory, []⟩ := by
  unfold openImage Device.readPage at opened
  dsimp only at opened
  rw [if_neg somewhere] at opened
  by_cases read : fd.transfer.1 = true
  · rw [if_pos read] at opened
    dsimp only at opened
    rw [if_neg (not_not_intro rfl)] at opened
    split at opened
    · cases opened
    obtain ⟨answer, cipher, found⟩ := Option.map_eq_some_iff.mp opened
    cases answer with
    | error error => cases found
    | ok state =>
        dsimp only at found
        cases swap : env.initSwapReader (env.headerOf (fd.content (.page start))) fd.transfer.2 with
        | error error =>
            rw [swap] at found
            cases found
        | ok pages =>
            rw [swap] at found
            cases found
            exact ⟨rfl, cipher, swap, rfl⟩
  · rw [if_neg read] at opened
    dsimp only at opened
    rw [if_pos eio_ne_zero] at opened
    cases opened

/-- A boot in which nothing is refused, with the passphrase typed once it is asked for. -/
structure Working (answers : ResumeAnswers) (passphrase : Bytes) (reads : Nat) : Prop where
  opens : answers.opens = true
  reads : reads ≤ answers.reads.length ∧ ∀ outcome ∈ answers.reads, outcome = true
  lzo : answers.lzoInit = 0
  typed : answers.typed = [passphrase]
  accepts : ∀ n, answers.accepts n = true
  frozen : answers.freeze = 0

/-- A boot that finds a signature and can load the image restores it. -/
theorem main_restores {answers : ResumeAnswers} {passphrase : Bytes} {count : Nat}
    (working : Working answers passphrase (count + 2)) {disk : DiskContent Bytes}
    (signed : (disk .record).sig = SWSUSP_SIG) (somewhere : (disk .record).image ≠ 0)
    (inside : env.StaysInside answers disk)
    {header : ImageHeader} (headed : env.headerOf (disk (.page (disk .record).image)) = header)
    {state : env.cipher.State}
    (cipher : env.setupCipher header [passphrase] = some (.ok state)) {swap : List Bytes}
    (opened : env.initSwapReader header
      (⟨disk, [], answers.reads⟩ : Device Bytes).transfer.2.transfer.2 = .ok swap)
    (loads : (env.loadFor (LoadSettings.ofFlags header.flags false) false answers.accepts state
      header swap).1 = 0)
    (checked : header.flags.checksum = true → env.crypto.md5
      (env.loadFor (LoadSettings.ofFlags header.flags false) false answers.accepts state header
        swap).2.2.flatten = header.checksum) :
    ∃ image, env.main answers disk =
      ⟨answers.resetSignature (disk .record), Option.some image⟩ := by
  have plenty : Plenty ⟨disk, [], answers.reads⟩ (count + 1 + 1) := working.reads
  obtain ⟨found, left⟩ := plenty.transfer
  have read := left.transfer.1
  have device : answers.openResumeDev disk =
      Option.some (disk .record, (⟨disk, [], answers.reads⟩ : Device Bytes).transfer.2) :=
    if_pos ⟨working.opens, found, signed⟩
  have same : (⟨disk, [], answers.reads⟩ : Device Bytes).content = disk := rfl
  have image : env.openImage answers (⟨disk, [], answers.reads⟩ : Device Bytes).transfer.2
      (disk .record).image = Option.some (.ok
        (header, ⟨swap, state, header.imageDataSize, env.memory, []⟩)) := by
    unfold openImage Device.readPage
    rw [if_neg somewhere, if_pos read]
    dsimp only
    rw [Device.transfer_content, same, headed, if_neg (not_not_intro rfl),
      if_neg (fun refused => refused.2 working.lzo), working.typed, cipher]
    dsimp only [Option.map_some]
    rw [opened]
    rfl
  have success : ((env.loader header answers.accepts).loadImage header.pages
      ⟨swap, state, header.imageDataSize, env.memory, []⟩).1 = 0 := loads
  have checks : ¬ (header.flags.checksum = true ∧ env.crypto.md5
      ((env.loader header answers.accepts).loadImage header.pages
        ⟨swap, state, header.imageDataSize, env.memory, []⟩).2.source.ctx.flatten ≠
          header.checksum) := fun both => both.2 (checked both.1)
  rw [main_inside inside device, readOrVerify, image]
  dsimp only [Option.map_some, Except.bind, loadAndCheck]
  rw [if_neg (not_not_intro success), if_neg checks]
  dsimp only
  rw [if_pos working.frozen]
  exact ⟨_, rfl⟩

end ResumeEnv

/-- The fields that the key is restored from. -/
structure ImageHeader.SameKey (one other : ImageHeader) : Prop where
  useRSA : one.flags.useRSA = other.flags.useRSA
  rsa : one.rsa = other.rsa
  key : one.key = other.key
  salt : one.salt = other.salt

theorem ImageHeader.SameKey.restoreKey {crypto : Crypto} {one other : ImageHeader}
    (same : one.SameKey other) (typed : List Bytes) :
    crypto.restoreKey one typed = crypto.restoreKey other typed := by
  unfold Crypto.restoreKey
  rw [same.useRSA, same.rsa, same.key, same.salt]

theorem ImageHeader.SameKey.setupKey {crypto : Crypto} {one other : ImageHeader}
    (same : one.SameKey other) (salt : Bytes) (state : KeyState) :
    (crypto.setupKey salt state one).1 = (crypto.setupKey salt state other).1 ∧
      (crypto.setupKey salt state one).2.1.SameKey (crypto.setupKey salt state other).2.1 ∧
      (crypto.setupKey salt state one).2.2 = (crypto.setupKey salt state other).2.2 := by
  unfold Crypto.setupKey
  split
  · exact ⟨rfl, ⟨rfl, rfl, rfl, same.salt⟩, rfl⟩
  · dsimp only
    split
    · exact ⟨rfl, ⟨same.useRSA, same.rsa, same.key, rfl⟩, rfl⟩
    · exact ⟨rfl, ⟨same.useRSA, same.rsa, same.key, rfl⟩, rfl⟩

namespace ImageSave

variable {save : ImageSave} {key : KeyState} {fd : Device Bytes} {data : DataPath Bytes}
  {checksum : Bytes} {verified : Int} {image : List Bytes} {size nrPages : Nat}
  {started : SwapWriter.Started Bytes}

/-- The passphrase opens the image that has been written. -/
theorem done_restoreKey {passphrase : Bytes}
    (done : (save.around data checksum verified).Done key fd size nrPages started)
    (encrypts : save.settings.doEncrypt = true)
    (recoverable : save.machine.crypto.Recoverable passphrase save.salt key) :
    save.machine.crypto.restoreKey ((save.around data checksum verified).writeImage key fd).header
      [passphrase] = some (.ok ((save.keyed key).keyData.key, (save.keyed key).keyData.ivec)) := by
  have setup (header : ImageHeader) : (save.around data checksum verified).keyHeader key header =
      save.machine.crypto.setupKey save.salt key header := if_pos encrypts
  obtain ⟨error, fields, -⟩ := @ImageHeader.SameKey.setupKey save.machine.crypto
    ((save.around data checksum verified).firstHeader nrPages started.writer) ImageHeader.zero
    ⟨rfl, rfl, rfl, rfl⟩ save.salt key
  have keyed := done.prepared.keyed
  rw [setup, error, ← setup] at keyed
  have encrypted := (WriteEnv.keyHeader_success keyed rfl).2.2.2.2
  rw [setup] at keyed encrypted
  have opens := (recoverable keyed (encrypted.trans encrypts)).1
  have whole : ((save.around data checksum verified).writeImage key fd).header.SameKey
      (save.machine.crypto.setupKey save.salt key ImageHeader.zero).2.1 := by
    rw [done.header, setup]
    exact ⟨fields.useRSA, fields.rsa, fields.key, fields.salt⟩
  rw [whole.restoreKey, opens, ImageSave.keyed, if_pos encrypts]

theorem done_setupCipher {passphrase : Bytes}
    (done : (save.around data checksum verified).Done key fd size nrPages started)
    (recoverable : save.settings.doEncrypt = true →
      save.machine.crypto.Recoverable passphrase save.salt key) :
    save.machine.setupCipher ((save.around data checksum verified).writeImage key fd).header
      [passphrase] = some (.ok (save.start key)) := by
  have encrypted := (done_flags done).2.1
  unfold ResumeEnv.setupCipher start
  rw [encrypted]
  by_cases encrypts : save.settings.doEncrypt = true
  · rw [if_pos encrypts, if_pos encrypts, done_restoreKey done encrypts (recoverable encrypts)]
    rfl
  · rw [if_neg encrypts, if_neg encrypts]

/-- The size in the header is that of the pages passed to `save_page`. -/
theorem done_size (done : (save.around data checksum verified).Done key fd size nrPages started) :
    ((save.around data checksum verified).writeImage key fd).header.imageDataSize =
      save.machine.page.bytes * data.passed.length := by
  have count := SwapWriter.savePages_written done.saved.pages
  rw [startSaving_written done.prepared.starts, Int.zero_add] at count
  rw [done.header_fields.2.2.1]
  unfold WriteEnv.savedWriter
  rw [SwapWriter.saveExtents_written]
  exact count

end ImageSave

/-- What a written image is for the reader: its header is found, the passphrase sets up the cipher
as it was, and the pages ahead of the reader are loaded as the image. -/
structure ResumeEnv.Restorable (env : ResumeEnv) (state : env.cipher.State) (passphrase : Bytes)
    (image passed : List Bytes) (written : Written Bytes) : Prop where
  somewhere : written.start ≠ 0
  headed : env.headerOf (written.fd.content (.page written.start)) = written.header
  cipher : env.setupCipher written.header [passphrase] = some (.ok state)
  announced : written.header.pages = image.length
  nonempty : image ≠ []
  small : image.length < 2 ^ 32
  ahead : ∀ reader : Device Bytes,
    (∀ offset, reader.content (.page offset) = written.fd.content (.page offset)) →
    Plenty reader (2 * passed.length + 1) →
      ∃ extra, env.initSwapReader written.header reader = .ok (passed ++ extra)
  loads : ∀ accepts extra, (∀ index < image.length, accepts index = true) →
    ∃ ctx, env.loadFor (LoadSettings.ofFlags written.header.flags false) false accepts state
        written.header (passed ++ extra) = (0, image, ctx) ∧
      (written.header.flags.checksum = true → ctx = SaveEnv.buffersOf image ∧
        env.crypto.md5 ctx.flatten = written.header.checksum)
  inside : ∀ accepts extra, env.straysFor accepts state written.header (passed ++ extra) = false

namespace ResumeEnv.Restorable

variable {env : ResumeEnv} {state : env.cipher.State} {passphrase : Bytes}
  {image passed : List Bytes} {written : Written Bytes} {left : DiskContent Bytes}
  {answers : ResumeAnswers}

/-- The loader counts the pages right. -/
theorem rounded (restorable : env.Restorable state passphrase image passed written) :
    ImageSave.rounds written.header.pages = image.length := by
  have some := List.length_pos_iff.mpr restorable.nonempty
  rw [restorable.announced, ImageSave.rounds, Nat.mod_eq_of_lt restorable.small]
  omega

/-- Whatever is read of what has been saved, it is the header and the first of the pages. -/
theorem opened (restorable : env.Restorable state passphrase image passed written)
    (there : ∀ offset, left (.page offset) = written.fd.content (.page offset))
    (typed : answers.typed = [passphrase]) {reader : Device Bytes} (content : reader.content = left)
    {header : ImageHeader} {source : Source env.cipher}
    (found : env.openImage answers reader written.start = some (.ok (header, source))) :
    header = written.header ∧ ∃ swap extra, swap <+: passed ++ extra ∧
      source = ⟨swap, state, written.header.imageDataSize, env.memory, []⟩ := by
  obtain ⟨headed, cipher, opened, same⟩ := openImage_steps restorable.somewhere found
  rw [content, there, restorable.headed] at headed
  subst headed
  -- with more reads, the whole of what has been saved is ahead
  let whole : Device Bytes := ⟨left, [], List.replicate
    (2 * reader.transfer.2.outcomes.length + 2 * passed.length + 1) true⟩
  have plenty (count : Nat)
      (few : count ≤ 2 * reader.transfer.2.outcomes.length + 2 * passed.length + 1) :
      Plenty whole count :=
    ⟨few.trans List.length_replicate.ge, fun _ member => List.eq_of_mem_replicate member⟩
  obtain ⟨extra, ahead⟩ := restorable.ahead whole there (plenty _ (by omega))
  obtain ⟨all, total, front⟩ := initSwapReader_front opened
    (show ∀ offset, _ = whole.content (.page offset) from fun offset => by
      rw [Device.transfer_content, content]
      rfl) (plenty _ (by omega))
  obtain rfl := Except.ok.inj (ahead.symm.trans total)
  have key : source.state = state := by
    rw [typed] at cipher
    exact Except.ok.inj (Option.some.inj (cipher.symm.trans restorable.cipher))
  rw [key] at same
  exact ⟨rfl, source.swap, extra, front, same⟩

theorem stays_inside (restorable : env.Restorable state passphrase image passed written)
    (start : (left .record).image = written.start)
    (there : ∀ offset, left (.page offset) = written.fd.content (.page offset))
    (typed : answers.typed = [passphrase]) : env.StaysInside answers left := by
  intro record reader device
  have content := openResumeDev_opened device
  obtain rfl : record = left .record := (openResumeDev_found device).2
  rw [start]
  unfold strays
  cases found : env.openImage answers reader written.start with
  | none => rfl
  | some result =>
      cases result with
      | error error => rfl
      | ok opened =>
          obtain ⟨header, swap, extra, front, source⟩ :=
            restorable.opened there typed content found
          have inside := straysFor_front front (restorable.inside answers.accepts extra)
          rw [← header] at source inside
          change (env.loader opened.1 answers.accepts).strays (opened.1.pages % 2 ^ 32 - 1) 0
            ⟨opened.2, 0, 0, []⟩ = false
          rw [source]
          exact inside

theorem restored (restorable : env.Restorable state passphrase image passed written)
    (start : (left .record).image = written.start)
    (there : ∀ offset, left (.page offset) = written.fd.content (.page offset))
    (typed : answers.typed = [passphrase]) {result : Image}
    (found : (env.main answers left).restored = some result) :
    result.header = written.header ∧ result.delivered = image ∧
      (written.header.flags.checksum = true → result.ctx = SaveEnv.buffersOf image) := by
  obtain ⟨-, -, -, reader, device, loaded⟩ :=
    main_restored (restorable.stays_inside start there typed) found
  rw [start] at loaded
  obtain ⟨header, source, opened, verified⟩ := readOrVerify_ok loaded
  obtain ⟨rfl, swap, extra, front, rfl⟩ :=
    restorable.opened there typed (openResumeDev_opened device) opened
  obtain ⟨loads, rfl, -⟩ := loadAndCheck_ok verified
  refine ⟨rfl, ?_⟩
  have accepted : ∀ index < image.length, answers.accepts index = true := by
    intro index few
    rw [← restorable.rounded, ImageSave.rounds] at few
    have taken := loadLoop_accepted loads index (by omega)
    rwa [Nat.zero_add] at taken
  obtain ⟨ctx, same, fed⟩ := restorable.loads answers.accepts extra accepted
  rw [loadFor_front front loads] at same
  constructor
  · exact congrArg (fun loaded => loaded.2.1) same
  · intro checks
    rw [← (fed checks).1]
    exact congrArg (fun loaded => loaded.2.2) same

theorem resumed (restorable : env.Restorable state passphrase image passed written)
    (signed : (left .record).sig = SWSUSP_SIG) (start : (left .record).image = written.start)
    (there : ∀ offset, left (.page offset) = written.fd.content (.page offset))
    (working : Working answers passphrase (2 * passed.length + 3)) :
    ∃ result, env.main answers left =
        ⟨answers.resetSignature (left .record), Option.some result⟩ ∧
      result.delivered = image := by
  have headed : env.headerOf (left (.page (left .record).image)) = written.header := by
    rw [start, there]
    exact restorable.headed
  have plenty : Plenty ⟨left, [], answers.reads⟩ (2 * passed.length + 1 + 1 + 1) := working.reads
  obtain ⟨extra, ahead⟩ := restorable.ahead
    (⟨left, [], answers.reads⟩ : Device Bytes).transfer.2.transfer.2 (fun offset => by
      rw [Device.transfer_content, Device.transfer_content]
      exact there offset) plenty.transfer.2.transfer.2
  obtain ⟨ctx, loads, fed⟩ := restorable.loads answers.accepts extra
    fun index _ => working.accepts index
  obtain ⟨result, ran⟩ := main_restores working signed (start ▸ restorable.somewhere)
    (restorable.stays_inside start there working.typed) headed restorable.cipher ahead
    (congrArg Prod.fst loads) (by
      intro checks
      rw [loads]
      exact (fed checks).2)
  refine ⟨result, ran, (restorable.restored start there working.typed ?_).2.1⟩
  rw [ran]

end ResumeEnv.Restorable

end Suspend
