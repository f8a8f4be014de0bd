import Suspend.ImageRoundTrip
import Suspend.SavedPages
import Suspend.WriteImage

set_option autoImplicit false

namespace Suspend

open Foundation.Memory

namespace WriteEnv

variable {Page : Type} {env : WriteEnv Page} {key : KeyState} {fd : Device Page}

/-- `write_image` has got to `Save_image`. -/
structure Prepared (env : WriteEnv Page) (key : KeyState) (fd : Device Page) (size nrPages : Nat)
    (started : SwapWriter.Started Page) : Prop where
  info : env.imageInfo = .ok (size, nrPages)
  starts : SwapWriter.startSaving env.page env.settings.doCompress env.dev fd
    (env.swapNeeded size) = .ok started
  enough : env.enoughSwap (env.swapNeeded size) = true
  keyed : (env.keyHeader key (env.firstHeader nrPages started.writer)).1 = 0

/-- The rest of `write_image`. -/
def resumeAt (env : WriteEnv Page) (key : KeyState) (nrPages : Nat)
    (started : SwapWriter.Started Page) : Written Page :=
  let keyed := env.keyHeader key (env.firstHeader nrPages started.writer)
  env.finish started.start keyed.2.1 keyed.2.2 started.writer

theorem writeImage_prepared {size nrPages : Nat} {started : SwapWriter.Started Page}
    (prepared : env.Prepared key fd size nrPages started) :
    env.writeImage key fd = env.resumeAt key nrPages started := by
  obtain ⟨info, starts, enough, keyed⟩ := prepared
  unfold SwapWriter.startSaving at starts
  unfold writeImage
  dsimp only at starts ⊢
  by_cases header : (getSwapPage env.dev).1 = 0
  · rw [if_pos header] at starts
    cases starts
  · rw [if_neg header] at starts ⊢
    by_cases opened : (SwapWriter.init (getSwapPage env.dev).2 fd).1 = 0
    · rw [if_neg (not_not_intro opened)] at starts ⊢
      rw [info]
      dsimp only
      by_cases filled : (SwapWriter.preallocateSwap env.page env.settings.doCompress
          { (SwapWriter.init (getSwapPage env.dev).2 fd).2 with
            swapNeeded := env.swapNeeded size }).1 = 0
      · rw [if_pos filled] at starts
        cases starts
      · rw [if_neg filled] at starts
        cases starts
        unfold prepare
        dsimp only
        rw [if_neg (by simp [enough]), if_neg filled]
        exact if_neg (not_not_intro keyed)
    · rw [if_pos opened] at starts
      cases starts

theorem prepared_of_success (success : (env.writeImage key fd).error = 0) :
    ∃ size nrPages started, env.Prepared key fd size nrPages started := by
  unfold writeImage at success
  dsimp only at success
  by_cases header : (getSwapPage env.dev).1 = 0
  · rw [if_pos header] at success
    exact absurd success (show -ENOSPC ≠ 0 by decide)
  rw [if_neg header] at success
  by_cases opened : (SwapWriter.init (getSwapPage env.dev).2 fd).1 = 0
  · rw [if_neg (not_not_intro opened)] at success
    cases info : env.imageInfo with
    | error error =>
        rw [info] at success
        exact absurd success (imageInfo_error info)
    | ok answer =>
        obtain ⟨size, nrPages⟩ := answer
        rw [info] at success
        unfold prepare at success
        dsimp only at success
        by_cases enough : env.enoughSwap (env.swapNeeded size) = false
        · rw [if_pos enough] at success
          exact absurd success (show -ENOSPC ≠ 0 by decide)
        · rw [if_neg enough] at success
          generalize allocated : SwapWriter.preallocateSwap env.page env.settings.doCompress
              { (SwapWriter.init (getSwapPage env.dev).2 fd).2 with
                swapNeeded := env.swapNeeded size } = filled at success
          by_cases none : filled.1 = 0
          · rw [if_pos none] at success
            exact absurd success (show -ENOSPC ≠ 0 by decide)
          · rw [if_neg none] at success
            refine ⟨size, nrPages, ⟨(getSwapPage env.dev).1,
              { filled.2 with curOffset := filled.2.curOffset - env.page.bytes }⟩, info, ?_,
              by simpa using enough, ?_⟩
            · unfold SwapWriter.startSaving
              dsimp only
              rw [if_neg header, if_neg (not_not_intro opened), allocated, if_neg none]
            · by_cases keyed : (env.keyHeader key (env.firstHeader nrPages filled.2)).1 = 0
              · exact keyed
              · rw [if_pos keyed] at success
                exact absurd success keyed
  · rw [if_pos opened] at success
    exact absurd success opened

/-- `save_image` has succeeded. -/
structure Saved (env : WriteEnv Page) (writer : SwapWriter Page) : Prop where
  data : env.data.error = 0
  pages : (writer.savePages env.page env.settings.doCompress env.data.passed).1 = 0
  extents : ((writer.savePages env.page env.settings.doCompress
    env.data.passed).2.2.saveExtents env.page true).1 = 0

/-- The swap writer behind it. -/
def savedWriter (env : WriteEnv Page) (writer : SwapWriter Page) : SwapWriter Page :=
  ((writer.savePages env.page env.settings.doCompress env.data.passed).2.2.saveExtents
    env.page true).2

theorem saveImage_saved {writer : SwapWriter Page} (saved : env.Saved writer) :
    env.saveImage writer = (0, env.savedWriter writer) := by
  unfold saveImage savedWriter
  dsimp only
  rw [if_neg (not_not_intro saved.data), if_neg (not_not_intro saved.pages), ← saved.extents]

theorem saved_of_success {writer : SwapWriter Page} (success : (env.saveImage writer).1 = 0) :
    env.Saved writer := by
  unfold saveImage at success
  dsimp only at success
  by_cases data : env.data.error = 0
  · rw [if_neg (not_not_intro data)] at success
    by_cases pages : (writer.savePages env.page env.settings.doCompress env.data.passed).1 = 0
    · rw [if_neg (not_not_intro pages)] at success
      exact ⟨data, pages, success⟩
    · rw [if_pos pages] at success
      exact absurd success pages
  · rw [if_pos data, if_pos data] at success
    exact absurd success data

/-- The device once the header has been written to it. -/
def headed (fd : Device Page) (start : Int) (header : ImageHeader) : Device Page :=
  (fd.fsync.writePage (.header header) start).2.fsync

theorem headed_content {start offset : Int} {header : ImageHeader} (other : offset ≠ start) :
    (headed fd start header).content (.page offset) = fd.content (.page offset) := by
  unfold headed
  rw [Device.fsync_content, Device.writePage_content_other _ _ other, Device.fsync_content]

theorem commit_success {start : Int} {header : ImageHeader}
    (success : (env.commit start header key fd.fsync).error = 0) :
    (fd.fsync.writePage (.header header) start).1 = 0 ∧
      (env.settings.verifyImage = true ∨ env.testMode = true → env.verified = 0) ∧
      (env.commit start header key fd.fsync).start = start ∧
      (env.commit start header key fd.fsync).header = header ∧
      (env.commit start header key fd.fsync).key = key ∧
      ∀ offset, (env.commit start header key fd.fsync).fd.content (.page offset) =
        (headed fd start header).content (.page offset) := by
  unfold commit at success ⊢
  dsimp only at success ⊢
  by_cases written : (fd.fsync.writePage (.header header) start).1 = 0
  · rw [if_neg (not_not_intro written)] at success ⊢
    by_cases refused : (env.settings.verifyImage = true ∨ env.testMode = true) ∧ env.verified ≠ 0
    · rw [if_pos refused] at success
      exact absurd success refused.2
    · rw [if_neg refused] at success ⊢
      rcases (headed fd start header).markSwap_cases start with
        ⟨marked, _, initial, log⟩ | ⟨failed, _⟩
      · rw [headed] at marked initial log
        rw [if_neg (not_not_intro marked)]
        refine ⟨written, fun verifies => ?_, rfl, rfl, rfl, fun offset => ?_⟩
        · by_contra different
          exact refused ⟨verifies, different⟩
        · dsimp only
          rw [Device.fsync_content, headed, Device.content, Device.content, initial, log,
            Foundation.CachedDisk.content_append]
          exact Foundation.CachedDisk.content_untouched _ _ (by simp)
      · rw [headed] at failed
        rw [if_pos failed] at success
        exact absurd success failed
  · rw [if_pos written] at success
    exact absurd success written

/-- All that a `write_image` that succeeds has done. -/
structure Done (env : WriteEnv Page) (key : KeyState) (fd : Device Page) (size nrPages : Nat)
    (started : SwapWriter.Started Page) : Prop where
  prepared : env.Prepared key fd size nrPages started
  saved : env.Saved started.writer
  verified : env.settings.verifyImage = true ∨ env.testMode = true → env.verified = 0
  start : (env.writeImage key fd).start = started.start
  header : (env.writeImage key fd).header =
    env.fullHeader (env.keyHeader key (env.firstHeader nrPages started.writer)).2.1
      (env.savedWriter started.writer).writtenData
  keyed : (env.writeImage key fd).key =
    (env.keyHeader key (env.firstHeader nrPages started.writer)).2.2
  headerPage : (env.writeImage key fd).fd.content (.page started.start) =
    .header (env.writeImage key fd).header
  others : ∀ offset ≠ started.start, (env.writeImage key fd).fd.content (.page offset) =
    (env.savedWriter started.writer).fd.content (.page offset)

theorem done_of_success (success : (env.writeImage key fd).error = 0) :
    ∃ size nrPages started, env.Done key fd size nrPages started := by
  obtain ⟨size, nrPages, started, prepared⟩ := prepared_of_success success
  have written := writeImage_prepared prepared
  unfold resumeAt finish at written
  dsimp only at written
  rw [written] at success
  by_cases complete : (env.saveImage started.writer).1 = 0
  · have saved := saved_of_success complete
    rw [saveImage_saved saved] at written success
    dsimp only at written success
    rw [if_neg (not_not_intro rfl)] at written success
    obtain ⟨headerWritten, verified, start, header, key', pages⟩ := commit_success success
    rw [← written] at start header key' pages
    refine ⟨size, nrPages, started, prepared, saved, verified, start, header, key', ?_, ?_⟩
    · rw [pages, header, headed, Device.fsync_content, (Device.writePage_success headerWritten).2]
      exact Device.append_content_same _ _ _
    · intro offset other
      rw [pages, headed_content other]
  · rw [if_pos complete] at success
    exact absurd success complete

end WriteEnv

/-- A `write_image` without threads and what it works on: the machine with its libraries, the
configuration, what the kernel answers and what is read from the snapshot device or the test file,
when the abort key is found pressed, what becomes of the reads of a verification, and the memory
that the write buffer is taken from. `infoOf` is what a first page says as a `struct
swsusp_info`: the size of the image and the number of its pages. -/
structure ImageSave where
  machine : ResumeEnv
  settings : Settings
  testMode : Bool
  platform : Bool
  resumePause : Int
  salt : Bytes
  dev : Grants
  freeSwap : Int
  imageSize : Int
  infoOf : Bytes → Nat × Nat
  input : List ImageRead
  aborted : Nat → Bool
  lzoInit : Int
  verifyReads : List Bool
  writeBuffer : Option Bytes
  allocated : writeBuffer.map List.length =
    if settings.doCompress then some machine.page.compressBufSize else none

namespace ImageSave

variable (save : ImageSave)

/-- The information in the first page, read when the kernel does not tell the size. -/
def info : Except ErrorCode (Nat × Nat) :=
  match save.input with
  | .page first :: _ => .ok (save.infoOf first)
  | .failed :: _ => .error ⟨-1, by decide⟩
  | _ => .error ⟨-EFAULT, efault_ne_zero⟩

/-- That page is in the buffer already when `save_image` starts. -/
def preread : Bytes :=
  if 0 < save.imageSize then []
  else
    match save.input with
    | .page first :: _ => first
    | _ => []

/-- What is left for `save_image` to read. -/
def remaining : List ImageRead := if 0 < save.imageSize then save.input else save.input.tail

/-- `save_image` with a `save_page` that has these outcomes. -/
def saveEnv (outcome : Nat → Int) : SaveEnv where
  page := save.machine.page
  settings := save.settings
  lzo := save.machine.lzo
  cipher := save.machine.cipher
  outcome := outcome
  aborted := save.aborted

def buffers (outcome : Nat → Int) : (save.saveEnv outcome).Buffers false :=
  ⟨save.writeBuffer, save.allocated⟩

/-- The key and the initialization vector that the cipher is set to. -/
def keyed (key : KeyState) : KeyState :=
  if save.settings.doEncrypt then
    (save.machine.crypto.setupKey save.salt key ImageHeader.zero).2.2
  else key

def start (key : KeyState) : save.machine.cipher.State :=
  if save.settings.doEncrypt then
    save.machine.start (save.keyed key).keyData.key (save.keyed key).keyData.ivec
  else save.machine.start [] []

/-- The outcomes of the writer's `save_page`. What the pages hold makes no difference to it. -/
def outcomes (writer : SwapWriter Bytes) (count : Nat) : Int :=
  (writer.savePages save.machine.page save.settings.doCompress
    (List.replicate (count + 1) [])).1

/-- `save_image` on the swap that has been preallocated, less the extents. -/
def saved (key : KeyState) (nrPages : Nat) (writer : SwapWriter Bytes) :
    Int × Pipe save.machine.cipher :=
  (save.saveEnv (save.outcomes writer)).saveImage nrPages save.remaining
    { (save.saveEnv (save.outcomes writer)).initSwapWriter (save.buffers _) (save.start key) with
      buffer := save.preread }

/-- The surroundings of a `write_image`, given what `save_image` does and what the verification
says. -/
def around (data : DataPath Bytes) (checksum : Bytes) (verified : Int) : WriteEnv Bytes where
  page := save.machine.page
  settings := save.settings
  testMode := save.testMode
  platform := save.platform
  resumePause := save.resumePause
  crypto := save.machine.crypto
  salt := save.salt
  dev := save.dev
  imageSize := save.imageSize
  info := save.info
  freeSwap := save.freeSwap
  data := data
  checksum := checksum
  verified := verified

/-- What `save_image` passes to `save_page`, and the checksum of the buffers. -/
def dataPath (key : KeyState) (fd : Device Bytes) : DataPath Bytes × Bytes :=
  match (save.around ⟨[], 0⟩ [] 0).imageInfo with
  | .error _ => (⟨[], 0⟩, [])
  | .ok (size, nrPages) =>
      match SwapWriter.startSaving save.machine.page save.settings.doCompress save.dev fd
        ((save.around ⟨[], 0⟩ [] 0).swapNeeded size) with
      | .error _ => (⟨[], 0⟩, [])
      | .ok started =>
          let saved := save.saved key nrPages started.writer
          (⟨saved.2.passed, saved.1⟩, save.machine.crypto.md5 saved.2.ctx.flatten)

/-- `write_image` with this outcome of the verification. -/
def write (key : KeyState) (fd : Device Bytes) (verified : Int) : WriteEnv Bytes :=
  save.around (save.dataPath key fd).1 (save.dataPath key fd).2 verified

end ImageSave

namespace ResumeEnv

variable (env : ResumeEnv)

/-- The loader for a header, when the image is being verified or for the kernel. -/
abbrev loaderFor (settings : LoadSettings) (verifyOnly : Bool) (accepts : Nat → Bool) :
    LoadEnv where
  page := env.page
  settings := settings
  lzo := env.lzo
  cipher := env.cipher
  verifyOnly := verifyOnly
  accepts := accepts

/-- `load_image` on the pages ahead of the reader: its return value, the pages passed on and the
buffers that were checksummed. -/
def loadFor (settings : LoadSettings) (verifyOnly : Bool) (accepts : Nat → Bool)
    (state : env.cipher.State) (header : ImageHeader) (swap : List Bytes) :
    Int × List Bytes × List Bytes :=
  let image := (env.loaderFor settings verifyOnly accepts).loadImage header.pages
    ⟨swap, state, header.imageDataSize, env.memory, []⟩
  (image.1, image.2.delivered, image.2.source.ctx)

/-- Whether `load_image` leaves its buffers there, when the pages are for the kernel. -/
def straysFor (accepts : Nat → Bool) (state : env.cipher.State) (header : ImageHeader)
    (swap : List Bytes) : Bool :=
  (env.loader header accepts).strays (header.pages % 2 ^ 32 - 1) 0
    ⟨⟨swap, state, header.imageDataSize, env.memory, []⟩, 0, 0, []⟩

/-- `init_swap_reader` and `load_image` for the kernel: the return value and the pages. -/
def load (state : env.cipher.State) (accepts : Nat → Bool) (header : ImageHeader)
    (fd : Device Bytes) : Int × List Bytes :=
  match env.initSwapReader header fd with
  | .error error => (error, [])
  | .ok swap =>
      let image := env.loadFor (LoadSettings.ofFlags header.flags false) false accepts state header
        swap
      (image.1, image.2.1)

/-- `read_or_verify` when `write_image` calls it, with the key that is still set. -/
def verifyImage (verify : Bool) (lzoInit setiv : Int) (state : env.cipher.State)
    (fd : Device Bytes) (start : Int) : Int :=
  let read := fd.readPage (.header ImageHeader.zero) start
  let header := env.headerOf read.2.1
  if read.1 ≠ 0 then read.1
  else if header.flags.compressed ∧ lzoInit ≠ 0 then -EFAULT
  else if header.flags.encrypted ∧ setiv ≠ 0 then setiv
  else
    match env.initSwapReader header read.2.2 with
    | .error error => error
    | .ok swap =>
        let image := env.loadFor (LoadSettings.ofFlags header.flags verify) true (fun _ => false)
          state header swap
        if image.1 ≠ 0 then image.1
        else if (header.flags.checksum ∨ verify) ∧
            env.crypto.md5 image.2.2.flatten ≠ header.checksum then -EINVAL
        else 0

end ResumeEnv

namespace ImageSave

variable (save : ImageSave)

/-- The verification of what is on the device, if there is one. It finds the device as a
`write_image` leaves it that does not get past it. -/
def verified (key : KeyState) (fd : Device Bytes) : Int :=
  let left := (save.write key fd (- EIO)).writeImage key fd
  save.machine.verifyImage save.settings.verifyImage save.lzoInit
    (save.machine.crypto.setiv (save.keyed key).keyData.ivec) (save.start key)
    ⟨left.fd.content, [], save.verifyReads⟩ left.start

/-- `write_image`. -/
def writeImage (key : KeyState) (fd : Device Bytes) : Written Bytes :=
  (save.write key fd (save.verified key fd)).writeImage key fd

end ImageSave

namespace ImageSave

variable {save : ImageSave} {key : KeyState} {image : List Bytes} {nrPages : Nat}
  {writer : SwapWriter Bytes}

variable (save image) in
/-- The part of the image that is in the buffer when `save_image` starts. -/
def filled : List Bytes := if 0 < save.imageSize then [] else image.take 1

theorem preread_eq (input : save.input = image.map .page) :
    save.preread = (save.filled image).flatten := by
  unfold preread filled
  split
  · rfl
  · rw [input]
    cases image with
    | nil => rfl
    | cons first rest => simp

theorem remaining_eq (input : save.input = image.map .page) :
    save.remaining = (image.drop (save.filled image).length).map .page := by
  unfold remaining filled
  split
  · exact input
  · rw [input]
    cases image with
    | nil => rfl
    | cons first rest => rfl

theorem filled_append : save.filled image ++ image.drop (save.filled image).length = image := by
  unfold filled
  split
  · rfl
  · cases image with
    | nil => rfl
    | cons first rest => rfl

theorem filled_few : (save.filled image).length < 32 := by
  unfold filled
  split
  · decide
  · rw [List.length_take]
    omega

theorem saved_stored (input : save.input = image.map .page)
    (full : ∀ src ∈ image, src.length = save.machine.page.bytes)
    (success : (save.saved key nrPages writer).1 = 0) :
    SaveEnv.Stored (save.saveEnv (save.outcomes writer))
      ((save.saveEnv (save.outcomes writer)).initSwapWriter (save.buffers _) (save.start key))
      (save.saved key nrPages writer).2 (SaveEnv.buffersOf image) := by
  unfold saved at success ⊢
  rw [remaining_eq input, preread_eq input] at success ⊢
  have stored := SaveEnv.saveImage_buffered (save.filled image)
    (show ∀ src ∈ save.filled image ++ image.drop (save.filled image).length,
      src.length = (save.saveEnv (save.outcomes writer)).page.bytes from by rwa [filled_append])
    filled_few rfl success
  rw [filled_append] at stored
  exact ⟨stored.pages, stored.ctx⟩

/-- The number of rounds of `load_image`, which is a do-while loop over an unsigned int. -/
def rounds (pages : Nat) : Nat := max 1 (pages % 2 ^ 32)

section Loading

variable (documented : save.machine.lzo.Documented)
  (inverts : save.machine.cipher.Inverts save.machine.page (save.start key))
  (input : save.input = image.map .page)
  (full : ∀ src ∈ image, src.length = save.machine.page.bytes)
  (success : (save.saved key nrPages writer).1 = 0)
include documented inverts input full success

theorem between_saved (verify verifyOnly : Bool) (accepts : Nat → Bool) :
    LoadEnv.Between ((save.saveEnv (save.outcomes writer)).reader verify verifyOnly accepts)
      ((save.saveEnv (save.outcomes writer)).Ahead verify verifyOnly accepts
        (if save.settings.computeChecksum || verify then SaveEnv.buffersOf image else [])) [] image
      ⟨⟨(save.saved key nrPages writer).2.swap, save.start key,
        (save.saved key nrPages writer).2.writtenData, save.machine.memory, []⟩, 0, 0, []⟩ :=
  (saved_stored input full success).between documented inverts full verify verifyOnly accepts
    save.machine.memory 0

omit inverts input full success in
theorem saved_supplies (verify verifyOnly : Bool) (accepts : Nat → Bool) (fed : List Bytes) :
    ((save.saveEnv (save.outcomes writer)).reader verify verifyOnly accepts).Supplies
      ((save.saveEnv (save.outcomes writer)).Ahead verify verifyOnly accepts fed) :=
  SaveEnv.ahead_supplies documented

/-- Loading it does not leave the buffers, whatever follows the image and the kernel refuses. -/
theorem straysFor_saved {header : ImageHeader} {accepts : Nat → Bool}
    (size : header.imageDataSize = (save.saved key nrPages writer).2.writtenData)
    (flags : LoadSettings.ofFlags header.flags false =
      LoadSettings.ofFlags save.settings.flags false)
    (enough : rounds header.pages ≤ image.length) (extra : List Bytes) :
    save.machine.straysFor accepts (save.start key) header
      ((save.saved key nrPages writer).2.swap ++ extra) = false := by
  have between := between_saved documented inverts input full success false false accepts
  have few : header.pages % 2 ^ 32 - 1 + 1 ≤ ([] ++ image).length := by
    unfold rounds at enough
    rw [List.nil_append]
    omega
  unfold ResumeEnv.straysFor ResumeEnv.loader
  rw [flags, size]
  exact between.inside (saved_supplies documented false false accepts _) 0
    (header.pages % 2 ^ 32 - 1) few extra

/-- Loading gives as many pages of the image as there are rounds, whatever follows the image. -/
theorem loadFor_saved {header : ImageHeader} {verify verifyOnly : Bool} {accepts : Nat → Bool}
    (size : header.imageDataSize = (save.saved key nrPages writer).2.writtenData)
    (flags : LoadSettings.ofFlags header.flags verify =
      LoadSettings.ofFlags save.settings.flags verify)
    (enough : rounds header.pages ≤ image.length)
    (accepted : ∀ index < rounds header.pages, (verifyOnly || accepts index) = true)
    (extra : List Bytes) :
    let result := save.machine.loadFor (LoadSettings.ofFlags header.flags verify) verifyOnly accepts
      (save.start key) header ((save.saved key nrPages writer).2.swap ++ extra)
    result.1 = 0 ∧ result.2.1 = image.take (rounds header.pages) ∧
      (rounds header.pages = image.length → (save.settings.computeChecksum || verify) = true →
        result.2.2 = SaveEnv.buffersOf image) := by
  have between := between_saved documented inverts input full success verify verifyOnly accepts
  have count : header.pages % 2 ^ 32 - 1 + 1 = rounds header.pages := by
    unfold rounds
    omega
  obtain ⟨later, current, upcoming, ran, finished, rest, delivered⟩ :=
    between.rounds (saved_supplies documented verify verifyOnly accepts _) 0
      (header.pages % 2 ^ 32 - 1) (by rwa [List.nil_append, count])
      (fun index below => accepted index (by omega))
  rw [List.nil_append, count] at rest delivered
  have run := LoadEnv.loadLoop_followed extra (congrArg Prod.fst ran)
  rw [ran] at run
  unfold ResumeEnv.loadFor LoadEnv.loadImage
  dsimp only
  rw [flags, size]
  refine ⟨congrArg Prod.fst run, ?_, fun all checks => ?_⟩
  · exact (congrArg (fun result => result.2.delivered) run).trans delivered
  · apply (congrArg (fun result => result.2.source.ctx) run).trans
    rw [all, List.drop_length] at rest
    obtain ⟨rfl, rfl⟩ := List.append_eq_nil_iff.mp rest
    have fed := finished.queue.ctx
    rw [SaveEnv.buffersOf_nil, List.append_nil] at fed
    have computes : ((save.saveEnv (save.outcomes writer)).settings.computeChecksum || verify) =
        true := checks
    rw [if_pos computes, if_pos (show (save.settings.computeChecksum || verify) = true from checks)]
      at fed
    exact fed

end Loading

end ImageSave

namespace WriteEnv

variable {Page : Type} {env : WriteEnv Page}

theorem keyHeader_success {key : KeyState} {header : ImageHeader}
    (success : (env.keyHeader key header).1 = 0) (fresh : header.flags.encrypted = false) :
    (env.keyHeader key header).2.1.pages = header.pages ∧
      (env.keyHeader key header).2.1.mapStart = header.mapStart ∧
      (env.keyHeader key header).2.1.flags.compressed = header.flags.compressed ∧
      (env.keyHeader key header).2.1.flags.checksum = header.flags.checksum ∧
      (env.keyHeader key header).2.1.flags.encrypted = env.settings.doEncrypt := by
  unfold keyHeader at success ⊢
  by_cases encrypts : env.settings.doEncrypt = true
  · rw [if_pos encrypts] at success ⊢
    rw [encrypts]
    unfold Crypto.setupKey at success ⊢
    split
    · exact ⟨rfl, rfl, rfl, rfl, rfl⟩
    · next rejected =>
      rw [if_neg rejected] at success
      dsimp only at success ⊢
      split
      · next failed =>
        rw [if_pos failed] at success
        exact absurd success failed
      · exact ⟨rfl, rfl, rfl, rfl, rfl⟩
  · rw [if_neg encrypts]
    exact ⟨rfl, rfl, rfl, rfl, by rw [fresh]; simpa using encrypts⟩

variable {key : KeyState} {fd : Device Page} {size nrPages : Nat}
  {started : SwapWriter.Started Page}

theorem Done.header_fields (done : env.Done key fd size nrPages started) :
    (env.writeImage key fd).header.pages = nrPages ∧
      (env.writeImage key fd).header.mapStart = started.writer.extentsSpc ∧
      (env.writeImage key fd).header.imageDataSize =
        (env.savedWriter started.writer).writtenData ∧
      ∀ verify, LoadSettings.ofFlags (env.writeImage key fd).header.flags verify =
        LoadSettings.ofFlags env.settings.flags verify := by
  obtain ⟨pages, mapStart, compressed, checksum, encrypted⟩ :=
    keyHeader_success done.prepared.keyed (by rfl)
  rw [done.header]
  refine ⟨pages, mapStart, rfl, fun verify => ?_⟩
  unfold LoadSettings.ofFlags fullHeader Settings.flags
  dsimp only
  rw [compressed, checksum, encrypted]
  rfl

end WriteEnv

namespace SwapWriter

variable {Page : Type} {page : PageSize} {doCompress : Bool} {handle : SwapWriter Page}

theorem savePages_somewhere {srcs : List Page}
    (success : (savePages page doCompress handle srcs).1 = 0) :
    ∀ offset ∈ (savePages page doCompress handle srcs).2.1, offset ≠ 0 := by
  induction srcs generalizing handle with
  | nil => exact fun offset none => absurd none List.not_mem_nil
  | cons src rest ih =>
      by_cases saved : (savePage page doCompress handle src).1 = 0
      · simp only [savePages, saved, ne_eq, not_true_eq_false, ↓reduceIte] at success ⊢
        exact List.forall_mem_cons.mpr ⟨(savePage_success saved).1, ih success⟩
      · simp [savePages, saved] at success

end SwapWriter

namespace ImageSave

open ReadEnv (Plenty)

variable {save : ImageSave} {key : KeyState} {fd : Device Bytes} {verified : Int}
  {size nrPages : Nat} {started : SwapWriter.Started Bytes}

/-- What has been passed to `save_page` is ahead of the reader of the header. -/
theorem passed_ahead {data : DataPath Bytes} {checksum : Bytes}
    (aligned : ∀ offset ∈ save.dev, 0 ≤ offset ∧
      (save.machine.page.bytes : Int) ∣ offset) (distinct : save.dev.Nodup)
    (fresh : fd.tablesWritten = []) (pages : ∀ src, save.machine.bytes (.data src) = src)
    (done : (save.around data checksum verified).Done key fd size nrPages started)
    (clean : started.writer.NeverLeftover save.machine.page save.settings.doCompress data.passed)
    {reader : Device Bytes} (same : ∀ offset, reader.content (.page offset) =
      ((save.around data checksum verified).writeImage key fd).fd.content (.page offset))
    (plenty : Plenty reader (2 * data.passed.length + 1)) :
    ∃ extra, save.machine.initSwapReader
      ((save.around data checksum verified).writeImage key fd).header reader =
        .ok (data.passed ++ extra) := by
  have laid : SwapWriter.Laid save.machine.page save.dev started.start started.writer.extentsSpc
      [] [] [] started.writer :=
    SwapWriter.startSaving_laid aligned distinct fresh done.prepared.starts
  have saved := done.saved.pages
  have holds := laid.holds aligned distinct _ clean saved .nil
  obtain ⟨⟨tables, others, all⟩, count⟩ := laid.run aligned distinct _ clean saved
  rw [List.nil_append] at all holds
  rw [List.nil_append] at holds
  have there : ∀ offset ≠ started.start, reader.content (.page offset) =
      ((save.around data checksum verified).savedWriter started.writer).fd.content
        (.page offset) :=
    fun offset other => (same offset).trans (done.others offset other)
  have ahead : ∃ extra, save.machine.initSwapReader
      ((save.around data checksum verified).writeImage key fd).header reader =
        .ok (data.passed.map (fun src => save.machine.bytes (.data src)) ++ extra) :=
    ResumeEnv.initSwapReader_saved all distinct holds (SwapWriter.savePages_somewhere saved)
      done.saved.extents done.header_fields.2.1 (fun offset member => there offset (by
        rintro rfl
        exact (List.nodup_cons.mp (all.offsets_nodup distinct)).1 member)) (by
          rw [count]
          exact plenty)
  simpa only [pages, List.map_id'] using ahead

variable (key) in
theorem dataPath_started (info : (save.around ⟨[], 0⟩ [] 0).imageInfo = .ok (size, nrPages))
    (starts : SwapWriter.startSaving save.machine.page save.settings.doCompress save.dev fd
      ((save.around ⟨[], 0⟩ [] 0).swapNeeded size) = .ok started) :
    save.dataPath key fd =
      (⟨(save.saved key nrPages started.writer).2.passed,
          (save.saved key nrPages started.writer).1⟩,
        save.machine.crypto.md5 (save.saved key nrPages started.writer).2.ctx.flatten) := by
  unfold dataPath
  rw [info]
  dsimp only
  rw [starts]

theorem startSaving_written {Page : Type} {page : PageSize} {doCompress : Bool} {grants : Grants}
    {fd : Device Page} {swapNeeded : Int} {started : SwapWriter.Started Page}
    (starts : SwapWriter.startSaving page doCompress grants fd swapNeeded = .ok started) :
    started.writer.writtenData = 0 := by
  obtain ⟨_, _, _, _, _, _, rfl, _, rfl⟩ := SwapWriter.startSaving_success starts
  exact SwapWriter.preallocateSwap_written _

theorem done_saved {image : List Bytes} (input : save.input = image.map .page)
    (full : ∀ src ∈ image, src.length = save.machine.page.bytes)
    (done : (save.write key fd verified).Done key fd size nrPages started) :
    (save.saved key nrPages started.writer).1 = 0 ∧
      (save.write key fd verified).data.passed =
        (save.saved key nrPages started.writer).2.swap ∧
      ((save.write key fd verified).writeImage key fd).header.imageDataSize =
        (save.saved key nrPages started.writer).2.writtenData := by
  have path := dataPath_started key done.prepared.info done.prepared.starts
  have data : (save.write key fd verified).data = (save.dataPath key fd).1 := rfl
  rw [path] at data
  have success := done.saved.data
  rw [data] at success
  obtain ⟨coded, _, swap, passed, written⟩ := (saved_stored input full success).pages
  refine ⟨success, ?_, ?_⟩
  · rw [data, swap]
    exact passed
  · rw [done.header_fields.2.2.1, written]
    have count := SwapWriter.savePages_written done.saved.pages
    rw [startSaving_written done.prepared.starts, data] at count
    unfold WriteEnv.savedWriter
    rw [SwapWriter.saveExtents_written, data]
    apply count.trans
    rw [passed]
    rfl

end ImageSave

end Suspend
