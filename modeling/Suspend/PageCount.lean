import Suspend.ImageOnDisk
import Suspend.SaveAccounts
import Suspend.SwapNeeded

set_option autoImplicit false

namespace Suspend

theorem ResumeEnv.loadFor_few (env : ResumeEnv) (settings : LoadSettings) (verifyOnly : Bool)
    (accepts : Nat → Bool) (state : env.cipher.State) (header : ImageHeader) (swap : List Bytes) :
    (env.loadFor settings verifyOnly accepts state header swap).2.1.length ≤
      ImageSave.rounds header.pages := by
  have few := SaveEnv.loadLoop_delivered (env.loaderFor settings verifyOnly accepts)
    (header.pages % 2 ^ 32 - 1) 0 ⟨⟨swap, state, header.imageDataSize, env.memory, []⟩, 0, 0, []⟩
  apply few.trans
  unfold ImageSave.rounds
  rw [List.length_nil]
  omega

theorem ResumeEnv.load_few (env : ResumeEnv) (state : env.cipher.State) (accepts : Nat → Bool)
    (header : ImageHeader) (fd : Device Bytes) :
    (env.load state accepts header fd).2.length ≤ ImageSave.rounds header.pages := by
  unfold ResumeEnv.load
  split
  · exact Nat.zero_le _
  · exact env.loadFor_few _ _ _ _ _ _

namespace ImageSave

open ReadEnv (Plenty)

/-- No call of `next_swap_page` finds an extent behind the last one in use. -/
def Clean (save : ImageSave) (key : KeyState) (fd : Device Bytes) : Prop :=
  ∀ size nrPages started, (save.around ⟨[], 0⟩ [] 0).imageInfo = .ok (size, nrPages) →
    SwapWriter.startSaving save.machine.page save.settings.doCompress save.dev fd
      ((save.around ⟨[], 0⟩ [] 0).swapNeeded size) = .ok started →
    started.writer.NeverLeftover save.machine.page save.settings.doCompress
      (save.dataPath key fd).1.passed

variable {save : ImageSave} {key : KeyState} {fd : Device Bytes} {verified : Int}
  {size nrPages : Nat} {started : SwapWriter.Started Bytes} {image : List Bytes}

theorem passed_length (input : save.input = image.map .page)
    (full : ∀ src ∈ image, src.length = save.machine.page.bytes)
    (done : (save.write key fd verified).Done key fd size nrPages started) :
    (save.write key fd verified).data.passed.length =
      (save.saveEnv (save.outcomes started.writer)).pagesNeeded image := by
  obtain ⟨success, passed, _⟩ := done_saved input full done
  obtain ⟨coded, encoded, swap, _⟩ := (saved_stored input full success).pages
  rw [passed, swap]
  apply (SaveEnv.code_length encoded).trans
  exact SaveEnv.plainPages_length _ _

/-- Without compression there is no such extent, if the size is that of the pages. -/
theorem never_leftover (aligned : ∀ offset ∈ save.dev, 0 ≤ offset ∧
      (save.machine.page.bytes : Int) ∣ offset) (distinct : save.dev.Nodup)
    (fresh : fd.tablesWritten = []) (input : save.input = image.map .page)
    (full : ∀ src ∈ image, src.length = save.machine.page.bytes)
    (sized : size = save.machine.page.bytes * image.length)
    (done : (save.write key fd verified).Done key fd size nrPages started)
    (clean : save.settings.doCompress = true → save.Clean key fd) :
    started.writer.NeverLeftover save.machine.page save.settings.doCompress
      (save.write key fd verified).data.passed := by
  cases compresses : save.settings.doCompress with
  | true =>
      have never := clean compresses size nrPages started done.prepared.info done.prepared.starts
      rwa [compresses] at never
  | false =>
      have starts := done.prepared.starts
      have saved := done.saved.pages
      have count := passed_length input full done
      rw [SaveEnv.pagesNeeded_plain compresses full] at count
      have settings : (save.write key fd verified).settings = save.settings := rfl
      have page : (save.write key fd verified).page = save.machine.page := rfl
      rw [settings, compresses, page] at starts saved
      have needed : (save.write key fd verified).swapNeeded size =
          save.machine.page.offset (save.write key fd verified).data.passed.length := by
        unfold WriteEnv.swapNeeded PageSize.offset
        rw [settings, compresses, if_neg Bool.false_ne_true, count, sized]
        push_cast
        rfl
      rw [needed] at starts
      obtain ⟨surplus, _, balanced, _⟩ :=
        SwapWriter.startSaving_balanced aligned distinct fresh starts
      have laid := SwapWriter.startSaving_laid aligned distinct fresh starts
      exact (SwapWriter.Balanced.run laid aligned distinct balanced saved).1

/-- What the two ways of learning the size make of the number of pages. -/
theorem imageInfo_pages (told : 0 < save.imageSize →
      save.imageSize = save.machine.page.bytes * image.length)
    (input : save.input = image.map .page)
    (counted : ∀ first, image.head? = some first →
      save.infoOf first = (save.machine.page.bytes * image.length, image.length))
    (info : (save.write key fd verified).imageInfo = .ok (size, nrPages)) :
    size = save.machine.page.bytes * image.length ∧
      nrPages = if 0 < save.imageSize then image.length else image.length - 1 := by
  have positive := save.machine.page.bytes_pos
  unfold WriteEnv.imageInfo at info
  have known : (save.write key fd verified).imageSize = save.imageSize := rfl
  rw [known] at info
  by_cases tells : 0 < save.imageSize
  · rw [if_pos tells, told tells] at info
    cases info
    refine ⟨by norm_cast, ?_⟩
    rw [if_pos tells]
    have pages : ((save.machine.page.bytes : Int) * (image.length : Int)).toNat =
        save.machine.page.bytes * image.length := by norm_cast
    rw [pages]
    exact Foundation.Memory.covering_mul positive
  · rw [if_neg tells] at info ⊢
    cases image with
    | nil =>
        have none : (save.write key fd verified).info = .error ⟨-EFAULT, efault_ne_zero⟩ := by
          change save.info = _
          rw [ImageSave.info, input]
          rfl
        rw [none] at info
        cases info
    | cons first rest =>
        have found : (save.write key fd verified).info =
            .ok (save.machine.page.bytes * (first :: rest).length, (first :: rest).length) := by
          change save.info = _
          rw [ImageSave.info, input]
          exact congrArg Except.ok (counted first rfl)
        rw [found] at info
        cases info
        exact ⟨rfl, rfl⟩

theorem load_back (documented : save.machine.lzo.Documented)
    (inverts : save.machine.cipher.Inverts save.machine.page (save.start key))
    (pages : ∀ src, save.machine.bytes (.data src) = src)
    (aligned : ∀ offset ∈ save.dev, 0 ≤ offset ∧ (save.machine.page.bytes : Int) ∣ offset)
    (distinct : save.dev.Nodup) (fresh : fd.tablesWritten = [])
    (input : save.input = image.map .page)
    (full : ∀ src ∈ image, src.length = save.machine.page.bytes)
    (done : (save.write key fd verified).Done key fd size nrPages started)
    (never : started.writer.NeverLeftover save.machine.page save.settings.doCompress
      (save.write key fd verified).data.passed)
    (rounded : rounds ((save.write key fd verified).writeImage key fd).header.pages =
      image.length)
    {reader : Device Bytes} (same : ∀ offset, reader.content (.page offset) =
      ((save.write key fd verified).writeImage key fd).fd.content (.page offset))
    (plenty : Plenty reader (2 * (save.write key fd verified).data.passed.length + 1)) :
    save.machine.load (save.start key) (fun _ => true)
      ((save.write key fd verified).writeImage key fd).header reader = (0, image) := by
  obtain ⟨extra, ahead⟩ : ∃ extra, save.machine.initSwapReader
      ((save.write key fd verified).writeImage key fd).header reader =
        .ok ((save.write key fd verified).data.passed ++ extra) :=
    passed_ahead aligned distinct fresh pages done never same plenty
  obtain ⟨saved, passed, written⟩ := done_saved input full done
  rw [passed] at ahead
  unfold ResumeEnv.load
  rw [ahead]
  dsimp only
  obtain ⟨loads, delivered, _⟩ := loadFor_saved documented inverts input full saved written
    (done.header_fields.2.2.2 false) rounded.le (fun _ _ => Bool.or_true _) extra
  rw [rounded, List.take_length] at delivered
  rw [loads, delivered]

/-- Two pages of 4096 bytes, read from the snapshot device. -/
def twoPages : List Bytes := [List.replicate 4096 1, List.replicate 4096 2]

theorem twoPages_full : ∀ src ∈ twoPages, src.length = 4096 := by
  intro src member
  rcases List.mem_pair.mp member with rfl | rfl
  · exact List.length_replicate
  · exact List.length_replicate

theorem nothing_allocated : (none : Option Bytes).map List.length = none := rfl

/-- A save of two pages with nothing but the pages, where everything works. -/
def ofTwo (imageSize : Int) : ImageSave where
  machine := ResumeEnv.plainReader
  settings := ⟨false, false, false, false⟩
  testMode := false
  platform := false
  resumePause := 0
  salt := []
  dev := [4096, 8192, 12288, 16384]
  freeSwap := 16384
  imageSize := imageSize
  infoOf := fun _ => (8192, 2)
  input := twoPages.map .page
  aborted := fun _ => false
  lzoInit := 0
  verifyReads := []
  writeBuffer := none
  allocated := nothing_allocated

def swapArea : Device Bytes := WriteEnv.freshSwap (List.replicate 6 true)

/-- The device after the save. -/
def afterwards (imageSize : Int) : Device Bytes :=
  ⟨((ofTwo imageSize).writeImage WriteEnv.noKey swapArea).fd.content, [], List.replicate 5 true⟩

/-- The image that `write_image` has saved comes back as it was read, page for page, if and only if
the kernel told its size, and the number of its pages fits in an unsigned int. -/
theorem header_pages_iff (save : ImageSave) (key : KeyState) (fd : Device Bytes)
    (image : List Bytes) (input : save.input = image.map .page)
    (full : ∀ src ∈ image, src.length = save.machine.page.bytes) (two : 2 ≤ image.length)
    (told : 0 < save.imageSize → save.imageSize = save.machine.page.bytes * image.length)
    (counted : ∀ first, image.head? = some first →
      save.infoOf first = (save.machine.page.bytes * image.length, image.length))
    (documented : save.machine.lzo.Documented)
    (inverts : save.machine.cipher.Inverts save.machine.page (save.start key))
    (pages : ∀ src, save.machine.bytes (.data src) = src)
    (aligned : ∀ offset ∈ save.dev, 0 ≤ offset ∧ (save.machine.page.bytes : Int) ∣ offset)
    (distinct : save.dev.Nodup) (fresh : fd.tablesWritten = [])
    (clean : save.settings.doCompress = true → save.Clean key fd)
    (success : (save.writeImage key fd).error = 0) (reader : Device Bytes)
    (same : ∀ offset, reader.content (.page offset) =
      (save.writeImage key fd).fd.content (.page offset))
    (plenty : Plenty reader (2 * (save.dataPath key fd).1.passed.length + 1)) :
    save.machine.load (save.start key) (fun _ => true) (save.writeImage key fd).header reader =
      (0, image) ↔ 0 < save.imageSize ∧ image.length < 2 ^ 32 := by
  obtain ⟨size, nrPages, started, done⟩ := WriteEnv.done_of_success success
  obtain ⟨sized, count⟩ := imageInfo_pages told input counted done.prepared.info
  have never := never_leftover aligned distinct fresh input full sized done clean
  have announced : (save.writeImage key fd).header.pages = nrPages := done.header_fields.1
  constructor
  · intro back
    have few := save.machine.load_few (save.start key) (fun _ => true)
      (save.writeImage key fd).header reader
    rw [back, announced, rounds] at few
    dsimp only at few
    split at count <;> omega
  · rintro ⟨tells, small⟩
    rw [if_pos tells] at count
    apply load_back documented inverts pages aligned distinct fresh input full done never _ same
      plenty
    change rounds (save.writeImage key fd).header.pages = image.length
    rw [announced, count, rounds, Nat.mod_eq_of_lt small]
    omega

set_option maxRecDepth 100000 in
theorem ofTwo_succeeds : ((ofTwo 8192).writeImage WriteEnv.noKey swapArea).error = 0 := by
  decide +kernel

set_option maxRecDepth 100000 in
theorem ofTwo_passed :
    ((ofTwo 8192).dataPath WriteEnv.noKey swapArea).1.passed.length = 2 := by
  decide +kernel

/-- Where the kernel tells the size, both pages are back. -/
theorem ofTwo_loaded : (ofTwo 8192).machine.load ((ofTwo 8192).start WriteEnv.noKey)
    (fun _ => true) ((ofTwo 8192).writeImage WriteEnv.noKey swapArea).header (afterwards 8192) =
      (0, twoPages) := by
  have plenty : Plenty (afterwards 8192)
      (2 * ((ofTwo 8192).dataPath WriteEnv.noKey swapArea).1.passed.length + 1) :=
    ⟨by rw [ofTwo_passed]; exact Nat.le_refl 5, List.forall_mem_replicate.mpr (Or.inr rfl)⟩
  exact (header_pages_iff (ofTwo 8192) WriteEnv.noKey swapArea twoPages rfl twoPages_full
    (by decide) (fun _ => rfl) (fun _ _ => rfl) passThrough_documented
    (SaveEnv.transparent_inverts _) (fun _ => rfl) (by decide) (by decide) rfl
    (by intro same; cases same) ofTwo_succeeds (afterwards 8192) (fun _ => rfl) plenty).mpr
    ⟨by decide, by decide⟩

set_option maxRecDepth 100000 in
/-- Where it does not, the second page of the saved image is never read. -/
theorem ofTwo_truncated : ((ofTwo 0).writeImage WriteEnv.noKey swapArea).error = 0 ∧
    (ofTwo 0).machine.load ((ofTwo 0).start WriteEnv.noKey) (fun _ => true)
      ((ofTwo 0).writeImage WriteEnv.noKey swapArea).header (afterwards 0) =
        (0, twoPages.take 1) := by
  decide +kernel

end ImageSave

end Suspend
