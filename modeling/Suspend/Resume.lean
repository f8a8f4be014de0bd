import Suspend.Encryption
import Suspend.LoadImage
import Suspend.Signature
import Suspend.SwapReader

set_option autoImplicit false

namespace Suspend

open Foundation.CachedDisk

/-- The machine and the libraries of `resume`. What a page was written as does not matter to the
reader, which may find anything in it. -/
structure ResumeEnv where
  page : PageSize
  crypto : Crypto
  cipher : PageCipher
  start : Bytes → Bytes → cipher.State
  lzo : Lzo
  bytes : Cell Bytes → Bytes
  headerOf : Cell Bytes → ImageHeader
  tables : Reinterpretation Bytes
  memory : Bytes

namespace ResumeEnv

/-- An image that `read_or_verify` has loaded: its header, the pages passed on to the kernel, and
the buffers that were checksummed. -/
structure Image where
  header : ImageHeader
  delivered : List Bytes
  ctx : List Bytes

/-- What `main` does: the requests to the resume device, and the image that
`SNAPSHOT_ATOMIC_RESTORE` is issued for. -/
structure Run where
  log : List (DiskOp Bytes)
  restored : Option Image

end ResumeEnv

/-- What one run of `main` is answered: whether the devices can be opened, the reads of the resume
device, the initialization of LZO, the passphrases that are typed, the pages the kernel takes,
`freeze`, whether the user reboots after an error, whether the record can be written and whether
`fsync` brings it to the disk. `astray` is what becomes of a run that has written outside of its
buffers, or read there: it may do anything. -/
structure ResumeAnswers where
  opens : Bool
  reads : List Bool
  lzoInit : Int
  typed : List Bytes
  accepts : Nat → Bool
  freeze : Int
  reboots : Bool
  resets : Bool
  syncs : Bool
  astray : ResumeEnv.Run

namespace ResumeAnswers

/-- `open_resume_dev`: the record, when it carries the signature. -/
def openResumeDev (answers : ResumeAnswers) (disk : DiskContent Bytes) :
    Option (SwsuspHeader × Device Bytes) :=
  let found := (⟨disk, [], answers.reads⟩ : Device Bytes).transfer
  if answers.opens ∧ found.1 ∧ (disk .record).sig = SWSUSP_SIG then some (disk .record, found.2)
  else none

/-- The requests of `reset_signature`, which does not look at what `fsync` returns. -/
def resetSignature (answers : ResumeAnswers) (record : SwsuspHeader) : List (DiskOp Bytes) :=
  if answers.resets then
    .write .record { record with sig := record.origSig } ::
      if answers.syncs then [.sync] else []
  else []

/-- The record that `reset_signature` writes reaches the disk. -/
def persists (answers : ResumeAnswers) : Bool := answers.resets && answers.syncs

end ResumeAnswers

namespace ResumeEnv

variable (env : ResumeEnv)

/-- The switches of `load.c` for a header, and the kernel that takes the pages. -/
abbrev loader (header : ImageHeader) (accepts : Nat → Bool) : LoadEnv where
  page := env.page
  settings := LoadSettings.ofFlags header.flags false
  lzo := env.lzo
  cipher := env.cipher
  verifyOnly := false
  accepts := accepts

/-- The pages that the swap reader comes to, up to the first one that cannot be read. -/
def queue : Nat → SwapReader Bytes → List Bytes
  | 0, _ => []
  | reads + 1, handle =>
      if handle.curOffset = 0 then []
      else
        let read := handle.fd.readPage (.data []) handle.curOffset
        if read.1 ≠ 0 then []
        else
          env.bytes read.2.1 ::
            queue reads (SwapReader.findNextImagePage env.page env.tables
              { handle with fd := read.2.2 })

/-- `init_swap_reader`, and the pages ahead of the reader. -/
def initSwapReader (header : ImageHeader) (fd : Device Bytes) : Except Int (List Bytes) :=
  if header.mapStart = 0 then .error (-EINVAL)
  else
    let loaded := SwapReader.loadExtentsPage env.page env.tables
      { extents := Table.zero
        curExtent := 0
        curOffset := 0
        nextExtents := header.mapStart
        totalSize := header.imageDataSize
        fd := fd }
    if loaded.1 ≠ 0 then .error loaded.1 else .ok (env.queue fd.outcomes.length loaded.2)

/-- The key set-up of `read_or_verify`, `none` while the passphrase is being asked for. -/
def setupCipher (header : ImageHeader) (typed : List Bytes) :
    Option (Except Int env.cipher.State) :=
  if header.flags.encrypted then
    (env.crypto.restoreKey header typed).map fun answer =>
      answer.map fun (key, ivec) => env.start key ivec
  else some (.ok (env.start [] []))

/-- `read_or_verify` on resume, up to `load_image`: the header and what the swap reader starts with.
It is `none` while the passphrase is being asked for. -/
def openImage (answers : ResumeAnswers) (fd : Device Bytes) (start : Int) :
    Option (Except Int (ImageHeader × Source env.cipher)) :=
  let read := fd.readPage (.header ImageHeader.zero) start
  let header := env.headerOf read.2.1
  if read.1 ≠ 0 then some (.error read.1)
  else if header.flags.compressed ∧ answers.lzoInit ≠ 0 then some (.error (-EFAULT))
  else
    (env.setupCipher header answers.typed).map fun
      | .error error => .error error
      | .ok state =>
          (env.initSwapReader header read.2.2).map fun swap =>
            (header, ⟨swap, state, header.imageDataSize, env.memory, []⟩)

/-- The rest of `read_or_verify`: the image is loaded and its checksum compared. -/
def loadAndCheck (accepts : Nat → Bool) (header : ImageHeader) (source : Source env.cipher) :
    Except Int Image :=
  let image := (env.loader header accepts).loadImage header.pages source
  if image.1 ≠ 0 then .error image.1
  else if header.flags.checksum ∧ env.crypto.md5 image.2.source.ctx.flatten ≠ header.checksum then
    .error (-EINVAL)
  else .ok ⟨header, image.2.delivered, image.2.source.ctx⟩

/-- `read_or_verify` on resume. -/
def readOrVerify (answers : ResumeAnswers) (fd : Device Bytes) (start : Int) :
    Option (Except Int Image) :=
  (env.openImage answers fd start).map fun opened =>
    opened.bind fun (header, source) => env.loadAndCheck answers.accepts header source

/-- Loading the image leaves the buffers of the swap reader. -/
def strays (answers : ResumeAnswers) (fd : Device Bytes) (start : Int) : Bool :=
  (env.openImage answers fd start).any fun opened =>
    opened.toOption.any fun (header, source) =>
      (env.loader header answers.accepts).strays (header.pages % 2 ^ 32 - 1) 0 ⟨source, 0, 0, []⟩

/-- `main` of `resume`. -/
def main (answers : ResumeAnswers) (disk : DiskContent Bytes) : Run :=
  match answers.openResumeDev disk with
  | none => ⟨[], none⟩
  | some (record, fd) =>
      if env.strays answers fd record.image then answers.astray
      else
        match env.readOrVerify answers fd record.image with
        | none => ⟨[], none⟩
        | some (.ok image) =>
            if answers.freeze = 0 then ⟨answers.resetSignature record, some image⟩
            else if answers.reboots then ⟨[], none⟩
            else ⟨answers.resetSignature record, none⟩
        | some (.error _) =>
            if answers.reboots then ⟨[], none⟩ else ⟨answers.resetSignature record, none⟩

/-- `main` does not leave the buffers that it loads the image through. -/
def StaysInside (answers : ResumeAnswers) (disk : DiskContent Bytes) : Prop :=
  ∀ record fd, answers.openResumeDev disk = some (record, fd) →
    env.strays answers fd record.image = false

/-- The record reaches the disk, unless there is nothing to change, and the number of pages is one
that `load_image` can count to. -/
structure Careful (answers : ResumeAnswers) (disk : DiskContent Bytes) (image : Image) : Prop where
  persists : answers.persists = true ∨ (disk .record).origSig = SWSUSP_SIG
  some : 0 < image.header.pages
  small : image.header.pages < 2 ^ 32

variable {env}

theorem loadAndCheck_ok {accepts : Nat → Bool} {header : ImageHeader} {source : Source env.cipher}
    {image : Image} (loaded : env.loadAndCheck accepts header source = .ok image) :
    let result := (env.loader header accepts).loadImage header.pages source
    result.1 = 0 ∧ image = ⟨header, result.2.delivered, result.2.source.ctx⟩ ∧
      (header.flags.checksum = true →
        env.crypto.md5 result.2.source.ctx.flatten = header.checksum) := by
  unfold loadAndCheck at loaded
  dsimp only at loaded
  split at loaded
  · cases loaded
  · next success =>
    split at loaded
    · cases loaded
    · next agrees =>
      cases loaded
      refine ⟨of_not_not success, rfl, fun checks => ?_⟩
      by_contra different
      exact agrees ⟨checks, different⟩

theorem readOrVerify_ok {answers : ResumeAnswers} {fd : Device Bytes} {start : Int} {image : Image}
    (loaded : env.readOrVerify answers fd start = some (.ok image)) :
    ∃ header source, env.openImage answers fd start = some (.ok (header, source)) ∧
      env.loadAndCheck answers.accepts header source = .ok image := by
  obtain ⟨opened, answer, found⟩ := Option.map_eq_some_iff.mp loaded
  cases opened with
  | error error => cases found
  | ok result => exact ⟨result.1, result.2, answer, found⟩

theorem openResumeDev_found {answers : ResumeAnswers} {disk : DiskContent Bytes}
    {found : SwsuspHeader × Device Bytes} (opened : answers.openResumeDev disk = some found) :
    (disk .record).sig = SWSUSP_SIG ∧ found.1 = disk .record := by
  unfold ResumeAnswers.openResumeDev at opened
  dsimp only at opened
  split at opened
  · next signed =>
    cases opened
    exact ⟨signed.2.2, rfl⟩
  · cases opened

/-- With a device opened, a run that stays inside its buffers goes on with what has been read. -/
theorem main_inside {answers : ResumeAnswers} {disk : DiskContent Bytes}
    (inside : env.StaysInside answers disk) {fd : Device Bytes}
    (opened : answers.openResumeDev disk = some (disk .record, fd)) :
    env.main answers disk =
      match env.readOrVerify answers fd (disk .record).image with
      | none => ⟨[], none⟩
      | some (.ok image) =>
          if answers.freeze = 0 then ⟨answers.resetSignature (disk .record), some image⟩
          else if answers.reboots then ⟨[], none⟩
          else ⟨answers.resetSignature (disk .record), none⟩
      | some (.error _) =>
          if answers.reboots then ⟨[], none⟩
          else ⟨answers.resetSignature (disk .record), none⟩ := by
  unfold main
  rw [opened]
  dsimp only
  rw [inside _ _ opened, if_neg Bool.false_ne_true]

/-- Without a device to resume from `main` does nothing. -/
theorem main_unopened {answers : ResumeAnswers} {disk : DiskContent Bytes}
    (unopened : answers.openResumeDev disk = none) : env.main answers disk = ⟨[], none⟩ := by
  unfold main
  rw [unopened]

/-- The record is reset, or left alone. -/
theorem main_log {answers : ResumeAnswers} {disk : DiskContent Bytes}
    (inside : env.StaysInside answers disk) :
    (env.main answers disk).log = [] ∨
      (env.main answers disk).log = answers.resetSignature (disk .record) := by
  cases opened : answers.openResumeDev disk with
  | none => exact .inl (by rw [main_unopened opened])
  | some found =>
      obtain ⟨_, record⟩ := openResumeDev_found opened
      obtain ⟨_, fd⟩ := found
      subst record
      rw [main_inside inside opened]
      split
      · exact .inl rfl
      · split
        · exact .inr rfl
        · split
          · exact .inl rfl
          · exact .inr rfl
      · split
        · exact .inl rfl
        · exact .inr rfl

theorem unsigned_inside (env : ResumeEnv) (answers : ResumeAnswers) {disk : DiskContent Bytes}
    (unsigned : (disk .record).sig ≠ SWSUSP_SIG) : env.StaysInside answers disk :=
  fun _ _ opened => absurd (openResumeDev_found opened).1 unsigned

/-- Without the signature `main` does nothing. -/
theorem main_unsigned (env : ResumeEnv) (answers : ResumeAnswers) {disk : DiskContent Bytes}
    (unsigned : (disk .record).sig ≠ SWSUSP_SIG) : env.main answers disk = ⟨[], none⟩ := by
  cases opened : answers.openResumeDev disk with
  | none => exact main_unopened opened
  | some found => exact absurd (openResumeDev_found opened).1 unsigned

theorem main_restored {answers : ResumeAnswers} {disk : DiskContent Bytes} {image : Image}
    (inside : env.StaysInside answers disk)
    (restored : (env.main answers disk).restored = some image) :
    (disk .record).sig = SWSUSP_SIG ∧ answers.freeze = 0 ∧
      (env.main answers disk).log = answers.resetSignature (disk .record) ∧
      ∃ fd, answers.openResumeDev disk = some (disk .record, fd) ∧
        env.readOrVerify answers fd (disk .record).image = some (.ok image) := by
  cases opened : answers.openResumeDev disk with
  | none =>
      rw [main_unopened opened] at restored
      cases restored
  | some found =>
      obtain ⟨signed, record⟩ := openResumeDev_found opened
      obtain ⟨_, fd⟩ := found
      subst record
      rw [main_inside inside opened] at restored ⊢
      cases answer : env.readOrVerify answers fd (disk .record).image with
      | none => simp [answer] at restored
      | some result =>
          cases result with
          | error error =>
              simp only [answer] at restored
              split at restored <;> cases restored
          | ok loaded =>
              simp only [answer] at restored ⊢
              by_cases frozen : answers.freeze = 0
              · rw [if_pos frozen] at restored ⊢
                cases restored
                exact ⟨signed, frozen, rfl, fd, rfl, answer⟩
              · rw [if_neg frozen] at restored
                split at restored <;> cases restored

/-- Once `fsync` has succeeded it is reset for good. -/
theorem resetSignature_persists {answers : ResumeAnswers} {disk left : DiskContent Bytes}
    (persists : answers.persists = true)
    (lost : MayLeave disk (answers.resetSignature (disk .record)) left) :
    left .record = { disk .record with sig := (disk .record).origSig } := by
  let record : SwsuspHeader := { disk .record with sig := (disk .record).origSig }
  obtain ⟨resets, syncs⟩ := Bool.and_eq_true_iff.mp persists
  have log : answers.resetSignature (disk .record) = [.write .record record] ++ .sync :: [] := by
    rw [ResumeAnswers.resetSignature, if_pos resets, if_pos syncs]
    rfl
  rw [log] at lost
  rw [lost.synced fun op member => absurd member List.not_mem_nil]
  exact Function.update_self (β := Place.Content Bytes) .record record disk

/-- A boot, which may be cut short: the requests that have been made, whether all of `main` has
run, and the disk afterwards. -/
structure Boot where
  answers : ResumeAnswers
  found : DiskContent Bytes
  issued : List (DiskOp Bytes)
  completed : Bool
  left : DiskContent Bytes

/-- The boot follows `main`, and its end may lose what has not been synced. -/
structure Boot.Possible (env : ResumeEnv) (boot : Boot) : Prop where
  part : boot.issued <+: (env.main boot.answers boot.found).log
  whole : boot.completed = true → boot.issued = (env.main boot.answers boot.found).log
  lost : MayLeave boot.found boot.issued boot.left

/-- The image that is restored. -/
def Boot.restores (env : ResumeEnv) (boot : Boot) : Option Image :=
  if boot.completed then (env.main boot.answers boot.found).restored else none

/-- One boot after the other, on the same resume device. In between, the swap pages may be used,
but no image is saved. -/
structure Boots (env : ResumeEnv) (boots : List Boot) : Prop where
  possible : ∀ boot ∈ boots, boot.Possible env
  linked : boots.IsChain fun first second => second.found .record = first.left .record

theorem Boots.tail {boot : Boot} {boots : List Boot} (run : Boots env (boot :: boots)) :
    Boots env boots :=
  ⟨fun other member => run.possible other (List.mem_cons_of_mem _ member), run.linked.of_cons⟩

theorem Boots.next {boot next : Boot} {boots : List Boot} (run : Boots env (boot :: boots))
    (first : boots.head? = some next) : next.found .record = boot.left .record := by
  cases boots with
  | nil => cases first
  | cons other rest =>
      cases first
      exact (List.isChain_cons_cons.mp run.linked).1

theorem Boot.Possible.record {boot : Boot} (possible : boot.Possible env)
    (inside : env.StaysInside boot.answers boot.found) :
    boot.left .record = boot.found .record ∨
      boot.left .record =
        { boot.found .record with sig := (boot.found .record).origSig } := by
  refine (possible.lost.origin .record).imp_right fun ⟨value, member, written⟩ => ?_
  rw [written]
  have issued := possible.part.subset member
  rcases main_log inside with none | reset
  · rw [none] at issued
    exact absurd issued List.not_mem_nil
  · rw [reset, ResumeAnswers.resetSignature] at issued
    split at issued
    · split at issued <;> simpa using issued
    · exact absurd issued List.not_mem_nil

theorem Boot.restores_main {boot : Boot} {image : Image}
    (restored : boot.restores env = some image) :
    boot.completed = true ∧ (env.main boot.answers boot.found).restored = some image := by
  unfold Boot.restores at restored
  split at restored
  · next completed => exact ⟨completed, restored⟩
  · cases restored

/-- After a restore with the record on the disk the signature is gone for good. -/
theorem Boot.Possible.reset {boot : Boot} (possible : boot.Possible env)
    (inside : env.StaysInside boot.answers boot.found) {image : Image}
    (restored : boot.restores env = some image) (persists : boot.answers.persists = true) :
    boot.left .record = { boot.found .record with sig := (boot.found .record).origSig } := by
  obtain ⟨completed, main⟩ := Boot.restores_main restored
  obtain ⟨_, _, log, _⟩ := main_restored inside main
  apply resetSignature_persists persists
  rw [← log, ← possible.whole completed]
  exact possible.lost

/-- Without the signature no boot restores anything. -/
theorem Boots.none {boots : List Boot} (run : Boots env boots)
    (unsigned : ∀ boot, boots.head? = some boot → (boot.found .record).sig ≠ SWSUSP_SIG) :
    ∀ boot ∈ boots, boot.restores env = none := by
  induction boots with
  | nil => exact fun _ member => absurd member List.not_mem_nil
  | cons boot rest ih =>
      have idle := main_unsigned env boot.answers (unsigned boot rfl)
      have here : boot.restores env = Option.none := by
        unfold Boot.restores
        rw [idle]
        split <;> rfl
      have kept : boot.left .record = boot.found .record := by
        have lost := (run.possible boot List.mem_cons_self).lost
        have none := (run.possible boot List.mem_cons_self).part
        rw [idle] at none
        rw [List.prefix_nil.mp none] at lost
        rw [lost.nothing]
      intro other member
      rcases List.mem_cons.mp member with rfl | later
      · exact here
      · refine ih run.tail (fun next first => ?_) other later
        rw [run.next first, kept]
        exact unsigned boot rfl

theorem Boots.at_most_once {boots : List Boot} (run : Boots env boots)
    (inside : ∀ boot ∈ boots, env.StaysInside boot.answers boot.found)
    (careful : ∀ boot ∈ boots, ∀ image, boot.restores env = some image →
      Careful boot.answers boot.found image)
    (swap : ∀ boot, boots.head? = some boot → IsSwap (boot.found .record).origSig) :
    (boots.filter fun boot => (boot.restores env).isSome).length ≤ 1 := by
  induction boots with
  | nil => exact Nat.zero_le 1
  | cons boot rest ih =>
      have possible := run.possible boot List.mem_cons_self
      have insideHere := inside boot List.mem_cons_self
      have swapHere := swap boot rfl
      cases restored : boot.restores env with
      | none =>
          rw [List.filter_cons_of_neg (by simp [restored])]
          refine ih run.tail (fun other member => inside other (List.mem_cons_of_mem _ member))
            (fun other member => careful other (List.mem_cons_of_mem _ member))
            fun next first => ?_
          rw [run.next first]
          rcases possible.record insideHere with same | reset
          · rwa [same]
          · rwa [reset]
      | some image =>
          have persists := (careful boot List.mem_cons_self image restored).persists.resolve_right
            swapHere.unmarked
          have gone : ∀ other ∈ rest, other.restores env = Option.none := by
            refine run.tail.none fun next first => ?_
            rw [run.next first, possible.reset insideHere restored persists]
            exact swapHere.unmarked
          rw [List.filter_cons_of_pos (by simp [restored]), List.length_cons,
            List.filter_eq_nil_iff.mpr fun other member => by simp [gone other member]]
          exact le_refl 1

/-- A machine that does not encrypt or compress. -/
def plainReader : ResumeEnv where
  page := PageSize.fourKilobytes
  crypto := Crypto.rejecting []
  cipher := ⟨Unit, fun state src => .ok (src, state), fun state coded => .ok (coded, state)⟩
  start := fun _ _ => ()
  lzo := ⟨id, some⟩
  bytes
    | .data page => page
    | _ => []
  headerOf
    | .header header => header
    | _ => ImageHeader.zero
  tables := ⟨fun _ => Table.zero, fun _ => Table.zero⟩
  memory := []

/-- A disk with a saved image of one page. -/
def signedDisk : DiskContent Bytes
  | .record => ⟨4096, SWAPSPACE2, SWSUSP_SIG⟩
  | .page offset =>
      if offset = 4096 then
        .header { ImageHeader.zero with pages := 1, mapStart := 8192, imageDataSize := 4096 }
      else if offset = 8192 then .extents (Function.update Table.zero 0 ⟨12288, 16384⟩)
      else .data [1]

/-- A run where everything works, except for writing the record or for `fsync` if so wanted. -/
def working (resets syncs : Bool) : ResumeAnswers where
  opens := true
  reads := List.replicate 5 true
  lzoInit := 0
  typed := []
  accepts := fun _ => true
  freeze := 0
  reboots := false
  resets := resets
  syncs := syncs
  astray := ⟨[], none⟩

/-- The image is restored, and `left` is what is then on the disk. -/
def resumed (answers : ResumeAnswers) (left : DiskContent Bytes) : Boot where
  answers := answers
  found := signedDisk
  issued := (plainReader.main answers signedDisk).log
  completed := true
  left := left

end ResumeEnv

end Suspend
