import Suspend.Memalloc
import Suspend.UntroubledSave

set_option autoImplicit false

namespace Suspend

open Foundation.Memory
open ReadEnv (Plenty)

def MIN_TEST_IMAGE_PAGES : Nat := 1024

namespace PageSize

variable (page : PageSize)

/-- What `main` makes of the size of the test file: `test_image_size`, or its exit status. -/
def testImageSize (size : Nat) : Except Int Nat :=
  if page.roundDownPageSize size < MIN_TEST_IMAGE_PAGES * page.bytes % 2 ^ 32 then .error ENODATA
  else .ok (page.roundDownPageSize size)

/-- What `save_image` reads from the file, a page at a time: the last read may be short. -/
def fileReads (file : Bytes) : List ImageRead :=
  if file = [] then []
  else if file.length < page.bytes then [.short]
  else .page (file.take page.bytes) :: fileReads (file.drop page.bytes)
termination_by file.length
decreasing_by
  have := page.bytes_pos
  rw [List.length_drop]
  omega

/-- The pages of a file that are there as a whole. -/
def wholePages (file : Bytes) : List Bytes :=
  slices page.bytes (file.length / page.bytes) file

variable {page}

theorem wholePages_full (file : Bytes) :
    ∀ src ∈ page.wholePages file, src.length = page.bytes :=
  fun _ member => mem_slices_length (Nat.mul_div_le _ _) member

theorem wholePages_length (file : Bytes) :
    (page.wholePages file).length = file.length / page.bytes :=
  slices_length _ _ _

theorem wholePages_flatten (file : Bytes) :
    (page.wholePages file).flatten = file.take (page.bytes * (file.length / page.bytes)) :=
  slices_flatten _ _ _

/-- All whole pages are read, and what is left behind them makes the last read a short one. -/
theorem fileReads_eq (file : Bytes) : page.fileReads file =
    (page.wholePages file).map .page ++ if page.bytes ∣ file.length then [] else [.short] := by
  have positive := page.bytes_pos
  unfold wholePages
  fun_induction fileReads page file with
  | case1 =>
      rw [List.length_nil, Nat.zero_div, if_pos (Nat.dvd_zero _)]
      rfl
  | case2 file some few =>
      have nonempty := List.length_pos_iff.mpr some
      rw [Nat.div_eq_of_lt few, if_neg (Nat.not_dvd_of_pos_of_lt nonempty few)]
      rfl
  | case3 file some enough ih =>
      obtain ⟨rest, size⟩ : ∃ rest, file.length = rest + page.bytes :=
        ⟨file.length - page.bytes, by omega⟩
      have behind : (file.drop page.bytes).length = rest := by
        rw [List.length_drop]
        omega
      rw [ih, behind, size, Nat.add_div_right _ positive, slices_succ, List.map_cons,
        List.cons_append]
      simp only [Nat.dvd_add_self_right]

/-- `main` takes every file that has enough pages, and rounds its size down. -/
theorem testImageSize_admissible {size : Nat} (regular : size < 2 ^ 63)
    (admissible : MIN_TEST_IMAGE_PAGES ≤ size / page.bytes) :
    page.testImageSize size = .ok (page.bytes * (size / page.bytes)) := by
  have rounded : page.roundDownPageSize size = page.bytes * (size / page.bytes) := by
    unfold roundDownPageSize
    rw [and_pageMask, Nat.mod_eq_of_lt (by omega), Nat.mul_comm]
  unfold testImageSize
  rw [rounded, if_neg]
  apply Nat.not_lt.mpr
  calc
    _ ≤ MIN_TEST_IMAGE_PAGES * page.bytes := Nat.mod_le _ _
    _ = page.bytes * MIN_TEST_IMAGE_PAGES := Nat.mul_comm _ _
    _ ≤ page.bytes * (size / page.bytes) := Nat.mul_le_mul_left _ admissible

end PageSize

namespace SaveEnv

variable {env : SaveEnv}

theorem saveLoop_short (m nrPages : Nat) (image : List Bytes) (pipe : Pipe env.cipher) :
    (env.saveLoop m nrPages (image.map .page ++ [.short]) pipe).1 ≠ 0 := by
  induction image generalizing nrPages pipe with
  | nil => exact efault_ne_zero
  | cons src rest ih =>
      rw [List.map_cons, List.cons_append, saveLoop]
      dsimp only
      split
      · exact (by decide : -EINTR ≠ 0)
      · split
        · split
          · next failed => exact failed
          · exact ih _ _
        · exact ih _ _

end SaveEnv

namespace ImageSave

/-- `write_image` in test mode, with a test file for which `main` has found this size. -/
def inTestMode (save : ImageSave) (size : Nat) (file : Bytes) : ImageSave :=
  { save with
    testMode := true
    imageSize := size
    input := save.machine.page.fileReads file }

/-- Test mode works for a file: `main` takes it, `write_image` succeeds, and whoever loads what it
has stored is given as many pages as the header announces, which are the first `test_image_size`
bytes of the file. -/
def TestModeWorks (save : ImageSave) (key : KeyState) (fd : Device Bytes) (file : Bytes) : Prop :=
  ∃ size, save.machine.page.testImageSize file.length = .ok size ∧
    let test := save.inTestMode size file
    let written := test.writeImage key fd
    written.error = 0 ∧
      ∀ reader : Device Bytes,
        (∀ offset, reader.content (.page offset) = written.fd.content (.page offset)) →
        Plenty reader (2 * (test.dataPath key fd).1.passed.length + 1) →
          ∃ image, test.machine.load (test.start key) (fun _ => true) written.header reader =
              (0, image) ∧
            image.length = written.header.pages ∧ image.flatten = file.take size

variable {save : ImageSave} {key : KeyState} {fd : Device Bytes} {file : Bytes}

theorem whole_of_success {size : Nat} (some : 0 < size)
    (success : ((save.inTestMode size file).writeImage key fd).error = 0) :
    save.machine.page.bytes ∣ file.length := by
  obtain ⟨_, nrPages, started, done⟩ := WriteEnv.done_of_success success
  have path := dataPath_started key done.prepared.info done.prepared.starts
  have saved := done.saved.data
  change ((save.inTestMode size file).dataPath key fd).1.error = 0 at saved
  rw [path] at saved
  dsimp only at saved
  by_contra remainder
  have reads : (save.inTestMode size file).remaining =
      (save.machine.page.wholePages file).map .page ++ [.short] := by
    have told : (0 : Int) < size := by exact_mod_cast some
    apply (if_pos told).trans
    apply (PageSize.fileReads_eq file).trans
    rw [if_neg remainder]
  unfold ImageSave.saved SaveEnv.saveImage at saved
  dsimp only at saved
  rw [reads, if_pos (SaveEnv.saveLoop_short _ _ _ _)] at saved
  exact SaveEnv.saveLoop_short _ _ _ _ saved

/-- Test mode works for a file that is long enough if and only if the file has no remainder behind
its last whole page, and the number of its pages fits in an unsigned int. -/
theorem test_mode_works_iff (save : ImageSave) (key : KeyState) (fd : Device Bytes) (file : Bytes)
    (regular : file.length < 2 ^ 63)
    (admissible : MIN_TEST_IMAGE_PAGES ≤ file.length / save.machine.page.bytes)
    (documented : save.machine.lzo.Documented)
    (inverts : save.machine.cipher.Inverts save.machine.page (save.start key))
    (pages : ∀ src, save.machine.bytes (.data src) = src)
    (headers : ∀ header, save.machine.headerOf (.header header) = header)
    (untroubled : (save.inTestMode (save.machine.page.bytes *
      (file.length / save.machine.page.bytes)) file).Untroubled key fd
        (save.machine.page.wholePages file))
    (fits : save.settings.doCompress = true →
      save.pagesNeeded (save.machine.page.wholePages file) ≤
        save.estimate (file.length / save.machine.page.bytes))
    (clean : save.settings.doCompress = true → (save.inTestMode (save.machine.page.bytes *
      (file.length / save.machine.page.bytes)) file).Clean key fd) :
    save.TestModeWorks key fd file ↔
      save.machine.page.bytes ∣ file.length ∧ file.length / save.machine.page.bytes < 2 ^ 32 := by
  have positive := save.machine.page.bytes_pos
  have sized := PageSize.testImageSize_admissible regular admissible
  have count := save.machine.page.wholePages_length file
  have full := save.machine.page.wholePages_full file
  have flat := save.machine.page.wholePages_flatten file
  generalize file.length / save.machine.page.bytes = quota at *
  have some : 0 < quota := Nat.lt_of_lt_of_le (by decide) admissible
  have bytes : 0 < save.machine.page.bytes * quota := Nat.mul_pos positive some
  generalize hsize : save.machine.page.bytes * quota = size at *
  have known (verified : Int) :
      ((save.inTestMode size file).write key fd verified).imageInfo = .ok (size, quota) := by
    have told : (0 : Int) < size := by exact_mod_cast bytes
    apply (if_pos told).trans
    rw [← hsize]
    exact congrArg (fun pages => Except.ok (_, pages)) (covering_mul positive)
  constructor
  · rintro ⟨size', found, success, stored⟩
    obtain rfl := Except.ok.inj (sized.symm.trans found)
    refine ⟨whole_of_success bytes success, ?_⟩
    obtain ⟨_, nrPages, started, done⟩ := WriteEnv.done_of_success success
    have announced : ((save.inTestMode size file).writeImage key fd).header.pages = nrPages :=
      done.header_fields.1
    obtain ⟨-, rfl⟩ := Prod.mk.inj (Except.ok.inj ((known _).symm.trans done.prepared.info))
    obtain ⟨image, back, length, -⟩ := stored
      ⟨((save.inTestMode size file).writeImage key fd).fd.content, [],
        List.replicate (2 * ((save.inTestMode size file).dataPath key fd).1.passed.length + 1) true⟩
      (fun _ => rfl)
      ⟨List.length_replicate.ge, fun _ member => List.eq_of_mem_replicate member⟩
    have few := (save.inTestMode size file).machine.load_few ((save.inTestMode size file).start key)
      (fun _ => true) ((save.inTestMode size file).writeImage key fd).header
      ⟨((save.inTestMode size file).writeImage key fd).fd.content, [],
        List.replicate (2 * ((save.inTestMode size file).dataPath key fd).1.passed.length + 1) true⟩
    rw [back, length, announced, rounds] at few
    have most : MIN_TEST_IMAGE_PAGES = 1024 := rfl
    omega
  · rintro ⟨whole, small⟩
    have input : (save.inTestMode size file).input =
        (save.machine.page.wholePages file).map .page := by
      apply (PageSize.fileReads_eq file).trans
      rw [if_pos whole, List.append_nil]
    have rounded : rounds quota = (save.machine.page.wholePages file).length := by
      rw [count, rounds, Nat.mod_eq_of_lt small]
      omega
    have enough : (save.inTestMode size file).pagesNeeded (save.machine.page.wholePages file) ≤
        (save.inTestMode size file).estimate (save.machine.page.wholePages file).length := by
      rw [count]
      by_cases compresses : save.settings.doCompress = true
      · exact fits compresses
      · have plain : ((save.inTestMode size file).saveEnv fun _ => 0).settings.doCompress = false :=
          Bool.eq_false_iff.mpr compresses
        apply (SaveEnv.pagesNeeded_plain plain full).le.trans
        rw [count]
        exact Nat.le_add_right _ _
    have success : ((save.inTestMode size file).writeImage key fd).error = 0 :=
      writeImage_verified documented inverts pages headers untroubled input full
        ((known 0).trans (by rw [← hsize, count]; rfl)) enough clean rounded (Or.inr rfl)
    obtain ⟨size', nrPages, started, done⟩ := WriteEnv.done_of_success success
    obtain ⟨same, rfl⟩ := Prod.mk.inj (Except.ok.inj ((known _).symm.trans done.prepared.info))
    have announced : ((save.inTestMode size file).writeImage key fd).header.pages = quota :=
      done.header_fields.1
    have aligned : ∀ offset ∈ (save.inTestMode size file).dev, 0 ≤ offset ∧
        (save.machine.page.bytes : Int) ∣ offset :=
      fun offset member => ⟨(untroubled.granted offset member).1.le,
        (untroubled.granted offset member).2⟩
    have never := never_leftover aligned untroubled.distinct untroubled.fresh input full
      (same.symm.trans (by rw [← hsize, count]; rfl)) done clean
    refine ⟨size, sized, success, fun reader there plenty =>
      ⟨save.machine.page.wholePages file, ?_, count.trans announced.symm, flat⟩⟩
    exact @load_back (save.inTestMode size file) key fd _ size' quota started
      (save.machine.page.wholePages file) documented inverts pages aligned untroubled.distinct
      untroubled.fresh input full done never ((congrArg rounds announced).trans rounded) reader
      there plenty

/-- A save with nothing but the pages, on a device whose pages are granted in order. -/
def plainTest : ImageSave where
  machine := ResumeEnv.plainReader
  settings := ⟨false, false, false, false⟩
  testMode := false
  platform := false
  resumePause := 0
  salt := []
  dev := contiguous PageSize.fourKilobytes 1 2053
  freeSwap := 2 ^ 40
  imageSize := 0
  infoOf := fun _ => (0, 0)
  input := []
  aborted := fun _ => false
  lzoInit := 0
  verifyReads := List.replicate 2050 true
  writeBuffer := none
  allocated := nothing_allocated

def testArea : Device Bytes := WriteEnv.freshSwap (List.replicate 2052 true)

theorem plainTest_untroubled
    (pages : file.length / plainTest.machine.page.bytes = MIN_TEST_IMAGE_PAGES) :
    (plainTest.inTestMode (plainTest.machine.page.bytes *
      (file.length / plainTest.machine.page.bytes)) file).Untroubled WriteEnv.noKey testArea
        (plainTest.machine.page.wholePages file) := by
  have count : (plainTest.machine.page.wholePages file).length = 1024 :=
    (PageSize.wholePages_length file).trans pages
  rw [pages]
  generalize htest : plainTest.inTestMode (plainTest.machine.page.bytes * MIN_TEST_IMAGE_PAGES)
    file = test
  have needed : test.pagesNeeded (plainTest.machine.page.wholePages file) = 1024 := by
    rw [← htest, ← count]
    exact SaveEnv.pagesNeeded_plain rfl (plainTest.machine.page.wholePages_full file)
  obtain ⟨started, starts, first, here, last, next, grants, ascending⟩ :=
    SwapWriter.startSaving_contiguous PageSize.fourKilobytes false 1023 2
      (show testArea.outcomes = List.replicate 2052 true from rfl)
  have granted := @contiguous_granted PageSize.fourKilobytes 1 2053 Nat.one_pos
  subst htest
  refine ⟨granted, contiguous_nodup _ _ _, ?_, ⟨started, ?_, ?_⟩, rfl, ?_, Or.inr rfl, ?_, ?_, ?_,
    rfl, fun _ => rfl⟩
  · rw [count]
    change decide ((4096 * 1024 : Int) < 2 ^ 40) = true
    decide
  · rw [swapNeeded_estimate, count]
    exact starts
  · intro srcs few
    rw [needed] at few
    obtain ⟨_, _, _, _, _, _, further⟩ := ascending.after false few
    exact further.answering
  · rw [needed]
    exact ⟨List.length_replicate.ge, fun _ member => List.eq_of_mem_replicate member⟩
  · rw [needed]
    exact ⟨List.length_replicate.ge, fun _ member => List.eq_of_mem_replicate member⟩
  · exact fun encrypts => absurd encrypts Bool.false_ne_true
  · exact fun _ _ => ⟨_, rfl⟩

def zeroFile (size : Nat) : Bytes := List.replicate size 0

theorem zeroFile_length (size : Nat) : (zeroFile size).length = size := List.length_replicate

theorem plainTest_quota {size : Nat} (length : file.length = 4194304 + size) (few : size < 4096) :
    file.length / plainTest.machine.page.bytes = MIN_TEST_IMAGE_PAGES := by
  change file.length / 4096 = 1024
  omega

/-- A file of 1024 pages works. -/
theorem test_mode_whole :
    plainTest.TestModeWorks WriteEnv.noKey testArea (zeroFile 4194304) := by
  have length := zeroFile_length 4194304
  generalize zeroFile 4194304 = file at length ⊢
  have quota := @plainTest_quota file 0 length (by decide)
  apply (test_mode_works_iff plainTest WriteEnv.noKey testArea file (by omega) quota.ge
    passThrough_documented (SaveEnv.transparent_inverts _) (fun _ => rfl) (fun _ => rfl)
    (plainTest_untroubled quota)
    (fun compresses => absurd compresses Bool.false_ne_true)
    (fun compresses => absurd compresses Bool.false_ne_true)).mpr
  rw [quota]
  change 4096 ∣ file.length ∧ 1024 < 4294967296
  omega

/-- With one byte more it does not. -/
theorem test_mode_remainder :
    MIN_TEST_IMAGE_PAGES ≤ (zeroFile 4194305).length / plainTest.machine.page.bytes ∧
      (plainTest.inTestMode (plainTest.machine.page.bytes *
        ((zeroFile 4194305).length / plainTest.machine.page.bytes))
          (zeroFile 4194305)).Untroubled WriteEnv.noKey testArea
            (plainTest.machine.page.wholePages (zeroFile 4194305)) ∧
      ¬ plainTest.TestModeWorks WriteEnv.noKey testArea (zeroFile 4194305) := by
  have length := zeroFile_length 4194305
  generalize zeroFile 4194305 = file at length ⊢
  have quota := @plainTest_quota file 1 length (by decide)
  refine ⟨quota.ge, plainTest_untroubled quota, ?_⟩
  rintro ⟨size, found, success, _⟩
  have sized := PageSize.testImageSize_admissible (show file.length < 2 ^ 63 by omega) quota.ge
  obtain rfl := Except.ok.inj (sized.symm.trans found)
  rw [quota] at success
  have whole : 4096 ∣ file.length := whole_of_success (show 0 < 4096 * 1024 by omega) success
  omega

end ImageSave

end Suspend
