import Suspend.Hibernation
import Suspend.Md5Stream

set_option autoImplicit false

namespace Suspend

open Foundation.FixedWidth

namespace Md5

/-- `md5_process_block` for one buffer after the other, and `md5_finish_ctx`. -/
def blockwise (order : ByteOrder) (stack : Bytes) (buffers : List Bytes) : Bytes :=
  md5FinishCtx order
    (buffers.foldl (fun ctx buffer => md5ProcessBlock order buffer ctx) (md5InitCtx stack))

/-- Buffers of whole blocks need not go through the one of the context. -/
theorem blockwise_digest (order : ByteOrder) {stack : Bytes} (room : stack.length = 128)
    {buffers : List Bytes}
    (whole : ∀ buffer ∈ buffers, 64 ∣ buffer.length ∧ buffer.length < 2 ^ 32) :
    blockwise order stack buffers = digest buffers.flatten := by
  have holds : ∀ (ctx : Md5Ctx) (data : Bytes), ctx.Holds order data → ctx.buflen = 0 →
      (buffers.foldl (fun ctx buffer => md5ProcessBlock order buffer ctx) ctx).Holds order
        (data ++ buffers.flatten) := by
    induction buffers with
    | nil =>
        intro ctx data holds _
        simpa using holds
    | cons buffer rest ih =>
        intro ctx data holds empty
        obtain ⟨aligned, small⟩ := whole buffer List.mem_cons_self
        have stands := holds.stands.put buffer
        rw [empty, List.take_zero, List.nil_append, ← List.append_nil buffer] at stands
        have taken := stands.process aligned small
        rw [List.append_nil] at taken
        have next : (md5ProcessBlock order buffer ctx).Holds order (data ++ buffer) := by
          refine ⟨?_, holds.few⟩
          change Stands order _ (ctx.buffer.take ctx.buflen) _
          rwa [empty, List.take_zero]
        rw [List.flatten_cons, ← List.append_assoc]
        exact ih (fun other member => whole other (List.mem_cons_of_mem _ member)) _ _ next empty
  exact md5FinishCtx_digest (holds _ [] (md5InitCtx_holds order room) rfl)

end Md5

namespace ImageSave

variable {save : ImageSave} {key : KeyState} {fd : Device Bytes} {image : List Bytes}

theorem buffersOf_flatten (image : List Bytes) :
    (SaveEnv.buffersOf image).flatten = image.flatten := by
  induction size : image.length using Nat.strong_induction_on generalizing image with
  | _ size ih =>
      by_cases empty : image = []
      · rw [empty, SaveEnv.buffersOf_nil]
      · have some := List.length_pos_iff.mpr empty
        rw [SaveEnv.buffersOf_cons empty, List.flatten_cons,
          ih (image.drop 32).length (by rw [List.length_drop]; omega) _ rfl,
          ← List.flatten_append, List.take_append_drop]

/-- Where the MD5 of the save is the one of `md5.c`, the checksum in the header is the digest of the
image. Both tools come to it: `flush_buffer`, with the buffers it writes, and `load_buffer`, with
those that have been loaded when an image is restored. -/
theorem checksum_digest (input : save.input = image.map .page)
    (full : ∀ src ∈ image, src.length = save.machine.page.bytes)
    (success : (save.writeImage key fd).error = 0)
    (md5 : save.machine.crypto.md5 = Md5.digest) (blocks : 64 ∣ save.machine.page.bytes)
    (computes : save.settings.computeChecksum = true) (order : ByteOrder) (stack : Bytes)
    (room : stack.length = 128) :
    (save.writeImage key fd).header.checksum = Md5.digest image.flatten ∧
      (save.writeImage key fd).header.checksum =
        Md5.blockwise order stack (SaveEnv.buffersOf image) ∧
      (save.Ordinary key fd image →
        ∀ (passphrase : Bytes) (left : DiskContent Bytes) (answers : ResumeAnswers)
          (result : ResumeEnv.Image),
          (save.settings.doEncrypt = true →
            save.machine.crypto.Recoverable passphrase save.salt key) →
          (left .record).image = (save.writeImage key fd).start →
          (∀ offset, left (.page offset) = (save.writeImage key fd).fd.content (.page offset)) →
          answers.typed = [passphrase] →
          (save.machine.main answers left).restored = some result →
            Md5.blockwise order stack result.ctx = (save.writeImage key fd).header.checksum) := by
  have written : ((save.around (save.dataPath key fd).1 (save.dataPath key fd).2
      (save.verified key fd)).writeImage key fd).error = 0 := success
  obtain ⟨size, nrPages, started, done⟩ := WriteEnv.done_of_success written
  have sums := Settings.checksums_of_compute computes
  have stored : (save.writeImage key fd).header.checksum =
      save.machine.crypto.md5 (SaveEnv.buffersOf image).flatten :=
    done_checksum done input full sums
  have buffers : Md5.blockwise order stack (SaveEnv.buffersOf image) =
      Md5.digest (SaveEnv.buffersOf image).flatten := by
    apply Md5.blockwise_digest order room
    intro buffer member
    obtain ⟨count, few, length⟩ := @SaveEnv.buffersOf_whole (save.saveEnv fun _ => 0) image
      full buffer member
    have small := save.machine.page.bytes_small
    rw [length]
    exact ⟨dvd_mul_of_dvd_left blocks count, (Nat.mul_le_mul small few).trans_lt (by decide)⟩
  rw [md5, ← buffers] at stored
  refine ⟨?_, stored, ?_⟩
  · rw [stored, buffers, buffersOf_flatten]
  · intro ordinary passphrase left answers result recoverable start there typed restored
    have checks : (save.writeImage key fd).header.flags.checksum = true :=
      (done_flags done).2.2.trans computes
    rw [((ordinary.restorable recoverable success).restored start there typed restored).2.2 checks,
      stored]

/-- The save of two pages, with a checksum. -/
def summed : ImageSave :=
  { ofTwo 8192 with
    machine :=
      { ResumeEnv.plainReader with crypto := { Crypto.rejecting [] with md5 := Md5.digest } }
    settings := ⟨false, false, true, false⟩ }

theorem summed_ordinary : summed.Ordinary WriteEnv.noKey swapArea twoPages :=
  { ofTwo_ordinary with
    inverts := SaveEnv.transparent_inverts _
    clean := fun compresses => absurd compresses Bool.false_ne_true }

set_option maxRecDepth 100000 in
theorem summed_succeeds : (summed.writeImage WriteEnv.noKey swapArea).error = 0 := by
  decide +kernel

theorem summed_checksum : (summed.writeImage WriteEnv.noKey swapArea).header.checksum =
      Md5.digest twoPages.flatten ∧
    (summed.writeImage WriteEnv.noKey swapArea).header.checksum =
      Md5.blockwise .little (List.replicate 128 0) (SaveEnv.buffersOf twoPages) :=
  have sums := checksum_digest summed_ordinary.input summed_ordinary.full summed_succeeds rfl
    ⟨64, rfl⟩ rfl .little (List.replicate 128 0) List.length_replicate
  ⟨sums.1, sums.2.1⟩

end ImageSave

end Suspend
