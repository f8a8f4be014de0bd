import Suspend.Device

set_option autoImplicit false

namespace Suspend

open Foundation.CachedDisk

def ENODEV : Int := 19

/-- How a call ends: it returns, or it sleeps in a loop for ever. -/
inductive Ending where
  | returned (error : Int)
  | halted
deriving DecidableEq

/-- The signatures that `mark_swap` replaces. -/
def IsSwap (sig : Signature) : Prop := sig = SWAP_SPACE ∨ sig = SWAPSPACE2

instance (sig : Signature) : Decidable (IsSwap sig) :=
  inferInstanceAs (Decidable (sig = SWAP_SPACE ∨ sig = SWAPSPACE2))

theorem IsSwap.unmarked {sig : Signature} (swap : IsSwap sig) : sig ≠ SWSUSP_SIG := by
  rcases swap with rfl | rfl <;> decide

namespace Device

variable {Page : Type}

/-- What `mark_swap` makes of the record. -/
def marked (device : Device Page) (start : Int) : SwsuspHeader :=
  { image := start
    origSig := (device.content .record).sig
    sig := SWSUSP_SIG }

/-- `mark_swap`, where an `ssize_t` is wider than an unsigned int, so that a failed transfer is less
than `size`. -/
def markSwap (device : Device Page) (start : Int) : Int × Device Page :=
  let found := device.transfer
  if found.1 then
    if IsSwap (device.content .record).sig then
      let written := found.2.transfer
      if written.1 then (0, written.2.append (.write .record (device.marked start)))
      else (- EIO, written.2)
    else (-ENODEV, found.2)
  else (- EIO, found.2)

/-- `reset_signature`. The first `lseek64` is made apart from the `read`, since it is the only
failure that does not end in the loop. -/
def resetSignature (device : Device Page) : Ending × Device Page :=
  let sought := device.transfer
  if sought.1 then
    let found := sought.2.transfer
    let header := device.content .record
    if found.1 ∧ header.sig = SWSUSP_SIG then
      let written := found.2.transfer
      if written.1 then
        (.returned 0,
          (written.2.append (.write .record { header with sig := header.origSig })).fsync)
      else (.halted, written.2.fsync)
    else (.halted, found.2.fsync)
  else (.returned (- EIO), sought.2)

/-- More requests have been made, none of them to the record. -/
structure Extends (before after : Device Page) (more : List (DiskOp Page)) : Prop where
  initial : after.initial = before.initial
  log : after.log = before.log ++ more
  elsewhere : ∀ op ∈ more, ¬ op.Touches .record

theorem Extends.refl (device : Device Page) : Extends device device [] :=
  ⟨rfl, (List.append_nil _).symm, fun _ member => absurd member List.not_mem_nil⟩

theorem Extends.trans {first second third : Device Page} {more later : List (DiskOp Page)}
    (former : Extends first second more) (latter : Extends second third later) :
    Extends first third (more ++ later) := by
  refine ⟨latter.initial.trans former.initial, ?_, ?_⟩
  · rw [latter.log, former.log, List.append_assoc]
  · intro op member
    exact (List.mem_append.mp member).elim (former.elsewhere op) (latter.elsewhere op)

theorem Extends.content {before after : Device Page} {more : List (DiskOp Page)}
    (grown : Extends before after more) : after.content .record = before.content .record := by
  rw [Device.content, Device.content, grown.initial, grown.log, content_append]
  exact content_untouched _ _ grown.elsewhere

theorem transfer_extends (device : Device Page) : Extends device device.transfer.2 [] :=
  ⟨device.transfer_initial, by rw [transfer_log, List.append_nil],
    fun _ member => absurd member List.not_mem_nil⟩

theorem fsync_extends (device : Device Page) : Extends device device.fsync [.sync] :=
  ⟨rfl, rfl, fun op member => by rw [List.mem_singleton.mp member]; exact Op.not_touches_sync _⟩

theorem writePage_extends (device : Device Page) (cell : Cell Page) (offset : Int) :
    ∃ more, Extends device (device.writePage cell offset).2 more := by
  unfold writePage
  by_cases none : offset = 0
  · rw [if_pos none]
    exact ⟨[], Extends.refl device⟩
  · rw [if_neg none]
    by_cases written : device.transfer.1 = true
    · rw [if_pos written]
      refine ⟨_, device.transfer_extends.trans ⟨rfl, rfl, ?_⟩⟩
      intro op member
      rw [List.mem_singleton.mp member, Op.touches_write]
      exact Place.noConfusion
    · rw [if_neg written]
      exact ⟨[], device.transfer_extends⟩

theorem content_record_synced (device : Device Page) (header : SwsuspHeader) :
    (device.append (.write .record header)).fsync.content .record = header := by
  have alone : ∀ op ∈ [(.sync : DiskOp Page)], ¬ op.Touches .record := by simp
  have last := content_last_write device.initial device.log [.sync] .record header alone
  rw [content, fsync, append, append, List.append_assoc]
  exact last

theorem markSwap_cases (device : Device Page) (start : Int) :
    (device.markSwap start).1 = 0 ∧ IsSwap (device.content .record).sig ∧
        (device.markSwap start).2.initial = device.initial ∧
        (device.markSwap start).2.log =
          device.log ++ [.write .record (device.marked start)] ∨
      (device.markSwap start).1 ≠ 0 ∧ Extends device (device.markSwap start).2 [] := by
  unfold markSwap
  by_cases found : device.transfer.1 = true
  · by_cases swap : IsSwap (device.content .record).sig
    · by_cases written : device.transfer.2.transfer.1 = true
      · left
        simp only [found, swap, written, ↓reduceIte]
        exact ⟨trivial, trivial, by simp [append], by simp [append]⟩
      · right
        simp only [found, swap, written, ↓reduceIte, Bool.false_eq_true]
        exact ⟨by decide, device.transfer_extends.trans (transfer_extends _)⟩
    · right
      simp only [found, swap, ↓reduceIte]
      exact ⟨by decide, device.transfer_extends⟩
  · right
    simp only [found, ↓reduceIte, Bool.false_eq_true]
    exact ⟨by decide, device.transfer_extends⟩

/-- No loss of power at this moment leaves the signature of an image. -/
def Unmarked (device : Device Page) : Prop :=
  ∀ left, MayLeave device.initial device.log left → (left .record).sig ≠ SWSUSP_SIG

/-- A device that nothing has been written to since it was last synced. -/
theorem unmarked_fresh {disk : DiskContent Page} (swap : (disk .record).sig ≠ SWSUSP_SIG)
    (outcomes : List Bool) : Unmarked ⟨disk, [], outcomes⟩ := by
  intro left lost
  rw [lost.nothing]
  exact swap

end Device

end Suspend
