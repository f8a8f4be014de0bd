import Suspend.WriteImage

set_option autoImplicit false

namespace Suspend

open Foundation.CachedDisk

/-- What `atomic_snapshot` comes back with: an error, a snapshot, or the resumed system, which
finds the resume device as `resume` has left it. -/
inductive SnapshotAnswer (Page : Type) where
  | failed (errno : Int)
  | created
  | resumed (found : Device Page)

/-- What one attempt is answered. -/
structure AttemptEnv (Page : Type) where
  setImageSize : Int
  snapshot : SnapshotAnswer Page
  write : WriteEnv Page
  freed : Bool
  suspendToRam : Int

/-- The configuration of `suspend_system`, and what it is answered. `test` is the save in test
mode, `attempt` counts the attempts that are left afterwards. -/
structure SystemEnv (Page : Type) where
  availSwap : Int
  freeze : Int
  test : Option (WriteEnv Page)
  toRam : Bool
  attempt : Nat → AttemptEnv Page

/-- What `suspend_system` works on. `snapshot` tells whether the kernel holds a snapshot. -/
structure Machine (Page : Type) where
  fd : Device Page
  key : KeyState
  snapshot : Bool

namespace Machine

variable {Page : Type}

def signature (machine : Machine Page) : Signature := (machine.fd.content .record).sig

/-- `free_snapshot`. -/
def freeSnapshot (machine : Machine Page) (freed : Bool) : Machine Page :=
  { machine with snapshot := machine.snapshot && !freed }

end Machine

/-- Where control goes: back before the freeze, to `unfreeze`, or into a loop for ever. -/
inductive Exit where
  | refused
  | unfreeze (error : Int)
  | loop
deriving DecidableEq

namespace SystemEnv

variable {Page : Type} (env : SystemEnv Page)

/-- `write_image`, and its error. -/
def written (write : WriteEnv Page) (machine : Machine Page) : Int × Machine Page :=
  let image := write.writeImage machine.key machine.fd
  (image.error, { machine with key := image.key, fd := image.fd })

/-- `reset_signature`, and then `unfreeze` after `rest`. -/
def resetThen (machine : Machine Page) (error : Int) (rest : Machine Page → Machine Page) :
    Exit × Machine Page :=
  let reset := machine.fd.resetSignature
  match reset.1 with
  | .halted => (.loop, { machine with fd := reset.2 })
  | .returned _ => (.unfreeze error, rest { machine with fd := reset.2 })

/-- The loop of `suspend_system` over the attempts that are left. -/
def attempts : Nat → Int → Machine Page → Exit × Machine Page
  | 0, error, machine => (.unfreeze error, machine)
  | left + 1, error, machine =>
      let answers := env.attempt left
      if answers.setImageSize ≠ 0 then (.unfreeze answers.setImageSize, machine)
      else
        match answers.snapshot with
        | .failed errno => (.unfreeze errno, machine)
        | .resumed found =>
            (.unfreeze error,
              { machine with fd := found, snapshot := true }.freeSnapshot answers.freed)
        | .created =>
            let image := written answers.write { machine with snapshot := true }
            if image.1 ≠ 0 then
              let machine := image.2.freeSnapshot answers.freed
              if -image.1 ≠ ENOSPC then (.unfreeze (-image.1), machine)
              else attempts left (-image.1) machine
            else if env.toRam ∧ answers.suspendToRam = 0 then
              resetThen image.2 0 fun machine => machine.freeSnapshot answers.freed
            -- `suspend_shutdown` never returns
            else (.loop, image.2)

/-- `suspend_system`. -/
def suspendSystem (machine : Machine Page) : Exit × Machine Page :=
  if env.availSwap = 0 then (.refused, machine)
  else if env.freeze ≠ 0 then (.unfreeze env.freeze, machine)
  else
    match env.test with
    | some write =>
        let image := written write machine
        resetThen image.2 (-image.1) id
    | none => env.attempts 2 0 machine

/-- At `unfreeze` there is neither a signature nor a snapshot, and a loop for ever is only entered
with the signature on the device. -/
def Disciplined : Exit × Machine Page → Prop
  | (.refused, _) => True
  | (.unfreeze _, machine) => machine.signature ≠ SWSUSP_SIG ∧ machine.snapshot = false
  | (.loop, machine) => machine.signature = SWSUSP_SIG

/-- The first `lseek64` of `reset_signature` succeeds. -/
def Seeks (machine : Machine Page) : Prop := machine.fd.transfer.1 = true

/-- The attempts that are left go well: a snapshot is freed in the attempt before `unfreeze`, a
resumed system finds no signature, and after suspending to RAM the device can be sought. -/
def AttemptsSound : Nat → Machine Page → Prop
  | 0, machine => machine.snapshot = false
  | left + 1, machine =>
      let answers := env.attempt left
      if answers.setImageSize ≠ 0 then machine.snapshot = false
      else
        match answers.snapshot with
        | .failed _ => machine.snapshot = false
        | .resumed found => (found.content .record).sig ≠ SWSUSP_SIG ∧ answers.freed = true
        | .created =>
            let image := written answers.write { machine with snapshot := true }
            if image.1 = -ENOSPC then AttemptsSound left (image.2.freeSnapshot answers.freed)
            else if image.1 ≠ 0 then answers.freed = true
            else env.toRam = true ∧ answers.suspendToRam = 0 →
              Seeks image.2 ∧ (image.2.fd.resetSignature.1 ≠ .halted → answers.freed = true)

/-- In test mode `write_image` fails exactly if `reset_signature` cannot seek, and otherwise the
attempts go well. -/
def Sound (machine : Machine Page) : Prop :=
  env.availSwap ≠ 0 → env.freeze = 0 →
    match env.test with
    | some write => (written write machine).1 = 0 ↔ Seeks (written write machine).2
    | none => env.AttemptsSound 2 machine

variable {env}

theorem resetSignature_unsought {fd : Device Page} (failed : ¬ fd.transfer.1 = true) :
    fd.resetSignature.1 = .returned (- EIO) ∧
      (fd.resetSignature.2.content .record).sig = (fd.content .record).sig := by
  simp only [Device.resetSignature, failed, ↓reduceIte, Bool.false_eq_true]
  exact ⟨trivial, by rw [fd.transfer_extends.content]⟩

/-- Once it can seek, `reset_signature` only returns with the old signature written back. -/
theorem resetSignature_sought {fd : Device Page} (sought : fd.transfer.1 = true) :
    (fd.resetSignature.1 = .halted ∧
        (fd.resetSignature.2.content .record).sig = (fd.content .record).sig) ∨
      ((fd.content .record).sig = SWSUSP_SIG ∧ fd.resetSignature.1 = .returned 0 ∧
        (fd.resetSignature.2.content .record).sig = (fd.content .record).origSig) := by
  have found := fd.transfer_extends.trans fd.transfer.2.transfer_extends
  by_cases signed : fd.transfer.2.transfer.1 = true ∧ (fd.content .record).sig = SWSUSP_SIG
  · have both := found.trans fd.transfer.2.transfer.2.transfer_extends
    by_cases written : fd.transfer.2.transfer.2.transfer.1 = true
    · right
      simp only [Device.resetSignature, sought, signed, written, ↓reduceIte, and_self, true_and]
      rw [Device.content_record_synced]
    · left
      simp only [Device.resetSignature, sought, signed, written, ↓reduceIte, and_self, true_and,
        Bool.false_eq_true]
      rw [(both.trans (Device.fsync_extends _)).content, signed.2]
  · left
    simp only [Device.resetSignature, sought, signed, ↓reduceIte, true_and]
    rw [(found.trans (Device.fsync_extends _)).content]

/-- With the signature of a swap area to go back to, `reset_signature` is right as long as it can
seek. -/
theorem resetThen_signed {machine : Machine Page} (signed : machine.signature = SWSUSP_SIG)
    (swap : IsSwap (machine.fd.content .record).origSig) (error : Int)
    (rest : Machine Page → Machine Page) (same : ∀ machine, (rest machine).fd = machine.fd) :
    Disciplined (resetThen machine error rest) ↔
      Seeks machine ∧ (machine.fd.resetSignature.1 ≠ .halted →
        (rest { machine with fd := machine.fd.resetSignature.2 }).snapshot = false) := by
  unfold resetThen
  by_cases sought : Seeks machine
  · rcases resetSignature_sought sought with ⟨halted, kept⟩ | ⟨_, returned, restored⟩
    · have marked : (machine.fd.resetSignature.2.content .record).sig = SWSUSP_SIG :=
        kept.trans signed
      simp [halted, Disciplined, Machine.signature, sought, marked]
    · have unmarked : (machine.fd.resetSignature.2.content .record).sig ≠ SWSUSP_SIG := by
        rw [restored]
        exact swap.unmarked
      simp [returned, Disciplined, Machine.signature, same, sought, unmarked]
  · obtain ⟨returned, kept⟩ := resetSignature_unsought sought
    have marked : (machine.fd.resetSignature.2.content .record).sig = SWSUSP_SIG :=
      kept.trans signed
    simp [returned, Disciplined, Machine.signature, same, sought, marked]

/-- Without the signature on the device, `reset_signature` is right only if it cannot seek. -/
theorem resetThen_unsigned {machine : Machine Page} (unsigned : machine.signature ≠ SWSUSP_SIG)
    (error : Int) (rest : Machine Page → Machine Page)
    (same : ∀ machine, (rest machine).fd = machine.fd) :
    Disciplined (resetThen machine error rest) ↔
      ¬ Seeks machine ∧
        (rest { machine with fd := machine.fd.resetSignature.2 }).snapshot = false := by
  unfold resetThen
  by_cases sought : Seeks machine
  · rcases resetSignature_sought sought with ⟨halted, kept⟩ | ⟨signed, _⟩
    · have unmarked : (machine.fd.resetSignature.2.content .record).sig ≠ SWSUSP_SIG := by
        rw [kept]
        exact unsigned
      simp [halted, Disciplined, Machine.signature, sought, unmarked]
    · exact absurd signed unsigned
  · obtain ⟨returned, kept⟩ := resetSignature_unsought sought
    have unmarked : (machine.fd.resetSignature.2.content .record).sig ≠ SWSUSP_SIG := by
      rw [kept]
      exact unsigned
    simp [returned, Disciplined, Machine.signature, same, sought, unmarked]

theorem written_failed (write : WriteEnv Page) (machine : Machine Page)
    (failed : (written write machine).1 ≠ 0) :
    (written write machine).2.signature = machine.signature := by
  rcases write.writeImage_outcome machine.key machine.fd with ⟨_, more, grown⟩ | ⟨more, committed⟩
  · exact congrArg SwsuspHeader.sig grown.content
  · exact absurd committed.success failed

theorem written_success (write : WriteEnv Page) (machine : Machine Page)
    (success : (written write machine).1 = 0) :
    (written write machine).2.signature = SWSUSP_SIG ∧
      IsSwap ((written write machine).2.fd.content .record).origSig := by
  rcases write.writeImage_outcome machine.key machine.fd with ⟨failed, _⟩ | ⟨more, committed⟩
  · exact absurd success failed
  · have record : (written write machine).2.fd.content .record =
        ⟨(write.writeImage machine.key machine.fd).start, (machine.fd.content .record).sig,
          SWSUSP_SIG⟩ := by
      rw [Device.content, written, committed.log, List.append_cons, List.append_cons]
      exact content_last_write _ _ [.sync] Place.record _ (by simp)
    rw [Machine.signature, record]
    exact ⟨rfl, committed.swap⟩

theorem attempts_disciplined_iff {left : Nat} {error : Int} {machine : Machine Page}
    (unsigned : machine.signature ≠ SWSUSP_SIG) :
    Disciplined (env.attempts left error machine) ↔ env.AttemptsSound left machine := by
  induction left generalizing error machine with
  | zero => exact and_iff_right unsigned
  | succ left ih =>
      unfold attempts AttemptsSound
      by_cases sized : (env.attempt left).setImageSize = 0
      · simp only [sized, ne_eq, not_true_eq_false, ↓reduceIte]
        cases answer : (env.attempt left).snapshot with
        | failed errno => exact and_iff_right unsigned
        | resumed found =>
            simp only [Disciplined, Machine.signature, Machine.freeSnapshot]
            simp
        | created =>
            have held :
              (written (env.attempt left).write { machine with snapshot := true }).2.snapshot =
              true := rfl
            have failed := written_failed (env.attempt left).write
              { machine with snapshot := true }
            have success := written_success (env.attempt left).write
              { machine with snapshot := true }
            dsimp only
            generalize written (env.attempt left).write { machine with snapshot := true } =
              image at held failed success ⊢
            by_cases done : image.1 = 0
            · obtain ⟨signed, swap⟩ := success done
              have space : (0 : Int) ≠ -ENOSPC := by decide
              simp only [done, space, not_true_eq_false, ↓reduceIte]
              by_cases toRam : env.toRam = true ∧ (env.attempt left).suspendToRam = 0
              · rw [if_pos toRam, resetThen_signed signed swap 0
                  (fun machine => machine.freeSnapshot (env.attempt left).freed) fun _ => rfl]
                simp [toRam, Machine.freeSnapshot, held]
              · rw [if_neg toRam]
                exact iff_of_true signed fun wanted => absurd wanted toRam
            · have unmarked : (image.2.freeSnapshot (env.attempt left).freed).signature ≠
                  SWSUSP_SIG := fun signed => unsigned ((failed done).symm.trans signed)
              simp only [done, not_false_eq_true, ↓reduceIte]
              by_cases again : image.1 = -ENOSPC
              · have retried : ¬ -image.1 ≠ ENOSPC := by omega
                rw [if_neg retried, if_pos again]
                exact ih unmarked
              · have given : -image.1 ≠ ENOSPC := by omega
                rw [if_pos given, if_neg again]
                exact (and_iff_right unmarked).trans (by simp [Machine.freeSnapshot, held])
      · simp only [sized, ne_eq, not_false_eq_true, ↓reduceIte]
        exact and_iff_right unsigned

/-- The discipline of the signature and the snapshot is kept if and only if in test mode
`write_image` fails exactly when `reset_signature` cannot seek, and otherwise every attempt goes
well. -/
theorem suspendSystem_disciplined_iff (env : SystemEnv Page) (machine : Machine Page)
    (unsigned : machine.signature ≠ SWSUSP_SIG) (nothing : machine.snapshot = false) :
    Disciplined (env.suspendSystem machine) ↔ env.Sound machine := by
  unfold suspendSystem Sound
  by_cases avail : env.availSwap = 0
  · simp [avail, Disciplined]
  · by_cases frozen : env.freeze = 0
    · simp only [avail, frozen, ne_eq, not_true_eq_false, not_false_eq_true, ↓reduceIte,
        forall_const]
      cases env.test with
      | none => exact attempts_disciplined_iff unsigned
      | some write =>
          dsimp only
          by_cases done : (written write machine).1 = 0
          · obtain ⟨signed, swap⟩ := written_success _ _ done
            rw [resetThen_signed signed swap _ id fun _ => rfl]
            exact (and_iff_left fun _ => nothing).trans (by simp [done])
          · have unmarked : (written write machine).2.signature ≠ SWSUSP_SIG := by
              rw [written_failed _ _ done]
              exact unsigned
            rw [resetThen_unsigned unmarked _ id fun _ => rfl]
            exact (and_iff_left nothing).trans (by simp [done])
    · simp only [avail, frozen, ne_eq, not_false_eq_true, ↓reduceIte, Disciplined]
      simp [unsigned, nothing]

/-- `suspend_system` in test mode. -/
def testing (write : WriteEnv Bytes) : SystemEnv Bytes where
  availSwap := 8192
  freeze := 0
  test := some { write with testMode := true }
  toRam := false
  attempt := fun _ => ⟨0, .failed 5, write, true, 0⟩

/-- A device with a fresh swap area where this many transfers succeed. -/
def working (transfers : Nat) : Machine Bytes :=
  ⟨WriteEnv.freshSwap (List.replicate transfers true), WriteEnv.noKey, false⟩

theorem test_disciplined :
    Disciplined ((testing WriteEnv.onePage).suspendSystem (working 8)) :=
  (suspendSystem_disciplined_iff (testing WriteEnv.onePage) (working 8) (by decide) rfl).mpr
    fun _ _ => show _ = 0 ↔ _ = true by decide +kernel

/-- Without free swap a save in test mode fails, and `reset_signature` sleeps for ever although
there is no signature. -/
theorem test_full_swap_sleeps :
    ((testing { WriteEnv.onePage with freeSwap := 0 }).suspendSystem (working 8)).1 = .loop ∧
      ((testing { WriteEnv.onePage with freeSwap := 0 }).suspendSystem (working 8)).2.signature =
        SWAPSPACE2 ∧
      ¬ Disciplined
        ((testing { WriteEnv.onePage with freeSwap := 0 }).suspendSystem (working 8)) := by
  have sleeps : ((testing { WriteEnv.onePage with freeSwap := 0 }).suspendSystem
      (working 8)).1 = .loop := by decide +kernel
  have unmarked : ((testing { WriteEnv.onePage with freeSwap := 0 }).suspendSystem
      (working 8)).2.signature = SWAPSPACE2 := by decide +kernel
  refine ⟨sleeps, unmarked, ?_⟩
  generalize (testing { WriteEnv.onePage with freeSwap := 0 }).suspendSystem (working 8) = run at *
  obtain ⟨exit, machine⟩ := run
  subst sleeps
  rw [Disciplined, unmarked]
  decide

end SystemEnv

end Suspend
