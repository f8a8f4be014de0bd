import Suspend.ThreadWaits

set_option autoImplicit false

/- Can the saving threads get stuck? A thread that is enqueued on a condition variable has a
reason to wait, or a signal is on its way to it, as long as no signal comes while the thread has
tested `save_ret` and not yet enqueued itself. -/
namespace Suspend

open Foundation.Runs

namespace Threads

variable {env : SaveEnv} {threads after : Threads env} {other : Bool}

/-- The main thread is blocked, and the others have ended or are enqueued on a condition
variable. -/
def Stuck (threads : Threads env) : Prop :=
  (threads.main ≠ .done ∧ ∀ other, threads.stepMain other = none) ∧
    (threads.move = .done ∨ threads.move = .idleWait ∨ threads.move.inRoomWait) ∧
    (threads.save = .done ∨ threads.save = .idleWait)

/-- A signal that has to do with `save_ret` finds nobody enqueued: the thread that it is for has
tested `save_ret`, and is still to enqueue itself. -/
def LosesWakeup : Turn → Threads env → Prop
  | .main _, threads =>
      threads.main = .stopMove ∧ threads.move = .idleGap ∨
        threads.main = .stopSave ∧ threads.save = .idleGap
  | .move _, threads =>
      threads.move = .failedMove ∧ threads.main.inPublishGap ∨
        threads.move = .failedSave ∧ threads.save = .idleGap
  | .save _, threads =>
      threads.save = .failedMove ∧ (threads.main.inPublishGap ∨ threads.move = .idleGap) ∨
        threads.saveRet ≠ 0 ∧ (threads.save = .failedSave ∨ threads.save = .advancedSave) ∧
          threads.move.inRoomGap
  | .abort, _ => False

/-- `stop_threads` is entered while the "move" thread waits for a page of the encrypt buffer and
the "save" thread is going to end without another signal. -/
def Abandons : Turn → Threads env → Prop
  | .main _, threads =>
      threads.main = .stop ∧ threads.saveRet = 0 ∧
        (threads.move.inRoomGap ∨ threads.move.inRoomWait) ∧ threads.save.willSignal = false
  | _, _ => False

instance : ∀ turn (threads : Threads env), Decidable (LosesWakeup turn threads)
  | .main _, _ => inferInstanceAs (Decidable (_ ∧ _ ∨ _ ∧ _))
  | .move _, _ => inferInstanceAs (Decidable (_ ∧ _ ∨ _ ∧ _))
  | .save _, _ => inferInstanceAs (Decidable (_ ∧ (_ ∨ _) ∨ _ ∧ (_ ∨ _) ∧ _))
  | .abort, _ => inferInstanceAs (Decidable False)

instance : ∀ turn (threads : Threads env), Decidable (Abandons turn threads)
  | .main _, _ => inferInstanceAs (Decidable (_ ∧ _ ∧ _ ∧ _))
  | .move _, _ => inferInstanceAs (Decidable False)
  | .save _, _ => inferInstanceAs (Decidable False)
  | .abort, _ => inferInstanceAs (Decidable False)

/-- Who waits has seen no error, or it is still to be told of the error. -/
structure Answered (threads : Threads env) : Prop where
  publish : threads.main.inPublishGap ∨ threads.main.inPublishWait →
    threads.saveRet = 0 ∨ threads.move = .failedMove ∨ threads.save = .failedMove
  moveIdle : threads.move = .idleGap ∨ threads.move = .idleWait →
    threads.saveRet = 0 ∨ threads.main.willStopMove ∨ threads.save = .failedMove
  room : threads.move.inRoomGap ∨ threads.move.inRoomWait →
    threads.saveRet = 0 ∨ threads.save.willSignal
  saveIdle : threads.save = .idleGap ∨ threads.save = .idleWait →
    threads.saveRet = 0 ∨ (threads.move = .failedMove ∨ threads.move = .failedSave) ∨
      threads.main.willStopSave

theorem Answered.woken (answered : threads.Answered) (main : threads.main.Woken after.main)
    (move : threads.move.Woken after.move) (save : threads.save.Woken after.save)
    (saveRet : after.saveRet = threads.saveRet) : after.Answered := by
  obtain ⟨publish, moveIdle, room, saveIdle⟩ := answered
  constructor <;> grind -ring -linarith
    [MainAt.Woken, MoveAt.Woken, SaveAt.Woken, MainAt.inPublishGap,
    MainAt.inPublishWait, MoveAt.inRoomGap, MoveAt.inRoomWait, MainAt.willStopMove,
    MainAt.willStopSave, SaveAt.willSignal]

/-- The main thread goes on, with nobody to tell. -/
theorem Answered.mainTo (answered : threads.Answered) (place : MainAt)
    (publish : place.inPublishGap ∨ place.inPublishWait →
      threads.saveRet = 0 ∨ threads.move = .failedMove ∨ threads.save = .failedMove)
    (stopMove : threads.main.willStopMove → place.willStopMove)
    (stopSave : threads.main.willStopSave → place.willStopSave ∨ threads.save = .done) :
    ({ threads with main := place }).Answered := by
  obtain ⟨-, moveIdle, room, saveIdle⟩ := answered
  constructor <;> grind -ring -linarith

/-- The "move" thread hears that it is to stop, unless it is about to sleep. -/
theorem Answered.stopMove (answered : threads.Answered) (other : Bool)
    (awake : threads.move ≠ .idleGap) :
    (({ threads with main := .joinMove } : Threads env).signalMove other).Answered := by
  have woken := signalMove_wakes_move
    (show ({ threads with main := .joinMove }).main.inPublishWait = false from rfl) other
  have main := signalMove_main { threads with main := .joinMove } other
  have move := signalMove_move { threads with main := .joinMove } other
  rw [signalMove_eq]
  obtain ⟨publish, moveIdle, room, saveIdle⟩ := answered
  constructor <;> grind -ring -linarith [MainAt.Woken, MoveAt.Woken, MainAt.inPublishGap,
    MainAt.inPublishWait, MoveAt.inRoomGap, MoveAt.inRoomWait, MainAt.willStopSave]

theorem Answered.stopSave (answered : threads.Answered) (other : Bool)
    (ended : threads.move = .done) (awake : threads.save ≠ .idleGap) :
    (({ threads with main := .joinSave } : Threads env).signalSave other).Answered := by
  have woken := signalSave_wakes_save
    (show ({ threads with main := .joinSave }).move.inRoomWait = false by
      simp [ended, MoveAt.inRoomWait]) other
  have move := signalSave_move { threads with main := .joinSave } other
  have save := signalSave_save { threads with main := .joinSave } other
  rw [signalSave_eq]
  obtain ⟨publish, moveIdle, room, saveIdle⟩ := answered
  constructor <;> grind -ring -linarith [MoveAt.Woken, SaveAt.Woken, MainAt.inPublishGap,
    MainAt.inPublishWait, MoveAt.inRoomGap, MoveAt.inRoomWait]

theorem Answered.main (answered : threads.Answered) (mainSane : threads.MainSane)
    (saveSane : threads.SaveSane) (heard : ¬ LosesWakeup (.main other) threads)
    (kept : ¬ Abandons (.main other) threads) (taken : threads.stepMain other = some after) :
    after.Answered := by
  have goes := answered.mainTo
  cases place : threads.main <;> rw [place] at goes <;> simp only [stepMain, place] at taken
  case stop =>
    cases taken
    obtain ⟨publish, moveIdle, room, saveIdle⟩ := answered
    refine ⟨(·.elim Bool.noConfusion Bool.noConfusion), fun _ => .inr (.inl rfl), ?_,
      fun _ => .inr (.inr rfl)⟩
    intro waiting
    grind -ring -linarith [Abandons, setRet]
  case publish last =>
    split at taken
    · cases taken
    · split at taken
      · next full =>
        cases taken
        exact goes _ (fun _ => .inl full.2) Bool.noConfusion Bool.noConfusion
      · cases taken
        have on :=
          goes (.published last)
            (·.elim Bool.noConfusion Bool.noConfusion) Bool.noConfusion Bool.noConfusion
        exact on.woken (.inl rfl) (.inl rfl) (.inl rfl) rfl
  case publishGap last =>
    cases taken
    exact goes _
      (fun _ => answered.publish (.inl (by rw [place]; rfl))) Bool.noConfusion Bool.noConfusion
  case destroyFinish =>
    cases taken
    exact goes _ (by intros; contradiction) (fun _ => rfl) (fun _ => .inl rfl)
  case stopMove =>
    cases taken
    exact answered.stopMove other fun gap => heard (.inl ⟨place, gap⟩)
  case joinMove =>
    split at taken
    · cases taken
      refine goes _ ?_ Bool.noConfusion ?_
      · split <;> exact (by intros; contradiction)
      · intro _
        split
        · exact .inl rfl
        · next without => exact .inr (saveSane.unencrypted (by simpa using without)).1
    · cases taken
  case stopSave =>
    cases taken
    exact answered.stopSave other (mainSane.joined (by rw [place]; rfl))
      fun gap => heard (.inr ⟨place, gap⟩)
  case published last =>
    rw [signalMove_eq] at taken
    cases taken
    exact (goes (.publishedRet last)
      (·.elim Bool.noConfusion Bool.noConfusion) Bool.noConfusion Bool.noConfusion).woken
        (signalMove_main _ _)
      (signalMove_move _ _) (.inl rfl) rfl
  case publishedRet last =>
    cases taken
    exact goes _
      (by grind -ring -linarith [MainAt.inPublishGap, MainAt.inPublishWait]) Bool.noConfusion
        Bool.noConfusion
  all_goals
    repeat' split at taken
    all_goals cases taken
    all_goals refine (goes _ ?_ ?_ ?_).woken (.inl rfl) (.inl rfl) (.inl rfl) rfl
    all_goals intro waits
    all_goals rcases waits with ⟨⟨⟩⟩ | ⟨⟨⟩⟩

theorem Answered.moveTo (answered : threads.Answered) (place : MoveAt)
    (failedMove : threads.move ≠ .failedMove) (failedSave : threads.move ≠ .failedSave)
    (idle : place = .idleGap ∨ place = .idleWait →
      threads.saveRet = 0 ∨ threads.main.willStopMove ∨ threads.save = .failedMove)
    (room : place.inRoomGap ∨ place.inRoomWait → threads.saveRet = 0 ∨ threads.save.willSignal) :
    ({ threads with move := place }).Answered := by
  obtain ⟨publish, -, -, saveIdle⟩ := answered
  constructor <;> grind -ring -linarith

/-- The main thread hears that the "move" thread failed, unless it is about to sleep. -/
theorem Answered.moveFailed (answered : threads.Answered) (saveSane : threads.SaveSane)
    (other : Bool) (awake : threads.main.inPublishGap = false) :
    (({ threads with move := if env.settings.doEncrypt then .failedSave else .failedFinish } :
      Threads env).signalMove other).Answered := by
  have unstarted := fun without => (saveSane.unencrypted without).1
  have woken := fun place idle => signalMove_wakes_main
    (show ({ threads with move := place }).move ≠ .idleWait from idle) other
  have main := fun place => signalMove_main { threads with move := place } other
  have move := fun place => signalMove_move { threads with move := place } other
  rw [signalMove_eq]
  obtain ⟨publish, moveIdle, room, saveIdle⟩ := answered
  constructor <;> grind -ring -linarith [MainAt.Woken, MoveAt.Woken, MainAt.inPublishGap,
    MainAt.inPublishWait, MoveAt.inRoomGap, MoveAt.inRoomWait, MainAt.willStopSave]

theorem Answered.moveTellsSave (answered : threads.Answered) (other : Bool)
    (place : threads.move = .failedSave) (awake : threads.save ≠ .idleGap) :
    (({ threads with move := .failedFinish } : Threads env).signalSave other).Answered := by
  have woken := signalSave_wakes_save
    (show ({ threads with move := .failedFinish }).move.inRoomWait = false from rfl) other
  have move := signalSave_move { threads with move := .failedFinish } other
  have save := signalSave_save { threads with move := .failedFinish } other
  rw [signalSave_eq]
  obtain ⟨publish, moveIdle, room, saveIdle⟩ := answered
  constructor <;>
    grind -ring -linarith [MoveAt.Woken, SaveAt.Woken, MoveAt.inRoomGap, MoveAt.inRoomWait]

theorem Answered.move (answered : threads.Answered) (saveSane : threads.SaveSane)
    (heard : ¬ LosesWakeup (.move other) threads)
    (taken : threads.stepMove other = some after) : after.Answered := by
  have goes := answered.moveTo
  cases place : threads.move <;> rw [place] at goes <;> simp only [stepMove, place] at taken
  case idle =>
    split at taken
    · cases taken
    · split at taken
      · next empty =>
        cases taken
        exact goes _ MoveAt.noConfusion MoveAt.noConfusion (fun _ => .inl empty.2)
          (by intros; contradiction)
      · cases taken
        exact goes _ MoveAt.noConfusion MoveAt.noConfusion (by intros; contradiction)
          (by intros; contradiction)
  case idleGap =>
    cases taken
    exact goes _ MoveAt.noConfusion MoveAt.noConfusion (fun _ => answered.moveIdle (.inl place))
      (by intros; contradiction)
  case room moved size =>
    split at taken
    · cases taken
    · split at taken
      · next full =>
        cases taken
        exact goes _ MoveAt.noConfusion MoveAt.noConfusion
          (·.elim MoveAt.noConfusion MoveAt.noConfusion) (fun _ => .inl full.2)
      · cases taken
        have on :=
          goes (.placed moved size) MoveAt.noConfusion MoveAt.noConfusion
            (·.elim MoveAt.noConfusion MoveAt.noConfusion)
            (·.elim Bool.noConfusion Bool.noConfusion)
        exact on.woken (.inl rfl) (.inl rfl) (.inl rfl) rfl
  case roomGap moved size =>
    cases taken
    exact goes _ MoveAt.noConfusion MoveAt.noConfusion
      (·.elim MoveAt.noConfusion MoveAt.noConfusion)
      (fun _ => answered.room (.inl (by rw [place]; rfl)))
  case failed error =>
    split at taken
    · cases taken
    · cases taken
      exact ⟨fun _ => .inr (.inl rfl), (·.elim MoveAt.noConfusion MoveAt.noConfusion),
        (·.elim Bool.noConfusion Bool.noConfusion), fun _ => .inr (.inl (.inl rfl))⟩
  case failedMove =>
    cases taken
    refine answered.moveFailed saveSane other ?_
    by_contra gap
    exact heard (.inl ⟨place, by simpa using gap⟩)
  case failedSave =>
    cases taken
    exact answered.moveTellsSave other place fun gap => heard (.inr ⟨place, gap⟩)
  case placed moved size =>
    rw [signalSave_eq] at taken
    cases taken
    exact (goes (.placedNext moved size) MoveAt.noConfusion MoveAt.noConfusion
      (·.elim MoveAt.noConfusion MoveAt.noConfusion)
      (·.elim Bool.noConfusion Bool.noConfusion)).woken (.inl rfl)
      (signalSave_move _ _) (signalSave_save _ _) rfl
  case advancedMove =>
    rw [signalMove_eq] at taken
    cases taken
    exact (goes .advancedFinish MoveAt.noConfusion MoveAt.noConfusion (by intros; contradiction)
      (by intros; contradiction)).woken (signalMove_main _ _)
      (signalMove_move _ _) (.inl rfl) rfl
  case failedFinish =>
    rw [signalFinish_eq] at taken
    cases taken
    exact (goes .returned MoveAt.noConfusion MoveAt.noConfusion (by intros; contradiction)
      (by intros; contradiction)).woken (signalFinish_main _) (.inl rfl)
      (.inl rfl) rfl
  case advancedFinish =>
    rw [signalFinish_eq] at taken
    cases taken
    exact (goes .idle MoveAt.noConfusion MoveAt.noConfusion (by intros; contradiction)
      (by intros; contradiction)).woken (signalFinish_main _) (.inl rfl)
      (.inl rfl) rfl
  all_goals
    repeat' split at taken
    all_goals cases taken
    all_goals refine (goes _ ?_ ?_ ?_ ?_).woken (.inl rfl) (.inl rfl) (.inl rfl) rfl
    all_goals grind -ring -linarith [MoveAt.inRoomGap, MoveAt.inRoomWait]

theorem Answered.saveTo (answered : threads.Answered) (place : SaveAt)
    (failedMove : threads.save ≠ .failedMove)
    (signal : threads.save.willSignal → place.willSignal)
    (idle : place = .idleGap ∨ place = .idleWait →
      threads.saveRet = 0 ∨ (threads.move = .failedMove ∨ threads.move = .failedSave) ∨
        threads.main.willStopSave) :
    ({ threads with save := place }).Answered := by
  obtain ⟨publish, moveIdle, room, -⟩ := answered
  constructor <;> grind -ring -linarith

/-- The main and the "move" thread are never enqueued on `move_cond` together: the write buffers
cannot be full and empty. -/
theorem WriteWaits.one_waits (waits : threads.WriteWaits) (full : threads.main.inPublishWait) :
    threads.move ≠ .idleWait := by
  intro idle
  have notEmpty := (waits.publishWait full).resolve_right (by rw [idle]; exact MoveAt.noConfusion)
  rcases waits.idleWait idle with empty | told
  · unfold moveInc WRITE_BUFFERS at notEmpty
    omega
  · revert full told
    cases threads.main <;> exact (by intros; contradiction)

/-- Whoever waits at `move_cond` hears that the "save" thread failed. -/
theorem WriteWaits.saveFailed (waits : threads.WriteWaits) (other : Bool)
    (awakeMain : threads.main.inPublishGap = false)
    (awakeMove : threads.move ≠ .idleGap) :
    (({ threads with save := .failedSave } : Threads env).signalMove other).Answered := by
  have wokenMain : threads.main.inPublishWait →
      (({ threads with save := .failedSave } : Threads env).signalMove
        other).main.inPublishWait = false := by
    intro full
    apply signalMove_wakes_main
    exact waits.one_waits full
  have wokenMove : threads.main.inPublishWait = false →
      (({ threads with save := .failedSave } : Threads env).signalMove
        other).move ≠ .idleWait := by
    intro awake
    apply signalMove_wakes_move
    exact awake
  have alone := waits.one_waits
  have main := signalMove_main { threads with save := .failedSave } other
  have move := signalMove_move { threads with save := .failedSave } other
  rw [signalMove_eq]
  refine ⟨?_, ?_, fun _ => .inr rfl, (·.elim SaveAt.noConfusion SaveAt.noConfusion)⟩
  · grind -ring -linarith [MainAt.Woken, MainAt.inPublishGap, MainAt.inPublishWait]
  · grind -ring -linarith [MoveAt.Woken]

/-- The "save" thread goes on, and a "move" thread that waits for room hears of it. -/
theorem Answered.saveTells (answered : threads.Answered) (place : SaveAt) (other : Bool)
    (failedMove : threads.save ≠ .failedMove) (notGap : place ≠ .idleGap)
    (notWait : place ≠ .idleWait)
    (awake : threads.saveRet ≠ 0 → threads.move.inRoomGap = false) :
    (({ threads with save := place } : Threads env).signalSave other).Answered := by
  have woken := signalSave_wakes_move
    (show ({ threads with save := place }).save ≠ .idleWait from notWait) other
  have move := signalSave_move { threads with save := place } other
  have save := signalSave_save { threads with save := place } other
  rw [signalSave_eq]
  obtain ⟨publish, moveIdle, room, saveIdle⟩ := answered
  constructor <;>
    grind -ring -linarith [MoveAt.Woken, SaveAt.Woken, MoveAt.inRoomGap, MoveAt.inRoomWait]

theorem Answered.save (answered : threads.Answered) (waits : threads.WriteWaits)
    (saveSane : threads.SaveSane) (heard : ¬ LosesWakeup (.save other) threads)
    (taken : threads.stepSave other = some after) : after.Answered := by
  have goes := answered.saveTo
  cases place : threads.save <;> rw [place] at goes <;> simp only [stepSave, place] at taken
  case idle =>
    split at taken
    · cases taken
    · split at taken
      · next empty =>
        cases taken
        exact goes _ SaveAt.noConfusion Bool.noConfusion (fun _ => .inl empty.2)
      · cases taken
        exact goes _ SaveAt.noConfusion Bool.noConfusion (by intros; contradiction)
  case idleGap =>
    cases taken
    exact goes _ SaveAt.noConfusion Bool.noConfusion (fun _ => answered.saveIdle (.inl place))
  case failed error =>
    split at taken
    · cases taken
    · cases taken
      exact ⟨fun _ => .inr (.inr rfl), fun _ => .inr (.inr rfl), fun _ => .inr rfl,
        (·.elim SaveAt.noConfusion SaveAt.noConfusion)⟩
  case writing =>
    cases taken
    have on := goes (if env.outcome threads.passed.length ≠ 0
      then .failed (env.outcome threads.passed.length) else .advance) SaveAt.noConfusion
      (fun _ => by split <;> rfl)
      (by split <;> exact (·.elim SaveAt.noConfusion SaveAt.noConfusion))
    exact on.woken (.inl rfl) (.inl rfl) (.inl rfl) rfl
  case advance =>
    split at taken
    · cases taken
    · cases taken
      have on := goes .advancedSave SaveAt.noConfusion (fun _ => rfl) (by intros; contradiction)
      exact on.woken (.inl rfl) (.inl rfl) (.inl rfl) rfl
  case failedMove =>
    cases taken
    refine waits.saveFailed other ?_ fun gap => heard (.inl ⟨place, .inr gap⟩)
    by_contra gap
    exact heard (.inl ⟨place, .inl (by simpa using gap)⟩)
  case failedSave =>
    have failed := saveSane.failing (by rw [place]; rfl)
    cases taken
    refine answered.saveTells .failedFinish other (by simp [place]) (by simp)
      (by simp) ?_
    intro _
    by_contra gap
    exact heard (.inr ⟨failed, .inl place, by simpa using gap⟩)
  case advancedSave =>
    cases taken
    refine answered.saveTells .advancedFinish other (by simp [place]) (by simp)
      (by simp) ?_
    intro failed
    by_contra gap
    exact heard (.inr ⟨failed, .inr place, by simpa using gap⟩)
  case failedFinish =>
    rw [signalFinish_eq] at taken
    cases taken
    exact (goes .done SaveAt.noConfusion Bool.noConfusion (by intros; contradiction)).woken
      (signalFinish_main _) (.inl rfl) (.inl rfl) rfl
  case advancedFinish =>
    rw [signalFinish_eq] at taken
    cases taken
    exact (goes .idle SaveAt.noConfusion Bool.noConfusion (by intros; contradiction)).woken
      (signalFinish_main _) (.inl rfl) (.inl rfl) rfl
  all_goals
    repeat' split at taken
    all_goals cases taken
    all_goals refine (goes _ ?_ ?_ ?_).woken (.inl rfl) (.inl rfl) (.inl rfl) rfl
    all_goals grind -ring -linarith [SaveAt.willSignal]

/-- All that is known of the threads. -/
structure Sound (threads : Threads env) : Prop where
  sane : threads.Sane
  writeWaits : threads.WriteWaits
  encryptWaits : threads.EncryptWaits
  finishWaits : threads.FinishWaits
  answered : threads.Answered

theorem started_sound (memory pages : Nat → Bytes) (state : env.cipher.State)
    (buffers : List Bytes) : (started memory pages state buffers).Sound where
  sane := started_sane memory pages state buffers
  writeWaits := ⟨Bool.noConfusion, Bool.noConfusion, MoveAt.noConfusion, MoveAt.noConfusion⟩
  encryptWaits := ⟨Bool.noConfusion, Bool.noConfusion, fun _ => rfl, fun _ => .inl rfl⟩
  finishWaits := ⟨MainAt.noConfusion, MainAt.noConfusion⟩
  answered := ⟨fun _ => .inl rfl, fun _ => .inl rfl, fun _ => .inl rfl, fun _ => .inl rfl⟩

theorem Sound.main (sound : threads.Sound) (heard : ¬ LosesWakeup (.main other) threads)
    (kept : ¬ Abandons (.main other) threads) (taken : threads.stepMain other = some after) :
    after.Sound := by
  exact {
    sane := sound.sane.stepMain taken
    writeWaits := sound.writeWaits.main taken
    encryptWaits := sound.encryptWaits.main taken
    finishWaits := sound.finishWaits.main taken
    answered := sound.answered.main sound.sane.main sound.sane.save heard kept taken }

theorem Sound.move (sound : threads.Sound) (heard : ¬ LosesWakeup (.move other) threads)
    (taken : threads.stepMove other = some after) : after.Sound := by
  exact {
    sane := sound.sane.stepMove taken
    writeWaits := sound.writeWaits.move taken
    encryptWaits := sound.encryptWaits.move taken
    finishWaits := sound.finishWaits.move taken
    answered := sound.answered.move sound.sane.save heard taken }

theorem Sound.save (sound : threads.Sound) (heard : ¬ LosesWakeup (.save other) threads)
    (taken : threads.stepSave other = some after) : after.Sound := by
  exact {
    sane := sound.sane.stepSave taken
    writeWaits := sound.writeWaits.save taken
    encryptWaits := sound.encryptWaits.save taken
    finishWaits := sound.finishWaits.save taken
    answered := sound.answered.save sound.writeWaits sound.sane.save heard taken }

theorem Sound.abort (sound : threads.Sound) (taken : threads.stepAbort = some after) :
    after.Sound := by
  have aborted := taken
  unfold stepAbort at taken
  split at taken
  · next reading =>
    cases taken
    have published : threads.main.isPublished = false := by rw [reading]; rfl
    have stopMove : threads.main.willStopMove = false := by rw [reading]; rfl
    have stopSave : threads.main.willStopSave = false := by rw [reading]; rfl
    exact {
      sane := sound.sane.stepAbort aborted
      writeWaits := sound.writeWaits.mainTo .stop published rfl rfl
      encryptWaits := sound.encryptWaits.woken (.inl rfl) (.inl rfl) rfl rfl
      finishWaits := ⟨MainAt.noConfusion, MainAt.noConfusion⟩
      answered :=
        sound.answered.mainTo .stop (by intros; contradiction)
          (fun at_ => absurd at_ (by simp [stopMove]))
        (fun at_ => absurd at_ (by simp [stopSave])) }
  · cases taken

theorem Sound.step {turn : Turn} (sound : threads.Sound)
    (heard : ¬ LosesWakeup turn threads) (kept : ¬ Abandons turn threads)
    (taken : Threads.step turn threads = some after) : after.Sound := by
  cases turn with
  | main other => exact sound.main heard kept taken
  | abort => exact sound.abort taken
  | move other => exact sound.move heard taken
  | save other => exact sound.save heard taken

/-- While there is no error, the other threads only rest when all buffers are empty. -/
theorem Sound.resting (sound : threads.Sound) (fresh : threads.saveRet = 0)
    (unpublished : threads.main.isPublished = false)
    (moveRests : threads.move = .done ∨ threads.move = .idleWait ∨ threads.move.inRoomWait)
    (saveRests : threads.save = .done ∨ threads.save = .idleWait) :
    threads.moveEnd = threads.moveStart ∧ threads.saveEnd = threads.saveStart := by
  have without : threads.save = .done → env.settings.doEncrypt = false := fun ended =>
    (sound.sane.save.done ended).resolve_left (by simp [fresh])
  have empty : threads.move.isPlaced = false → threads.saveEnd = threads.saveStart := by
    intro placed
    rcases saveRests with ended | idle
    · exact (sound.sane.save.unencrypted (without ended)).2.symm
    · exact (sound.encryptWaits.idleWait idle).resolve_right (by simp [placed])
  rcases moveRests with ended | idle | room
  · exact absurd fresh (sound.sane.move.done ended)
  · refine ⟨(sound.writeWaits.idleWait idle).resolve_right (by simp [unpublished]), empty ?_⟩
    rw [idle]
    rfl
  · have full := (sound.encryptWaits.roomWait room).resolve_right (by grind)
    have noPage := empty (by
      revert room
      cases threads.move <;> first | exact fun _ => rfl | exact Bool.noConfusion)
    unfold saveInc ENCRYPT_BUF_PAGES at full
    omega

/-- Where the main thread can be blocked. -/
theorem stepMain_blocked (running : threads.main ≠ .done)
    (blocked : threads.stepMain other = none) :
    threads.moveHeld ∧ threads.main.inPublishGap = false ∨ threads.main.inPublishWait ∨
      threads.main = .finishWait ∨ threads.main = .joinMove ∧ threads.move ≠ .done ∨
        threads.main = .joinSave ∧ threads.save ≠ .done := by
  cases place : threads.main <;> simp only [stepMain, place] at blocked
  case publish last =>
    split at blocked
    · next held => exact .inl ⟨held, rfl⟩
    · split at blocked <;> cases blocked
  case publishWait last => exact .inr (.inl rfl)
  case finishWait => exact .inr (.inr (.inl rfl))
  case joinMove => exact .inr (.inr (.inr (.inl ⟨rfl, fun ended => by simp [ended] at blocked⟩)))
  case joinSave => exact .inr (.inr (.inr (.inr ⟨rfl, fun ended => by simp [ended] at blocked⟩)))
  case done => exact absurd place running
  all_goals
    repeat' split at blocked
    all_goals cases blocked

theorem Sound.not_stuck (sound : threads.Sound) : ¬ threads.Stuck := by
  rintro ⟨⟨running, blocked⟩, moveRests, saveRests⟩
  have resting := fun fresh unpublished => sound.resting fresh unpublished moveRests saveRests
  have moveQuiet : threads.move ≠ .failedMove ∧ threads.move ≠ .failedSave ∧
      threads.move ≠ .advancedMove ∧ threads.move.failing = false ∧
        threads.move.advanced = false := by
    revert moveRests
    cases threads.move <;> simp [MoveAt.inRoomWait, MoveAt.failing, MoveAt.advanced]
  have saveQuiet : threads.save ≠ .failedMove ∧ threads.save.failing = false ∧
      threads.save.advanced = false ∧ threads.save.willSignal = false := by
    rcases saveRests with rests | rests
    · rw [rests]
      exact ⟨SaveAt.noConfusion, rfl, rfl, rfl⟩
    · rw [rests]
      exact ⟨SaveAt.noConfusion, rfl, rfl, rfl⟩
  rcases stepMain_blocked running (blocked false) with
    ⟨held, noGap⟩ | full | waiting | ⟨joining, alive⟩ | ⟨joining, alive⟩
  · have gap : threads.move = .idleGap := by
      revert held noGap
      unfold moveHeld
      cases threads.main <;> simp [MainAt.inPublishGap]
    rw [gap] at moveRests
    revert moveRests
    simp [MoveAt.inRoomWait]
  · have fresh :=
      (sound.answered.publish (.inr full)).resolve_right (by simp [moveQuiet, saveQuiet])
    have empty := (resting fresh (by
      revert full
      cases threads.main <;> first | exact fun _ => rfl | exact Bool.noConfusion)).1
    have notEmpty := (sound.writeWaits.publishWait full).resolve_right moveQuiet.2.2.1
    unfold moveInc WRITE_BUFFERS at notEmpty
    omega
  · have busy := (sound.finishWaits.waiting waiting).resolve_left (by simp [moveQuiet, saveQuiet])
    have empty := resting busy.1 (by rw [waiting]; rfl)
    grind -ring -linarith
  · have failed := sound.sane.main.stopping (by rw [joining]; rfl)
    rcases moveRests with ended | idle | room
    · exact alive ended
    · have told := sound.answered.moveIdle (.inr idle)
      simp [failed, joining, MainAt.willStopMove, saveQuiet] at told
    · have told := sound.answered.room (.inr room)
      simp [failed, saveQuiet] at told
  · have failed := sound.sane.main.stopping (by rw [joining]; rfl)
    have told := sound.answered.saveIdle (.inr (saveRests.resolve_left alive))
    simp [failed, joining, MainAt.willStopSave, moveQuiet] at told

/-- Whatever fails and whenever the user aborts, the main thread is never left blocked by threads
that have ended or wait themselves, provided that no wake-up for an error gets lost, and that
`stop_threads` does not leave the "move" thread without a partner. -/
theorem never_stuck {memory pages : Nat → Bytes} {state : env.cipher.State}
    {buffers : List Bytes}
    (reached : Reached step (fun turn threads => ¬ LosesWakeup turn threads ∧
      ¬ Abandons turn threads) (started memory pages state buffers) threads) :
    ¬ threads.Stuck := by
  have sound : threads.Sound := by
    refine reached.invariant (started_sound memory pages state buffers) ?_
    intro turn before next sound allowed taken
    exact sound.step allowed.1 allowed.2 taken
  exact sound.not_stuck

/-- A save without compression and encryption where every write succeeds. -/
def plainSave : SaveEnv where
  page := PageSize.fourKilobytes
  settings := ⟨false, false, false, false⟩
  lzo := ⟨id, some⟩
  cipher := ⟨Unit, fun _ src => .ok (src, ()), fun _ src => .ok (src, ())⟩
  outcome := fun _ => 0
  aborted := fun _ => false

/-- A save with small pages that are encrypted. -/
def sealedSave : SaveEnv :=
  { plainSave with
    page := PageSize.thirtyTwoBytes
    settings := ⟨false, true, false, false⟩
    cipher := .counting }

/-- A full buffer and another page. -/
def sealedStart : Threads sealedSave :=
  started (fun _ => List.replicate 1024 0) (fun _ => List.replicate 32 0) (7 : UInt8)
    [List.replicate 1024 1, List.replicate 32 2]

/-- The user aborts when two pages of the first buffer have been passed. -/
def heardSignal : List Turn :=
  List.replicate 4 (.main false) ++ List.replicate 10 (.move false) ++
    List.replicate 9 (.save false) ++ .abort :: List.replicate 3 (.main false)

theorem heard_signal_goes_on :
    ∃ threads, follow (fun turn threads => if ¬ LosesWakeup turn threads ∧
        ¬ Abandons turn threads then step turn threads else none) sealedStart heardSignal =
      some threads ∧ threads.main = .joinMove ∧ threads.passed.length = 2 ∧ ¬ threads.Stuck := by
  have led : (follow (fun turn threads => if ¬ LosesWakeup turn threads ∧
        ¬ Abandons turn threads then step turn threads else none) sealedStart heardSignal).map
      (fun threads => (threads.main, threads.passed.length)) = some (.joinMove, 2) := by
    decide +kernel
  obtain ⟨threads, led, facts⟩ := Option.map_eq_some_iff.mp led
  obtain ⟨main, passed⟩ := Prod.mk.inj facts
  exact ⟨threads, led, main, passed, never_stuck (Reached.start.follow led).guarded⟩

def plainStart : Threads plainSave := started (fun _ => []) (fun _ => []) () []

/-- The user aborts when the "move" thread has found neither a buffer nor an error: it misses the
signal, and then waits for it. -/
def missedSignal : List Turn :=
  [.move false, .abort, .main false, .main false, .main false, .move false]

theorem missed_signal_stuck :
    ∃ threads, Reached step (fun _ _ => True) plainStart threads ∧ threads.Stuck := by
  have led : ∃ threads, follow step plainStart missedSignal = some threads ∧
      threads.main = .joinMove ∧ threads.move = .idleWait ∧ threads.save = .done :=
    ⟨_, rfl, rfl, rfl, rfl⟩
  obtain ⟨threads, led, main, move, save⟩ := led
  refine ⟨threads, Reached.start.follow led, ⟨?_, ?_⟩, .inr (.inl move), .inl save⟩
  · rw [main]
    exact MainAt.noConfusion
  · intro other
    simp [stepMain, main, move]

end Threads

end Suspend
