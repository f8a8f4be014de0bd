import Suspend.ThreadProgress

set_option autoImplicit false

namespace Suspend

open Foundation.Runs

inductive SyncObject where
  | finishMutex
  | finishCond
  | moveMutex
  | moveCond
  | saveMutex
  | saveCond
deriving DecidableEq

/-- Whether `stop_threads` is past `pthread_mutex_destroy(&finish_mutex)`. -/
def MainAt.pastFinish : MainAt → Bool
  | .stopMove | .joinMove | .stopSave | .joinSave | .destroyRest | .done => true
  | _ => false

/-- Whether all threads are joined. -/
def MainAt.pastJoins : MainAt → Bool
  | .destroyRest | .done => true
  | _ => false

/-- What the main thread locks, unlocks, waits on or signals where it is. -/
def MainAt.uses : MainAt → List SyncObject
  | .publish _ => [.moveMutex]
  | .publishGap _ | .publishWait _ => [.moveMutex, .moveCond]
  | .published _ => [.moveCond]
  | .finish => [.finishMutex]
  | .finishGap | .finishWait => [.finishMutex, .finishCond]
  | .stop => [.finishMutex]
  | .stopMove => [.moveCond]
  | .stopSave => [.saveCond]
  | _ => []

/-- The same for the "move" thread. -/
def MoveAt.uses : MoveAt → List SyncObject
  | .idle => [.moveMutex]
  | .idleGap | .idleWait => [.moveMutex, .moveCond]
  | .room _ _ => [.saveMutex]
  | .roomGap _ _ | .roomWait _ _ => [.saveMutex, .saveCond]
  | .placed _ _ => [.saveCond]
  | .failed _ => [.finishMutex]
  | .failedMove => [.moveCond]
  | .failedSave => [.saveCond]
  | .failedFinish => [.finishCond]
  | .advance => [.finishMutex, .moveMutex]
  | .advancedMove => [.moveCond]
  | .advancedFinish => [.finishCond]
  | _ => []

/-- The same for the "save" thread. -/
def SaveAt.uses : SaveAt → List SyncObject
  | .idle => [.saveMutex]
  | .idleGap | .idleWait => [.saveMutex, .saveCond]
  | .failed _ => [.finishMutex]
  | .failedMove => [.moveCond]
  | .failedSave => [.saveCond]
  | .failedFinish => [.finishCond]
  | .advance => [.finishMutex, .saveMutex]
  | .advancedSave => [.saveCond]
  | .advancedFinish => [.finishCond]
  | _ => []

/-- Whether the "move" thread is on its way to `finish_mutex` or `finish_cond`, whatever
`save_ret` is. -/
def MoveAt.boundToFinish : MoveAt → Bool
  | .failed _ | .failedMove | .failedSave | .failedFinish => true
  | .advance | .advancedMove | .advancedFinish => true
  | _ => false

/-- The same for the "save" thread. A page that is written is followed by an advance or an
error. -/
def SaveAt.boundToFinish : SaveAt → Bool
  | .writing | .failed _ | .failedMove | .failedSave | .failedFinish => true
  | .advance | .advancedSave | .advancedFinish => true
  | _ => false

namespace Threads

variable {env : SaveEnv} {threads after : Threads env} {other : Bool}

/-- What `stop_threads` has destroyed. -/
def destroyed (threads : Threads env) : SyncObject → Bool
  | .finishMutex | .finishCond => threads.main.pastFinish
  | _ => threads.main == .done

/-- A thread uses an object that is gone. -/
def Misuses (threads : Threads env) : Prop :=
  ∃ object ∈ threads.main.uses ++ threads.move.uses ++ threads.save.uses,
    threads.destroyed object

/-- `stop_threads` destroys `finish_mutex` and `finish_cond` under the feet of a thread. -/
def DestroysTooEarly : Turn → Threads env → Prop
  | .main _, threads =>
      threads.main = .destroyFinish ∧ (threads.move.boundToFinish ∨ threads.save.boundToFinish)
  | _, _ => False

/-- The page that the "move" thread is at cannot be written or encrypted. -/
def pageFails (threads : Threads env) : Bool :=
  match threads.move with
  | .saving moved size => decide (moved < size ∧ env.outcome threads.passed.length ≠ 0)
  | .encrypting moved _ => !(env.cipher.encrypt threads.state
      (env.pageAt (threads.slots threads.moveEnd).1 moved)).isOk
  | _ => false

/-- An error comes when `finish_mutex` is gone. -/
def FailsTooLate : Turn → Threads env → Prop
  | .move _, threads => threads.main.pastFinish ∧ threads.pageFails
  | _, _ => False

/-- Once the objects for the end are gone, the threads still running are on their way to end. -/
structure Quiet (threads : Threads env) : Prop where
  moveUnbound : threads.main.pastFinish → threads.move.boundToFinish = false
  saveUnbound : threads.main.pastFinish → threads.save.boundToFinish = false
  failed : threads.main.pastFinish → threads.saveRet ≠ 0
  joined : threads.main.pastJoins → threads.move = .done ∧ threads.save = .done

theorem MainAt.unfinished {place : MainAt} {object : SyncObject} (used : object ∈ place.uses)
    (past : place.pastFinish) : object ≠ .finishMutex ∧ object ≠ .finishCond := by
  revert past used
  cases place <;> cases object <;> simp [MainAt.uses, MainAt.pastFinish]

theorem MoveAt.unfinished {place : MoveAt} {object : SyncObject} (used : object ∈ place.uses)
    (unbound : place.boundToFinish = false) :
    object ≠ .finishMutex ∧ object ≠ .finishCond := by
  revert unbound used
  cases place <;> cases object <;> simp [MoveAt.uses, MoveAt.boundToFinish]

theorem SaveAt.unfinished {place : SaveAt} {object : SyncObject} (used : object ∈ place.uses)
    (unbound : place.boundToFinish = false) :
    object ≠ .finishMutex ∧ object ≠ .finishCond := by
  revert unbound used
  cases place <;> cases object <;> simp [SaveAt.uses, SaveAt.boundToFinish]

theorem Quiet.unused (quiet : threads.Quiet) : ¬ threads.Misuses := by
  rintro ⟨object, used, gone⟩
  by_cases ended : threads.main = .done
  · have joined := quiet.joined (by rw [ended]; rfl)
    rw [ended, joined.1, joined.2] at used
    cases used
  · have late : threads.main.pastFinish ∧ (object = .finishMutex ∨ object = .finishCond) := by
      revert gone
      cases object <;> simp [destroyed, ended]
    have unfinished : object ≠ .finishMutex ∧ object ≠ .finishCond := by
      rcases List.mem_append.mp used with early | bySave
      · rcases List.mem_append.mp early with byMain | byMove
        · exact MainAt.unfinished byMain late.1
        · exact MoveAt.unfinished byMove (quiet.moveUnbound late.1)
      · exact SaveAt.unfinished bySave (quiet.saveUnbound late.1)
    exact late.2.elim unfinished.1 unfinished.2

theorem Quiet.woken (quiet : threads.Quiet) (main : threads.main.Woken after.main)
    (move : threads.move.Woken after.move) (save : threads.save.Woken after.save)
    (saveRet : after.saveRet = threads.saveRet) : after.Quiet := by
  obtain ⟨moveQuiet, saveQuiet, failed, joined⟩ := quiet
  constructor <;> grind -ring -linarith
    [MainAt.Woken, MoveAt.Woken, SaveAt.Woken, MainAt.pastFinish,
    MainAt.pastJoins, MoveAt.boundToFinish, SaveAt.boundToFinish]

theorem Quiet.mainTo (quiet : threads.Quiet) (place : MainAt)
    (finish : place.pastFinish → threads.main.pastFinish)
    (joins : place.pastJoins → threads.move = .done ∧ threads.save = .done) :
    ({ threads with main := place }).Quiet where
  moveUnbound past := quiet.moveUnbound (finish past)
  saveUnbound past := quiet.saveUnbound (finish past)
  failed past := quiet.failed (finish past)
  joined := joins

theorem Quiet.main (quiet : threads.Quiet) (mainSane : threads.MainSane)
    (saveSane : threads.SaveSane) (inTime : ¬ DestroysTooEarly (.main other) threads)
    (taken : threads.stepMain other = some after) : after.Quiet := by
  have goes := quiet.mainTo
  cases place : threads.main <;> rw [place] at goes <;> simp only [stepMain, place] at taken
  case destroyFinish =>
    cases taken
    have unbound : threads.move.boundToFinish = false ∧ threads.save.boundToFinish = false := by
      unfold DestroysTooEarly at inTime
      grind -ring -linarith
    exact ⟨fun _ => unbound.1, fun _ => unbound.2,
      fun _ => mainSane.stopping (by rw [place]; rfl), Bool.noConfusion⟩
  case joinMove =>
    split at taken
    · next ended =>
      cases taken
      refine goes _ (fun _ => rfl) ?_
      split
      · exact Bool.noConfusion
      · next without =>
        exact fun _ => ⟨ended, (saveSane.unencrypted (by simpa using without)).1⟩
    · cases taken
  case joinSave =>
    split at taken
    · next ended =>
      cases taken
      exact goes _ (fun _ => rfl) (fun _ => ⟨mainSane.joined (by rw [place]; rfl), ended⟩)
    · cases taken
  case destroyRest =>
    cases taken
    exact goes _ (fun _ => rfl) (fun _ => quiet.joined (by rw [place]; rfl))
  case stopMove =>
    rw [signalMove_eq] at taken
    cases taken
    exact (goes .joinMove (fun _ => rfl) Bool.noConfusion).woken (signalMove_main _ _)
      (signalMove_move _ _)
      (.inl rfl) rfl
  case stopSave =>
    rw [signalSave_eq] at taken
    cases taken
    exact (goes .joinSave (fun _ => rfl) Bool.noConfusion).woken (.inl rfl) (signalSave_move _ _)
      (signalSave_save _ _) rfl
  case published last =>
    rw [signalMove_eq] at taken
    cases taken
    exact (goes (.publishedRet last) Bool.noConfusion Bool.noConfusion).woken (signalMove_main _ _)
      (signalMove_move _ _) (.inl rfl) rfl
  case stop =>
    cases taken
    exact ⟨Bool.noConfusion, Bool.noConfusion, Bool.noConfusion, Bool.noConfusion⟩
  case publishedRet last =>
    cases taken
    refine goes _ ?_ ?_
    all_goals
      intro past
      split at past
      · cases past
      · split at past <;> cases past
  all_goals
    repeat' split at taken
    all_goals cases taken
    all_goals refine (goes _ ?_ ?_).woken (.inl rfl) (.inl rfl) (.inl rfl) rfl
    all_goals exact Bool.noConfusion

theorem Quiet.moveTo (quiet : threads.Quiet) (place : MoveAt) (running : threads.move ≠ .done)
    (unbound : threads.main.pastFinish → place.boundToFinish = false) :
    ({ threads with move := place }).Quiet where
  moveUnbound := unbound
  saveUnbound := quiet.saveUnbound
  failed := quiet.failed
  joined past := absurd (quiet.joined past).1 running

/-- Past `finish_mutex` a page that is saved does not fail. -/
theorem Quiet.saving (quiet : threads.Quiet) (inTime : ¬ FailsTooLate (.move other) threads)
    {moved size : Nat} (place : threads.move = .saving moved size)
    (taken : threads.stepMove other = some after) : after.Quiet := by
  have goes := quiet.moveTo
  rw [place] at goes
  simp only [stepMove, place] at taken
  split at taken
  · next more =>
    cases taken
    have on := goes (if env.outcome threads.passed.length ≠ 0
      then .failed (env.outcome threads.passed.length)
      else .saving (moved + env.page.bytes) size) MoveAt.noConfusion (by
        intro past
        simp [FailsTooLate, pageFails, place, past, more] at inTime
        grind -ring -linarith [MoveAt.boundToFinish])
    exact on.woken (.inl rfl) (.inl rfl) (.inl rfl) rfl
  · cases taken
    exact goes _ MoveAt.noConfusion (fun _ => rfl)

theorem Quiet.encrypting (quiet : threads.Quiet) (inTime : ¬ FailsTooLate (.move other) threads)
    {moved size : Nat} (place : threads.move = .encrypting moved size)
    (taken : threads.stepMove other = some after) : after.Quiet := by
  have goes := quiet.moveTo
  rw [place] at goes
  simp only [stepMove, place] at taken
  split at taken
  · next error refused =>
    cases taken
    refine goes _ MoveAt.noConfusion ?_
    intro past
    simp [FailsTooLate, pageFails, place, past, refused, Except.isOk, Except.toBool] at inTime
  · cases taken
    have on := goes (.room (moved + env.page.bytes) size) MoveAt.noConfusion (fun _ => rfl)
    exact on.woken (.inl rfl) (.inl rfl) (.inl rfl) rfl

/-- The "move" thread has an error to tell only before `finish_mutex` is destroyed. -/
theorem Quiet.tells (quiet : threads.Quiet) {error : Int}
    (place : threads.move = .failed error) (taken : threads.stepMove other = some after) :
    after.Quiet := by
  have unbound := quiet.moveUnbound
  rw [place] at unbound
  simp only [stepMove, place] at taken
  have before : threads.main.pastFinish = false := by
    by_contra past
    exact absurd (unbound (by simpa using past)) Bool.noConfusion
  split at taken
  · cases taken
  · cases taken
    obtain ⟨-, saveUnbound, -, joined⟩ := quiet
    constructor <;> grind -ring -linarith [setRet, MainAt.pastFinish, MainAt.pastJoins]

theorem Quiet.move (quiet : threads.Quiet) (inTime : ¬ FailsTooLate (.move other) threads)
    (taken : threads.stepMove other = some after) : after.Quiet := by
  have goes := quiet.moveTo
  have unbound := quiet.moveUnbound
  have failed := quiet.failed
  cases place : threads.move
  case saving moved size => exact quiet.saving inTime place taken
  case encrypting moved size => exact quiet.encrypting inTime place taken
  case failed error => exact quiet.tells place taken
  all_goals
    rw [place] at goes unbound
    simp only [stepMove, place] at taken
  case returned =>
    cases taken
    refine goes _ MoveAt.noConfusion ?_
    intro past
    rw [if_pos (failed past)]
    rfl
  case placedNext moved size =>
    cases taken
    refine goes _ MoveAt.noConfusion ?_
    intro past
    rw [if_neg (fun more => failed past more.2)]
    rfl
  case failedMove =>
    have before : threads.main.pastFinish = false := by
      by_contra past
      exact absurd (unbound (by simpa using past)) Bool.noConfusion
    have on :=
      goes (if env.settings.doEncrypt then .failedSave else .failedFinish) MoveAt.noConfusion
      (fun past => by simp [before] at past)
    rw [signalMove_eq] at taken
    cases taken
    exact on.woken (signalMove_main _ _) (signalMove_move _ _) (.inl rfl) rfl
  case failedSave =>
    have on := goes .failedFinish MoveAt.noConfusion unbound
    rw [signalSave_eq] at taken
    cases taken
    exact on.woken (.inl rfl) (signalSave_move _ _) (signalSave_save _ _) rfl
  case placed moved size =>
    have on := goes (.placedNext moved size) MoveAt.noConfusion unbound
    rw [signalSave_eq] at taken
    cases taken
    exact on.woken (.inl rfl) (signalSave_move _ _) (signalSave_save _ _) rfl
  case advancedMove =>
    have on := goes .advancedFinish MoveAt.noConfusion unbound
    rw [signalMove_eq] at taken
    cases taken
    exact on.woken (signalMove_main _ _) (signalMove_move _ _) (.inl rfl) rfl
  case failedFinish =>
    have on := goes .returned MoveAt.noConfusion (fun _ => rfl)
    rw [signalFinish_eq] at taken
    cases taken
    exact on.woken (signalFinish_main _) (.inl rfl) (.inl rfl) rfl
  case advancedFinish =>
    have on := goes .idle MoveAt.noConfusion (fun _ => rfl)
    rw [signalFinish_eq] at taken
    cases taken
    exact on.woken (signalFinish_main _) (.inl rfl) (.inl rfl) rfl
  case done => cases taken
  case check =>
    cases taken
    refine goes _ MoveAt.noConfusion ?_
    intro past
    rw [if_pos (failed past)]
    rfl
  all_goals
    repeat' split at taken
    all_goals cases taken
    all_goals refine (goes _ MoveAt.noConfusion ?_).woken (.inl rfl) (.inl rfl) (.inl rfl) rfl
    all_goals first | exact fun _ => rfl | exact unbound

theorem Quiet.saveTo (quiet : threads.Quiet) (place : SaveAt) (running : threads.save ≠ .done)
    (unbound : threads.main.pastFinish → place.boundToFinish = false) :
    ({ threads with save := place }).Quiet where
  moveUnbound := quiet.moveUnbound
  saveUnbound := unbound
  failed := quiet.failed
  joined past := absurd (quiet.joined past).2 running

theorem Quiet.save (quiet : threads.Quiet) (taken : threads.stepSave other = some after) :
    after.Quiet := by
  have goes := quiet.saveTo
  have unbound := quiet.saveUnbound
  have failed := quiet.failed
  cases place : threads.save <;> rw [place] at goes unbound <;>
    simp only [stepSave, place] at taken
  case writing =>
    have before : threads.main.pastFinish = false := by
      by_contra past
      exact absurd (unbound (by simpa using past)) Bool.noConfusion
    have on := goes (if env.outcome threads.passed.length ≠ 0
      then .failed (env.outcome threads.passed.length) else .advance) SaveAt.noConfusion
      (fun past => by simp [before] at past)
    cases taken
    exact on.woken (.inl rfl) (.inl rfl) (.inl rfl) rfl
  case failed error =>
    have before : threads.main.pastFinish = false := by
      by_contra past
      exact absurd (unbound (by simpa using past)) Bool.noConfusion
    split at taken
    · cases taken
    · cases taken
      obtain ⟨moveUnbound, -, -, joined⟩ := quiet
      constructor <;> grind -ring -linarith [setRet, MainAt.pastFinish, MainAt.pastJoins]
  case check =>
    cases taken
    refine goes _ SaveAt.noConfusion ?_
    intro past
    rw [if_pos (failed past)]
    rfl
  case failedMove =>
    have on := goes .failedSave SaveAt.noConfusion unbound
    rw [signalMove_eq] at taken
    cases taken
    exact on.woken (signalMove_main _ _) (signalMove_move _ _) (.inl rfl) rfl
  case failedSave =>
    have on := goes .failedFinish SaveAt.noConfusion unbound
    rw [signalSave_eq] at taken
    cases taken
    exact on.woken (.inl rfl) (signalSave_move _ _) (signalSave_save _ _) rfl
  case advancedSave =>
    have on := goes .advancedFinish SaveAt.noConfusion unbound
    rw [signalSave_eq] at taken
    cases taken
    exact on.woken (.inl rfl) (signalSave_move _ _) (signalSave_save _ _) rfl
  case failedFinish =>
    have on := goes .done SaveAt.noConfusion (fun _ => rfl)
    rw [signalFinish_eq] at taken
    cases taken
    exact on.woken (signalFinish_main _) (.inl rfl) (.inl rfl) rfl
  case advancedFinish =>
    have on := goes .idle SaveAt.noConfusion (fun _ => rfl)
    rw [signalFinish_eq] at taken
    cases taken
    exact on.woken (signalFinish_main _) (.inl rfl) (.inl rfl) rfl
  case done => cases taken
  all_goals
    repeat' split at taken
    all_goals cases taken
    all_goals refine (goes _ SaveAt.noConfusion ?_).woken (.inl rfl) (.inl rfl) (.inl rfl) rfl
    all_goals first | exact fun _ => rfl | exact unbound

/-- What the threads use rests on what their places say about `save_ret`. -/
structure Orderly (threads : Threads env) : Prop where
  sane : threads.Sane
  quiet : threads.Quiet

theorem started_orderly (memory pages : Nat → Bytes) (state : env.cipher.State)
    (buffers : List Bytes) : (started memory pages state buffers).Orderly :=
  ⟨started_sane memory pages state buffers,
  ⟨Bool.noConfusion, Bool.noConfusion, Bool.noConfusion, Bool.noConfusion⟩⟩

theorem Orderly.step {turn : Turn} (orderly : threads.Orderly)
    (early : ¬ DestroysTooEarly turn threads) (late : ¬ FailsTooLate turn threads)
    (taken : Threads.step turn threads = some after) : after.Orderly := by
  obtain ⟨sane, quiet⟩ := orderly
  cases turn with
  | main other => exact ⟨sane.stepMain taken, quiet.main sane.main sane.save early taken⟩
  | move other => exact ⟨sane.stepMove taken, quiet.move late taken⟩
  | save other => exact ⟨sane.stepSave taken, quiet.save taken⟩
  | abort =>
      refine ⟨sane.stepAbort taken, ?_⟩
      simp only [Threads.step, stepAbort] at taken
      split at taken
      · cases taken
        exact ⟨Bool.noConfusion, Bool.noConfusion, Bool.noConfusion, Bool.noConfusion⟩
      · cases taken

/-- No thread uses a mutex or a condition variable that is gone, if `stop_threads` destroys
`finish_mutex` and `finish_cond` when no thread is on its way to them, and none is sent there by a
failure afterwards. -/
theorem never_misused {memory pages : Nat → Bytes} {state : env.cipher.State}
    {buffers : List Bytes}
    (reached : Reached step (fun turn threads => ¬ DestroysTooEarly turn threads ∧
      ¬ FailsTooLate turn threads) (started memory pages state buffers) threads) :
    ¬ threads.Misuses := by
  have orderly : threads.Orderly := by
    refine reached.invariant (started_orderly memory pages state buffers) ?_
    intro turn before next orderly allowed taken
    exact orderly.step allowed.1 allowed.2 taken
  exact orderly.quiet.unused

def onePageStart : Threads plainSave := started (fun _ => []) (fun _ => []) () [[0]]

instance : ∀ turn (threads : Threads env), Decidable (DestroysTooEarly turn threads)
  | .main _, _ => inferInstanceAs (Decidable (_ ∧ (_ ∨ _)))
  | .move _, _ => inferInstanceAs (Decidable False)
  | .save _, _ => inferInstanceAs (Decidable False)
  | .abort, _ => inferInstanceAs (Decidable False)

instance : ∀ turn (threads : Threads env), Decidable (FailsTooLate turn threads)
  | .main _, _ => inferInstanceAs (Decidable False)
  | .move _, _ => inferInstanceAs (Decidable (_ ∧ _))
  | .save _, _ => inferInstanceAs (Decidable False)
  | .abort, _ => inferInstanceAs (Decidable False)

/-- A page is saved, and the main thread sees the end of the save when the "move" thread has sent
its signals. -/
def signalsFirst : List Turn :=
  List.replicate 4 (.main false) ++ List.replicate 8 (.move false) ++
    List.replicate 4 (.main false)

theorem signals_first_unmisused :
    ∃ threads, follow (fun turn threads => if ¬ DestroysTooEarly turn threads ∧
        ¬ FailsTooLate turn threads then step turn threads else none) onePageStart signalsFirst =
      some threads ∧ threads.main = .stopMove ∧ ¬ threads.Misuses := by
  have led : ∃ threads, follow (fun turn threads => if ¬ DestroysTooEarly turn threads ∧
        ¬ FailsTooLate turn threads then step turn threads else none) onePageStart signalsFirst =
      some threads ∧ threads.main = .stopMove := ⟨_, rfl, rfl⟩
  obtain ⟨threads, led, main⟩ := led
  exact ⟨threads, led, main, never_misused (Reached.start.follow led).guarded⟩

/-- The same, but the main thread does not wait for the last signal. -/
def signalLast : List Turn :=
  List.replicate 4 (.main false) ++ List.replicate 7 (.move false) ++
    List.replicate 4 (.main false)

theorem signal_last_misused :
    ∃ threads, Reached step (fun _ _ => True) onePageStart threads ∧ threads.Misuses := by
  have led : ∃ threads, follow step onePageStart signalLast = some threads ∧
      threads.main = .stopMove ∧ threads.move = .advancedFinish := ⟨_, rfl, rfl, rfl⟩
  obtain ⟨threads, led, main, move⟩ := led
  refine ⟨threads, Reached.start.follow led, .finishCond, ?_, ?_⟩
  · rw [move]
    exact List.mem_append_left _ (List.mem_append_right _ (List.mem_singleton.mpr rfl))
  · rw [destroyed, main]
    rfl

end Threads

end Suspend
