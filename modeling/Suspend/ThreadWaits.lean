import Suspend.ThreadFrames

set_option autoImplicit false

namespace Suspend

/-- Whether `stop_threads` has set `save_ret` and not yet joined all threads. -/
def MainAt.stopping : MainAt → Bool
  | .destroyFinish | .stopMove | .joinMove | .stopSave | .joinSave => true
  | _ => false

/-- Whether only the "save" thread remains to be joined. -/
def MainAt.joined : MainAt → Bool
  | .stopSave | .joinSave => true
  | _ => false

/-- Whether the main thread is about to tell the "move" thread of a filled buffer. -/
def MainAt.isPublished : MainAt → Bool
  | .published _ => true
  | _ => false

/-- Whether the main thread has yet to wake up the "move" thread for its end. -/
def MainAt.willStopMove : MainAt → Bool
  | .destroyFinish | .stopMove => true
  | _ => false

/-- Whether the main thread has yet to wake up the "save" thread for its end. -/
def MainAt.willStopSave : MainAt → Bool
  | .destroyFinish | .stopMove | .joinMove | .stopSave => true
  | _ => false

/-- Whether the "move" thread is at work on a page for the encrypt buffer. -/
def MoveAt.encrypts : MoveAt → Bool
  | .encrypting _ _ | .room _ _ | .roomGap _ _ | .roomWait _ _ | .placed _ _ | .placedNext _ _
  | .failedSave => true
  | _ => false

/-- Whether the "move" thread is about to tell the "save" thread of a page or an error. -/
def MoveAt.isPlaced : MoveAt → Bool
  | .placed _ _ => true
  | _ => false

/-- Whether the "move" thread has set `save_ret` and not yet signalled it to everyone. -/
def MoveAt.failing : MoveAt → Bool
  | .failedMove | .failedSave | .failedFinish => true
  | _ => false

/-- Whether the "move" thread has freed a write buffer, which the main thread may not know. -/
def MoveAt.advanced : MoveAt → Bool
  | .advancedMove | .advancedFinish => true
  | _ => false

/-- Whether the "save" thread has set `save_ret` and not yet signalled it to everyone. -/
def SaveAt.failing : SaveAt → Bool
  | .failedMove | .failedSave | .failedFinish => true
  | _ => false

/-- Whether the "save" thread has freed a page, which the main thread may not know. -/
def SaveAt.advanced : SaveAt → Bool
  | .advancedSave | .advancedFinish => true
  | _ => false

/-- Whether the "save" thread comes to a signal on `save_cond` before it looks at `save_ret`. -/
def SaveAt.willSignal : SaveAt → Bool
  | .writing | .failed _ | .failedMove | .failedSave | .advance | .advancedSave => true
  | _ => false

namespace Threads

variable {env : SaveEnv} {threads after : Threads env} {other : Bool}

structure MainSane (threads : Threads env) : Prop where
  stopping : threads.main.stopping → threads.saveRet ≠ 0
  joined : threads.main.joined → threads.move = .done

structure MoveSane (threads : Threads env) : Prop where
  error : ∀ error, threads.move = .failed error → error ≠ 0
  done : threads.move = .done → threads.saveRet ≠ 0
  unencrypted : env.settings.doEncrypt = false → threads.move.encrypts = false

structure SaveSane (threads : Threads env) : Prop where
  error : ∀ error, threads.save = .failed error → error ≠ 0
  failing : threads.save.failing → threads.saveRet ≠ 0
  done : threads.save = .done → threads.saveRet ≠ 0 ∨ env.settings.doEncrypt = false
  unencrypted : env.settings.doEncrypt = false →
    threads.save = .done ∧ threads.saveStart = threads.saveEnd

theorem setRet_nonzero {error : Int} (failed : error ≠ 0) (threads : Threads env) :
    (threads.setRet error).saveRet ≠ 0 := by
  unfold setRet
  split
  · exact failed
  · assumption

theorem stepMain_kept (taken : threads.stepMain other = some after)
    (failed : threads.saveRet ≠ 0) : after.saveRet ≠ 0 := by
  rcases stepMain_saveRet taken with same | ⟨fresh, -⟩
  · rwa [same]
  · exact absurd fresh failed

theorem stepMove_kept (taken : threads.stepMove other = some after)
    (failed : threads.saveRet ≠ 0) : after.saveRet ≠ 0 := by
  rcases stepMove_saveRet taken with same | ⟨fresh, -⟩
  · rwa [same]
  · exact absurd fresh failed

theorem stepSave_kept (taken : threads.stepSave other = some after)
    (failed : threads.saveRet ≠ 0) : after.saveRet ≠ 0 := by
  rcases stepSave_saveRet taken with same | ⟨fresh, -⟩
  · rwa [same]
  · exact absurd fresh failed

theorem MainSane.woken (sane : threads.MainSane) (main : threads.main.Woken after.main)
    (kept : threads.saveRet ≠ 0 → after.saveRet ≠ 0)
    (ended : threads.move = .done → after.move = .done) : after.MainSane := by
  obtain ⟨stopping, joined⟩ := sane
  constructor <;> grind -ring -linarith [MainAt.Woken, MainAt.stopping, MainAt.joined]

theorem MoveSane.woken (sane : threads.MoveSane) (move : threads.move.Woken after.move)
    (kept : threads.saveRet ≠ 0 → after.saveRet ≠ 0) : after.MoveSane := by
  obtain ⟨error, done, unencrypted⟩ := sane
  constructor <;> grind -ring -linarith [MoveAt.Woken, MoveAt.encrypts]

theorem SaveSane.woken (sane : threads.SaveSane) (save : threads.save.Woken after.save)
    (kept : threads.saveRet ≠ 0 → after.saveRet ≠ 0)
    (unencrypted : env.settings.doEncrypt = false → threads.saveStart = threads.saveEnd →
      after.saveStart = after.saveEnd) : after.SaveSane := by
  obtain ⟨error, failing, done, unstarted⟩ := sane
  constructor <;> grind -ring -linarith [SaveAt.Woken, SaveAt.failing]

theorem MainSane.main (sane : threads.MainSane)
    (moveDone : threads.move = .done → threads.saveRet ≠ 0)
    (taken : threads.stepMain other = some after) : after.MainSane := by
  cases place : threads.main <;> simp only [stepMain, place] at taken
  case stop =>
    cases taken
    exact ⟨fun _ => setRet_nonzero (by decide) _, Bool.noConfusion⟩
  case destroyFinish =>
    cases taken
    exact ⟨fun _ => sane.stopping (by rw [place]; rfl), Bool.noConfusion⟩
  case joinMove =>
    split at taken
    · next ended =>
      cases taken
      exact ⟨fun _ => moveDone ended, fun _ => ended⟩
    · cases taken
  case published last =>
    have on : ({ threads with main := .publishedRet last } : Threads env).MainSane :=
      ⟨Bool.noConfusion, Bool.noConfusion⟩
    rw [signalMove_eq] at taken
    cases taken
    exact on.woken (signalMove_main _ _) id (signalMove_move _ _).ended
  case stopMove =>
    have on : ({ threads with main := .joinMove } : Threads env).MainSane :=
      ⟨fun _ => sane.stopping (by rw [place]; rfl), Bool.noConfusion⟩
    rw [signalMove_eq] at taken
    cases taken
    exact on.woken (signalMove_main _ _) id (signalMove_move _ _).ended
  case stopSave =>
    have on : ({ threads with main := .joinSave } : Threads env).MainSane :=
      ⟨fun _ => sane.stopping (by rw [place]; rfl), fun _ => sane.joined (by rw [place]; rfl)⟩
    rw [signalSave_eq] at taken
    cases taken
    exact on.woken (.inl rfl) id (signalSave_move _ _).ended
  all_goals
    repeat' split at taken
    all_goals cases taken
    all_goals exact ⟨Bool.noConfusion, Bool.noConfusion⟩

theorem MoveSane.move (sane : threads.MoveSane) (taken : threads.stepMove other = some after) :
    after.MoveSane := by
  have unencrypted := sane.unencrypted
  cases place : threads.move <;> simp only [stepMove, place] at taken
  case check =>
    cases taken
    constructor <;> grind -ring -linarith [MoveAt.encrypts]
  case saving moved size =>
    split at taken <;> cases taken
    · constructor <;> grind -ring -linarith [MoveAt.encrypts]
    · exact ⟨(by intro _ same; cases same), MoveAt.noConfusion, fun _ => rfl⟩
  case encrypting moved size =>
    rw [place] at unencrypted
    split at taken <;> cases taken
    · next error refused =>
      refine ⟨?_, MoveAt.noConfusion, fun _ => rfl⟩
      intro reported same
      cases same
      exact error.property
    · exact ⟨(by intro _ same; cases same), MoveAt.noConfusion, unencrypted⟩
  case placedNext moved size =>
    rw [place] at unencrypted
    cases taken
    constructor <;> grind -ring -linarith [MoveAt.encrypts]
  case returned =>
    cases taken
    constructor <;> grind -ring -linarith [MoveAt.encrypts]
  case failedMove =>
    have on : ({ threads with
        move := if env.settings.doEncrypt then .failedSave else .failedFinish } :
        Threads env).MoveSane := by
      constructor <;> grind -ring -linarith [MoveAt.encrypts]
    rw [signalMove_eq] at taken
    cases taken
    exact on.woken (signalMove_move _ _) id
  case advancedMove =>
    have on : ({ threads with move := .advancedFinish } : Threads env).MoveSane :=
      ⟨(by intro _ same; cases same), MoveAt.noConfusion, fun _ => rfl⟩
    rw [signalMove_eq] at taken
    cases taken
    exact on.woken (signalMove_move _ _) id
  case failedSave =>
    have on : ({ threads with move := .failedFinish } : Threads env).MoveSane :=
      ⟨(by intro _ same; cases same), MoveAt.noConfusion, fun _ => rfl⟩
    rw [signalSave_eq] at taken
    cases taken
    exact on.woken (signalSave_move _ _) id
  case placed moved size =>
    rw [place] at unencrypted
    have on : ({ threads with move := .placedNext moved size } : Threads env).MoveSane :=
      ⟨(by intro _ same; cases same), MoveAt.noConfusion, unencrypted⟩
    rw [signalSave_eq] at taken
    cases taken
    exact on.woken (signalSave_move _ _) id
  case failedFinish =>
    rw [signalFinish_eq] at taken
    cases taken
    exact ⟨(by intro _ same; cases same), MoveAt.noConfusion, fun _ => rfl⟩
  case advancedFinish =>
    rw [signalFinish_eq] at taken
    cases taken
    exact ⟨(by intro _ same; cases same), MoveAt.noConfusion, fun _ => rfl⟩
  all_goals
    rw [place] at unencrypted
    repeat' split at taken
    all_goals cases taken
    all_goals
      first
      | exact ⟨MoveAt.noConfusion, MoveAt.noConfusion, fun _ => rfl⟩
      | exact ⟨(by intro _ same; cases same), MoveAt.noConfusion, unencrypted⟩

theorem SaveSane.save (sane : threads.SaveSane) (taken : threads.stepSave other = some after) :
    after.SaveSane := by
  by_cases started : threads.save = .done
  · rw [stepSave, started] at taken
    cases taken
  have encrypts : env.settings.doEncrypt = false → False := fun without =>
    started (sane.unencrypted without).1
  have idle : ∀ place : SaveAt, (∀ error, place ≠ .failed error) → place.failing = false →
      place ≠ .done → ({ threads with save := place } : Threads env).SaveSane := by
    intro place fine quiet running
    refine ⟨fun error same => absurd same (fine error), ?_, fun same => absurd same running,
      fun without => (encrypts without).elim⟩
    intro failing
    rw [quiet] at failing
    cases failing
  cases place : threads.save <;> simp only [stepSave, place] at taken
  case check =>
    cases taken
    constructor <;> grind -ring -linarith [SaveAt.failing]
  case writing =>
    cases taken
    constructor <;> grind -ring -linarith [SaveAt.failing]
  case failed error =>
    split at taken
    · cases taken
    · cases taken
      exact ⟨(by intro _ same; cases same), fun _ => setRet_nonzero (sane.error error place) _,
        SaveAt.noConfusion,
        fun without => (encrypts without).elim⟩
  case failedMove =>
    rw [signalMove_eq] at taken
    cases taken
    exact ⟨(by intro _ same; cases same), fun _ => sane.failing (by rw [place]; rfl),
      SaveAt.noConfusion,
      fun without => (encrypts without).elim⟩
  case failedSave =>
    have on : ({ threads with save := .failedFinish } : Threads env).SaveSane :=
      ⟨(by intro _ same; cases same), fun _ => sane.failing (by rw [place]; rfl),
      SaveAt.noConfusion,
        fun without => (encrypts without).elim⟩
    rw [signalSave_eq] at taken
    cases taken
    exact on.woken (signalSave_save _ _) id (fun _ => id)
  case failedFinish =>
    rw [signalFinish_eq] at taken
    cases taken
    exact ⟨(by intro _ same; cases same), Bool.noConfusion,
      fun _ => .inl (sane.failing (by rw [place]; rfl)),
      fun without => (encrypts without).elim⟩
  case advancedSave =>
    have on := idle .advancedFinish (by intro _ same; cases same) rfl SaveAt.noConfusion
    rw [signalSave_eq] at taken
    cases taken
    exact on.woken (signalSave_save _ _) id (fun _ => id)
  case advancedFinish =>
    rw [signalFinish_eq] at taken
    cases taken
    exact (idle .idle (by intro _ same; cases same) rfl SaveAt.noConfusion).woken (.inl rfl) id
      (fun _ => id)
  all_goals
    repeat' split at taken
    all_goals cases taken
    all_goals exact ⟨(by intro _ same; cases same), Bool.noConfusion, SaveAt.noConfusion,
      fun without => (encrypts without).elim⟩

theorem stepMove_unencrypted (sane : threads.MoveSane)
    (without : env.settings.doEncrypt = false) (taken : threads.stepMove other = some after) :
    after.saveStart = threads.saveStart := by
  have plain := sane.unencrypted without
  cases place : threads.move <;> rw [place] at plain <;> simp only [stepMove, place] at taken
  case room moved size => cases plain
  case placed moved size => cases plain
  case failedSave => cases plain
  case failedMove =>
    rw [signalMove_eq] at taken
    cases taken
    rfl
  case advancedMove =>
    rw [signalMove_eq] at taken
    cases taken
    rfl
  case failedFinish =>
    rw [signalFinish_eq] at taken
    cases taken
    rfl
  case advancedFinish =>
    rw [signalFinish_eq] at taken
    cases taken
    rfl
  all_goals
    repeat' split at taken
    all_goals cases taken
    all_goals rfl

structure Sane (threads : Threads env) : Prop where
  main : threads.MainSane
  move : threads.MoveSane
  save : threads.SaveSane

theorem started_sane (memory pages : Nat → Bytes) (state : env.cipher.State)
    (buffers : List Bytes) : (started memory pages state buffers).Sane where
  main := ⟨Bool.noConfusion, Bool.noConfusion⟩
  move := ⟨(by intro _ same; cases same), MoveAt.noConfusion, fun _ => rfl⟩
  save := by
    constructor <;> grind -ring -linarith [started, SaveAt.failing]

theorem Sane.stepMain (sane : threads.Sane) (taken : threads.stepMain other = some after) :
    after.Sane := by
  have leaves := stepMain_leaves taken
  have same : threads.saveStart = threads.saveEnd → after.saveStart = after.saveEnd := by
    rw [leaves.saveStart, leaves.saveEnd]
    exact id
  exact {
    main := sane.main.main sane.move.done taken
    move := sane.move.woken leaves.move (stepMain_kept taken)
    save := sane.save.woken leaves.save (stepMain_kept taken) (fun _ => same) }

theorem Sane.stepMove (sane : threads.Sane) (taken : threads.stepMove other = some after) :
    after.Sane := by
  have leaves := stepMove_leaves taken
  have running : threads.move ≠ .done := by
    intro ended
    rw [Threads.stepMove, ended] at taken
    cases taken
  have same : env.settings.doEncrypt = false → threads.saveStart = threads.saveEnd →
      after.saveStart = after.saveEnd := by
    intro without
    rw [stepMove_unencrypted sane.move without taken, leaves.saveEnd]
    exact id
  exact {
    main := sane.main.woken leaves.main (stepMove_kept taken) (fun ended => absurd ended running)
    move := sane.move.move taken
    save := sane.save.woken leaves.save (stepMove_kept taken) same }

theorem Sane.stepSave (sane : threads.Sane) (taken : threads.stepSave other = some after) :
    after.Sane := by
  have leaves := stepSave_leaves taken
  exact {
    main := sane.main.woken leaves.main (stepSave_kept taken) leaves.move.ended
    move := sane.move.woken leaves.move (stepSave_kept taken)
    save := sane.save.save taken }

theorem Sane.stepAbort (sane : threads.Sane) (taken : threads.stepAbort = some after) :
    after.Sane := by
  unfold Threads.stepAbort at taken
  split at taken
  · cases taken
    exact {
      main := ⟨Bool.noConfusion, Bool.noConfusion⟩
      move := sane.move.woken (.inl rfl) id
      save := sane.save.woken (.inl rfl) id (fun _ => id) }
  · cases taken

/-- Waiting on `move_cond`. While a thread is on its way to wait, it holds the mutex, and the reason
remains. -/
structure WriteWaits (threads : Threads env) : Prop where
  publishGap : threads.main.inPublishGap → moveInc threads.moveStart = threads.moveEnd
  publishWait : threads.main.inPublishWait →
    moveInc threads.moveStart = threads.moveEnd ∨ threads.move = .advancedMove
  idleGap : threads.move = .idleGap → threads.moveEnd = threads.moveStart
  idleWait : threads.move = .idleWait →
    threads.moveEnd = threads.moveStart ∨ threads.main.isPublished

theorem WriteWaits.woken (waits : threads.WriteWaits) (main : threads.main.Woken after.main)
    (move : threads.move.Woken after.move) (moveStart : after.moveStart = threads.moveStart)
    (moveEnd : after.moveEnd = threads.moveEnd) : after.WriteWaits := by
  obtain ⟨publishGap, publishWait, idleGap, idleWait⟩ := waits
  constructor <;>
    grind -ring -linarith [MainAt.Woken, MoveAt.Woken, MainAt.inPublishGap, MainAt.inPublishWait,
      MainAt.isPublished]

theorem WriteWaits.mainTo (waits : threads.WriteWaits) (place : MainAt)
    (unpublished : threads.main.isPublished = false) (gap : place.inPublishGap = false)
    (waiting : place.inPublishWait = false) : ({ threads with main := place }).WriteWaits := by
  obtain ⟨publishGap, publishWait, idleGap, idleWait⟩ := waits
  constructor <;> grind -ring -linarith

theorem WriteWaits.main (waits : threads.WriteWaits)
    (taken : threads.stepMain other = some after) : after.WriteWaits := by
  have unpublished := waits.mainTo
  cases place : threads.main <;> rw [place] at unpublished <;>
    simp only [stepMain, place] at taken
  case publish last =>
    split at taken
    · cases taken
    · next free =>
      have awake : threads.move ≠ .idleGap := by
        intro gap
        simp [moveHeld, gap] at free
      split at taken
      · next full =>
        cases taken
        have idleWait := waits.idleWait
        rw [place] at idleWait
        exact ⟨fun _ => full.1, Bool.noConfusion, waits.idleGap,
          fun waiting => .inl ((idleWait waiting).resolve_right Bool.noConfusion)⟩
      · cases taken
        exact ⟨Bool.noConfusion, Bool.noConfusion, fun gap => absurd gap awake, fun _ => .inr rfl⟩
  case publishGap last =>
    cases taken
    have idleWait := waits.idleWait
    rw [place] at idleWait
    exact ⟨Bool.noConfusion, fun _ => .inl (waits.publishGap (by rw [place]; rfl)), waits.idleGap,
      fun waiting => .inl ((idleWait waiting).resolve_right Bool.noConfusion)⟩
  case published last =>
    have woken := signalMove_wakes_move
      (show ({ threads with main := .publishedRet last }).main.inPublishWait = false from rfl) other
    have main := signalMove_main { threads with main := .publishedRet last } other
    have move := signalMove_move { threads with main := .publishedRet last } other
    rw [signalMove_eq] at taken
    cases taken
    obtain ⟨publishGap, publishWait, idleGap, idleWait⟩ := waits
    constructor <;>
      grind -ring -linarith [MainAt.Woken, MoveAt.Woken, MainAt.inPublishGap, MainAt.inPublishWait]
  case stopMove =>
    rw [signalMove_eq] at taken
    cases taken
    exact (unpublished .joinMove rfl rfl rfl).woken (signalMove_main _ _)
      (signalMove_move _ _) rfl rfl
  case stopSave =>
    rw [signalSave_eq] at taken
    cases taken
    exact (unpublished .joinSave rfl rfl rfl).woken (.inl rfl) (signalSave_move _ _) rfl rfl
  all_goals
    repeat' split at taken
    all_goals cases taken
    all_goals refine (unpublished _ ?_ ?_ ?_).woken (.inl rfl) (.inl rfl) rfl rfl
    all_goals rfl

theorem WriteWaits.moveTo (waits : threads.WriteWaits) (place : MoveAt)
    (told : threads.move ≠ .advancedMove) (gap : place ≠ .idleGap)
    (waiting : place ≠ .idleWait) : ({ threads with move := place }).WriteWaits := by
  obtain ⟨publishGap, publishWait, idleGap, idleWait⟩ := waits
  constructor <;> grind -ring -linarith

theorem WriteWaits.move (waits : threads.WriteWaits)
    (taken : threads.stepMove other = some after) : after.WriteWaits := by
  have untouched := waits.moveTo
  have publishWait := waits.publishWait
  cases place : threads.move <;> rw [place] at untouched publishWait <;>
    simp only [stepMove, place] at taken
  case idle =>
    split at taken
    · cases taken
    · split at taken
      · next empty =>
        cases taken
        exact ⟨waits.publishGap,
          fun at_ => .inl ((publishWait at_).resolve_right MoveAt.noConfusion),
          fun _ => empty.1, MoveAt.noConfusion⟩
      · cases taken
        exact untouched _ MoveAt.noConfusion MoveAt.noConfusion MoveAt.noConfusion
  case idleGap =>
    cases taken
    exact ⟨waits.publishGap, fun at_ => .inl ((publishWait at_).resolve_right MoveAt.noConfusion),
      MoveAt.noConfusion,
      fun _ => .inl (waits.idleGap place)⟩
  case advance =>
    split at taken
    · cases taken
    · next free =>
      cases taken
      refine ⟨?_, fun _ => .inr rfl, MoveAt.noConfusion, MoveAt.noConfusion⟩
      intro gap
      grind -ring -linarith [moveHeld, MainAt.inPublishGap]
  case advancedMove =>
    have woken := signalMove_wakes_main
      (show ({ threads with move := .advancedFinish }).move ≠ .idleWait by simp) other
    have main := signalMove_main { threads with move := .advancedFinish } other
    have move := signalMove_move { threads with move := .advancedFinish } other
    rw [signalMove_eq] at taken
    cases taken
    obtain ⟨publishGap, publishWait, idleGap, idleWait⟩ := waits
    constructor <;>
      grind -ring -linarith [MainAt.Woken, MoveAt.Woken, MainAt.inPublishGap, MainAt.inPublishWait]
  case failedMove =>
    have on :=
      untouched (if env.settings.doEncrypt then .failedSave else .failedFinish) MoveAt.noConfusion
      (by split <;> (intro same; cases same)) (by split <;> (intro same; cases same))
    rw [signalMove_eq] at taken
    cases taken
    exact on.woken (signalMove_main _ _) (signalMove_move _ _) rfl rfl
  case failedSave =>
    rw [signalSave_eq] at taken
    cases taken
    exact (untouched .failedFinish MoveAt.noConfusion MoveAt.noConfusion MoveAt.noConfusion).woken
      (.inl rfl) (signalSave_move _ _) rfl rfl
  case placed moved size =>
    rw [signalSave_eq] at taken
    cases taken
    exact (untouched
      (.placedNext moved size) MoveAt.noConfusion MoveAt.noConfusion MoveAt.noConfusion).woken
        (.inl rfl)
      (signalSave_move _ _) rfl rfl
  case failedFinish =>
    rw [signalFinish_eq] at taken
    cases taken
    exact (untouched .returned MoveAt.noConfusion MoveAt.noConfusion MoveAt.noConfusion).woken
      (signalFinish_main _) (.inl rfl) rfl rfl
  case advancedFinish =>
    rw [signalFinish_eq] at taken
    cases taken
    exact (untouched .idle MoveAt.noConfusion MoveAt.noConfusion MoveAt.noConfusion).woken
      (signalFinish_main _) (.inl rfl) rfl rfl
  all_goals
    repeat' split at taken
    all_goals cases taken
    all_goals refine (untouched _ ?_ ?_ ?_).woken (.inl rfl) (.inl rfl) rfl rfl
    all_goals grind -ring -linarith [setRet]

theorem WriteWaits.save (waits : threads.WriteWaits)
    (taken : threads.stepSave other = some after) : after.WriteWaits := by
  have leaves := stepSave_leaves taken
  exact waits.woken leaves.main leaves.move leaves.moveStart leaves.moveEnd

/-- The same for `save_cond`. -/
structure EncryptWaits (threads : Threads env) : Prop where
  roomGap : threads.move.inRoomGap → saveInc threads.saveStart = threads.saveEnd
  roomWait : threads.move.inRoomWait →
    saveInc threads.saveStart = threads.saveEnd ∨ threads.save = .advancedSave
  idleGap : threads.save = .idleGap → threads.saveEnd = threads.saveStart
  idleWait : threads.save = .idleWait →
    threads.saveEnd = threads.saveStart ∨ threads.move.isPlaced

theorem EncryptWaits.woken (waits : threads.EncryptWaits) (move : threads.move.Woken after.move)
    (save : threads.save.Woken after.save) (saveStart : after.saveStart = threads.saveStart)
    (saveEnd : after.saveEnd = threads.saveEnd) : after.EncryptWaits := by
  obtain ⟨roomGap, roomWait, idleGap, idleWait⟩ := waits
  constructor <;>
    grind -ring -linarith [MoveAt.Woken, SaveAt.Woken, MoveAt.inRoomGap, MoveAt.inRoomWait,
      MoveAt.isPlaced]

theorem EncryptWaits.main (waits : threads.EncryptWaits)
    (taken : threads.stepMain other = some after) : after.EncryptWaits := by
  have leaves := stepMain_leaves taken
  exact waits.woken leaves.move leaves.save leaves.saveStart leaves.saveEnd

theorem EncryptWaits.moveTo (waits : threads.EncryptWaits) (place : MoveAt)
    (told : threads.move.isPlaced = false) (gap : place.inRoomGap = false)
    (waiting : place.inRoomWait = false) : ({ threads with move := place }).EncryptWaits := by
  obtain ⟨roomGap, roomWait, idleGap, idleWait⟩ := waits
  constructor <;> grind -ring -linarith

theorem EncryptWaits.move (waits : threads.EncryptWaits)
    (taken : threads.stepMove other = some after) : after.EncryptWaits := by
  have untouched := waits.moveTo
  have idleWait := waits.idleWait
  cases place : threads.move <;> rw [place] at untouched idleWait <;>
    simp only [stepMove, place] at taken
  case room moved size =>
    split at taken
    · cases taken
    · next free =>
      have awake : threads.save ≠ .idleGap := by
        intro gap
        simp [saveHeld, gap] at free
      split at taken
      · next full =>
        cases taken
        exact ⟨fun _ => full.1, Bool.noConfusion, waits.idleGap,
          fun waiting => .inl ((idleWait waiting).resolve_right Bool.noConfusion)⟩
      · cases taken
        exact ⟨Bool.noConfusion, Bool.noConfusion, fun gap => absurd gap awake, fun _ => .inr rfl⟩
  case roomGap moved size =>
    cases taken
    exact ⟨Bool.noConfusion, fun _ => .inl (waits.roomGap (by rw [place]; rfl)), waits.idleGap,
      fun waiting => .inl ((idleWait waiting).resolve_right Bool.noConfusion)⟩
  case placed moved size =>
    have awake : ({ threads with move := .placedNext moved size }).move.inRoomWait = false := rfl
    have woken := signalSave_wakes_save awake other
    have move := signalSave_move { threads with move := .placedNext moved size } other
    have save := signalSave_save { threads with move := .placedNext moved size } other
    rw [signalSave_eq] at taken
    cases taken
    obtain ⟨roomGap, roomWait, idleGap, idleWait⟩ := waits
    constructor <;>
      grind -ring -linarith [MoveAt.Woken, SaveAt.Woken, MoveAt.inRoomGap, MoveAt.inRoomWait]
  case failedMove =>
    have on := untouched (if env.settings.doEncrypt then .failedSave else .failedFinish) rfl
      (by split <;> rfl) (by split <;> rfl)
    rw [signalMove_eq] at taken
    cases taken
    exact on.woken (signalMove_move _ _) (.inl rfl) rfl rfl
  case advancedMove =>
    rw [signalMove_eq] at taken
    cases taken
    exact (untouched .advancedFinish rfl rfl rfl).woken (signalMove_move _ _) (.inl rfl) rfl rfl
  case failedSave =>
    rw [signalSave_eq] at taken
    cases taken
    exact (untouched .failedFinish rfl rfl rfl).woken (signalSave_move _ _) (signalSave_save _ _)
      rfl rfl
  case failedFinish =>
    rw [signalFinish_eq] at taken
    cases taken
    exact (untouched .returned rfl rfl rfl).woken (.inl rfl) (.inl rfl) rfl rfl
  case advancedFinish =>
    rw [signalFinish_eq] at taken
    cases taken
    exact (untouched .idle rfl rfl rfl).woken (.inl rfl) (.inl rfl) rfl rfl
  all_goals
    repeat' split at taken
    all_goals cases taken
    all_goals refine (untouched _ ?_ ?_ ?_).woken (.inl rfl) (.inl rfl) rfl rfl
    all_goals grind -ring -linarith [setRet, MoveAt.inRoomGap, MoveAt.inRoomWait, MoveAt.isPlaced]

theorem EncryptWaits.saveTo (waits : threads.EncryptWaits) (place : SaveAt)
    (told : threads.save ≠ .advancedSave) (gap : place ≠ .idleGap)
    (waiting : place ≠ .idleWait) : ({ threads with save := place }).EncryptWaits := by
  obtain ⟨roomGap, roomWait, idleGap, idleWait⟩ := waits
  constructor <;> grind -ring -linarith

theorem EncryptWaits.save (waits : threads.EncryptWaits)
    (taken : threads.stepSave other = some after) : after.EncryptWaits := by
  have untouched := waits.saveTo
  have roomWait := waits.roomWait
  cases place : threads.save <;> rw [place] at untouched roomWait <;>
    simp only [stepSave, place] at taken
  case idle =>
    split at taken
    · cases taken
    · split at taken
      · next empty =>
        cases taken
        exact ⟨waits.roomGap, fun at_ => .inl ((roomWait at_).resolve_right SaveAt.noConfusion),
          fun _ => empty.1, SaveAt.noConfusion⟩
      · cases taken
        exact untouched _ SaveAt.noConfusion SaveAt.noConfusion SaveAt.noConfusion
  case idleGap =>
    cases taken
    exact ⟨waits.roomGap, fun at_ => .inl ((roomWait at_).resolve_right SaveAt.noConfusion),
      SaveAt.noConfusion,
      fun _ => .inl (waits.idleGap place)⟩
  case advance =>
    split at taken
    · cases taken
    · next free =>
      cases taken
      refine ⟨?_, fun _ => .inr rfl, SaveAt.noConfusion, SaveAt.noConfusion⟩
      intro gap
      grind -ring -linarith [saveHeld, MoveAt.inRoomGap]
  case advancedSave =>
    have woken := signalSave_wakes_move
      (show ({ threads with save := .advancedFinish }).save ≠ .idleWait by simp) other
    have move := signalSave_move { threads with save := .advancedFinish } other
    have save := signalSave_save { threads with save := .advancedFinish } other
    rw [signalSave_eq] at taken
    cases taken
    obtain ⟨roomGap, roomWait, idleGap, idleWait⟩ := waits
    constructor <;>
      grind -ring -linarith [MoveAt.Woken, SaveAt.Woken, MoveAt.inRoomGap, MoveAt.inRoomWait,
        MoveAt.isPlaced]
  case failedMove =>
    rw [signalMove_eq] at taken
    cases taken
    exact (untouched .failedSave SaveAt.noConfusion SaveAt.noConfusion SaveAt.noConfusion).woken
      (signalMove_move _ _) (.inl rfl) rfl rfl
  case failedSave =>
    rw [signalSave_eq] at taken
    cases taken
    exact (untouched .failedFinish SaveAt.noConfusion SaveAt.noConfusion SaveAt.noConfusion).woken
      (signalSave_move _ _)
      (signalSave_save _ _) rfl rfl
  case failedFinish =>
    rw [signalFinish_eq] at taken
    cases taken
    exact untouched .done SaveAt.noConfusion SaveAt.noConfusion SaveAt.noConfusion |>.woken
      (.inl rfl) (.inl rfl) rfl rfl
  case advancedFinish =>
    rw [signalFinish_eq] at taken
    cases taken
    exact untouched .idle SaveAt.noConfusion SaveAt.noConfusion SaveAt.noConfusion |>.woken
      (.inl rfl) (.inl rfl) rfl rfl
  all_goals
    repeat' split at taken
    all_goals cases taken
    all_goals refine (untouched _ ?_ ?_ ?_).woken (.inl rfl) (.inl rfl) rfl rfl
    all_goals grind -ring -linarith [setRet]

/-- The main thread only waits for the end while there is something to do, or to be told. -/
structure FinishWaits (threads : Threads env) : Prop where
  gap : threads.main = .finishGap → threads.saveRet = 0 ∧
    (threads.saveEnd ≠ threads.saveStart ∨ threads.moveStart ≠ threads.moveEnd)
  waiting : threads.main = .finishWait → (threads.move.failing ∨ threads.save.failing) ∨
    threads.saveRet = 0 ∧ (threads.saveEnd ≠ threads.saveStart ∨
      threads.moveStart ≠ threads.moveEnd ∨ threads.move.advanced ∨ threads.save.advanced)

theorem FinishWaits.woken (waits : threads.FinishWaits) (main : threads.main.Woken after.main)
    (move : threads.move.Woken after.move) (save : threads.save.Woken after.save)
    (saveRet : after.saveRet = threads.saveRet) (moveStart : after.moveStart = threads.moveStart)
    (moveEnd : after.moveEnd = threads.moveEnd) (saveStart : after.saveStart = threads.saveStart)
    (saveEnd : after.saveEnd = threads.saveEnd) : after.FinishWaits := by
  obtain ⟨gap, waiting⟩ := waits
  constructor <;>
    grind -ring -linarith [MainAt.Woken, MoveAt.Woken, SaveAt.Woken, MoveAt.failing,
      MoveAt.advanced, SaveAt.failing, SaveAt.advanced]

theorem FinishWaits.main (waits : threads.FinishWaits)
    (taken : threads.stepMain other = some after) : after.FinishWaits := by
  cases place : threads.main <;> simp only [stepMain, place] at taken
  case finish =>
    split at taken
    · next busy =>
      cases taken
      exact ⟨fun _ => ⟨busy.2, busy.1⟩, MainAt.noConfusion⟩
    · cases taken
      exact ⟨MainAt.noConfusion, MainAt.noConfusion⟩
  case finishGap =>
    cases taken
    obtain ⟨fresh, busy⟩ := waits.gap place
    refine ⟨MainAt.noConfusion, fun _ => .inr ⟨fresh, ?_⟩⟩
    exact busy.imp_right .inl
  case published last =>
    have stays := signalMove_main { threads with main := .publishedRet last } other
    rw [signalMove_eq] at taken
    cases taken
    constructor <;> grind -ring -linarith [MainAt.Woken]
  case stopMove =>
    have stays := signalMove_main { threads with main := .joinMove } other
    rw [signalMove_eq] at taken
    cases taken
    constructor <;> grind -ring -linarith [MainAt.Woken]
  case stopSave =>
    rw [signalSave_eq] at taken
    cases taken
    exact ⟨MainAt.noConfusion, MainAt.noConfusion⟩
  case joinMove =>
    split at taken <;> cases taken
    constructor <;> grind -ring -linarith
  case publishedRet last =>
    cases taken
    constructor <;> grind -ring -linarith
  all_goals
    repeat' split at taken
    all_goals cases taken
    all_goals exact ⟨MainAt.noConfusion, MainAt.noConfusion⟩

theorem FinishWaits.moveTo (waits : threads.FinishWaits) (place : MoveAt)
    (failing : threads.move.failing → place.failing)
    (advanced : threads.move.advanced → place.advanced) :
    ({ threads with move := place }).FinishWaits := by
  obtain ⟨gap, waiting⟩ := waits
  constructor <;> grind -ring -linarith

theorem FinishWaits.move (waits : threads.FinishWaits)
    (taken : threads.stepMove other = some after) : after.FinishWaits := by
  have goes := waits.moveTo
  have pending := waits.waiting
  cases place : threads.move <;> rw [place] at goes pending <;>
    simp only [stepMove, place] at taken
  case room moved size =>
    split at taken
    · cases taken
    · split at taken
      · cases taken
        exact goes _ Bool.noConfusion Bool.noConfusion
      · next more =>
        cases taken
        obtain ⟨gap, waiting⟩ := waits
        constructor <;> grind -ring -linarith [MoveAt.failing, MoveAt.advanced]
  case failed error =>
    split at taken
    · cases taken
    · next free =>
      cases taken
      refine ⟨?_, fun _ => .inl (.inl rfl)⟩
      intro gap
      have held : threads.main = .finishGap := gap
      simp [finishHeld, held] at free
  case advance =>
    split at taken
    · cases taken
    · next free =>
      cases taken
      refine ⟨?_, ?_⟩
      · intro gap
        have held : threads.main = .finishGap := gap
        simp [finishHeld, held] at free
      · intro waiting
        rcases pending waiting with (failing | failing) | ⟨fresh, -⟩
        · cases failing
        · exact .inl (.inr failing)
        · exact .inr ⟨fresh, .inr (.inr (.inl rfl))⟩
  case failedMove =>
    have on := goes (if env.settings.doEncrypt then .failedSave else .failedFinish)
      (fun _ => by split <;> rfl) Bool.noConfusion
    rw [signalMove_eq] at taken
    cases taken
    exact on.woken (signalMove_main _ _) (signalMove_move _ _) (.inl rfl) rfl rfl rfl rfl rfl
  case failedSave =>
    rw [signalSave_eq] at taken
    cases taken
    exact (goes .failedFinish (fun _ => rfl) Bool.noConfusion).woken (.inl rfl)
      (signalSave_move _ _)
      (signalSave_save _ _) rfl rfl rfl rfl rfl
  case placed moved size =>
    rw [signalSave_eq] at taken
    cases taken
    exact (goes (.placedNext moved size) Bool.noConfusion Bool.noConfusion).woken (.inl rfl)
      (signalSave_move _ _)
      (signalSave_save _ _) rfl rfl rfl rfl rfl
  case advancedMove =>
    rw [signalMove_eq] at taken
    cases taken
    exact (goes .advancedFinish Bool.noConfusion (fun _ => rfl)).woken (signalMove_main _ _)
      (signalMove_move _ _) (.inl rfl) rfl rfl rfl rfl rfl
  case failedFinish =>
    have woken := signalFinish_wakes { threads with move := .returned }
    have main := signalFinish_main { threads with move := .returned }
    rw [signalFinish_eq] at taken
    cases taken
    obtain ⟨gap, waiting⟩ := waits
    constructor <;> grind -ring -linarith [MainAt.Woken]
  case advancedFinish =>
    have woken := signalFinish_wakes { threads with move := .idle }
    have main := signalFinish_main { threads with move := .idle }
    rw [signalFinish_eq] at taken
    cases taken
    obtain ⟨gap, waiting⟩ := waits
    constructor <;> grind -ring -linarith [MainAt.Woken]
  all_goals
    repeat' split at taken
    all_goals cases taken
    all_goals refine (goes _ ?_ ?_).woken (.inl rfl) (.inl rfl) (.inl rfl) rfl rfl rfl rfl rfl
    all_goals (intro same; cases same)

theorem FinishWaits.saveTo (waits : threads.FinishWaits) (place : SaveAt)
    (failing : threads.save.failing → place.failing)
    (advanced : threads.save.advanced → place.advanced) :
    ({ threads with save := place }).FinishWaits := by
  obtain ⟨gap, waiting⟩ := waits
  constructor <;> grind -ring -linarith

theorem FinishWaits.save (waits : threads.FinishWaits)
    (taken : threads.stepSave other = some after) : after.FinishWaits := by
  have goes := waits.saveTo
  have pending := waits.waiting
  cases place : threads.save <;> rw [place] at goes pending <;>
    simp only [stepSave, place] at taken
  case failed error =>
    split at taken
    · cases taken
    · next free =>
      cases taken
      refine ⟨?_, fun _ => .inl (.inr rfl)⟩
      intro gap
      have held : threads.main = .finishGap := gap
      simp [finishHeld, held] at free
  case advance =>
    split at taken
    · cases taken
    · next free =>
      cases taken
      refine ⟨?_, ?_⟩
      · intro gap
        have held : threads.main = .finishGap := gap
        simp [finishHeld, held] at free
      · intro waiting
        rcases pending waiting with (failing | failing) | ⟨fresh, -⟩
        · exact .inl (.inl failing)
        · cases failing
        · exact .inr ⟨fresh, .inr (.inr (.inr rfl))⟩
  case failedMove =>
    rw [signalMove_eq] at taken
    cases taken
    exact (goes .failedSave (fun _ => rfl) Bool.noConfusion).woken (signalMove_main _ _)
      (signalMove_move _ _) (.inl rfl) rfl rfl rfl rfl rfl
  case failedSave =>
    rw [signalSave_eq] at taken
    cases taken
    exact (goes .failedFinish (fun _ => rfl) Bool.noConfusion).woken (.inl rfl)
      (signalSave_move _ _)
      (signalSave_save _ _) rfl rfl rfl rfl rfl
  case advancedSave =>
    rw [signalSave_eq] at taken
    cases taken
    exact (goes .advancedFinish Bool.noConfusion (fun _ => rfl)).woken (.inl rfl)
      (signalSave_move _ _)
      (signalSave_save _ _) rfl rfl rfl rfl rfl
  case failedFinish =>
    have woken := signalFinish_wakes { threads with save := .done }
    have main := signalFinish_main { threads with save := .done }
    rw [signalFinish_eq] at taken
    cases taken
    obtain ⟨gap, waiting⟩ := waits
    constructor <;> grind -ring -linarith [MainAt.Woken]
  case advancedFinish =>
    have woken := signalFinish_wakes { threads with save := .idle }
    have main := signalFinish_main { threads with save := .idle }
    rw [signalFinish_eq] at taken
    cases taken
    obtain ⟨gap, waiting⟩ := waits
    constructor <;> grind -ring -linarith [MainAt.Woken]
  all_goals
    repeat' split at taken
    all_goals cases taken
    all_goals refine (goes _ ?_ ?_).woken (.inl rfl) (.inl rfl) (.inl rfl) rfl rfl rfl rfl rfl
    all_goals (intro same; cases same)

end Threads

end Suspend
