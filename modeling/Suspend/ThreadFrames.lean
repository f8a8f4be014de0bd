import Suspend.SaveThreads

set_option autoImplicit false

namespace Suspend

/-- A thread that was enqueued may have been woken up; otherwise it is where it was. -/
def MainAt.Woken (before after : MainAt) : Prop :=
  after = before ∨ (∃ last, before = .publishWait last ∧ after = .publish last) ∨
    before = .finishWait ∧ after = .finish

def MoveAt.Woken (before after : MoveAt) : Prop :=
  after = before ∨ before = .idleWait ∧ after = .idle ∨
    ∃ moved size, before = .roomWait moved size ∧ after = .room moved size

def SaveAt.Woken (before after : SaveAt) : Prop :=
  after = before ∨ before = .idleWait ∧ after = .idle

theorem MoveAt.Woken.ended {before later : MoveAt} (woken : before.Woken later)
    (ended : before = .done) : later = .done := by
  unfold MoveAt.Woken at woken
  grind -ring -linarith

/-- Whether the main thread is to wait, or waits, for a write buffer. -/
def MainAt.inPublishGap : MainAt → Bool
  | .publishGap _ => true
  | _ => false

def MainAt.inPublishWait : MainAt → Bool
  | .publishWait _ => true
  | _ => false

/-- Whether the "move" thread is to wait, or waits, for a page of the encrypt buffer. -/
def MoveAt.inRoomGap : MoveAt → Bool
  | .roomGap _ _ => true
  | _ => false

def MoveAt.inRoomWait : MoveAt → Bool
  | .roomWait _ _ => true
  | _ => false

namespace Threads

variable {env : SaveEnv} {threads after : Threads env} {other : Bool}

theorem signalMove_eq (threads : Threads env) (other : Bool) :
    threads.signalMove other = { threads with
      main := (threads.signalMove other).main
      move := (threads.signalMove other).move } := by
  unfold signalMove
  split
  · split <;> rfl
  all_goals rfl

theorem signalMove_main (threads : Threads env) (other : Bool) :
    threads.main.Woken (threads.signalMove other).main := by
  unfold signalMove MainAt.Woken
  grind -ring -linarith

theorem signalMove_move (threads : Threads env) (other : Bool) :
    threads.move.Woken (threads.signalMove other).move := by
  unfold signalMove MoveAt.Woken
  grind -ring -linarith

theorem signalSave_eq (threads : Threads env) (other : Bool) :
    threads.signalSave other = { threads with
      move := (threads.signalSave other).move
      save := (threads.signalSave other).save } := by
  unfold signalSave
  split
  · split <;> rfl
  all_goals rfl

theorem signalSave_move (threads : Threads env) (other : Bool) :
    threads.move.Woken (threads.signalSave other).move := by
  unfold signalSave MoveAt.Woken
  grind -ring -linarith

theorem signalSave_save (threads : Threads env) (other : Bool) :
    threads.save.Woken (threads.signalSave other).save := by
  unfold signalSave SaveAt.Woken
  grind -ring -linarith

theorem signalFinish_eq (threads : Threads env) :
    threads.signalFinish = { threads with main := threads.signalFinish.main } := by
  unfold signalFinish
  split <;> rfl

theorem signalFinish_main (threads : Threads env) :
    threads.main.Woken threads.signalFinish.main := by
  unfold signalFinish MainAt.Woken
  grind -ring -linarith

theorem signalMove_wakes_main {threads : Threads env} (awake : threads.move ≠ .idleWait)
    (other : Bool) : (threads.signalMove other).main.inPublishWait = false := by
  unfold signalMove MainAt.inPublishWait
  grind -ring -linarith

theorem signalMove_wakes_move {threads : Threads env}
    (awake : threads.main.inPublishWait = false) (other : Bool) :
    (threads.signalMove other).move ≠ .idleWait := by
  unfold signalMove
  grind -ring -linarith [MainAt.inPublishWait]

theorem signalSave_wakes_move {threads : Threads env} (awake : threads.save ≠ .idleWait)
    (other : Bool) : (threads.signalSave other).move.inRoomWait = false := by
  unfold signalSave MoveAt.inRoomWait
  grind -ring -linarith

theorem signalSave_wakes_save {threads : Threads env}
    (awake : threads.move.inRoomWait = false) (other : Bool) :
    (threads.signalSave other).save ≠ .idleWait := by
  unfold signalSave
  grind -ring -linarith [MoveAt.inRoomWait]

theorem signalFinish_wakes (threads : Threads env) : threads.signalFinish.main ≠ .finishWait := by
  unfold signalFinish
  grind -ring -linarith

/-- The main thread fills the write buffers and moves their start. -/
structure MainLeaves (before after : Threads env) : Prop where
  move : before.move.Woken after.move
  save : before.save.Woken after.save
  published : before.published ≤ after.published
  moveEnd : after.moveEnd = before.moveEnd
  saveStart : after.saveStart = before.saveStart
  saveEnd : after.saveEnd = before.saveEnd
  pages : after.pages = before.pages
  state : after.state = before.state
  passed : after.passed = before.passed
  emptied : after.emptied = before.emptied
  coded : after.coded = before.coded
  placed : after.placed = before.placed
  taken : after.taken = before.taken

theorem stepMain_leaves (taken : threads.stepMain other = some after) :
    MainLeaves threads after := by
  cases place : threads.main <;> simp only [stepMain, place] at taken
  case published last =>
    rw [signalMove_eq] at taken
    cases taken
    constructor
    · exact signalMove_move _ _
    · exact .inl rfl
    · exact Nat.le_refl _
    all_goals rfl
  case stopMove =>
    rw [signalMove_eq] at taken
    cases taken
    constructor
    · exact signalMove_move _ _
    · exact .inl rfl
    · exact Nat.le_refl _
    all_goals rfl
  case stopSave =>
    rw [signalSave_eq] at taken
    cases taken
    constructor
    · exact signalSave_move _ _
    · exact signalSave_save _ _
    · exact Nat.le_refl _
    all_goals rfl
  all_goals
    repeat' split at taken
    all_goals cases taken
    all_goals constructor
    all_goals first
      | rfl
      | exact .inl rfl
      | exact Nat.le_refl _
      | exact Nat.le_succ _

/-- The "move" thread takes what is in the write buffers, and fills the encrypt buffer. -/
structure MoveLeaves (before after : Threads env) : Prop where
  main : before.main.Woken after.main
  save : before.save.Woken after.save
  moveStart : after.moveStart = before.moveStart
  saveEnd : after.saveEnd = before.saveEnd
  slots : after.slots = before.slots
  ahead : after.ahead = before.ahead
  finished : after.finished = before.finished
  flushed : after.flushed = before.flushed
  published : after.published = before.published
  taken : after.taken = before.taken

theorem stepMove_leaves (taken : threads.stepMove other = some after) :
    MoveLeaves threads after := by
  cases place : threads.move <;> simp only [stepMove, place] at taken
  case failedMove =>
    rw [signalMove_eq] at taken
    cases taken
    constructor
    · exact signalMove_main _ _
    · exact .inl rfl
    all_goals rfl
  case advancedMove =>
    rw [signalMove_eq] at taken
    cases taken
    constructor
    · exact signalMove_main _ _
    · exact .inl rfl
    all_goals rfl
  case failedSave =>
    rw [signalSave_eq] at taken
    cases taken
    constructor
    · exact .inl rfl
    · exact signalSave_save _ _
    all_goals rfl
  case placed moved size =>
    rw [signalSave_eq] at taken
    cases taken
    constructor
    · exact .inl rfl
    · exact signalSave_save _ _
    all_goals rfl
  case failedFinish =>
    rw [signalFinish_eq] at taken
    cases taken
    constructor
    · exact signalFinish_main _
    · exact .inl rfl
    all_goals rfl
  case advancedFinish =>
    rw [signalFinish_eq] at taken
    cases taken
    constructor
    · exact signalFinish_main _
    · exact .inl rfl
    all_goals rfl
  all_goals
    repeat' split at taken
    all_goals cases taken
    all_goals constructor
    all_goals first | rfl | exact .inl rfl

/-- The "save" thread takes what is in the encrypt buffer. -/
structure SaveLeaves (before after : Threads env) : Prop where
  main : before.main.Woken after.main
  move : before.move.Woken after.move
  moveStart : after.moveStart = before.moveStart
  moveEnd : after.moveEnd = before.moveEnd
  saveStart : after.saveStart = before.saveStart
  slots : after.slots = before.slots
  pages : after.pages = before.pages
  state : after.state = before.state
  ahead : after.ahead = before.ahead
  finished : after.finished = before.finished
  flushed : after.flushed = before.flushed
  published : after.published = before.published
  emptied : after.emptied = before.emptied
  coded : after.coded = before.coded
  placed : after.placed = before.placed

theorem stepSave_leaves (taken : threads.stepSave other = some after) :
    SaveLeaves threads after := by
  cases place : threads.save <;> simp only [stepSave, place] at taken
  case failedMove =>
    rw [signalMove_eq] at taken
    cases taken
    constructor
    · exact signalMove_main _ _
    · exact signalMove_move _ _
    all_goals rfl
  case failedSave =>
    rw [signalSave_eq] at taken
    cases taken
    constructor
    · exact .inl rfl
    · exact signalSave_move _ _
    all_goals rfl
  case advancedSave =>
    rw [signalSave_eq] at taken
    cases taken
    constructor
    · exact .inl rfl
    · exact signalSave_move _ _
    all_goals rfl
  case failedFinish =>
    rw [signalFinish_eq] at taken
    cases taken
    constructor
    · exact signalFinish_main _
    · exact .inl rfl
    all_goals rfl
  case advancedFinish =>
    rw [signalFinish_eq] at taken
    cases taken
    constructor
    · exact signalFinish_main _
    · exact .inl rfl
    all_goals rfl
  all_goals
    repeat' split at taken
    all_goals cases taken
    all_goals constructor
    all_goals first | rfl | exact .inl rfl

theorem stepMain_saveRet (taken : threads.stepMain other = some after) :
    after.saveRet = threads.saveRet ∨
      threads.saveRet = 0 ∧ threads.main = .stop ∧ after.main = .destroyFinish := by
  cases place : threads.main <;> simp only [stepMain, place] at taken
  case stop =>
    cases taken
    by_cases fresh : threads.saveRet = 0
    · exact .inr ⟨fresh, rfl, rfl⟩
    · exact .inl (if_neg fresh)
  case published last =>
    rw [signalMove_eq] at taken
    cases taken
    exact .inl rfl
  case stopMove =>
    rw [signalMove_eq] at taken
    cases taken
    exact .inl rfl
  case stopSave =>
    rw [signalSave_eq] at taken
    cases taken
    exact .inl rfl
  all_goals
    repeat' split at taken
    all_goals cases taken
    all_goals exact .inl rfl

theorem stepMove_saveRet (taken : threads.stepMove other = some after) :
    after.saveRet = threads.saveRet ∨
      threads.saveRet = 0 ∧ threads.finishHeld = false ∧ ∃ error, threads.move = .failed error ∧
        after.move = .failedMove := by
  cases place : threads.move <;> simp only [stepMove, place] at taken
  case failed error =>
    split at taken
    · cases taken
    · next free =>
      cases taken
      by_cases fresh : threads.saveRet = 0
      · exact .inr ⟨fresh, by simpa using free, error, rfl, rfl⟩
      · exact .inl (if_neg fresh)
  case failedMove =>
    rw [signalMove_eq] at taken
    cases taken
    exact .inl rfl
  case advancedMove =>
    rw [signalMove_eq] at taken
    cases taken
    exact .inl rfl
  case failedSave =>
    rw [signalSave_eq] at taken
    cases taken
    exact .inl rfl
  case placed moved size =>
    rw [signalSave_eq] at taken
    cases taken
    exact .inl rfl
  case failedFinish =>
    rw [signalFinish_eq] at taken
    cases taken
    exact .inl rfl
  case advancedFinish =>
    rw [signalFinish_eq] at taken
    cases taken
    exact .inl rfl
  all_goals
    repeat' split at taken
    all_goals cases taken
    all_goals exact .inl rfl

theorem stepSave_saveRet (taken : threads.stepSave other = some after) :
    after.saveRet = threads.saveRet ∨
      threads.saveRet = 0 ∧ threads.finishHeld = false ∧ ∃ error, threads.save = .failed error ∧
        after.save = .failedMove := by
  cases place : threads.save <;> simp only [stepSave, place] at taken
  case failed error =>
    split at taken
    · cases taken
    · next free =>
      cases taken
      by_cases fresh : threads.saveRet = 0
      · exact .inr ⟨fresh, by simpa using free, error, rfl, rfl⟩
      · exact .inl (if_neg fresh)
  case failedMove =>
    rw [signalMove_eq] at taken
    cases taken
    exact .inl rfl
  case failedSave =>
    rw [signalSave_eq] at taken
    cases taken
    exact .inl rfl
  case advancedSave =>
    rw [signalSave_eq] at taken
    cases taken
    exact .inl rfl
  case failedFinish =>
    rw [signalFinish_eq] at taken
    cases taken
    exact .inl rfl
  case advancedFinish =>
    rw [signalFinish_eq] at taken
    cases taken
    exact .inl rfl
  all_goals
    repeat' split at taken
    all_goals cases taken
    all_goals exact .inl rfl

end Threads

end Suspend
