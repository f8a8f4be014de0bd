import Suspend.ThreadProgress

set_option autoImplicit false

/- A second `write_image` with threads. `start_threads` puts back the indices of the two circular
buffers, but nothing ever clears `save_ret`: the second attempt finds it as the first has left
it. -/
namespace Suspend

open Foundation.Runs

/-- Whether `stop_threads` has set `save_ret`. -/
def MainAt.stopped : MainAt → Bool
  | .destroyFinish | .stopMove | .joinMove | .stopSave | .joinSave | .destroyRest | .done => true
  | _ => false

/-- Whether the main thread is about to wait, or waits. -/
def MainAt.waits : MainAt → Bool
  | .publishGap _ | .publishWait _ | .finishGap | .finishWait => true
  | _ => false

/-- How many steps the main thread has before it while `save_ret` is set. -/
def MainAt.left : MainAt → Nat
  | .reading => 13
  | .publish _ | .publishGap _ | .publishWait _ => 12
  | .published _ => 11
  | .publishedRet _ => 10
  | .finish | .finishGap | .finishWait => 9
  | .finishRet => 8
  | .stop => 7
  | .destroyFinish => 6
  | .stopMove => 5
  | .joinMove => 4
  | .stopSave => 3
  | .joinSave => 2
  | .destroyRest => 1
  | .done => 0

/-- Whether the "move" thread has not looked at a buffer and does not wait for one. -/
def MoveAt.leaving : MoveAt → Bool
  | .idle | .check | .done => true
  | _ => false

def MoveAt.left : MoveAt → Nat
  | .idle => 2
  | .check => 1
  | _ => 0

/-- Whether the "save" thread has not looked at a page and does not wait for one. -/
def SaveAt.leaving : SaveAt → Bool
  | .idle | .check | .done => true
  | _ => false

def SaveAt.left : SaveAt → Nat
  | .idle => 2
  | .check => 1
  | _ => 0

namespace Threads

variable {env : SaveEnv} {threads after : Threads env} {other : Bool} {old : Int}

/-- `start_threads`, with what is in `save_ret`. -/
def restarted (saveRet : Int) (memory pages : Nat → Bytes) (state : env.cipher.State)
    (buffers : List Bytes) : Threads env :=
  { started memory pages state buffers with saveRet := saveRet }

/-- The error that `save_image` comes to `stop_threads` with in this step, where `aborted` is that
of an abort or of a failed read. -/
def leaves (aborted : Int) (threads : Threads env) : Turn → Option Int
  | .main _ =>
      match threads.main with
      | .publishedRet false => if threads.saveRet ≠ 0 then some threads.saveRet else none
      | .finishRet => some threads.saveRet
      | _ => none
  | .abort => if threads.main = .reading then some aborted else none
  | .move _ => none
  | .save _ => none

/-- An error that `wait_for_finish` has returned is in `save_ret`, and so is some error once
`stop_threads` has run. -/
structure Settled (threads : Threads env) : Prop where
  stopped : threads.main.stopped → threads.saveRet ≠ 0
  finished : ∀ error, threads.finished = some error → error = 0 ∨ threads.saveRet = error

theorem Settled.others (settled : threads.Settled) (main : threads.main.Woken after.main)
    (saveRet : after.saveRet = threads.saveRet ∨ threads.saveRet = 0)
    (kept : threads.saveRet ≠ 0 → after.saveRet ≠ 0)
    (finished : after.finished = threads.finished) : after.Settled := by
  obtain ⟨stopped, returned⟩ := settled
  constructor <;> grind -ring -linarith [MainAt.Woken, MainAt.stopped]

theorem Settled.main (settled : threads.Settled) (taken : threads.stepMain other = some after) :
    after.Settled := by
  obtain ⟨stopped, finished⟩ := settled
  cases place : threads.main <;> rw [place] at stopped <;> simp only [stepMain, place] at taken
  case stop =>
    cases taken
    refine ⟨fun _ => setRet_nonzero (by decide) threads, fun error returned => ?_⟩
    rcases finished error returned with none | same
    · exact .inl none
    · by_cases fresh : threads.saveRet = 0
      · exact .inl (same.symm.trans fresh)
      · exact .inr ((if_neg fresh).trans same)
  case finishRet =>
    cases taken
    exact ⟨Bool.noConfusion, fun error returned => .inr (Option.some.inj returned)⟩
  case published last =>
    have woken := signalMove_main { threads with main := .publishedRet last } other
    rw [signalMove_eq] at taken
    cases taken
    refine ⟨?_, finished⟩
    grind -ring -linarith [MainAt.Woken, MainAt.stopped]
  case stopMove =>
    rw [signalMove_eq] at taken
    cases taken
    exact ⟨fun _ => stopped rfl, finished⟩
  case stopSave =>
    rw [signalSave_eq] at taken
    cases taken
    exact ⟨fun _ => stopped rfl, finished⟩
  all_goals
    repeat' split at taken
    all_goals cases taken
    all_goals refine ⟨?_, finished⟩
    all_goals grind -ring -linarith [MainAt.stopped, fill]

theorem Settled.step {turn : Turn} (settled : threads.Settled)
    (taken : Threads.step turn threads = some after) : after.Settled := by
  cases turn with
  | main other => exact settled.main taken
  | abort =>
      simp only [Threads.step, stepAbort] at taken
      split at taken
      · cases taken
        exact ⟨Bool.noConfusion, settled.finished⟩
      · cases taken
  | move other =>
      have left := stepMove_leaves taken
      exact settled.others left.main ((stepMove_saveRet taken).imp id And.left)
        (stepMove_kept taken) left.finished
  | save other =>
      have left := stepSave_leaves taken
      exact settled.others left.main ((stepSave_saveRet taken).imp id And.left)
        (stepSave_kept taken) left.finished

theorem settled_of_reached {memory pages : Nat → Bytes} {state : env.cipher.State}
    {buffers : List Bytes}
    (reached : Reached step (fun _ _ => True) (started memory pages state buffers) threads) :
    threads.Settled := by
  apply reached.invariant
  · exact ⟨Bool.noConfusion, by intro error returned; cases returned⟩
  · intro turn before next settled _ taken
    exact settled.step taken

/-- No thread waits and nothing has been handed to `save_page`; the main thread has filled at most
one write buffer. -/
structure Vain (old : Int) (threads : Threads env) : Prop where
  saveRet : threads.saveRet = old
  main : threads.main.waits = false
  move : threads.move.leaving
  save : threads.save.leaving
  passed : threads.passed = []
  flushed : threads.flushed.length ≤ if threads.main = .reading then 0 else 1

/-- How many steps the threads have before them while `save_ret` is set. -/
def left (threads : Threads env) : Nat :=
  threads.main.left + threads.move.left + threads.save.left

theorem restarted_vain (old : Int) (memory pages : Nat → Bytes) (state : env.cipher.State)
    (buffers : List Bytes) : (restarted old memory pages state buffers).Vain old where
  saveRet := rfl
  main := rfl
  move := rfl
  save := by
    simp only [restarted, started]
    split <;> rfl
  passed := rfl
  flushed := Nat.le_refl 0

theorem restarted_left (old : Int) (memory pages : Nat → Bytes) (state : env.cipher.State)
    (buffers : List Bytes) : (restarted old memory pages state buffers).left ≤ 17 := by
  simp only [left, restarted, started]
  split <;> decide

theorem Vain.moveFree (vain : threads.Vain old) : threads.moveHeld = false := by
  have main := vain.main
  have move := vain.move
  unfold moveHeld
  grind -ring -linarith [MainAt.waits, MoveAt.leaving]

theorem Vain.saveFree (vain : threads.Vain old) : threads.saveHeld = false := by
  have move := vain.move
  have save := vain.save
  unfold saveHeld
  grind -ring -linarith [MoveAt.leaving, SaveAt.leaving]

/-- A signal to a thread that does not wait has no effect. -/
theorem Vain.signalMove (vain : threads.Vain old) (other : Bool) :
    threads.signalMove other = threads := by
  have main := vain.main
  have move := vain.move
  unfold Threads.signalMove
  grind -ring -linarith [MainAt.waits, MoveAt.leaving]

theorem Vain.signalSave (vain : threads.Vain old) (other : Bool) :
    threads.signalSave other = threads := by
  have move := vain.move
  have save := vain.save
  unfold Threads.signalSave
  grind -ring -linarith [MoveAt.leaving, SaveAt.leaving]

theorem Vain.mainTo (vain : threads.Vain old) (place : MainAt) (waits : place.waits = false)
    (later : place ≠ .reading) : ({ threads with main := place }).Vain old := by
  obtain ⟨saveRet, -, move, save, passed, flushed⟩ := vain
  refine ⟨saveRet, waits, move, save, passed, ?_⟩
  rw [if_neg later]
  apply flushed.trans
  split <;> decide

theorem Vain.stepMain (failed : old ≠ 0) (vain : threads.Vain old)
    (taken : threads.stepMain other = some after) : after.Vain old ∧ after.left < threads.left := by
  have goes := vain.mainTo
  have set : threads.saveRet ≠ 0 := by
    rw [vain.saveRet]
    exact failed
  have noWait := vain.main
  cases place : threads.main <;> rw [place] at noWait <;>
    simp only [Threads.stepMain, place] at taken
  case reading =>
    split at taken
    · cases taken
      exact ⟨goes _ rfl MainAt.noConfusion, by simp [left, place, MainAt.left]⟩
    · cases taken
      obtain ⟨saveRet, -, move, save, passed, flushed⟩ := vain
      rw [if_pos place] at flushed
      refine ⟨⟨saveRet, rfl, move, save, passed, ?_⟩, by simp [left, place, fill, MainAt.left]⟩
      simpa [fill] using flushed
  case publish last =>
    rw [if_neg (by simp [vain.moveFree]), if_neg (fun full => set full.2)] at taken
    cases taken
    have on := goes (.published last) rfl MainAt.noConfusion
    exact ⟨⟨on.saveRet, rfl, on.move, on.save, on.passed, on.flushed⟩,
      by simp [left, place, MainAt.left]⟩
  case published last =>
    have on := goes (.publishedRet last) rfl MainAt.noConfusion
    rw [on.signalMove] at taken
    cases taken
    exact ⟨on, by simp [left, place, MainAt.left]⟩
  case publishedRet last =>
    rw [if_pos set] at taken
    cases taken
    cases last
    · exact ⟨goes _ rfl MainAt.noConfusion, by simp [left, place, MainAt.left]⟩
    · exact ⟨goes _ rfl MainAt.noConfusion, by simp [left, place, MainAt.left]⟩
  case finish =>
    rw [if_neg (fun waits => set waits.2)] at taken
    cases taken
    exact ⟨goes _ rfl MainAt.noConfusion, by simp [left, place, MainAt.left]⟩
  case finishRet =>
    cases taken
    have on := goes .stop rfl MainAt.noConfusion
    exact ⟨⟨on.saveRet, rfl, on.move, on.save, on.passed, on.flushed⟩,
      by simp [left, place, MainAt.left]⟩
  case stop =>
    have on := goes .destroyFinish rfl MainAt.noConfusion
    rw [setRet, if_neg set] at taken
    cases taken
    exact ⟨on, by simp [left, place, MainAt.left]⟩
  case stopMove =>
    have on := goes .joinMove rfl MainAt.noConfusion
    rw [on.signalMove] at taken
    cases taken
    exact ⟨on, by simp [left, place, MainAt.left]⟩
  case joinMove =>
    split at taken
    · cases taken
      cases env.settings.doEncrypt
      · exact ⟨goes _ rfl MainAt.noConfusion, by simp [left, place, MainAt.left]⟩
      · exact ⟨goes _ rfl MainAt.noConfusion, by simp [left, place, MainAt.left]⟩
    · cases taken
  case stopSave =>
    have on := goes .joinSave rfl MainAt.noConfusion
    rw [on.signalSave] at taken
    cases taken
    exact ⟨on, by simp [left, place, MainAt.left]⟩
  case joinSave =>
    split at taken
    · cases taken
      exact ⟨goes _ rfl MainAt.noConfusion, by simp [left, place, MainAt.left]⟩
    · cases taken
  case destroyFinish =>
    cases taken
    exact ⟨goes _ rfl MainAt.noConfusion, by simp [left, place, MainAt.left]⟩
  case destroyRest =>
    cases taken
    exact ⟨goes _ rfl MainAt.noConfusion, by simp [left, place, MainAt.left]⟩
  case done => cases taken
  all_goals cases noWait

theorem Vain.stepMove (failed : old ≠ 0) (vain : threads.Vain old)
    (taken : threads.stepMove other = some after) : after.Vain old ∧ after.left < threads.left := by
  have set : threads.saveRet ≠ 0 := by
    rw [vain.saveRet]
    exact failed
  obtain ⟨saveRet, main, leaving, save, passed, flushed⟩ := vain
  cases place : threads.move <;> rw [place] at leaving <;>
    simp only [Threads.stepMove, place] at taken
  case idle =>
    split at taken
    · cases taken
    · rw [if_neg (fun empty => set empty.2)] at taken
      cases taken
      exact ⟨⟨saveRet, main, rfl, save, passed, flushed⟩, by simp [left, place, MoveAt.left]⟩
  case check =>
    rw [if_pos set] at taken
    cases taken
    exact ⟨⟨saveRet, main, rfl, save, passed, flushed⟩, by simp [left, place, MoveAt.left]⟩
  case done => cases taken
  all_goals cases leaving

theorem Vain.stepSave (failed : old ≠ 0) (vain : threads.Vain old)
    (taken : threads.stepSave other = some after) : after.Vain old ∧ after.left < threads.left := by
  have set : threads.saveRet ≠ 0 := by
    rw [vain.saveRet]
    exact failed
  obtain ⟨saveRet, main, move, leaving, passed, flushed⟩ := vain
  cases place : threads.save <;> rw [place] at leaving <;>
    simp only [Threads.stepSave, place] at taken
  case idle =>
    split at taken
    · cases taken
    · rw [if_neg (fun empty => set empty.2)] at taken
      cases taken
      exact ⟨⟨saveRet, main, move, rfl, passed, flushed⟩, by simp [left, place, SaveAt.left]⟩
  case check =>
    rw [if_pos set] at taken
    cases taken
    exact ⟨⟨saveRet, main, move, rfl, passed, flushed⟩, by simp [left, place, SaveAt.left]⟩
  case done => cases taken
  all_goals cases leaving

theorem Vain.step {turn : Turn} (failed : old ≠ 0) (vain : threads.Vain old)
    (taken : Threads.step turn threads = some after) :
    after.Vain old ∧ after.left < threads.left := by
  cases turn with
  | main other => exact vain.stepMain failed taken
  | abort =>
      simp only [Threads.step, stepAbort] at taken
      split at taken
      · next reading =>
        cases taken
        exact ⟨vain.mainTo _ rfl MainAt.noConfusion, by simp [left, reading, MainAt.left]⟩
      · cases taken
  | move other => exact vain.stepMove failed taken
  | save other => exact vain.stepSave failed taken

theorem Vain.follow (failed : old ≠ 0) {schedule : List Turn} (vain : threads.Vain old)
    (led : follow Threads.step threads schedule = some after) :
    after.Vain old ∧ schedule.length + after.left ≤ threads.left := by
  induction schedule generalizing threads with
  | nil =>
      cases led
      exact ⟨vain, (Nat.zero_add _).le⟩
  | cons turn schedule ih =>
      obtain ⟨next, taken, rest⟩ := Option.bind_eq_some_iff.mp led
      obtain ⟨nextVain, fewer⟩ := vain.step failed taken
      obtain ⟨afterVain, length⟩ := ih nextVain rest
      refine ⟨afterVain, ?_⟩
      rw [List.length_cons]
      omega

theorem Vain.leaves {turn : Turn} {aborted error : Int} (vain : threads.Vain old)
    (left : threads.leaves aborted turn = some error) :
    error = old ∨ turn = .abort ∧ error = aborted := by
  have saveRet := vain.saveRet
  unfold Threads.leaves at left
  grind -ring -linarith

/-- A thread that has not ended can go on, for it finds the mutex free. -/
theorem Vain.moves (vain : threads.Vain old) (running : threads.move ≠ .done) :
    ∃ turn next, Threads.step turn threads = some next := by
  have free := vain.moveFree
  have leaving := vain.move
  refine ⟨.move false, Option.isSome_iff_exists.mp ?_⟩
  simp only [Threads.step]
  cases place : threads.move <;> rw [place] at leaving running <;>
    simp only [Threads.stepMove, place]
  case idle =>
    rw [if_neg (by simp [free])]
    split <;> rfl
  case check => rfl
  case done => exact absurd rfl running
  all_goals cases leaving

theorem Vain.saves (vain : threads.Vain old) (running : threads.save ≠ .done) :
    ∃ turn next, Threads.step turn threads = some next := by
  have free := vain.saveFree
  have leaving := vain.save
  refine ⟨.save false, Option.isSome_iff_exists.mp ?_⟩
  simp only [Threads.step]
  cases place : threads.save <;> rw [place] at leaving running <;>
    simp only [Threads.stepSave, place]
  case idle =>
    rw [if_neg (by simp [free])]
    split <;> rfl
  case check => rfl
  case done => exact absurd rfl running
  all_goals cases leaving

theorem Vain.goesOn (vain : threads.Vain old) (running : threads.main ≠ .done) :
    ∃ turn next, Threads.step turn threads = some next := by
  by_cases blocked : threads.stepMain false = none
  · have noWait := vain.main
    rcases stepMain_blocked running blocked with
      ⟨held, -⟩ | full | waiting | ⟨-, alive⟩ | ⟨-, alive⟩
    · rw [vain.moveFree] at held
      cases held
    · revert full noWait
      cases threads.main <;> simp [MainAt.waits, MainAt.inPublishWait]
    · rw [waiting] at noWait
      cases noWait
    · exact vain.moves alive
    · exact vain.saves alive
  · exact ⟨.main false, Option.ne_none_iff_exists'.mp blocked⟩

/-- When a save with threads is over, a second one is in vain: whatever its image and however its
threads are scheduled, no page comes to `save_page`, and within 17 steps it has stopped with the
error of the first one, unless it is aborted or cannot read before. -/
theorem retry_in_vain {first : Threads env} {memory pages memory' pages' : Nat → Bytes}
    {state state' : env.cipher.State} {buffers buffers' : List Bytes} {schedule : List Turn}
    (reached : Reached step (fun _ _ => True) (started memory pages state buffers) first)
    (ended : first.main = .done)
    (led : follow step (restarted first.saveRet memory' pages' state' buffers') schedule =
      some threads) :
    first.saveRet ≠ 0 ∧ (∀ error, first.finished = some error → error = 0 ∨
      first.saveRet = error) ∧
      threads.saveRet = first.saveRet ∧ threads.passed = [] ∧ threads.flushed.length ≤ 1 ∧
      schedule.length ≤ 17 ∧
      (∀ aborted turn error, threads.leaves aborted turn = some error →
        error = first.saveRet ∨ turn = .abort ∧ error = aborted) ∧
      (threads.main ≠ .done → ∃ turn next, step turn threads = some next) := by
  have settled := settled_of_reached reached
  have failed : first.saveRet ≠ 0 := by
    apply settled.stopped
    rw [ended]
    rfl
  have start := restarted_left first.saveRet memory' pages' state' buffers'
  obtain ⟨vain, length⟩ := (restarted_vain first.saveRet memory' pages' state' buffers').follow
    failed led
  refine ⟨failed, settled.finished, vain.saveRet, vain.passed, ?_, by omega,
    fun _ _ _ => vain.leaves, vain.goesOn⟩
  apply vain.flushed.trans
  split <;> decide

/-- A save where the swap is full. -/
def fullSave : SaveEnv := { plainSave with outcome := fun _ => -ENOSPC }

/-- The only page of the image cannot be saved, and the main thread waits for the end. -/
def failsOnce : List Turn :=
  List.replicate 4 (.main false) ++ List.replicate 7 (.move false) ++
    List.replicate 7 (.main false)

def failsAgain : List Turn :=
  List.replicate 9 (.main false) ++ List.replicate 2 (.move false) ++
    List.replicate 2 (.main false)

theorem full_again : ∃ first threads : Threads fullSave,
    Reached step (fun _ _ => True) (started (fun _ => []) (fun _ => []) () [[0]]) first ∧
      first.main = .done ∧ first.saveRet = -ENOSPC ∧
      follow step (restarted first.saveRet (fun _ => []) (fun _ => []) () [[0]]) failsAgain =
        some threads ∧ threads.main = .done ∧
      threads.saveRet = first.saveRet ∧ threads.passed = [] := by
  have led : ∃ first : Threads fullSave,
      follow step (started (fun _ => []) (fun _ => []) () [[0]]) failsOnce = some first ∧
        first.main = .done ∧ first.saveRet = -ENOSPC := ⟨_, rfl, rfl, rfl⟩
  obtain ⟨first, led, ended, saveRet⟩ := led
  have again : ∃ threads : Threads fullSave,
      follow step (restarted first.saveRet (fun _ => []) (fun _ => []) () [[0]]) failsAgain =
        some threads ∧ threads.main = .done := by
    rw [saveRet]
    exact ⟨_, rfl, rfl⟩
  obtain ⟨threads, again, halted⟩ := again
  have reached := Reached.start.follow led
  obtain ⟨-, -, same, unpassed, -⟩ := retry_in_vain reached ended again
  exact ⟨first, threads, reached, ended, saveRet, again, halted, same, unpassed⟩

end Threads

end Suspend
