import Suspend.Foundation.Runs
import Suspend.SaveImage

set_option autoImplicit false

/- The three threads of a save: the main thread fills write buffers, the "move" thread encrypts
their pages, and the "save" thread writes them out. A critical section is one step, unless it comes
to a `pthread_cond_wait`: then the predicate has been tested in one step, and the mutex is held
until the thread has enqueued itself in the next one. -/
namespace Suspend

open Foundation.Memory

def WRITE_BUFFERS : Nat := 4
def ENCRYPT_BUF_PAGES : Nat := 256
def FORCE_EXIT : Int := 1

/-- Where the main thread is. `last` tells the flush behind the loop of `save_image` from those in
it. A thread woken up starts over with its critical section. -/
inductive MainAt where
  | reading
  | publish (last : Bool)
  | publishGap (last : Bool)
  | publishWait (last : Bool)
  | published (last : Bool)
  | publishedRet (last : Bool)
  | finish
  | finishGap
  | finishWait
  | finishRet
  | stop
  | destroyFinish
  | stopMove
  | joinMove
  | stopSave
  | joinSave
  | destroyRest
  | done
deriving DecidableEq

/-- Where the "move" thread is, with `moved_size` and `buf_size` while it is at a buffer. -/
inductive MoveAt where
  | idle
  | idleGap
  | idleWait
  | check
  | saving (moved size : Nat)
  | encrypting (moved size : Nat)
  | room (moved size : Nat)
  | roomGap (moved size : Nat)
  | roomWait (moved size : Nat)
  | placed (moved size : Nat)
  | placedNext (moved size : Nat)
  | failed (error : Int)
  | failedMove
  | failedSave
  | failedFinish
  | returned
  | advance
  | advancedMove
  | advancedFinish
  | done
deriving DecidableEq

/-- Where the "save" thread is. -/
inductive SaveAt where
  | idle
  | idleGap
  | idleWait
  | check
  | writing
  | failed (error : Int)
  | failedMove
  | failedSave
  | failedFinish
  | advance
  | advancedSave
  | advancedFinish
  | done
deriving DecidableEq

/-- The threads and what they share. `slots` are the write buffers with their sizes, `pages` is the
encrypt buffer; the pointers into it are counted in pages. `ahead` are the buffers the main thread
has yet to flush, `passed` the pages `save_page` has been called with, `finished` is what
`wait_for_finish` has returned. The other fields are history, which no thread looks at: what has
been put into the two circular buffers, how much of it has been handed over, and how much of that
has been taken out again. -/
structure Threads (env : SaveEnv) where
  main : MainAt
  move : MoveAt
  save : SaveAt
  saveRet : Int
  moveStart : Nat
  moveEnd : Nat
  saveStart : Nat
  saveEnd : Nat
  slots : Nat → Bytes × Nat
  pages : Nat → Bytes
  state : env.cipher.State
  ahead : List Bytes
  passed : List Bytes
  finished : Option Int
  flushed : List (Bytes × Nat)
  published : Nat
  emptied : Nat
  coded : List Bytes
  placed : Nat
  taken : Nat

/-- Whose turn it is, and which one of several waiters a signal is to wake. The user may abort
while the main thread is reading. -/
inductive Turn where
  | main (other : Bool)
  | abort
  | move (other : Bool)
  | save (other : Bool)
deriving DecidableEq

namespace Threads

variable {env : SaveEnv}

/-- `move_inc`. -/
def moveInc (index : Nat) : Nat := (index + 1) % WRITE_BUFFERS

/-- `save_inc`. -/
def saveInc (index : Nat) : Nat := (index + 1) % ENCRYPT_BUF_PAGES

/-- Whether a thread holds `move_mutex` between two steps. -/
def moveHeld (threads : Threads env) : Bool :=
  (match threads.main with
    | .publishGap _ => true
    | _ => false) || threads.move == .idleGap

/-- Whether a thread holds `save_mutex` between two steps. -/
def saveHeld (threads : Threads env) : Bool :=
  (match threads.move with
    | .roomGap _ _ => true
    | _ => false) || threads.save == .idleGap

/-- Whether a thread holds `finish_mutex` between two steps. -/
def finishHeld (threads : Threads env) : Bool := threads.main == .finishGap

/-- `pthread_cond_signal(&move_cond)`. -/
def signalMove (threads : Threads env) (other : Bool) : Threads env :=
  match threads.main, threads.move with
  | .publishWait last, .idleWait =>
      if other then { threads with move := .idle } else { threads with main := .publish last }
  | .publishWait last, _ => { threads with main := .publish last }
  | _, .idleWait => { threads with move := .idle }
  | _, _ => threads

/-- `pthread_cond_signal(&save_cond)`. -/
def signalSave (threads : Threads env) (other : Bool) : Threads env :=
  match threads.move, threads.save with
  | .roomWait moved size, .idleWait =>
      if other then { threads with save := .idle } else { threads with move := .room moved size }
  | .roomWait moved size, _ => { threads with move := .room moved size }
  | _, .idleWait => { threads with save := .idle }
  | _, _ => threads

/-- `pthread_cond_signal(&finish_cond)`. -/
def signalFinish (threads : Threads env) : Threads env :=
  if threads.main = .finishWait then { threads with main := .finish } else threads

/-- An error becomes the result, unless there is one already. -/
def setRet (threads : Threads env) (error : Int) : Threads env :=
  { threads with saveRet := if threads.saveRet = 0 then error else threads.saveRet }

end Threads

namespace SaveEnv

variable (env : SaveEnv)

/-- What `flush_buffer` makes of a write buffer. -/
def fillSlot (memory buffer : Bytes) : Bytes :=
  overwrite (if env.settings.doCompress then env.block buffer else buffer) memory

/-- The page of a write buffer from an offset on. -/
def pageAt (memory : Bytes) (offset : Nat) : Bytes := (memory.drop offset).take env.page.bytes

end SaveEnv

namespace Threads

variable {env : SaveEnv}

/-- `flush_buffer` up to `prepare_next_write_buffer`. -/
def fill (threads : Threads env) (buffer : Bytes) (rest : List Bytes) : Threads env :=
  let slot := (env.fillSlot (threads.slots threads.moveStart).1 buffer, env.blockSize buffer)
  { threads with
    main := .publish (decide (buffer.length < env.page.bufferSize))
    slots := Function.update threads.slots threads.moveStart slot
    ahead := rest
    flushed := threads.flushed ++ [slot] }

/-- The main thread: `save_image`, `prepare_next_write_buffer`, `wait_for_finish` and
`stop_threads`. -/
def stepMain (other : Bool) (threads : Threads env) : Option (Threads env) :=
  match threads.main with
  | .reading =>
      match threads.ahead with
      | [] => some { threads with main := .finish }
      | buffer :: rest => some (threads.fill buffer rest)
  | .publish last =>
      if threads.moveHeld then none
      else if moveInc threads.moveStart = threads.moveEnd ∧ threads.saveRet = 0 then
        some { threads with main := .publishGap last }
      else some { threads with
        main := .published last
        moveStart := moveInc threads.moveStart
        published := threads.published + 1 }
  | .publishGap last => some { threads with main := .publishWait last }
  | .publishWait _ => none
  | .published last => some ({ threads with main := .publishedRet last }.signalMove other)
  | .publishedRet last => some { threads with
      main := if last then .finish else if threads.saveRet ≠ 0 then .stop else .reading }
  | .finish =>
      if (threads.saveEnd ≠ threads.saveStart ∨ threads.moveStart ≠ threads.moveEnd) ∧
          threads.saveRet = 0 then
        some { threads with main := .finishGap }
      else some { threads with main := .finishRet }
  | .finishGap => some { threads with main := .finishWait }
  | .finishWait => none
  | .finishRet => some { threads with main := .stop, finished := some threads.saveRet }
  | .stop => some ({ threads with main := .destroyFinish }.setRet FORCE_EXIT)
  | .destroyFinish => some { threads with main := .stopMove }
  | .stopMove => some ({ threads with main := .joinMove }.signalMove other)
  | .joinMove =>
      if threads.move = .done then
        some { threads with main := if env.settings.doEncrypt then .stopSave else .destroyRest }
      else none
  | .stopSave => some ({ threads with main := .joinSave }.signalSave other)
  | .joinSave => if threads.save = .done then some { threads with main := .destroyRest } else none
  | .destroyRest => some { threads with main := .done }
  | .done => none

/-- The user presses the abort key, or reading the image fails. -/
def stepAbort (threads : Threads env) : Option (Threads env) :=
  if threads.main = .reading then some { threads with main := .stop } else none

/-- The "move" thread, with `save_buffer` and `encrypt_and_save_buffer`. -/
def stepMove (other : Bool) (threads : Threads env) : Option (Threads env) :=
  match threads.move with
  | .idle =>
      if threads.moveHeld then none
      else if threads.moveEnd = threads.moveStart ∧ threads.saveRet = 0 then
        some { threads with move := .idleGap }
      else some { threads with move := .check }
  | .idleGap => some { threads with move := .idleWait }
  | .idleWait => none
  | .check => some { threads with
      move :=
        if threads.saveRet ≠ 0 then .done
        else if env.settings.doEncrypt then .encrypting 0 (threads.slots threads.moveEnd).2
        else .saving 0 (threads.slots threads.moveEnd).2 }
  | .saving moved size =>
      if moved < size then
        let error := env.outcome threads.passed.length
        some { threads with
          passed := threads.passed ++ [env.pageAt (threads.slots threads.moveEnd).1 moved]
          move := if error ≠ 0 then .failed error else .saving (moved + env.page.bytes) size }
      else some { threads with move := .returned }
  | .encrypting moved size =>
      match env.cipher.encrypt threads.state
          (env.pageAt (threads.slots threads.moveEnd).1 moved) with
      | .error error => some { threads with move := .failed error }
      | .ok (page, state) => some { threads with
          pages := Function.update threads.pages threads.saveStart page
          state := state
          move := .room (moved + env.page.bytes) size
          coded := threads.coded ++ [page] }
  | .room moved size =>
      if threads.saveHeld then none
      else if saveInc threads.saveStart = threads.saveEnd ∧ threads.saveRet = 0 then
        some { threads with move := .roomGap moved size }
      else some { threads with
        move := .placed moved size
        saveStart := saveInc threads.saveStart
        placed := threads.placed + 1 }
  | .roomGap moved size => some { threads with move := .roomWait moved size }
  | .roomWait _ _ => none
  | .placed moved size => some ({ threads with move := .placedNext moved size }.signalSave other)
  | .placedNext moved size => some { threads with
      move := if moved < size ∧ threads.saveRet = 0 then .encrypting moved size else .returned }
  | .failed error =>
      if threads.finishHeld then none else some ({ threads with move := .failedMove }.setRet error)
  | .failedMove => some ({ threads with
      move := if env.settings.doEncrypt then .failedSave else .failedFinish }.signalMove other)
  | .failedSave => some ({ threads with move := .failedFinish }.signalSave other)
  | .failedFinish => some { threads with move := .returned }.signalFinish
  | .returned => some { threads with move := if threads.saveRet ≠ 0 then .done else .advance }
  | .advance =>
      if threads.finishHeld || threads.moveHeld then none
      else some { threads with
        move := .advancedMove
        moveEnd := moveInc threads.moveEnd
        emptied := threads.emptied + 1 }
  | .advancedMove => some ({ threads with move := .advancedFinish }.signalMove other)
  | .advancedFinish => some { threads with move := .idle }.signalFinish
  | .done => none

/-- The "save" thread. -/
def stepSave (other : Bool) (threads : Threads env) : Option (Threads env) :=
  match threads.save with
  | .idle =>
      if threads.saveHeld then none
      else if threads.saveEnd = threads.saveStart ∧ threads.saveRet = 0 then
        some { threads with save := .idleGap }
      else some { threads with save := .check }
  | .idleGap => some { threads with save := .idleWait }
  | .idleWait => none
  | .check => some { threads with save := if threads.saveRet ≠ 0 then .done else .writing }
  | .writing =>
      let error := env.outcome threads.passed.length
      some { threads with
        passed := threads.passed ++ [threads.pages threads.saveEnd]
        save := if error ≠ 0 then .failed error else .advance }
  | .failed error =>
      if threads.finishHeld then none else some ({ threads with save := .failedMove }.setRet error)
  | .failedMove => some ({ threads with save := .failedSave }.signalMove other)
  | .failedSave => some ({ threads with save := .failedFinish }.signalSave other)
  | .failedFinish => some { threads with save := .done }.signalFinish
  | .advance =>
      if threads.finishHeld || threads.saveHeld then none
      else some { threads with
        save := .advancedSave
        saveEnd := saveInc threads.saveEnd
        taken := threads.taken + 1 }
  | .advancedSave => some ({ threads with save := .advancedFinish }.signalSave other)
  | .advancedFinish => some { threads with save := .idle }.signalFinish
  | .done => none

def step : Turn → Threads env → Option (Threads env)
  | .main other, threads => threads.stepMain other
  | .abort, threads => threads.stepAbort
  | .move other, threads => threads.stepMove other
  | .save other, threads => threads.stepSave other

/-- `start_threads`: the "save" thread is only there to write encrypted pages. -/
def started (memory : Nat → Bytes) (pages : Nat → Bytes) (state : env.cipher.State)
    (buffers : List Bytes) : Threads env where
  main := .reading
  move := .idle
  save := if env.settings.doEncrypt then .idle else .done
  saveRet := 0
  moveStart := 0
  moveEnd := 0
  saveStart := 0
  saveEnd := 0
  slots := fun index => (memory index, 0)
  pages := pages
  state := state
  ahead := buffers
  passed := []
  finished := none
  flushed := []
  published := 0
  emptied := 0
  coded := []
  placed := 0
  taken := 0

end Threads

end Suspend
