import Suspend.Signature
import Suspend.SuspendReturn
import Mathlib.Logic.Function.Basic

set_option autoImplicit false

namespace Suspend

def TIOCL_GETKMSGREDIRECT : Nat := 17

/-- `struct vt_mode`, as far as it is set. -/
structure VtMode where
  process : Bool
  relsig : Nat
  acqsig : Nat
deriving DecidableEq

def SIGUSR1 : Nat := 10

/-- What other programs find changed, or as it was. -/
structure Surroundings where
  active : Nat
  kmsgRedirect : Nat
  vtMode : Nat → VtMode
  loglevel : Int
  swappiness : Int
  -- whether there is `/proc/sys/kernel/printk`
  proc : Bool
  tmpfs : Nat
  frozen : Bool

/-- `console_fd` and `prepare_console`: a descriptor, `-ENOTTY`, or another error. -/
inductive ConsoleFd where
  | opened
  | noTty
  | failed
deriving DecidableEq

/-- What `prepare_console` and `restore_console` are answered. `openQuery` is the terminal that
`VT_OPENQRY` finds, and `errno` what is left of an error. -/
structure ConsoleAnswers where
  console : ConsoleFd
  getRedirect : Bool
  getState : Bool
  openQuery : Option Int
  openTty : Bool
  activate : Bool
  waitActive : Bool
  setRedirect : Bool
  errno : Int
  activateBack : Bool
  unsetRedirect : Bool

/-- The static variable and the results of `prepare_console`. -/
structure PreparedConsole where
  vtFd : ConsoleFd
  origVc : Nat
  setKmsgRedirect : Bool

namespace ConsoleAnswers

variable (answers : ConsoleAnswers) (around : Surroundings)

/-- What the kernel says of its messages, or what has been asked. -/
def tiocl : Nat := if answers.getRedirect then around.kmsgRedirect else TIOCL_GETKMSGREDIRECT

/-- The terminal to switch to: the one the messages go to, or a spare one. -/
def spare : Option Nat :=
  if answers.getState then
    if answers.getRedirect = true ∧ answers.tiocl around > 0 then some (answers.tiocl around)
    else
      match answers.openQuery with
      | some vt => if vt < 0 then none else some vt.toNat
      | none => none
  else none

/-- `prepare_console`. The kernel switches to a terminal that it has been asked to activate. -/
def prepareConsole : PreparedConsole × Surroundings :=
  if answers.console ≠ .opened then (⟨answers.console, 0, false⟩, around)
  else
    match answers.spare around with
    | none => (⟨.failed, around.active, false⟩, around)
    | some vt =>
        if answers.openTty = false then (⟨.failed, around.active, false⟩, around)
        else if answers.activate = false then (⟨.failed, around.active, false⟩, around)
        else
          let switched := { around with active := vt }
          if answers.waitActive = false then (⟨.failed, around.active, false⟩, switched)
          else if answers.tiocl around = 0 ∧ answers.setRedirect = true then
            (⟨.opened, around.active, true⟩, { switched with kmsgRedirect := vt })
          else (⟨.opened, around.active, false⟩, switched)

/-- `restore_console`. -/
def restoreConsole (prepared : PreparedConsole) : Surroundings :=
  if answers.activateBack = false then around
  else
    { around with
      active := prepared.origVc
      kmsgRedirect :=
        if prepared.setKmsgRedirect = true ∧ answers.unsetRedirect = true then 0
        else around.kmsgRedirect }

end ConsoleAnswers

/-- `lock_vt`, once it comes to its end. -/
def Surroundings.lockVt (around : Surroundings) : Surroundings :=
  { around with
    vtMode := Function.update around.vtMode around.active ⟨true, SIGUSR1, SIGUSR1⟩ }

/-- What `lock_vt` and `unlock_vt` are answered. -/
structure LockAnswers where
  console : ConsoleFd
  getState : Bool
  openVt : Bool
  getMode : Bool
  setMode : Bool
  errno : Int
  setBack : Bool

namespace LockAnswers

variable (answers : LockAnswers) (around : Surroundings)

/-- Whether `lock_vt` comes to its end. -/
def locks : Prop :=
  answers.console = .opened ∧ answers.getState = true ∧ answers.openVt = true ∧
    answers.getMode = true ∧ answers.setMode = true

instance : Decidable answers.locks := inferInstanceAs (Decidable (_ ∧ _))

/-- `unlock_vt`, for the terminal that has been locked and its mode before. -/
def unlockVt (vt : Nat) (origVtm : VtMode) : Surroundings :=
  if answers.setBack then { around with vtMode := Function.update around.vtMode vt origVtm }
  else around

end LockAnswers

/-- What the functions of `loglevel.c` and those for `swappiness` are answered. A setting is
written `suspended` for the time of `suspend_system`. -/
structure SettingAnswers where
  opens : Bool
  reads : Bool
  writes : Bool
  writesBack : Bool
  suspended : Int

namespace SettingAnswers

variable (answers : SettingAnswers)

/-- `get_kernel_console_loglevel` or `get_swappiness`. -/
def get (opened : Bool) (setting : Int) : Int := if opened && answers.reads then setting else -1

/-- `set_kernel_console_loglevel` or `set_swappiness`, with the value for the suspension. -/
def set (opened : Bool) (setting : Int) : Int :=
  if opened && answers.writes then answers.suspended else setting

/-- The setting is set back to what has been read, if anything has. -/
def setBack (opened : Bool) (orig setting : Int) : Int :=
  if 0 ≤ orig ∧ opened = true ∧ answers.writesBack = true then orig else setting

end SettingAnswers

/-- What `main` of `suspend.c` is answered. What is an `Int` is an error number, and zero if the
call succeeds. `early` is returned before anything is changed. -/
structure S2disk (Page : Type) where
  early : Int
  mount : Int
  statResume : Bool
  isBlock : Bool
  chdir : Int
  mknod : Int
  openResume : Int
  statSnapshot : Bool
  isChar : Bool
  openSnapshot : Int
  setSwapFile : Int
  console : ConsoleAnswers
  lock : LockAnswers
  mountProc : Bool
  loglevel : SettingAnswers
  swappiness : SettingAnswers
  system : SystemEnv Page
  unfreezes : Bool
  umountProc : Bool
  chdirRoot : Int
  umount : Bool

namespace S2disk

variable {Page : Type} (env : S2disk Page)

/-- What `suspend_system` returns, if it does. The tasks are frozen in between. -/
def suspendSystem (machine : Machine Page) (around : Surroundings) : Option (Int × Surroundings) :=
  match (env.system.suspendSystem machine).1 with
  | .refused => some (ENOSPC, around)
  | .unfreeze error =>
      let froze := if env.system.freeze = 0 then { around with frozen := true } else around
      some (error, if env.unfreezes then { froze with frozen := false } else froze)
  | .loop => none

/-- Whether the file of the log level, or that of `swappiness`, is opened. `open_printk` mounts
`/proc` if it is not there. -/
def fileOpened (around : Surroundings) (setting : SettingAnswers) : Bool :=
  (around.proc || env.mountProc) && setting.opens

/-- From `open_printk` on. -/
def setUp (around : Surroundings) : Surroundings :=
  { around with
    proc := around.proc || env.mountProc
    loglevel := env.loglevel.set (env.fileOpened around env.loglevel) around.loglevel
    swappiness := env.swappiness.set (env.fileOpened around env.swappiness) around.swappiness }

/-- Up to `close_swappiness`, with what was found before. `close_printk` cannot unmount `/proc`
while the other file is open. -/
def setBack (before after : Surroundings) : Surroundings :=
  let printkFile := env.fileOpened before env.loglevel
  let swappinessFile := env.fileOpened before env.swappiness
  { after with
    loglevel := env.loglevel.setBack printkFile
      (env.loglevel.get printkFile before.loglevel) after.loglevel
    proc :=
      if (!before.proc && env.mountProc) && env.umountProc && !swappinessFile then false
      else after.proc
    swappiness := env.swappiness.setBack swappinessFile
      (env.swappiness.get swappinessFile before.swappiness) after.swappiness }

/-- From `open_printk` to `close_swappiness`. -/
def withSettings (machine : Machine Page) (around : Surroundings) : Option (Int × Surroundings) :=
  (env.suspendSystem machine (env.setUp around)).map fun (ret, after) =>
    (ret, env.setBack around after)

/-- From `lock_vt` to `unlock_vt`. -/
def withLock (vtFd : ConsoleFd) (machine : Machine Page) (around : Surroundings) :
    Option (Int × Surroundings) :=
  if vtFd = .opened then
    if env.lock.locks then
      (env.withSettings machine around.lockVt).map fun (ret, after) =>
        (ret, env.lock.unlockVt after around.active (around.vtMode around.active))
    else some (env.lock.errno, around)
  else env.withSettings machine around

/-- From `prepare_console` to `restore_console`. -/
def withConsole (machine : Machine Page) (around : Surroundings) : Option (Int × Surroundings) :=
  let prepared := env.console.prepareConsole around
  match prepared.1.vtFd with
  | .failed => some (env.console.errno, prepared.2)
  | .noTty => env.withLock .noTty machine prepared.2
  | .opened =>
      (env.withLock .opened machine prepared.2).map fun (ret, after) =>
        (ret, env.console.restoreConsole after prepared.1)

/-- From the resume device to the label `Close_resume_fd`. -/
def withDevices (machine : Machine Page) (around : Surroundings) : Option (Int × Surroundings) :=
  if env.statResume = false then some (ENODEV, around)
  else if env.isBlock = false then some (EINVAL, around)
  else if env.chdir ≠ 0 then some (env.chdir, around)
  else if env.mknod ≠ 0 then some (env.mknod, around)
  else if env.openResume ≠ 0 then some (env.openResume, around)
  else if env.statSnapshot = false then some (ENODEV, around)
  else if env.isChar = false then some (EINVAL, around)
  else if env.openSnapshot ≠ 0 then some (env.openSnapshot, around)
  else if env.setSwapFile ≠ 0 then some (env.setSwapFile, around)
  else env.withConsole machine around

/-- `main`: what it returns, if it does, and what it leaves behind. -/
def main (machine : Machine Page) (around : Surroundings) : Option (Int × Surroundings) :=
  if env.early ≠ 0 then some (env.early, around)
  else if env.mount ≠ 0 then some (env.mount, around)
  else
    (env.withDevices machine { around with tmpfs := around.tmpfs + 1 }).map fun (ret, after) =>
      if env.chdirRoot ≠ 0 then (env.chdirRoot, after)
      else (ret, if env.umount then { after with tmpfs := after.tmpfs - 1 } else after)

end S2disk

namespace SettingAnswers

variable (answers : SettingAnswers)

/-- The setting is changed, and nothing is known that it could be set back to. -/
def Stuck (opened : Bool) (setting : Int) : Prop :=
  opened = true ∧ answers.writes = true ∧ (answers.reads = false ∨ setting < 0) ∧
    answers.suspended ≠ setting

instance (opened : Bool) (setting : Int) : Decidable (answers.Stuck opened setting) :=
  inferInstanceAs (Decidable (_ ∧ _))

theorem setBack_eq (writesBack : answers.writesBack = true) (opened : Bool) (setting : Int) :
    answers.setBack opened (answers.get opened setting) (answers.set opened setting) =
      if answers.Stuck opened setting then answers.suspended else setting := by
  by_cases stuck : answers.Stuck opened setting
  · rw [if_pos stuck]
    obtain ⟨rfl, writes, unknown, _⟩ := stuck
    have negative : ¬ 0 ≤ answers.get true setting := by
      rcases unknown with unread | below
      · simp [get, unread]
      · unfold get
        split <;> omega
    rw [setBack, if_neg (fun back => negative back.1), set, writes]
    rfl
  · rw [if_neg stuck]
    unfold setBack set get
    cases opened with
    | false => simp
    | true =>
        by_cases known : answers.reads = true ∧ 0 ≤ setting
        · simp [known, writesBack]
        · rw [not_and_or, Bool.not_eq_true, not_le] at known
          have negative : ¬ 0 ≤ if (true && answers.reads) = true then setting else -1 := by
            rcases known with unread | below
            · simp [unread]
            · split <;> omega
          rw [if_neg (fun back => negative back.1)]
          split
          · next writes =>
              by_contra changed
              exact stuck ⟨rfl, by simpa using writes, known, changed⟩
          · rfl

end SettingAnswers

namespace ConsoleAnswers

variable (answers : ConsoleAnswers) (around : Surroundings)

/-- The kernel has been asked to switch to another terminal, and waiting for it fails. -/
def Stays : Prop :=
  answers.console = .opened ∧ answers.openTty = true ∧ answers.activate = true ∧
    answers.waitActive = false ∧ ∃ vt ∈ answers.spare around, vt ≠ around.active

variable {answers around}

theorem stays_iff {vt : Nat} (spare : answers.spare around = some vt) :
    answers.Stays around ↔ answers.console = .opened ∧ answers.openTty = true ∧
      answers.activate = true ∧ answers.waitActive = false ∧ vt ≠ around.active := by
  simp [Stays, spare]

/-- What becomes of `prepare_console`. -/
inductive Prepares (answers : ConsoleAnswers) (around : Surroundings) :
    PreparedConsole × Surroundings → Prop where
  | noTty (left : ¬ answers.Stays around) :
      Prepares answers around (⟨.noTty, 0, false⟩, around)
  | unchanged (origVc : Nat) (left : ¬ answers.Stays around) :
      Prepares answers around (⟨.failed, origVc, false⟩, around)
  | stays (vt : Nat) (left : answers.Stays around) (other : vt ≠ around.active) :
      Prepares answers around (⟨.failed, around.active, false⟩, { around with active := vt })
  | switched (vt : Nat) (left : ¬ answers.Stays around) :
      Prepares answers around (⟨.opened, around.active, false⟩, { around with active := vt })
  | redirected (vt : Nat) (left : ¬ answers.Stays around) (none : around.kmsgRedirect = 0) :
      Prepares answers around
        (⟨.opened, around.active, true⟩, { around with active := vt, kmsgRedirect := vt })

theorem prepareConsole_prepares : Prepares answers around (answers.prepareConsole around) := by
  unfold prepareConsole
  cases console : answers.console with
  | noTty => exact .noTty fun left => by simp [left.1] at console
  | failed => exact .unchanged 0 fun left => by simp [left.1] at console
  | opened =>
      rw [if_neg (by simp)]
      cases spare : answers.spare around with
      | none =>
          apply Prepares.unchanged
          rintro ⟨_, _, _, _, vt, found, _⟩
          simp [spare] at found
      | some vt =>
          have stays := stays_iff spare
          dsimp only
          split_ifs with tty activate wait redirect
          · exact .unchanged _ (by simp [stays, tty])
          · exact .unchanged _ (by simp [stays, activate])
          · by_cases same : vt = around.active
            · rw [same]
              exact .unchanged _ (by simp [stays, same])
            · exact .stays vt (by simp_all) same
          · have unset : around.kmsgRedirect = 0 := by
              have asked := redirect.1
              unfold tiocl at asked
              split at asked
              · exact asked
              · cases asked
            exact .redirected vt (by simp [stays, wait]) unset
          · exact .switched vt (by simp [stays, wait])

end ConsoleAnswers

namespace S2disk

variable {Page : Type} (env : S2disk Page)

/-- The calls that undo something succeed. -/
structure Undoes : Prop where
  activateBack : env.console.activateBack = true
  unsetRedirect : env.console.unsetRedirect = true
  setBack : env.lock.setBack = true
  loglevel : env.loglevel.writesBack = true
  swappiness : env.swappiness.writesBack = true
  unfreezes : env.unfreezes = true
  umountProc : env.umountProc = true
  chdirRoot : env.chdirRoot = 0
  umount : env.umount = true

/-- What `suspend_system` returns, if it does. -/
def returned (machine : Machine Page) : Option Int := (env.system.suspendSystem machine).1.value

/-- What is left behind of the settings and of `/proc`. -/
def settled (around : Surroundings) : Surroundings :=
  { around with
    loglevel :=
      if env.loglevel.Stuck (env.fileOpened around env.loglevel) around.loglevel then
        env.loglevel.suspended
      else around.loglevel
    swappiness :=
      if env.swappiness.Stuck (env.fileOpened around env.swappiness) around.swappiness then
        env.swappiness.suspended
      else around.swappiness
    proc := around.proc || env.mountProc && env.swappiness.opens }

variable {env} {machine : Machine Page} {around : Surroundings}

theorem suspendSystem_thawed (undoes : env.Undoes) (awake : around.frozen = false) :
    env.suspendSystem machine around = (env.returned machine).map fun ret => (ret, around) := by
  have thawed : { around with frozen := false } = around := by rw [← awake]
  unfold suspendSystem returned
  cases (env.system.suspendSystem machine).1 with
  | refused => rfl
  | loop => rfl
  | unfreeze error =>
      simp only [undoes.unfreezes, ↓reduceIte, Exit.value, Option.map_some]
      split
      · rw [thawed]
      · rw [thawed]

theorem setBack_setUp (undoes : env.Undoes) :
    env.setBack around (env.setUp around) = env.settled around := by
  have proc : (if (!around.proc && env.mountProc) && env.umountProc &&
      !env.fileOpened around env.swappiness then false else around.proc || env.mountProc) =
      (around.proc || env.mountProc && env.swappiness.opens) := by
    rw [undoes.umountProc, fileOpened]
    cases around.proc <;> cases env.mountProc <;> cases env.swappiness.opens <;> rfl
  unfold setBack setUp settled
  dsimp only
  rw [SettingAnswers.setBack_eq _ undoes.loglevel, SettingAnswers.setBack_eq _ undoes.swappiness,
    proc]

theorem withSettings_settled (undoes : env.Undoes) (awake : around.frozen = false) :
    env.withSettings machine around =
      (env.returned machine).map fun ret => (ret, env.settled around) := by
  have thawed : (env.setUp around).frozen = false := awake
  rw [withSettings, suspendSystem_thawed undoes thawed, Option.map_map, ← setBack_setUp undoes]
  rfl

theorem withLock_settled (undoes : env.Undoes) (awake : around.frozen = false)
    (vtFd : ConsoleFd) :
    env.withLock vtFd machine around =
      if vtFd = .opened ∧ ¬ env.lock.locks then some (env.lock.errno, around)
      else (env.returned machine).map fun ret => (ret, env.settled around) := by
  unfold withLock
  by_cases opened : vtFd = .opened
  · by_cases locks : env.lock.locks
    · have unlocked : env.lock.unlockVt (env.settled around.lockVt) around.active
          (around.vtMode around.active) = env.settled around := by
        rw [LockAnswers.unlockVt, if_pos undoes.setBack]
        simp only [settled, Surroundings.lockVt, Function.update_idem, Function.update_eq_self]
        rfl
      have stillAwake : around.lockVt.frozen = false := awake
      rw [if_pos opened, if_pos locks, if_neg (fun both => both.2 locks),
        withSettings_settled undoes stillAwake, Option.map_map, ← unlocked]
      rfl
    · rw [if_pos opened, if_neg locks, if_pos ⟨opened, locks⟩]
  · rw [if_neg opened, if_neg (fun both => opened both.1), withSettings_settled undoes awake]

/-- `main` comes from the console to `open_printk`. -/
def Arrives (env : S2disk Page) (around : Surroundings) : Prop :=
  match (env.console.prepareConsole around).1.vtFd with
  | .failed => False
  | .noTty => True
  | .opened => env.lock.locks

/-- What is left behind: the terminal stays switched, or `open_printk` is reached and all is
settled, or nothing is touched. -/
inductive Leaves (env : S2disk Page) (machine : Machine Page) (around : Surroundings)
    (stays arrives : Prop) : Option (Int × Surroundings) → Prop where
  | switched (here : stays) (away : ¬ arrives) (error : Int) (vt : Nat)
      (other : vt ≠ around.active) :
      Leaves env machine around stays arrives (some (error, { around with active := vt }))
  | settled (none : ¬ stays) (here : arrives) :
      Leaves env machine around stays arrives
        ((env.returned machine).map fun ret => (ret, env.settled around))
  | untouched (none : ¬ stays) (away : ¬ arrives) (error : Int) :
      Leaves env machine around stays arrives (some (error, around))

/-- Once `prepare_console` has succeeded, `restore_console` undoes what it has done. -/
theorem restored_leaves (undoes : env.Undoes) (awake : around.frozen = false) {stays : Prop}
    (none : ¬ stays) {vt redirect : Nat} {setKmsgRedirect : Bool}
    (undone : (if setKmsgRedirect then 0 else redirect) = around.kmsgRedirect) :
    Leaves env machine around stays env.lock.locks
      ((env.withLock .opened machine
          { around with active := vt, kmsgRedirect := redirect }).map fun (ret, after) =>
        (ret, env.console.restoreConsole after ⟨.opened, around.active, setKmsgRedirect⟩)) := by
  have back : ∀ after : Surroundings, after.kmsgRedirect = redirect →
      env.console.restoreConsole after ⟨.opened, around.active, setKmsgRedirect⟩ =
        { after with active := around.active, kmsgRedirect := around.kmsgRedirect } := by
    intro after same
    simp only [ConsoleAnswers.restoreConsole, undoes.activateBack, undoes.unsetRedirect, and_true,
      same, undone, Bool.true_eq_false, ↓reduceIte]
  have stillAwake : { around with active := vt, kmsgRedirect := redirect }.frozen = false := awake
  rw [withLock_settled undoes stillAwake]
  by_cases locks : env.lock.locks
  · have settled : env.console.restoreConsole
        (env.settled { around with active := vt, kmsgRedirect := redirect })
        ⟨.opened, around.active, setKmsgRedirect⟩ = env.settled around := back _ rfl
    have leaves : Leaves env machine around stays env.lock.locks _ := .settled none locks
    rw [← settled] at leaves
    rw [if_neg (fun refused => refused.2 locks), Option.map_map]
    exact leaves
  · have same : env.console.restoreConsole
        { around with active := vt, kmsgRedirect := redirect }
        ⟨.opened, around.active, setKmsgRedirect⟩ = around := back _ rfl
    rw [if_pos ⟨rfl, locks⟩, Option.map_some]
    dsimp only
    rw [same]
    exact .untouched none locks _

theorem withConsole_leaves (undoes : env.Undoes) (awake : around.frozen = false) :
    Leaves env machine around (env.console.Stays around) (env.Arrives around)
      (env.withConsole machine around) := by
  have prepares := @ConsoleAnswers.prepareConsole_prepares env.console around
  unfold withConsole Arrives
  generalize env.console.prepareConsole around = prepared at prepares ⊢
  cases prepares with
  | noTty left =>
      dsimp only
      rw [withLock_settled undoes awake, if_neg (by simp)]
      exact .settled left trivial
  | unchanged origVc left => exact .untouched left id _
  | stays vt left other => exact .switched left id _ vt other
  | switched vt left => exact restored_leaves undoes awake left rfl
  | redirected vt left none => exact restored_leaves undoes awake left none.symm

/-- The devices are opened, and `prepare_console` is called. -/
def Opens (env : S2disk Page) : Prop :=
  env.statResume = true ∧ env.isBlock = true ∧ env.chdir = 0 ∧ env.mknod = 0 ∧
    env.openResume = 0 ∧ env.statSnapshot = true ∧ env.isChar = true ∧ env.openSnapshot = 0 ∧
    env.setSwapFile = 0

theorem withDevices_opens (opens : env.Opens) :
    env.withDevices machine around = env.withConsole machine around := by
  obtain ⟨stat, block, chdir, mknod, resume, snapshot, char, opened, swap⟩ := opens
  simp [withDevices, stat, block, chdir, mknod, resume, snapshot, char, opened, swap]

theorem withDevices_closed (closed : ¬ env.Opens) :
    ∃ error, env.withDevices machine around = some (error, around) := by
  unfold withDevices
  by_cases stat : env.statResume = false
  · rw [if_pos stat]
    exact ⟨_, rfl⟩
  rw [if_neg stat]
  by_cases block : env.isBlock = false
  · rw [if_pos block]
    exact ⟨_, rfl⟩
  rw [if_neg block]
  by_cases chdir : env.chdir ≠ 0
  · rw [if_pos chdir]
    exact ⟨_, rfl⟩
  rw [if_neg chdir]
  by_cases mknod : env.mknod ≠ 0
  · rw [if_pos mknod]
    exact ⟨_, rfl⟩
  rw [if_neg mknod]
  by_cases resume : env.openResume ≠ 0
  · rw [if_pos resume]
    exact ⟨_, rfl⟩
  rw [if_neg resume]
  by_cases snapshot : env.statSnapshot = false
  · rw [if_pos snapshot]
    exact ⟨_, rfl⟩
  rw [if_neg snapshot]
  by_cases char : env.isChar = false
  · rw [if_pos char]
    exact ⟨_, rfl⟩
  rw [if_neg char]
  by_cases opened : env.openSnapshot ≠ 0
  · rw [if_pos opened]
    exact ⟨_, rfl⟩
  rw [if_neg opened]
  by_cases swap : env.setSwapFile ≠ 0
  · rw [if_pos swap]
    exact ⟨_, rfl⟩
  apply absurd _ closed
  exact ⟨eq_true_of_ne_false stat, eq_true_of_ne_false block, not_not.mp chdir, not_not.mp mknod,
    not_not.mp resume, eq_true_of_ne_false snapshot, eq_true_of_ne_false char,
    not_not.mp opened, not_not.mp swap⟩

/-- `main` comes to `prepare_console`. -/
def Reaches (env : S2disk Page) : Prop := env.early = 0 ∧ env.mount = 0 ∧ env.Opens

theorem arrives_mounted (mounts : Nat) :
    env.Arrives { around with tmpfs := mounts } ↔ env.Arrives around := by
  have same : (env.console.prepareConsole { around with tmpfs := mounts }).1 =
      (env.console.prepareConsole around).1 := by
    have spare : env.console.spare { around with tmpfs := mounts } =
      env.console.spare around := rfl
    have tiocl : env.console.tiocl { around with tmpfs := mounts } =
      env.console.tiocl around := rfl
    simp only [ConsoleAnswers.prepareConsole, spare, tiocl]
    split
    · rfl
    · split
      · rfl
      · split_ifs <;> rfl
  rw [Arrives, Arrives, same]

theorem Leaves.unmounted {stays arrives stays' arrives' : Prop}
    {left : Option (Int × Surroundings)} (undoes : env.Undoes)
    (leaves : Leaves env machine { around with tmpfs := around.tmpfs + 1 } stays arrives left)
    (same : stays ↔ stays') (same' : arrives ↔ arrives') :
    Leaves env machine around stays' arrives' (left.map fun (ret, after) =>
      if env.chdirRoot ≠ 0 then (env.chdirRoot, after)
      else (ret, if env.umount then { after with tmpfs := after.tmpfs - 1 } else after)) := by
  simp only [undoes.chdirRoot, undoes.umount, ne_eq, not_true_eq_false, ↓reduceIte]
  rw [same, same'] at leaves
  cases leaves with
  | switched here away error vt other => exact .switched here away error vt other
  | settled none here =>
      rw [Option.map_map]
      exact .settled none here
  | untouched none away error => exact .untouched none away error

theorem main_leaves (undoes : env.Undoes) (awake : around.frozen = false) :
    Leaves env machine around (env.Reaches ∧ env.console.Stays around)
      (env.Reaches ∧ env.Arrives around) (env.main machine around) := by
  unfold main
  by_cases early : env.early = 0
  · by_cases mount : env.mount = 0
    · rw [if_neg (not_not.mpr early), if_neg (not_not.mpr mount)]
      have reaches : env.Reaches ↔ env.Opens := by simp [Reaches, early, mount]
      by_cases opens : env.Opens
      · have stillAwake : { around with tmpfs := around.tmpfs + 1 }.frozen = false := awake
        rw [withDevices_opens opens]
        apply (withConsole_leaves undoes stillAwake).unmounted undoes
        · exact (and_iff_right (reaches.mpr opens)).symm
        · exact (arrives_mounted _).trans (and_iff_right (reaches.mpr opens)).symm
      · obtain ⟨error, closed⟩ := @withDevices_closed Page env machine
          { around with tmpfs := around.tmpfs + 1 } opens
        rw [closed]
        apply (Leaves.untouched not_false not_false error).unmounted undoes
        · simp [reaches, opens]
        · simp [reaches, opens]
    · rw [if_neg (not_not.mpr early), if_pos mount]
      exact .untouched (by simp [Reaches, mount]) (by simp [Reaches, mount]) _
  · rw [if_pos early]
    exact .untouched (by simp [Reaches, early]) (by simp [Reaches, early]) _

/-- Nothing of the settings is stuck, and `/proc` need not stay mounted. -/
def Settles (env : S2disk Page) (around : Surroundings) : Prop :=
  ¬ env.loglevel.Stuck (env.fileOpened around env.loglevel) around.loglevel ∧
    ¬ env.swappiness.Stuck (env.fileOpened around env.swappiness) around.swappiness ∧
    (env.mountProc = true → env.swappiness.opens = true → around.proc = true)

theorem settled_eq_iff : env.settled around = around ↔ env.Settles around := by
  constructor
  · intro same
    have loglevel := congrArg Surroundings.loglevel same
    have swappiness := congrArg Surroundings.swappiness same
    have proc := congrArg Surroundings.proc same
    simp only [settled] at loglevel swappiness proc
    refine ⟨?_, ?_, ?_⟩
    · intro stuck
      rw [if_pos stuck] at loglevel
      exact stuck.2.2.2 loglevel
    · intro stuck
      rw [if_pos stuck] at swappiness
      exact stuck.2.2.2 swappiness
    · intro mounts opens
      rw [← proc, mounts, opens]
      exact Bool.or_true _
  · rintro ⟨loglevel, swappiness, proc⟩
    have found : (around.proc || env.mountProc && env.swappiness.opens) = around.proc := by
      cases mounts : env.mountProc <;> cases opens : env.swappiness.opens <;> simp_all
    rw [settled, if_neg loglevel, if_neg swappiness, found]

/-- As long as the calls that undo something succeed, whatever else fails: if `main` returns, all
is as it was, unless waiting for the terminal fails, a setting has been written that could not be
read, or `/proc` had to be mounted and `swappiness` was opened. From `open_printk` on the value is
that of `suspend_system`. -/
theorem surroundings_restored (undoes : env.Undoes) (awake : around.frozen = false) {ret : Int}
    {after : Surroundings} (returns : env.main machine around = some (ret, after)) :
    (after = around ↔ (env.Reaches → ¬ env.console.Stays around) ∧
      (env.Reaches → env.Arrives around → env.Settles around)) ∧
      (env.Reaches → env.Arrives around → env.returned machine = some ret) := by
  have leaves := @main_leaves Page env machine around undoes awake
  rw [returns] at leaves
  generalize kept : some (ret, after) = left at leaves
  cases leaves with
  | switched here away error vt other =>
      obtain ⟨rfl, rfl⟩ := Prod.mk.inj (Option.some.inj kept)
      constructor
      · apply iff_of_false
        · exact fun same => other (congrArg Surroundings.active same)
        · exact fun unswitched => unswitched.1 here.1 here.2
      · exact fun reaches arrives => absurd ⟨reaches, arrives⟩ away
  | settled none here =>
      obtain ⟨value, returned, pair⟩ := Option.map_eq_some_iff.mp kept.symm
      obtain ⟨rfl, rfl⟩ := Prod.mk.inj pair
      constructor
      · rw [settled_eq_iff]
        constructor
        · exact fun settles => ⟨fun reaches stays => none ⟨reaches, stays⟩, fun _ _ => settles⟩
        · exact fun settles => settles.2 here.1 here.2
      · exact fun _ _ => returned
  | untouched none away error =>
      obtain ⟨rfl, rfl⟩ := Prod.mk.inj (Option.some.inj kept)
      constructor
      · apply iff_of_true rfl
        exact ⟨fun reaches stays => none ⟨reaches, stays⟩,
          fun reaches arrives => absurd ⟨reaches, arrives⟩ away⟩
      · exact fun reaches arrives => absurd ⟨reaches, arrives⟩ away

/-- A run on terminal seven, where every call succeeds and the system is resumed. -/
def resumed : S2disk Bytes where
  early := 0
  mount := 0
  statResume := true
  isBlock := true
  chdir := 0
  mknod := 0
  openResume := 0
  statSnapshot := true
  isChar := true
  openSnapshot := 0
  setSwapFile := 0
  console := ⟨.opened, true, true, some 8, true, true, true, true, 0, true, true⟩
  lock := ⟨.opened, true, true, true, true, 0, true⟩
  mountProc := true
  loglevel := ⟨true, true, true, true, 1⟩
  swappiness := ⟨true, true, true, true, 100⟩
  system := SystemEnv.answered (.resumed (WriteEnv.freshSwap [])) .created
  unfreezes := true
  umountProc := true
  chdirRoot := 0
  umount := true

def onTerminalSeven (proc : Bool) : Surroundings :=
  ⟨7, 0, fun _ => ⟨false, 0, 0⟩, 7, 60, proc, 0, false⟩

theorem resumed_undoes : resumed.Undoes := ⟨rfl, rfl, rfl, rfl, rfl, rfl, rfl, rfl, rfl⟩

/-- All is as it was, but for a `/proc` that had to be mounted. -/
theorem resumed_restores :
    resumed.main (SystemEnv.working 8) (onTerminalSeven true) = some (0, onTerminalSeven true) ∧
      ∀ ret, resumed.main (SystemEnv.working 8) (onTerminalSeven false) ≠
        some (ret, onTerminalSeven false) := by
  have reaches : resumed.Reaches := ⟨rfl, rfl, rfl, rfl, rfl, rfl, rfl, rfl, rfl, rfl, rfl⟩
  have waits : ∀ proc, ¬ resumed.console.Stays (onTerminalSeven proc) :=
    fun _ stays => Bool.noConfusion stays.2.2.2.1
  have arrives : ∀ proc, resumed.Arrives (onTerminalSeven proc) :=
    fun _ => ⟨rfl, rfl, rfl, rfl, rfl⟩
  have settles : resumed.Settles (onTerminalSeven true) :=
    ⟨by decide, by decide, fun _ _ => rfl⟩
  have value : resumed.returned (SystemEnv.working 8) = some 0 := by decide +kernel
  constructor
  · have ends : (resumed.main (SystemEnv.working 8) (onTerminalSeven true)).isSome = true := by
      decide +kernel
    obtain ⟨⟨ret, after⟩, returns⟩ := Option.isSome_iff_exists.mp ends
    obtain ⟨same, returned⟩ := surroundings_restored resumed_undoes rfl returns
    have success := Option.some.inj (value.symm.trans (returned reaches (arrives true)))
    rw [returns, same.mpr ⟨fun _ => waits true, fun _ _ => settles⟩, ← success]
  · intro ret returns
    obtain ⟨same, _⟩ := surroundings_restored resumed_undoes rfl returns
    have mounted := ((same.mp rfl).2 reaches (arrives false)).2.2 rfl rfl
    cases mounted

end S2disk

end Suspend
