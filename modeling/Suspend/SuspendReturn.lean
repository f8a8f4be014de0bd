import Suspend.SuspendSystem

set_option autoImplicit false

namespace Suspend

/-- The value at an exit, if there is one. -/
def Exit.value : Exit → Option Int
  | .refused => some ENOSPC
  | .unfreeze error => some error
  | .loop => none

namespace SystemEnv

variable {Page : Type} (env : SystemEnv Page)

/-- The image that an attempt writes, once the kernel holds its snapshot. -/
def image (left : Nat) (machine : Machine Page) : Int × Machine Page :=
  written (env.attempt left).write { machine with snapshot := true }

/-- With these attempts left the system is suspended and comes back: control returns from the
snapshot, or from suspending to RAM, in this attempt or in one after it. -/
inductive CameBack : Nat → Machine Page → Prop where
  | resumed {left : Nat} {machine : Machine Page} {found : Device Page}
      (sized : (env.attempt left).setImageSize = 0)
      (answer : (env.attempt left).snapshot = .resumed found) :
      CameBack (left + 1) machine
  | woken {left : Nat} {machine : Machine Page}
      (sized : (env.attempt left).setImageSize = 0)
      (answer : (env.attempt left).snapshot = .created)
      (saved : (env.image left machine).1 = 0)
      (toRam : env.toRam = true)
      (slept : (env.attempt left).suspendToRam = 0) :
      CameBack (left + 1) machine
  | again {left : Nat} {machine : Machine Page}
      (sized : (env.attempt left).setImageSize = 0)
      (answer : (env.attempt left).snapshot = .created)
      (full : (env.image left machine).1 = -ENOSPC)
      (later : CameBack left ((env.image left machine).2.freeSnapshot (env.attempt left).freed)) :
      CameBack (left + 1) machine

/-- What `suspend_system` is to report as a success. -/
def Succeeds (machine : Machine Page) : Prop :=
  env.availSwap ≠ 0 ∧ env.freeze = 0 ∧
    match env.test with
    | some write => (written write machine).1 = 0
    | none => env.CameBack 2 machine

/-- If `suspend_system` returns, it returns zero for a success and only for a success. -/
def Truthful (machine : Machine Page) : Prop :=
  ∀ error, (env.suspendSystem machine).1.value = some error →
    (error = 0 ↔ env.Succeeds machine)

/-- The first attempt finds too little swap space, and the second one is the one that the system
comes back to. -/
def ResumedSecond (machine : Machine Page) : Prop :=
  env.availSwap ≠ 0 ∧ env.freeze = 0 ∧ env.test = none ∧
    (env.attempt 1).setImageSize = 0 ∧ (env.attempt 1).snapshot = .created ∧
    (env.image 1 machine).1 = -ENOSPC ∧
    (env.attempt 0).setImageSize = 0 ∧ ∃ found, (env.attempt 0).snapshot = .resumed found

variable {env}

/-- After `reset_signature` the error is returned, or nothing is. -/
theorem resetThen_value {machine : Machine Page} {error returned : Int}
    {rest : Machine Page → Machine Page}
    (value : (resetThen machine error rest).1.value = some returned) : returned = error := by
  unfold resetThen at value
  cases reset : machine.fd.resetSignature.1 with
  | halted => simp [reset, Exit.value] at value
  | returned code =>
      simp only [reset, Exit.value, Option.some.injEq] at value
      exact value.symm

section Attempt

variable {left : Nat} {error : Int} {machine : Machine Page}

/-- An attempt whose snapshot is written goes by what `write_image` returns. -/
theorem attempts_created (sized : (env.attempt left).setImageSize = 0)
    (answer : (env.attempt left).snapshot = .created) :
    env.attempts (left + 1) error machine =
      if (env.image left machine).1 ≠ 0 then
        if -(env.image left machine).1 ≠ ENOSPC then
          (.unfreeze (-(env.image left machine).1),
            (env.image left machine).2.freeSnapshot (env.attempt left).freed)
        else
          env.attempts left (-(env.image left machine).1)
            ((env.image left machine).2.freeSnapshot (env.attempt left).freed)
      else if env.toRam ∧ (env.attempt left).suspendToRam = 0 then
        resetThen (env.image left machine).2 0 fun machine =>
          machine.freeSnapshot (env.attempt left).freed
      else (.loop, (env.image left machine).2) := by
  rw [attempts]
  simp only [sized, answer, ne_eq, not_true_eq_false, ↓reduceIte]
  rfl

theorem attempts_unsized (unsized : (env.attempt left).setImageSize ≠ 0) :
    env.attempts (left + 1) error machine =
      (.unfreeze (env.attempt left).setImageSize, machine) := by
  simp only [attempts, unsized, ne_eq, not_false_eq_true, ↓reduceIte]

theorem attempts_failed {errno : Int} (sized : (env.attempt left).setImageSize = 0)
    (answer : (env.attempt left).snapshot = .failed errno) :
    env.attempts (left + 1) error machine = (.unfreeze errno, machine) := by
  simp only [attempts, sized, answer, ne_eq, not_true_eq_false, ↓reduceIte]

/-- A resumed system returns the error as the snapshot has kept it. -/
theorem attempts_resumed {found : Device Page} (sized : (env.attempt left).setImageSize = 0)
    (answer : (env.attempt left).snapshot = .resumed found) :
    (env.attempts (left + 1) error machine).1 = .unfreeze error := by
  simp only [attempts, sized, answer, ne_eq, not_true_eq_false, ↓reduceIte]

/-- What an attempt makes of the error it begins with. -/
inductive Attempted (env : SystemEnv Page) (left : Nat) (error : Int) (machine : Machine Page)
    (returned : Int) : Prop where
  | failed (nonzero : returned ≠ 0) (never : ¬ env.CameBack (left + 1) machine)
  | woken (zero : returned = 0) (back : env.CameBack (left + 1) machine)
  | resumed (found : Device Page) (sized : (env.attempt left).setImageSize = 0)
      (answer : (env.attempt left).snapshot = .resumed found) (kept : returned = error)
  | again (sized : (env.attempt left).setImageSize = 0)
      (answer : (env.attempt left).snapshot = .created)
      (full : (env.image left machine).1 = -ENOSPC)
      (later : (env.attempts left ENOSPC
        ((env.image left machine).2.freeSnapshot (env.attempt left).freed)).1.value =
          some returned)

theorem attempts_value {returned : Int}
    (errnoSet : ∀ errno, (env.attempt left).snapshot = .failed errno → errno ≠ 0)
    (value : (env.attempts (left + 1) error machine).1.value = some returned) :
    Attempted env left error machine returned := by
  by_cases sized : (env.attempt left).setImageSize = 0
  · cases answer : (env.attempt left).snapshot with
    | failed errno =>
        rw [attempts_failed sized answer] at value
        have given : errno = returned := Option.some.inj value
        have never : ¬ env.CameBack (left + 1) machine := by
          intro back
          cases back <;> simp_all only [reduceCtorEq]
        exact .failed (given ▸ errnoSet errno answer) never
    | resumed found =>
        rw [attempts_resumed sized answer] at value
        exact .resumed found sized answer (Option.some.inj value).symm
    | created =>
        rw [attempts_created sized answer] at value
        by_cases saved : (env.image left machine).1 = 0
        · rw [if_neg (not_not.mpr saved)] at value
          by_cases both : env.toRam = true ∧ (env.attempt left).suspendToRam = 0
          · rw [if_pos both] at value
            exact .woken (resetThen_value value) (.woken sized answer saved both.1 both.2)
          · rw [if_neg both] at value
            cases value
        · rw [if_pos saved] at value
          by_cases full : (env.image left machine).1 = -ENOSPC
          · have retried : -(env.image left machine).1 = ENOSPC := by omega
            rw [if_neg (not_not.mpr retried), retried] at value
            exact .again sized answer full value
          · have given : -(env.image left machine).1 ≠ ENOSPC := by omega
            rw [if_pos given] at value
            have negated : -(env.image left machine).1 = returned := Option.some.inj value
            have never : ¬ env.CameBack (left + 1) machine := by
              intro back
              cases back <;> simp_all only [reduceCtorEq]
            exact .failed (by omega) never
  · rw [attempts_unsized sized] at value
    have given : (env.attempt left).setImageSize = returned := Option.some.inj value
    have never : ¬ env.CameBack (left + 1) machine := by
      intro back
      cases back <;> contradiction
    exact .failed (given ▸ sized) never

end Attempt

/-- Begun without an error, the last attempt returns the truth. Begun with one, it does so unless
it is the attempt that the system comes back to. -/
theorem lastAttempt_value {error returned : Int} {machine : Machine Page}
    (errnoSet : ∀ errno, (env.attempt 0).snapshot = .failed errno → errno ≠ 0)
    (begun : error ≠ 0)
    (value : (env.attempts 1 error machine).1.value = some returned) :
    (returned = 0 ↔ env.CameBack 1 machine) ↔
      ¬ ((env.attempt 0).setImageSize = 0 ∧
        ∃ found, (env.attempt 0).snapshot = .resumed found) := by
  cases attempts_value errnoSet value with
  | failed nonzero never =>
      have honest : ¬ ((env.attempt 0).setImageSize = 0 ∧
          ∃ found, (env.attempt 0).snapshot = .resumed found) := by
        rintro ⟨sized, found, answer⟩
        exact never (.resumed sized answer)
      exact iff_of_true (iff_of_false nonzero never) honest
  | woken zero back =>
      have honest : ¬ ((env.attempt 0).setImageSize = 0 ∧
          ∃ found, (env.attempt 0).snapshot = .resumed found) := by
        rintro ⟨sized, found, answer⟩
        rw [attempts_resumed sized answer] at value
        exact begun ((Option.some.inj value).trans zero)
      exact iff_of_true (iff_of_true zero back) honest
  | resumed found sized answer kept =>
      have back : env.CameBack 1 machine := .resumed sized answer
      have nonzero : returned ≠ 0 := kept ▸ begun
      exact iff_of_false (fun truthful => nonzero (truthful.mpr back))
        (not_not.mpr ⟨sized, found, answer⟩)
  | again sized answer full later =>
      have given : ENOSPC = returned := Option.some.inj later
      have nonzero : returned ≠ 0 := given ▸ by decide
      have never : ¬ env.CameBack 1 machine := by
        intro back
        cases back with
        | resumed _ found => rw [answer] at found; cases found
        | woken _ _ saved => rw [saved] at full; cases full
        | again _ _ _ none => cases none
      refine iff_of_true (iff_of_false nonzero never) ?_
      rintro ⟨_, found, resumed⟩
      rw [answer] at resumed
      cases resumed

/-- In the case that goes wrong, the system comes back and `-ENOSPC` is returned. -/
theorem resumedSecond_value {machine : Machine Page} (second : env.ResumedSecond machine) :
    (env.suspendSystem machine).1.value = some ENOSPC ∧ env.Succeeds machine := by
  obtain ⟨avail, frozen, test, sized, answer, full, sized', found, answer'⟩ := second
  have unsaved : (env.image 1 machine).1 ≠ 0 := by
    rw [full]
    decide
  have retried : -(env.image 1 machine).1 = ENOSPC := by omega
  constructor
  · rw [suspendSystem, if_neg avail, if_neg (not_not.mpr frozen), test]
    show (env.attempts 2 0 machine).1.value = some ENOSPC
    rw [attempts_created sized answer, if_pos unsaved, if_neg (not_not.mpr retried), retried,
      attempts_resumed sized' answer']
    rfl
  · refine ⟨avail, frozen, ?_⟩
    rw [test]
    exact .again sized answer full (.resumed sized' answer')

/-- The attempts return the truth unless the second one is the one that goes wrong. -/
theorem attempts_truthful {returned : Int} {machine : Machine Page}
    (errnoSet : ∀ left errno, (env.attempt left).snapshot = .failed errno → errno ≠ 0)
    (value : (env.attempts 2 0 machine).1.value = some returned)
    (honest : ¬ ((env.attempt 1).setImageSize = 0 ∧ (env.attempt 1).snapshot = .created ∧
      (env.image 1 machine).1 = -ENOSPC ∧
      (env.attempt 0).setImageSize = 0 ∧ ∃ found, (env.attempt 0).snapshot = .resumed found)) :
    returned = 0 ↔ env.CameBack 2 machine := by
  cases attempts_value (errnoSet 1) value with
  | failed nonzero never => exact iff_of_false nonzero never
  | woken zero back => exact iff_of_true zero back
  | resumed found sized answer kept => exact iff_of_true kept (.resumed sized answer)
  | again sized answer full later =>
      have last := (lastAttempt_value (errnoSet 0) (by decide) later).mpr fun resumed =>
        honest ⟨sized, answer, full, resumed⟩
      rw [last]
      constructor
      · exact .again sized answer full
      · intro back
        cases back with
        | resumed _ found => rw [answer] at found; cases found
        | woken _ _ saved => rw [saved] at full; cases full
        | again _ _ _ later => exact later

/-- `suspend_system` returns the truth if and only if it is not the second attempt, after a first
one without space, that the system comes back to. -/
theorem suspendSystem_truthful_iff (env : SystemEnv Page) (machine : Machine Page)
    (errnoSet : ∀ left errno, (env.attempt left).snapshot = .failed errno → errno ≠ 0) :
    env.Truthful machine ↔ ¬ env.ResumedSecond machine := by
  constructor
  · intro truthful second
    obtain ⟨value, success⟩ := resumedSecond_value second
    exact absurd ((truthful ENOSPC value).mpr success) (by decide)
  · intro honest error value
    by_cases avail : env.availSwap = 0
    · rw [suspendSystem, if_pos avail] at value
      have given : ENOSPC = error := Option.some.inj value
      exact iff_of_false (given ▸ by decide) fun success => success.1 avail
    · by_cases frozen : env.freeze = 0
      · rw [suspendSystem, if_neg avail, if_neg (not_not.mpr frozen)] at value
        cases test : env.test with
        | some write =>
            simp only [test] at value
            have negated := resetThen_value value
            simp only [Succeeds, avail, frozen, test, ne_eq, not_false_eq_true, true_and]
            omega
        | none =>
            simp only [test] at value
            have attempts := attempts_truthful errnoSet value fun second =>
              honest ⟨avail, frozen, test, second⟩
            simpa only [Succeeds, avail, frozen, test, ne_eq, not_false_eq_true, true_and]
              using attempts
      · rw [suspendSystem, if_neg avail, if_pos frozen] at value
        have given : env.freeze = error := Option.some.inj value
        exact iff_of_false (given ▸ frozen) fun success => frozen success.2.1

/-- Two attempts with as much free swap as the image has bytes, which is too little. -/
def answered (first second : SnapshotAnswer Bytes) : SystemEnv Bytes where
  availSwap := 4096
  freeze := 0
  test := none
  toRam := false
  attempt := fun left =>
    ⟨0, if left = 1 then first else second, { WriteEnv.onePage with freeSwap := 4096 }, true, 0⟩

theorem resumed_first_truthful :
    let env := answered (.resumed (WriteEnv.freshSwap [])) .created
    (env.suspendSystem (working 8)).1 = .unfreeze 0 ∧ env.Truthful (working 8) := by
  intro env
  have returned : (env.suspendSystem (working 8)).1 = .unfreeze 0 := by decide +kernel
  have errnoSet : ∀ left errno, (env.attempt left).snapshot = .failed errno → errno ≠ 0 := by
    intro left errno failed
    by_cases first : left = 1 <;> simp [env, answered, first] at failed
  refine ⟨returned, (suspendSystem_truthful_iff env (working 8) errnoSet).mpr ?_⟩
  rintro ⟨_, _, _, _, answer, _⟩
  cases answer

/-- After a first attempt without space, the resumed system is told `ENOSPC`. -/
theorem resumed_second_enospc :
    let env := answered .created (.resumed (WriteEnv.freshSwap []))
    (env.suspendSystem (working 8)).1 = .unfreeze ENOSPC ∧ env.CameBack 2 (working 8) ∧
      ¬ env.Truthful (working 8) := by
  intro env
  have full : (env.image 1 (working 8)).1 = -ENOSPC := by decide +kernel
  have second : env.ResumedSecond (working 8) :=
    ⟨by decide, rfl, rfl, rfl, rfl, full, rfl, _, rfl⟩
  obtain ⟨value, success⟩ := resumedSecond_value second
  have unfreeze : (env.suspendSystem (working 8)).1 = .unfreeze ENOSPC := by decide +kernel
  have untrue : ¬ env.Truthful (working 8) := fun truthful =>
    absurd ((truthful ENOSPC value).mpr success) (by decide)
  exact ⟨unfreeze, success.2.2, untrue⟩

end SystemEnv

end Suspend
