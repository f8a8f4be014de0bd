import Suspend.ThreadOrder

set_option autoImplicit false

namespace Suspend

open Foundation.Memory Foundation.Ring Foundation.Runs

namespace Threads

variable {env : SaveEnv} {threads after : Threads env} {other : Bool}
  {blocks : List (Bytes × Nat)} {start : env.cipher.State} {count : Nat}

/-- The "move" thread as producer of the encrypt buffer. -/
structure Placing (threads : Threads env) : Prop where
  start : threads.saveStart = threads.placed % ENCRYPT_BUF_PAGES
  stop : threads.saveEnd = threads.taken % ENCRYPT_BUF_PAGES
  order : threads.taken ≤ threads.placed
  room : threads.placed ≤ threads.taken + 256
  calm : threads.saveRet = 0 ∨ threads.move.placing → threads.placed ≤ threads.taken + 255
  count : threads.coded.length = threads.placed + threads.move.unplaced.toNat
  held : Holds ENCRYPT_BUF_PAGES threads.pages threads.coded threads.taken

theorem Placing.woken (placing : threads.Placing) (move : threads.move.Woken after.move)
    (kept : threads.saveRet ≠ 0 → after.saveRet ≠ 0)
    (saveStart : after.saveStart = threads.saveStart) (saveEnd : after.saveEnd = threads.saveEnd)
    (pages : after.pages = threads.pages) (coded : after.coded = threads.coded)
    (placed : after.placed = threads.placed) (takenSame : after.taken = threads.taken) :
    after.Placing := by
  have same : after.move.placing = threads.move.placing ∧
      after.move.unplaced = threads.move.unplaced := by
    rcases move with same | ⟨before, later⟩ | ⟨moved, size, before, later⟩
    · rw [same]
      exact ⟨rfl, rfl⟩
    · rw [before, later]
      exact ⟨rfl, rfl⟩
    · rw [before, later]
      exact ⟨rfl, rfl⟩
  obtain ⟨start, stop, order, room, calm, count, held⟩ := placing
  constructor
  · rw [saveStart, placed, start]
  · rw [saveEnd, takenSame, stop]
  · rwa [takenSame, placed]
  · rwa [takenSame, placed]
  · rw [takenSame, placed, same.1]
    intro calmly
    apply calm
    exact calmly.imp_left fun fresh => by_contra fun failed => kept failed fresh
  · rw [coded, placed, same.2, count]
  · rwa [pages, coded, takenSame]

theorem Placing.moveTo (placing : threads.Placing) (place : MoveAt)
    (unplaced : place.unplaced = threads.move.unplaced)
    (calm : place.placing → threads.saveRet = 0 ∨ threads.move.placing) :
    ({ threads with move := place }).Placing where
  start := placing.start
  stop := placing.stop
  order := placing.order
  room := placing.room
  calm calmly := placing.calm (calmly.elim .inl calm)
  count := by
    rw [placing.count, ← unplaced]
  held := placing.held

theorem Placing.check (placing : threads.Placing) (place : threads.move = .check)
    (taken : threads.stepMove other = some after) : after.Placing := by
  have goes := placing.moveTo
  rw [place] at goes
  simp only [stepMove, place] at taken
  cases taken
  by_cases failed : threads.saveRet ≠ 0
  · rw [if_pos failed]
    exact goes _ rfl Bool.noConfusion
  · rw [if_neg failed]
    split
    · exact goes _ rfl (fun _ => .inl (by simpa using failed))
    · exact goes _ rfl Bool.noConfusion

/-- An encrypted page is put where no page is that has still to be passed. -/
theorem Placing.encrypting (placing : threads.Placing) {moved size : Nat}
    (place : threads.move = .encrypting moved size) (taken : threads.stepMove other = some after) :
    after.Placing := by
  have goes := placing.moveTo
  have count := placing.count
  rw [place] at goes count
  simp only [stepMove, place] at taken
  split at taken
  · cases taken
    exact goes _ rfl Bool.noConfusion
  · next page state answer =>
    cases taken
    have calm := placing.calm (.inr (by rw [place]; rfl))
    have whole : threads.coded.length = threads.placed := count
    have space : threads.coded.length < threads.taken + ENCRYPT_BUF_PAGES := by
      rw [whole]
      exact Nat.lt_succ_of_le calm
    have put := placing.held.put page space
    rw [whole, ← placing.start] at put
    constructor
    · exact placing.start
    · exact placing.stop
    · exact placing.order
    · exact placing.room
    · exact fun _ => calm
    · rw [List.length_append, whole]
      rfl
    · exact put

theorem Placing.advance (placing : threads.Placing) {moved size : Nat}
    (place : threads.move = .room moved size)
    (space : ¬ (saveInc threads.saveStart = threads.saveEnd ∧ threads.saveRet = 0)) :
    ({ threads with
      move := .placed moved size
      saveStart := saveInc threads.saveStart
      placed := threads.placed + 1 }).Placing := by
  have calm := placing.calm (.inr (by rw [place]; rfl))
  have count := placing.count
  rw [place] at count
  have next : saveInc threads.saveStart = (threads.placed + 1) % ENCRYPT_BUF_PAGES := by
    rw [saveInc, placing.start, Nat.mod_add_mod]
  constructor
  · exact next
  · exact placing.stop
  · exact Nat.le_succ_of_le placing.order
  · exact Nat.succ_le_succ calm
  · rintro (fresh | fills)
    · by_contra full
      have round : threads.placed + 1 = threads.taken + ENCRYPT_BUF_PAGES := by
        have bound : ¬ threads.placed + 1 ≤ threads.taken + 255 := full
        unfold ENCRYPT_BUF_PAGES
        omega
      apply space
      refine ⟨?_, fresh⟩
      rw [next, placing.stop, round, Nat.add_mod_right]
    · cases fills
  · exact count
  · exact placing.held

theorem Placing.makeRoom (placing : threads.Placing) {moved size : Nat}
    (place : threads.move = .room moved size) (taken : threads.stepMove other = some after) :
    after.Placing := by
  have goes := placing.moveTo
  rw [place] at goes
  simp only [stepMove, place] at taken
  split at taken
  · cases taken
  · split at taken
    · cases taken
      exact goes _ rfl (fun _ => .inr rfl)
    · next space =>
      cases taken
      exact placing.advance place space

theorem Placing.placedNext (placing : threads.Placing) {moved size : Nat}
    (place : threads.move = .placedNext moved size) (taken : threads.stepMove other = some after) :
    after.Placing := by
  have goes := placing.moveTo
  rw [place] at goes
  simp only [stepMove, place] at taken
  cases taken
  by_cases more : moved < size ∧ threads.saveRet = 0
  · rw [if_pos more]
    exact goes _ rfl (fun _ => .inl more.2)
  · rw [if_neg more]
    exact goes _ rfl Bool.noConfusion

theorem Placing.signal (placing : threads.Placing)
    (place : threads.move = .failedMove ∨ threads.move = .failedSave ∨
      threads.move = .failedFinish ∨ (∃ moved size, threads.move = .placed moved size) ∨
      threads.move = .advancedMove ∨ threads.move = .advancedFinish)
    (taken : threads.stepMove other = some after) : after.Placing := by
  have goes := placing.moveTo
  rcases place with place | place | place | ⟨moved, size, place⟩ | place | place <;>
    rw [place] at goes <;> simp only [stepMove, place] at taken
  · have on := goes (if env.settings.doEncrypt then .failedSave else .failedFinish)
      (by split <;> rfl) (by split <;> (intro same; cases same))
    rw [signalMove_eq] at taken
    cases taken
    exact on.woken (signalMove_move _ _) id rfl rfl rfl rfl rfl rfl
  · have on := goes .failedFinish rfl Bool.noConfusion
    rw [signalSave_eq] at taken
    cases taken
    exact on.woken (signalSave_move _ _) id rfl rfl rfl rfl rfl rfl
  · rw [signalFinish_eq] at taken
    cases taken
    exact (goes .returned rfl Bool.noConfusion).woken (.inl rfl) id rfl rfl rfl rfl rfl rfl
  · have on := goes (.placedNext moved size) rfl Bool.noConfusion
    rw [signalSave_eq] at taken
    cases taken
    exact on.woken (signalSave_move _ _) id rfl rfl rfl rfl rfl rfl
  · have on := goes .advancedFinish rfl Bool.noConfusion
    rw [signalMove_eq] at taken
    cases taken
    exact on.woken (signalMove_move _ _) id rfl rfl rfl rfl rfl rfl
  · rw [signalFinish_eq] at taken
    cases taken
    exact (goes .idle rfl Bool.noConfusion).woken (.inl rfl) id rfl rfl rfl rfl rfl rfl

theorem Placing.move (placing : threads.Placing) (taken : threads.stepMove other = some after) :
    after.Placing := by
  have goes := placing.moveTo
  cases place : threads.move
  case check => exact placing.check place taken
  case encrypting moved size => exact placing.encrypting place taken
  case room moved size => exact placing.makeRoom place taken
  case placedNext moved size => exact placing.placedNext place taken
  case failedMove => exact placing.signal (by simp [place]) taken
  case failedSave => exact placing.signal (by simp [place]) taken
  case failedFinish => exact placing.signal (by simp [place]) taken
  case placed moved size => exact placing.signal (by simp [place]) taken
  case advancedMove => exact placing.signal (by simp [place]) taken
  case advancedFinish => exact placing.signal (by simp [place]) taken
  all_goals
    rw [place] at goes
    simp only [stepMove, place] at taken
  case saving moved size =>
    split at taken
    · cases taken
      have on := goes (if env.outcome threads.passed.length ≠ 0
        then .failed (env.outcome threads.passed.length)
        else .saving (moved + env.page.bytes) size) (by split <;> rfl)
          (by split <;> (intro same; cases same))
      exact on.woken (.inl rfl) id rfl rfl rfl rfl rfl rfl
    · cases taken
      exact goes _ rfl Bool.noConfusion
  case roomGap moved size =>
    cases taken
    exact goes _ rfl (fun _ => .inr rfl)
  case failed error =>
    split at taken
    · cases taken
    · cases taken
      have on := goes .failedMove rfl Bool.noConfusion
      refine on.woken (.inl rfl) ?_ rfl rfl rfl rfl rfl rfl
      intro failed
      rwa [setRet, if_neg failed]
  case returned =>
    cases taken
    split
    · exact goes _ rfl Bool.noConfusion
    · exact goes _ rfl Bool.noConfusion
  all_goals
    repeat' split at taken
    all_goals cases taken
    all_goals refine (goes _ ?_ ?_).woken (.inl rfl) id rfl rfl rfl rfl rfl rfl
    all_goals first | rfl | (intro same; cases same)

theorem Placing.main (placing : threads.Placing) (taken : threads.stepMain other = some after) :
    after.Placing := by
  have leaves := stepMain_leaves taken
  exact placing.woken leaves.move (stepMain_kept taken) leaves.saveStart leaves.saveEnd
    leaves.pages leaves.coded leaves.placed leaves.taken

theorem stepSave_stays (elsewhere : threads.save ≠ .advance)
    (taken : threads.stepSave other = some after) :
    after.saveEnd = threads.saveEnd ∧ after.taken = threads.taken := by
  cases place : threads.save <;> simp only [stepSave, place] at taken
  case advance => exact absurd place elsewhere
  case failedMove =>
    rw [signalMove_eq] at taken
    cases taken
    exact ⟨rfl, rfl⟩
  case failedSave =>
    rw [signalSave_eq] at taken
    cases taken
    exact ⟨rfl, rfl⟩
  case advancedSave =>
    rw [signalSave_eq] at taken
    cases taken
    exact ⟨rfl, rfl⟩
  case failedFinish =>
    rw [signalFinish_eq] at taken
    cases taken
    exact ⟨rfl, rfl⟩
  case advancedFinish =>
    rw [signalFinish_eq] at taken
    cases taken
    exact ⟨rfl, rfl⟩
  all_goals
    repeat' split at taken
    all_goals cases taken
    all_goals exact ⟨rfl, rfl⟩

theorem Placing.save (placing : threads.Placing)
    (atPage : threads.save.atPage → threads.taken < threads.placed)
    (taken : threads.stepSave other = some after) : after.Placing := by
  have leaves := stepSave_leaves taken
  by_cases advance : threads.save = .advance
  · have more := atPage (by rw [advance]; rfl)
    simp only [stepSave, advance] at taken
    split at taken
    · cases taken
    · cases taken
      have room := placing.room
      have calm := placing.calm
      constructor
      · exact placing.start
      · rw [saveInc, placing.stop, Nat.mod_add_mod]
      · exact more
      · exact Nat.le_succ_of_le room
      · exact fun calmly => Nat.le_succ_of_le (calm calmly)
      · exact placing.count
      · exact placing.held.take
  · have still := stepSave_stays advance taken
    exact placing.woken leaves.move (stepSave_kept taken) leaves.saveStart still.1 leaves.pages
      leaves.coded leaves.placed still.2

/-- The "save" thread as consumer of the encrypt buffer. -/
structure Taking (threads : Threads env) : Prop where
  check : threads.save = .check → threads.taken < threads.placed ∨ threads.saveRet ≠ 0
  atPage : threads.save.atPage → threads.taken < threads.placed
  passed : env.settings.doEncrypt = true → ∃ count ≤ threads.coded.length,
    threads.passed = threads.coded.take count ∧
      (threads.save = .done ∨ count = threads.taken + threads.save.passedOne.toNat)

theorem Taking.woken (taking : threads.Taking) (save : threads.save.Woken after.save)
    (kept : threads.saveRet ≠ 0 → after.saveRet ≠ 0) (placed : threads.placed ≤ after.placed)
    (takenSame : after.taken = threads.taken) (coded : threads.coded <+: after.coded)
    (passed : env.settings.doEncrypt = true → after.passed = threads.passed) : after.Taking := by
  have same : after.save.atPage = threads.save.atPage ∧
      after.save.passedOne = threads.save.passedOne ∧
      (after.save = .check → threads.save = .check) ∧
        (threads.save = .done → after.save = .done) := by
    rcases save with same | ⟨before, later⟩
    · rw [same]
      exact ⟨rfl, rfl, id, id⟩
    · rw [before, later]
      exact ⟨rfl, rfl, SaveAt.noConfusion, SaveAt.noConfusion⟩
  obtain ⟨atPage, passedOne, check, ended⟩ := same
  constructor
  · intro checks
    rw [takenSame]
    exact (taking.check (check checks)).imp (fun more => Nat.lt_of_lt_of_le more placed) kept
  · rw [atPage, takenSame]
    exact fun here => Nat.lt_of_lt_of_le (taking.atPage here) placed
  · intro encrypts
    obtain ⟨count, within, same, place⟩ := taking.passed encrypts
    obtain ⟨more, together⟩ := coded
    refine ⟨count, ?_, ?_, ?_⟩
    · rw [← together, List.length_append]
      omega
    · rw [passed encrypts, same, ← together, List.take_append_of_le_length within]
    · rw [passedOne, takenSame]
      exact place.imp_left ended

theorem Taking.main (taking : threads.Taking) (taken : threads.stepMain other = some after) :
    after.Taking := by
  have leaves := stepMain_leaves taken
  apply taking.woken leaves.save (stepMain_kept taken)
  · rw [leaves.placed]
  · exact leaves.taken
  · simp only [leaves.coded, List.prefix_rfl]
  · exact fun _ => leaves.passed

/-- The "move" thread puts pages into the encrypt buffer, or passes them itself. -/
structure MoveAdds (before after : Threads env) : Prop where
  coded : before.coded <+: after.coded
  placed : before.placed ≤ after.placed
  passed : before.passed <+: after.passed
  saving : after.passed = before.passed ∨ ∃ moved size, before.move = .saving moved size

theorem stepMove_adds (taken : threads.stepMove other = some after) : MoveAdds threads after := by
  have none : ∀ later : Threads env, later.coded = threads.coded → later.placed = threads.placed →
      later.passed = threads.passed → MoveAdds threads later := by
    intro later coded placed passed
    refine ⟨?_, ?_, ?_, .inl passed⟩
    · simp only [coded, List.prefix_rfl]
    · rw [placed]
    · simp only [passed, List.prefix_rfl]
  cases place : threads.move <;> simp only [stepMove, place] at taken
  case saving moved size =>
    split at taken <;> cases taken
    · exact ⟨List.prefix_refl _, Nat.le_refl _, List.prefix_append _ _, .inr ⟨moved, size, place⟩⟩
    · exact none _ rfl rfl rfl
  case encrypting moved size =>
    split at taken <;> cases taken
    · exact none _ rfl rfl rfl
    · exact ⟨List.prefix_append _ _, Nat.le_refl _, List.prefix_refl _, .inl rfl⟩
  case room moved size =>
    repeat' split at taken
    all_goals cases taken
    · exact none _ rfl rfl rfl
    · exact ⟨List.prefix_refl _, Nat.le_succ _, List.prefix_refl _, .inl rfl⟩
  case failedMove =>
    rw [signalMove_eq] at taken
    cases taken
    exact none _ rfl rfl rfl
  case advancedMove =>
    rw [signalMove_eq] at taken
    cases taken
    exact none _ rfl rfl rfl
  case failedSave =>
    rw [signalSave_eq] at taken
    cases taken
    exact none _ rfl rfl rfl
  case placed moved size =>
    rw [signalSave_eq] at taken
    cases taken
    exact none _ rfl rfl rfl
  case failedFinish =>
    rw [signalFinish_eq] at taken
    cases taken
    exact none _ rfl rfl rfl
  case advancedFinish =>
    rw [signalFinish_eq] at taken
    cases taken
    exact none _ rfl rfl rfl
  all_goals
    repeat' split at taken
    all_goals cases taken
    all_goals exact none _ rfl rfl rfl

theorem stepSave_passed (taken : threads.stepSave other = some after) :
    threads.passed <+: after.passed := by
  cases place : threads.save <;> simp only [stepSave, place] at taken
  case writing =>
    cases taken
    exact List.prefix_append _ _
  case failedMove =>
    rw [signalMove_eq] at taken
    cases taken
    exact List.prefix_refl _
  case failedSave =>
    rw [signalSave_eq] at taken
    cases taken
    exact List.prefix_refl _
  case advancedSave =>
    rw [signalSave_eq] at taken
    cases taken
    exact List.prefix_refl _
  case failedFinish =>
    rw [signalFinish_eq] at taken
    cases taken
    exact List.prefix_refl _
  case advancedFinish =>
    rw [signalFinish_eq] at taken
    cases taken
    exact List.prefix_refl _
  all_goals
    repeat' split at taken
    all_goals cases taken
    all_goals exact List.prefix_refl _

theorem Taking.move (taking : threads.Taking) (handling : threads.Handling blocks start count)
    (taken : threads.stepMove other = some after) : after.Taking := by
  have leaves := stepMove_leaves taken
  have adds := stepMove_adds taken
  apply taking.woken leaves.save (stepMove_kept taken) adds.placed leaves.taken adds.coded
  intro encrypts
  rcases adds.saving with same | ⟨moved, size, saving⟩
  · exact same
  · have here := handling.place
    rw [saving] at here
    rw [here.1] at encrypts
    cases encrypts

theorem Taking.running (taking : threads.Taking) (encrypts : env.settings.doEncrypt = true)
    (running : threads.save ≠ .done) :
    threads.taken + threads.save.passedOne.toNat ≤ threads.coded.length ∧
      threads.passed = threads.coded.take (threads.taken + threads.save.passedOne.toNat) := by
  obtain ⟨count, within, same, here⟩ := taking.passed encrypts
  rw [← here.resolve_left running]
  exact ⟨within, same⟩

/-- The "save" thread goes on with the page it is at, or with none. -/
theorem Taking.saveTo (taking : threads.Taking) (place : SaveAt) (check : place ≠ .check)
    (running : threads.save ≠ .done) (atPage : place.atPage → threads.save.atPage)
    (passed : place = .done ∨ place.passedOne = threads.save.passedOne) :
    ({ threads with save := place }).Taking where
  check checks := absurd checks check
  atPage here := taking.atPage (atPage here)
  passed encrypts := by
    obtain ⟨within, same⟩ := taking.running encrypts running
    refine ⟨_, within, same, ?_⟩
    rcases passed with ended | equal
    · exact .inl ended
    · right
      dsimp only
      rw [equal]

/-- The "save" thread only leaves its wait for a page, or for an error. -/
theorem Taking.idle (taking : threads.Taking) (placing : threads.Placing)
    (place : threads.save = .idle) (taken : threads.stepSave other = some after) :
    after.Taking := by
  have goes := taking.saveTo
  have passed := taking.running
  rw [place] at goes passed
  simp only [stepSave, place] at taken
  split at taken
  · cases taken
  · split at taken
    · cases taken
      exact goes _ SaveAt.noConfusion SaveAt.noConfusion Bool.noConfusion (.inr rfl)
    · next filled =>
      cases taken
      refine ⟨fun _ => ?_, Bool.noConfusion, fun encrypts => ?_⟩
      · have order := placing.order
        by_cases fresh : threads.saveRet = 0
        · left
          by_contra none
          apply filled
          refine ⟨?_, fresh⟩
          rw [placing.start, placing.stop]
          congr 1
          exact Nat.le_antisymm order (by simpa using none)
        · exact .inr fresh
      · obtain ⟨within, same⟩ := passed encrypts SaveAt.noConfusion
        exact ⟨_, within, same, .inr rfl⟩

/-- Unless an error is told, the "save" thread comes to the next page. -/
theorem Taking.moves (taking : threads.Taking) (place : threads.save = .check)
    (taken : threads.stepSave other = some after) : after.Taking := by
  have goes := taking.saveTo
  have passed := taking.running
  rw [place] at goes passed
  simp only [stepSave, place] at taken
  cases taken
  by_cases failed : threads.saveRet ≠ 0
  · rw [if_pos failed]
    exact goes _ SaveAt.noConfusion SaveAt.noConfusion Bool.noConfusion (.inl rfl)
  · have more := (taking.check place).resolve_right failed
    rw [if_neg failed]
    refine ⟨SaveAt.noConfusion, fun _ => more, fun encrypts => ?_⟩
    obtain ⟨within, same⟩ := passed encrypts SaveAt.noConfusion
    exact ⟨_, within, same, .inr rfl⟩

/-- The page that the "save" thread writes is the next one of those that have been encrypted. -/
theorem Taking.writing (taking : threads.Taking) (placing : threads.Placing)
    (place : threads.save = .writing) (taken : threads.stepSave other = some after) :
    after.Taking := by
  have passed := taking.running
  rw [place] at passed
  simp only [stepSave, place] at taken
  cases taken
  have more := taking.atPage (by rw [place]; rfl)
  have inside : threads.taken < threads.coded.length := by
    rw [placing.count]
    omega
  have page := placing.held.get inside
  rw [← placing.stop] at page
  refine ⟨?_, fun _ => more, fun encrypts => ?_⟩
  · dsimp only
    split <;> (intro same; cases same)
  · obtain ⟨within, same⟩ := passed encrypts SaveAt.noConfusion
    refine ⟨threads.taken + 1, inside, ?_, .inr ?_⟩
    · dsimp only
      rw [List.take_add_one, page, same]
      rfl
    · dsimp only
      split <;> rfl

theorem Taking.save (taking : threads.Taking) (placing : threads.Placing)
    (taken : threads.stepSave other = some after) : after.Taking := by
  have goes := taking.saveTo
  have passed := taking.running
  cases place : threads.save
  case idle => exact taking.idle placing place taken
  case check => exact taking.moves place taken
  case writing => exact taking.writing placing place taken
  all_goals
    rw [place] at goes passed
    simp only [stepSave, place] at taken
  case failed error =>
    split at taken
    · cases taken
    · cases taken
      have on := goes .failedMove SaveAt.noConfusion SaveAt.noConfusion (fun _ => rfl) (.inr rfl)
      refine on.woken (.inl rfl) ?_ (Nat.le_refl _) rfl (List.prefix_refl _) (fun _ => rfl)
      intro failed
      rwa [setRet, if_neg failed]
  case failedMove =>
    have on := goes .failedSave SaveAt.noConfusion SaveAt.noConfusion (fun _ => rfl) (.inr rfl)
    rw [signalMove_eq] at taken
    cases taken
    exact on.woken (.inl rfl) id (Nat.le_refl _) rfl (List.prefix_refl _) (fun _ => rfl)
  case failedSave =>
    have on := goes .failedFinish SaveAt.noConfusion SaveAt.noConfusion (fun _ => rfl) (.inr rfl)
    rw [signalSave_eq] at taken
    cases taken
    exact on.woken (signalSave_save _ _) id (Nat.le_refl _) rfl (List.prefix_refl _)
      (fun _ => rfl)
  case failedFinish =>
    have on := goes .done SaveAt.noConfusion SaveAt.noConfusion Bool.noConfusion (.inl rfl)
    rw [signalFinish_eq] at taken
    cases taken
    exact on.woken (.inl rfl) id (Nat.le_refl _) rfl (List.prefix_refl _) (fun _ => rfl)
  case advance =>
    split at taken
    · cases taken
    · cases taken
      refine ⟨SaveAt.noConfusion, Bool.noConfusion, fun encrypts => ?_⟩
      obtain ⟨within, same⟩ := passed encrypts SaveAt.noConfusion
      exact ⟨_, within, same, .inr rfl⟩
  case advancedSave =>
    have on :=
      goes .advancedFinish SaveAt.noConfusion SaveAt.noConfusion Bool.noConfusion (.inr rfl)
    rw [signalSave_eq] at taken
    cases taken
    exact on.woken (signalSave_save _ _) id (Nat.le_refl _) rfl (List.prefix_refl _)
      (fun _ => rfl)
  case advancedFinish =>
    have on := goes .idle SaveAt.noConfusion SaveAt.noConfusion Bool.noConfusion (.inr rfl)
    rw [signalFinish_eq] at taken
    cases taken
    exact on.woken (.inl rfl) id (Nat.le_refl _) rfl (List.prefix_refl _) (fun _ => rfl)
  all_goals
    cases taken
    all_goals exact goes _ SaveAt.noConfusion SaveAt.noConfusion Bool.noConfusion (.inr rfl)

end Threads

end Suspend
