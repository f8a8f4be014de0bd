import Suspend.Foundation.Ring
import Suspend.ThreadWaits

set_option autoImplicit false

namespace Suspend

open Foundation.Memory Foundation.Ring Foundation.Runs

namespace SaveEnv

variable (env : SaveEnv)

/-- The pages that the threads make of a write buffer and its size. -/
def pagesIn (slot : Bytes × Nat) : List Bytes :=
  slices env.page.bytes (covering env.page.bytes slot.2) slot.1

/-- What the write buffers hold when one buffer after the other is flushed, from number `count`
on. -/
def slotBlocks : (Nat → Bytes) → Nat → List Bytes → List (Bytes × Nat)
  | _, _, [] => []
  | memory, count, buffer :: rest =>
      let filled := env.fillSlot (memory (count % WRITE_BUFFERS)) buffer
      (filled, env.blockSize buffer) ::
        slotBlocks (Function.update memory (count % WRITE_BUFFERS) filled) (count + 1) rest

/-- How many pages lie before the write buffer with this number. -/
def pagesBefore (blocks : List (Bytes × Nat)) (count : Nat) : Nat :=
  ((blocks.take count).flatMap env.pagesIn).length

/-- Only the last one of the buffers may be less than full. -/
def LastPartial (buffers : List Bytes) : Prop :=
  ∀ front buffer rest, buffers = front ++ buffer :: rest →
    buffer.length < env.page.bufferSize → rest = []

variable {env} {blocks : List (Bytes × Nat)} {slot : Bytes × Nat} {count index : Nat}

theorem pagesIn_length (slot : Bytes × Nat) :
    (env.pagesIn slot).length = covering env.page.bytes slot.2 := slices_length _ _ _

theorem pagesBefore_succ (here : blocks[count]? = some slot) :
    env.pagesBefore blocks (count + 1) =
      env.pagesBefore blocks count + covering env.page.bytes slot.2 := by
  rw [pagesBefore, List.take_add_one, here, Option.toList_some, List.flatMap_append,
    List.length_append, List.flatMap_singleton, pagesIn_length]
  rfl

theorem pages_at (here : blocks[count]? = some slot)
    (inside : index < covering env.page.bytes slot.2) :
    (blocks.flatMap env.pagesIn)[env.pagesBefore blocks count + index]? =
      some (env.pageAt slot.1 (env.page.bytes * index)) := by
  obtain ⟨within, same⟩ := List.getElem?_eq_some_iff.mp here
  have parts : blocks = blocks.take count ++ slot :: blocks.drop (count + 1) := by
    rw [← same, ← List.drop_eq_getElem_cons within, List.take_append_drop]
  have pages : blocks.flatMap env.pagesIn = (blocks.take count).flatMap env.pagesIn ++
      (env.pagesIn slot ++ (blocks.drop (count + 1)).flatMap env.pagesIn) := by
    conv_lhs => rw [parts]
    rw [List.flatMap_append, List.flatMap_cons]
  rw [pages, pagesBefore, List.getElem?_append_right (Nat.le_add_right _ _),
    Nat.add_sub_cancel_left,
    List.getElem?_append_left (by rw [pagesIn_length]; exact inside), pagesIn,
    slices_getElem? inside]
  rfl

end SaveEnv

/-- Whether the main thread has put data into a write buffer and not yet moved on to the next. -/
def MainAt.unpublished : MainAt → Bool
  | .publish _ | .publishGap _ | .publishWait _ => true
  | _ => false

/-- Whether the main thread is to fill another write buffer before it looks at `save_ret`. -/
def MainAt.filling : MainAt → Bool
  | .reading | .publish _ | .publishGap _ | .publishWait _ => true
  | _ => false

/-- Whether the main thread has flushed the last buffer. -/
def MainAt.flushedAll : MainAt → Bool
  | .publish last | .publishGap last | .publishWait last => last
  | .published last | .publishedRet last => last
  | .finish | .finishGap | .finishWait | .finishRet => true
  | _ => false

/-- Whether the "move" thread has encrypted a page and not yet moved on to the next. -/
def MoveAt.unplaced : MoveAt → Bool
  | .room _ _ | .roomGap _ _ | .roomWait _ _ => true
  | _ => false

/-- Whether the "move" thread is to encrypt another page before it looks at `save_ret`. -/
def MoveAt.placing : MoveAt → Bool
  | .encrypting _ _ | .room _ _ | .roomGap _ _ | .roomWait _ _ => true
  | _ => false

/-- Whether the "save" thread is at a page. -/
def SaveAt.atPage : SaveAt → Bool
  | .writing | .failed _ | .failedMove | .failedSave | .failedFinish | .advance => true
  | _ => false

/-- Whether the "save" thread has passed the page it is at to `save_page`. -/
def SaveAt.passedOne : SaveAt → Bool
  | .failed _ | .failedMove | .failedSave | .failedFinish | .advance => true
  | _ => false

/-- Whether the "move" thread is at a buffer. -/
def MoveAt.atBuffer : MoveAt → Bool
  | .idle | .idleGap | .idleWait | .check | .advancedMove | .advancedFinish | .done => false
  | _ => true

namespace Threads

variable {env : SaveEnv} {threads after : Threads env} {other : Bool}
  {blocks : List (Bytes × Nat)}

/-- The main thread as producer of the write buffers. -/
structure Filling (blocks : List (Bytes × Nat)) (threads : Threads env) : Prop where
  start : threads.moveStart = threads.published % WRITE_BUFFERS
  stop : threads.moveEnd = threads.emptied % WRITE_BUFFERS
  order : threads.emptied ≤ threads.published
  room : threads.published ≤ threads.emptied + 4
  calm : threads.saveRet = 0 ∨ threads.main.filling → threads.published ≤ threads.emptied + 3
  count : threads.flushed.length = threads.published + threads.main.unpublished.toNat
  laid : threads.flushed ++ env.slotBlocks (fun index => (threads.slots index).1)
    threads.flushed.length threads.ahead = blocks
  held : Holds WRITE_BUFFERS threads.slots threads.flushed threads.emptied
  partial_ : env.LastPartial threads.ahead
  all : threads.main.flushedAll → threads.ahead = []

theorem Filling.woken (filling : threads.Filling blocks) (main : threads.main.Woken after.main)
    (kept : threads.saveRet ≠ 0 → after.saveRet ≠ 0)
    (moveStart : after.moveStart = threads.moveStart) (moveEnd : after.moveEnd = threads.moveEnd)
    (slots : after.slots = threads.slots) (ahead : after.ahead = threads.ahead)
    (flushed : after.flushed = threads.flushed) (published : after.published = threads.published)
    (emptied : after.emptied = threads.emptied) : after.Filling blocks := by
  have same : after.main.unpublished = threads.main.unpublished ∧
      after.main.filling = threads.main.filling ∧
        (after.main.flushedAll = threads.main.flushedAll) := by
    rcases main with same | ⟨last, before, later⟩ | ⟨before, later⟩
    · rw [same]
      exact ⟨rfl, rfl, rfl⟩
    · rw [before, later]
      exact ⟨rfl, rfl, rfl⟩
    · rw [before, later]
      exact ⟨rfl, rfl, rfl⟩
  obtain ⟨unpublished, fills, flushedAll⟩ := same
  obtain ⟨start, stop, order, room, calm, count, laid, held, last, all⟩ := filling
  constructor
  · rw [moveStart, published, start]
  · rw [moveEnd, emptied, stop]
  · rwa [emptied, published]
  · rwa [emptied, published]
  · rw [emptied, published, fills]
    intro calmly
    apply calm
    exact calmly.imp_left fun fresh => by_contra fun failed => kept failed fresh
  · rw [flushed, published, unpublished, count]
  · rw [flushed, slots, ahead, laid]
  · rwa [slots, flushed, emptied]
  · rwa [ahead]
  · rwa [flushedAll, ahead]

theorem Filling.mainTo (filling : threads.Filling blocks) (place : MainAt)
    (unpublished : place.unpublished = threads.main.unpublished)
    (calm : place.filling → threads.saveRet = 0 ∨ threads.main.filling)
    (all : place.flushedAll → threads.ahead = []) :
    ({ threads with main := place }).Filling blocks where
  start := filling.start
  stop := filling.stop
  order := filling.order
  room := filling.room
  calm calmly := filling.calm (calmly.elim .inl calm)
  count := by
    rw [filling.count, ← unpublished]
  laid := filling.laid
  held := filling.held
  partial_ := filling.partial_
  all := all

theorem update_fst (slots : Nat → Bytes × Nat) (index : Nat) (slot : Bytes × Nat) :
    (fun other => (Function.update slots index slot other).1) =
      Function.update (fun other => (slots other).1) index slot.1 := by
  funext other
  by_cases same : other = index
  · rw [same, Function.update_self, Function.update_self]
  · rw [Function.update_of_ne same, Function.update_of_ne same]

/-- The next write buffer is free, and it is not one that is still to be read. -/
theorem Filling.fill (filling : threads.Filling blocks) (reading : threads.main = .reading)
    {buffer : Bytes} {rest : List Bytes} (ahead : threads.ahead = buffer :: rest) :
    (threads.fill buffer rest).Filling blocks := by
  have count : threads.flushed.length = threads.published := by
    rw [filling.count, reading]
    rfl
  have calm := filling.calm (.inr (by rw [reading]; rfl))
  have start := filling.start
  have whole := filling.partial_
  rw [ahead] at whole
  rw [← count] at start
  constructor
  · exact filling.start
  · exact filling.stop
  · exact filling.order
  · exact filling.room
  · exact fun _ => calm
  · simp [Threads.fill, MainAt.unpublished, count]
  · have laid := filling.laid
    rw [ahead, SaveEnv.slotBlocks] at laid
    simp only [Threads.fill, update_fst, start, List.length_append, List.length_singleton,
      List.append_assoc, List.singleton_append]
    exact laid
  · have room : threads.flushed.length < threads.emptied + WRITE_BUFFERS := by
      rw [count]
      exact Nat.lt_succ_of_le calm
    have put := filling.held.put
      (env.fillSlot (threads.slots threads.moveStart).1 buffer, env.blockSize buffer) room
    rw [← start] at put
    exact put
  · intro front later last same
    apply whole (buffer :: front) later last
    exact congrArg (List.cons buffer) same
  · intro short
    apply whole [] buffer rest rfl
    simpa [Threads.fill, MainAt.flushedAll] using short

/-- The main thread moves on to the next write buffer. -/
theorem Filling.publish (filling : threads.Filling blocks) {last : Bool}
    (publishing : threads.main = .publish last)
    (room : ¬ (moveInc threads.moveStart = threads.moveEnd ∧ threads.saveRet = 0)) :
    ({ threads with
      main := .published last
      moveStart := moveInc threads.moveStart
      published := threads.published + 1 }).Filling blocks := by
  have calm := filling.calm (.inr (by rw [publishing]; rfl))
  have order := filling.order
  have next : moveInc threads.moveStart = (threads.published + 1) % WRITE_BUFFERS := by
    rw [moveInc, filling.start, Nat.mod_add_mod]
  constructor
  · exact next
  · exact filling.stop
  · exact Nat.le_succ_of_le order
  · exact Nat.succ_le_succ calm
  · rintro (fresh | fills)
    · by_contra full
      have round : threads.published + 1 = threads.emptied + WRITE_BUFFERS := by
        have bound : ¬ threads.published + 1 ≤ threads.emptied + 3 := full
        unfold WRITE_BUFFERS
        omega
      apply room
      refine ⟨?_, fresh⟩
      rw [next, filling.stop, round, Nat.add_mod_right]
    · cases fills
  · rw [filling.count, publishing]
    rfl
  · exact filling.laid
  · exact filling.held
  · exact filling.partial_
  · intro flushed
    apply filling.all
    rw [publishing]
    exact flushed

theorem Filling.main (filling : threads.Filling blocks)
    (taken : threads.stepMain other = some after) : after.Filling blocks := by
  have goes := filling.mainTo
  have all := filling.all
  cases place : threads.main <;> rw [place] at goes all <;> simp only [stepMain, place] at taken
  case reading =>
    split at taken
    · next done =>
      cases taken
      exact goes _ rfl Bool.noConfusion (fun _ => done)
    · next buffer rest more =>
      cases taken
      exact filling.fill place more
  case publish last =>
    split at taken
    · cases taken
    · split at taken
      · cases taken
        exact goes _ rfl (fun _ => .inr rfl) all
      · next room =>
        cases taken
        exact filling.publish place room
  case publishGap last =>
    cases taken
    exact goes _ rfl (fun _ => .inr rfl) all
  case published last =>
    have on := goes (.publishedRet last) rfl Bool.noConfusion all
    rw [signalMove_eq] at taken
    cases taken
    exact on.woken (signalMove_main _ _) id rfl rfl rfl rfl rfl rfl rfl
  case publishedRet last =>
    cases taken
    by_cases final : last = true
    · rw [if_pos final]
      exact goes _ rfl Bool.noConfusion (fun _ => all final)
    · rw [if_neg final]
      by_cases failed : threads.saveRet ≠ 0
      · rw [if_pos failed]
        exact goes _ rfl Bool.noConfusion Bool.noConfusion
      · rw [if_neg failed]
        exact goes _ rfl (fun _ => .inl (by simpa using failed)) Bool.noConfusion
  case stop =>
    cases taken
    have on := goes .destroyFinish rfl Bool.noConfusion Bool.noConfusion
    refine on.woken (.inl rfl) ?_ rfl rfl rfl rfl rfl rfl rfl
    intro failed
    rwa [setRet, if_neg failed]
  case stopMove =>
    have on := goes .joinMove rfl Bool.noConfusion Bool.noConfusion
    rw [signalMove_eq] at taken
    cases taken
    exact on.woken (signalMove_main _ _) id rfl rfl rfl rfl rfl rfl rfl
  case stopSave =>
    have on := goes .joinSave rfl Bool.noConfusion Bool.noConfusion
    rw [signalSave_eq] at taken
    cases taken
    exact on.woken (.inl rfl) id rfl rfl rfl rfl rfl rfl rfl
  case joinMove =>
    split at taken <;> cases taken
    split
    · exact goes _ rfl Bool.noConfusion Bool.noConfusion
    · exact goes _ rfl Bool.noConfusion Bool.noConfusion
  all_goals
    repeat' split at taken
    all_goals cases taken
    all_goals refine (goes _ ?_ ?_ ?_).woken (.inl rfl) id rfl rfl rfl rfl rfl rfl rfl
    all_goals first | rfl | exact all | (intro same; cases same)

/-- Only its advance takes the "move" thread to another write buffer. -/
theorem stepMove_stays (elsewhere : threads.move ≠ .advance)
    (taken : threads.stepMove other = some after) :
    after.moveEnd = threads.moveEnd ∧ after.emptied = threads.emptied := by
  cases place : threads.move <;> simp only [stepMove, place] at taken
  case advance => exact absurd place elsewhere
  case failedMove =>
    rw [signalMove_eq] at taken
    cases taken
    exact ⟨rfl, rfl⟩
  case advancedMove =>
    rw [signalMove_eq] at taken
    cases taken
    exact ⟨rfl, rfl⟩
  case failedSave =>
    rw [signalSave_eq] at taken
    cases taken
    exact ⟨rfl, rfl⟩
  case placed moved size =>
    rw [signalSave_eq] at taken
    cases taken
    exact ⟨rfl, rfl⟩
  case failedFinish =>
    rw [signalFinish_eq] at taken
    cases taken
    exact ⟨rfl, rfl⟩
  case advancedFinish =>
    rw [signalFinish_eq] at taken
    cases taken
    exact ⟨rfl, rfl⟩
  all_goals
    repeat' split at taken
    all_goals cases taken
    all_goals exact ⟨rfl, rfl⟩

theorem Filling.move (filling : threads.Filling blocks)
    (buffered : threads.move.atBuffer → threads.emptied < threads.published)
    (taken : threads.stepMove other = some after) : after.Filling blocks := by
  have leaves := stepMove_leaves taken
  by_cases advance : threads.move = .advance
  · have more := buffered (by rw [advance]; rfl)
    rw [stepMove, advance] at taken
    simp only at taken
    split at taken
    · cases taken
    · cases taken
      have room := filling.room
      have calm := filling.calm
      constructor
      · exact filling.start
      · rw [moveInc, filling.stop, Nat.mod_add_mod]
      · exact more
      · exact Nat.le_succ_of_le room
      · exact fun calmly => Nat.le_succ_of_le (calm calmly)
      · exact filling.count
      · exact filling.laid
      · exact filling.held.take
      · exact filling.partial_
      · exact filling.all
  · have kept := stepMove_kept taken
    have still := stepMove_stays advance taken
    exact filling.woken leaves.main kept leaves.moveStart still.1 leaves.slots leaves.ahead
      leaves.flushed leaves.published still.2

theorem Filling.save (filling : threads.Filling blocks)
    (taken : threads.stepSave other = some after) : after.Filling blocks := by
  have leaves := stepSave_leaves taken
  exact filling.woken leaves.main (stepSave_kept taken) leaves.moveStart leaves.moveEnd
    leaves.slots leaves.ahead leaves.flushed leaves.published leaves.emptied

/-- The "move" thread as consumer of the write buffers. -/
structure Emptying (threads : Threads env) : Prop where
  check : threads.move = .check → threads.emptied < threads.published ∨ threads.saveRet ≠ 0
  buffered : threads.move.atBuffer → threads.emptied < threads.published
  failing : threads.move.failing → threads.saveRet ≠ 0

theorem Emptying.woken (emptying : threads.Emptying) (move : threads.move.Woken after.move)
    (kept : threads.saveRet ≠ 0 → after.saveRet ≠ 0)
    (published : threads.published ≤ after.published) (emptied : after.emptied = threads.emptied) :
    after.Emptying := by
  obtain ⟨check, buffered, failing⟩ := emptying
  constructor <;> grind -ring -linarith [MoveAt.Woken, MoveAt.atBuffer, MoveAt.failing]

theorem Emptying.moveTo (emptying : threads.Emptying) (place : MoveAt)
    (check : place ≠ .check) (failing : place.failing → threads.saveRet ≠ 0)
    (buffered : place.atBuffer → threads.move.atBuffer) :
    ({ threads with move := place }).Emptying where
  check at_ := absurd at_ check
  buffered at_ := emptying.buffered (buffered at_)
  failing := failing

theorem Emptying.move (emptying : threads.Emptying) (filling : threads.Filling blocks)
    (sane : threads.MoveSane) (taken : threads.stepMove other = some after) :
    after.Emptying := by
  have goes := emptying.moveTo
  have checked := emptying.check
  have failed := emptying.failing
  cases place : threads.move <;> rw [place] at goes checked failed <;>
    simp only [stepMove, place] at taken
  case idle =>
    split at taken
    · cases taken
    · split at taken
      · cases taken
        exact goes _ MoveAt.noConfusion Bool.noConfusion Bool.noConfusion
      · next filled =>
        cases taken
        refine ⟨fun _ => ?_, Bool.noConfusion, Bool.noConfusion⟩
        have order := filling.order
        by_cases fresh : threads.saveRet = 0
        · left
          by_contra none
          apply filled
          refine ⟨?_, fresh⟩
          rw [filling.start, filling.stop]
          congr 1
          exact Nat.le_antisymm order (by simpa using none)
        · exact .inr fresh
  case check =>
    cases taken
    by_cases fresh : threads.saveRet = 0
    · have more := (checked rfl).resolve_right (by simpa using fresh)
      constructor <;> grind -ring -linarith [MoveAt.failing]
    · rw [if_pos fresh]
      exact goes _ MoveAt.noConfusion Bool.noConfusion Bool.noConfusion
  case failed error =>
    split at taken
    · cases taken
    · cases taken
      exact ⟨MoveAt.noConfusion, fun _ => emptying.buffered (by rw [place]; rfl),
        fun _ => setRet_nonzero (sane.error error place) _⟩
  case advance =>
    split at taken
    · cases taken
    · cases taken
      exact ⟨MoveAt.noConfusion, Bool.noConfusion, Bool.noConfusion⟩
  case failedMove =>
    have on := goes (if env.settings.doEncrypt then .failedSave else .failedFinish)
      (by split <;> (intro same; cases same)) (fun _ => failed rfl) (fun _ => rfl)
    rw [signalMove_eq] at taken
    cases taken
    exact on.woken (signalMove_move _ _) id (Nat.le_refl _) rfl
  case failedSave =>
    have on := goes .failedFinish MoveAt.noConfusion (fun _ => failed rfl) (fun _ => rfl)
    rw [signalSave_eq] at taken
    cases taken
    exact on.woken (signalSave_move _ _) id (Nat.le_refl _) rfl
  case failedFinish =>
    have on := goes .returned MoveAt.noConfusion Bool.noConfusion (fun _ => rfl)
    rw [signalFinish_eq] at taken
    cases taken
    exact on.woken (.inl rfl) id (Nat.le_refl _) rfl
  case placed moved size =>
    have on := goes (.placedNext moved size) MoveAt.noConfusion Bool.noConfusion (fun _ => rfl)
    rw [signalSave_eq] at taken
    cases taken
    exact on.woken (signalSave_move _ _) id (Nat.le_refl _) rfl
  case advancedMove =>
    have on := goes .advancedFinish MoveAt.noConfusion Bool.noConfusion Bool.noConfusion
    rw [signalMove_eq] at taken
    cases taken
    exact on.woken (signalMove_move _ _) id (Nat.le_refl _) rfl
  case advancedFinish =>
    have on := goes .idle MoveAt.noConfusion Bool.noConfusion Bool.noConfusion
    rw [signalFinish_eq] at taken
    cases taken
    exact on.woken (.inl rfl) id (Nat.le_refl _) rfl
  all_goals
    repeat' split at taken
    all_goals cases taken
    all_goals refine (goes _ ?_ ?_ ?_).woken (.inl rfl) id (Nat.le_refl _) rfl
    all_goals grind -ring -linarith [MoveAt.atBuffer, MoveAt.failing]

/-- The pages that the "move" thread has passed on. -/
def handled (threads : Threads env) : List Bytes :=
  if env.settings.doEncrypt then threads.coded else threads.passed

end Threads

namespace SaveEnv

variable (env : SaveEnv) (blocks : List (Bytes × Nat)) (emptied : Nat)

/-- The "move" thread is in the middle of a write buffer, `moved` bytes from its start, and has
passed on `count` pages. -/
structure InBuffer (moved size count : Nat) : Prop where
  slot : ∃ memory, blocks[emptied]? = some (memory, size)
  index : ∃ index, moved = env.page.bytes * index ∧ index ≤ covering env.page.bytes size ∧
    count = env.pagesBefore blocks emptied + index

/-- How many pages the "move" thread has passed on, depending on where it is. -/
def At (saveRet : Int) (count : Nat) : MoveAt → Prop
  | .idle | .idleGap | .idleWait | .check | .advancedMove | .advancedFinish =>
      count = env.pagesBefore blocks emptied
  | .saving moved size =>
      env.settings.doEncrypt = false ∧ env.InBuffer blocks emptied moved size count
  | .encrypting moved size => env.InBuffer blocks emptied moved size count ∧ moved < size
  | .room moved size | .roomGap moved size | .roomWait moved size | .placed moved size
  | .placedNext moved size => env.InBuffer blocks emptied moved size count
  | .returned => saveRet = 0 → count = env.pagesBefore blocks (emptied + 1)
  | .advance => count = env.pagesBefore blocks (emptied + 1)
  | .failed _ | .failedMove | .failedSave | .failedFinish | .done => True

variable {env blocks emptied} {count moved size : Nat}

theorem At.woken {place later : MoveAt} {saveRet : Int}
    (here : env.At blocks emptied saveRet count place) (move : place.Woken later) :
    env.At blocks emptied saveRet count later := by
  rcases move with rfl | ⟨rfl, rfl⟩ | ⟨moved, size, rfl, rfl⟩
  · exact here
  · exact here
  · exact here

/-- An error only makes it harder to go on. -/
theorem At.kept {place : MoveAt} {saveRet later : Int}
    (here : env.At blocks emptied saveRet count place) (kept : saveRet ≠ 0 → later ≠ 0) :
    env.At blocks emptied later count place := by
  cases place
  case returned => exact fun fresh => here (by_contra fun failed => kept failed fresh)
  all_goals exact here

theorem InBuffer.next {slot : Bytes × Nat} (inBuffer : env.InBuffer blocks emptied moved size count)
    (current : blocks[emptied]? = some slot) (more : moved < size) :
    (blocks.flatMap env.pagesIn).take (count + 1) =
        (blocks.flatMap env.pagesIn).take count ++ [env.pageAt slot.1 moved] ∧
      env.InBuffer blocks emptied (moved + env.page.bytes) size (count + 1) := by
  obtain ⟨⟨memory, here⟩, index, rfl, inside, rfl⟩ := inBuffer
  have before := (lt_covering env.page.bytes_pos).mpr more
  have same : (memory, size) = slot := Option.some.inj (here.symm.trans current)
  subst same
  refine ⟨?_, ⟨memory, here⟩, index + 1, (Nat.mul_succ _ _).symm, before, rfl⟩
  rw [List.take_add_one, pages_at here before]
  rfl

theorem InBuffer.finished (inBuffer : env.InBuffer blocks emptied moved size count)
    (done : ¬ moved < size) : count = env.pagesBefore blocks (emptied + 1) := by
  obtain ⟨⟨memory, here⟩, index, rfl, inside, rfl⟩ := inBuffer
  have all : ¬ index < covering env.page.bytes size := fun before =>
    done ((lt_covering env.page.bytes_pos).mp before)
  rw [pagesBefore_succ here]
  dsimp only
  omega

end SaveEnv

namespace Threads

variable {env : SaveEnv} {threads after : Threads env} {other : Bool}
  {blocks : List (Bytes × Nat)} {start : env.cipher.State} {count : Nat}

/-- The "move" thread has passed on the first `count` pages. -/
structure Handling (blocks : List (Bytes × Nat)) (start : env.cipher.State) (threads : Threads env)
    (count : Nat) : Prop where
  code : env.code start ((blocks.flatMap env.pagesIn).take count) =
    .ok (threads.handled, threads.state)
  place : env.At blocks threads.emptied threads.saveRet count threads.move

theorem Handling.woken (handling : threads.Handling blocks start count)
    (move : threads.move.Woken after.move) (kept : threads.saveRet ≠ 0 → after.saveRet ≠ 0)
    (emptied : after.emptied = threads.emptied) (handled : after.handled = threads.handled)
    (state : after.state = threads.state) : after.Handling blocks start count where
  code := by
    rw [handled, state]
    exact handling.code
  place := by
    rw [emptied]
    exact (handling.place.woken move).kept kept

/-- The write buffer at `move_end` is the one that is next. -/
theorem Filling.current (filling : threads.Filling blocks)
    (more : threads.emptied < threads.published) :
    blocks[threads.emptied]? = some (threads.slots threads.moveEnd) := by
  have flushed : threads.emptied < threads.flushed.length := by
    rw [filling.count]
    omega
  rw [← filling.laid, List.getElem?_append_left flushed, filling.stop]
  exact filling.held.get flushed

theorem Handling.check (handling : threads.Handling blocks start count)
    (filling : threads.Filling blocks) (emptying : threads.Emptying)
    (positive : ∀ slot ∈ blocks, 0 < slot.2) (place : threads.move = .check)
    (taken : threads.stepMove other = some after) : after.Handling blocks start count := by
  obtain ⟨code, here⟩ := handling
  rw [place] at here
  simp only [stepMove, place] at taken
  cases taken
  refine ⟨code, ?_⟩
  by_cases failed : threads.saveRet ≠ 0
  · rw [if_pos failed]
    exact trivial
  · have current := filling.current ((emptying.check place).resolve_right failed)
    have inBuffer :
        env.InBuffer blocks threads.emptied 0 (threads.slots threads.moveEnd).2 count :=
      ⟨⟨_, current⟩, 0, rfl, Nat.zero_le _, here⟩
    rw [if_neg failed]
    by_cases encrypts : env.settings.doEncrypt = true
    · rw [if_pos encrypts]
      exact ⟨inBuffer, positive _ (List.mem_of_getElem? current)⟩
    · rw [if_neg encrypts]
      exact ⟨by simpa using encrypts, inBuffer⟩

theorem Handling.saving (handling : threads.Handling blocks start count)
    (filling : threads.Filling blocks) (emptying : threads.Emptying) {moved size : Nat}
    (place : threads.move = .saving moved size) (taken : threads.stepMove other = some after) :
    ∃ count, after.Handling blocks start count := by
  obtain ⟨code, here⟩ := handling
  rw [place] at here
  obtain ⟨plain, inBuffer⟩ := here
  simp only [stepMove, place] at taken
  split at taken
  · next more =>
    cases taken
    have current := filling.current (emptying.buffered (by rw [place]; rfl))
    obtain ⟨next, further⟩ := inBuffer.next current more
    refine ⟨count + 1, ?_, ?_⟩
    · rw [next]
      simp only [SaveEnv.code, handled, plain, Bool.false_eq_true, ↓reduceIte, Except.ok.injEq,
        Prod.mk.injEq] at code ⊢
      exact ⟨by rw [code.1], code.2⟩
    · by_cases failed : env.outcome threads.passed.length ≠ 0
      · simp only [if_pos failed]
        exact trivial
      · simp only [if_neg failed]
        exact ⟨plain, further⟩
  · next done =>
    cases taken
    exact ⟨count, code, fun _ => inBuffer.finished done⟩

theorem Handling.encrypting (handling : threads.Handling blocks start count)
    (filling : threads.Filling blocks) (emptying : threads.Emptying) (sane : threads.MoveSane)
    {moved size : Nat} (place : threads.move = .encrypting moved size)
    (taken : threads.stepMove other = some after) : ∃ count, after.Handling blocks start count := by
  obtain ⟨code, here⟩ := handling
  rw [place] at here
  obtain ⟨inBuffer, more⟩ := here
  have current := filling.current (emptying.buffered (by rw [place]; rfl))
  obtain ⟨next, further⟩ := inBuffer.next current more
  simp only [stepMove, place] at taken
  split at taken
  · cases taken
    exact ⟨count, code, trivial⟩
  · next page state answer =>
    cases taken
    refine ⟨count + 1, ?_, further⟩
    have encrypts : env.settings.doEncrypt = true := by
      by_contra without
      have plain := sane.unencrypted (by simpa using without)
      rw [place] at plain
      cases plain
    rw [next]
    simp only [SaveEnv.code, handled, encrypts, ↓reduceIte] at code ⊢
    apply SaveEnv.encryptPages_append code
    rw [PageCipher.encryptPages, answer]
    rfl

/-- Behind a page the "move" thread goes on with the buffer, unless all of it is placed or an
error is told. -/
theorem Handling.placedNext (handling : threads.Handling blocks start count) {moved size : Nat}
    (place : threads.move = .placedNext moved size) (taken : threads.stepMove other = some after) :
    after.Handling blocks start count := by
  obtain ⟨code, here⟩ := handling
  rw [place] at here
  simp only [stepMove, place] at taken
  cases taken
  refine ⟨code, ?_⟩
  by_cases more : moved < size ∧ threads.saveRet = 0
  · rw [if_pos more]
    exact ⟨here, more.1⟩
  · rw [if_neg more]
    exact fun fresh => here.finished fun short => more ⟨short, fresh⟩

/-- Behind the buffer the "move" thread moves on to the next one, or gives up. -/
theorem Handling.returned (handling : threads.Handling blocks start count)
    (place : threads.move = .returned) (taken : threads.stepMove other = some after) :
    after.Handling blocks start count := by
  obtain ⟨code, here⟩ := handling
  rw [place] at here
  simp only [stepMove, place] at taken
  cases taken
  refine ⟨code, ?_⟩
  by_cases failed : threads.saveRet ≠ 0
  · rw [if_pos failed]
    exact trivial
  · rw [if_neg failed]
    exact here (by simpa using failed)

theorem Handling.signal (handling : threads.Handling blocks start count)
    (emptying : threads.Emptying)
    (place : threads.move = .failedMove ∨ threads.move = .failedSave ∨
      threads.move = .failedFinish ∨ (∃ moved size, threads.move = .placed moved size) ∨
      threads.move = .advancedMove ∨ threads.move = .advancedFinish)
    (taken : threads.stepMove other = some after) : after.Handling blocks start count := by
  obtain ⟨code, here⟩ := handling
  rcases place with place | place | place | ⟨moved, size, place⟩ | place | place <;>
    rw [place] at here <;> simp only [stepMove, place] at taken
  · have on : Handling blocks start { threads with
        move := if env.settings.doEncrypt then .failedSave else .failedFinish } count :=
      ⟨code, by dsimp only; split <;> exact trivial⟩
    rw [signalMove_eq] at taken
    cases taken
    exact on.woken (signalMove_move _ _) id rfl rfl rfl
  · have on : Handling blocks start { threads with move := .failedFinish } count := ⟨code, trivial⟩
    rw [signalSave_eq] at taken
    cases taken
    exact on.woken (signalSave_move _ _) id rfl rfl rfl
  · rw [signalFinish_eq] at taken
    cases taken
    exact ⟨code, fun fresh => absurd fresh (emptying.failing (by rw [place]; rfl))⟩
  · have on : Handling blocks start { threads with move := .placedNext moved size } count :=
      ⟨code, here⟩
    rw [signalSave_eq] at taken
    cases taken
    exact on.woken (signalSave_move _ _) id rfl rfl rfl
  · have on : Handling blocks start { threads with move := .advancedFinish } count := ⟨code, here⟩
    rw [signalMove_eq] at taken
    cases taken
    exact on.woken (signalMove_move _ _) id rfl rfl rfl
  · rw [signalFinish_eq] at taken
    cases taken
    exact ⟨code, here⟩

theorem Handling.move (handling : threads.Handling blocks start count)
    (filling : threads.Filling blocks) (emptying : threads.Emptying) (sane : threads.MoveSane)
    (positive : ∀ slot ∈ blocks, 0 < slot.2) (taken : threads.stepMove other = some after) :
    ∃ count, after.Handling blocks start count := by
  cases place : threads.move
  case check => exact ⟨count, handling.check filling emptying positive place taken⟩
  case saving moved size => exact handling.saving filling emptying place taken
  case encrypting moved size => exact handling.encrypting filling emptying sane place taken
  case placedNext moved size => exact ⟨count, handling.placedNext place taken⟩
  case returned => exact ⟨count, handling.returned place taken⟩
  case failedMove => exact ⟨count, handling.signal emptying (by simp [place]) taken⟩
  case failedSave => exact ⟨count, handling.signal emptying (by simp [place]) taken⟩
  case failedFinish => exact ⟨count, handling.signal emptying (by simp [place]) taken⟩
  case placed moved size => exact ⟨count, handling.signal emptying (by simp [place]) taken⟩
  case advancedMove => exact ⟨count, handling.signal emptying (by simp [place]) taken⟩
  case advancedFinish => exact ⟨count, handling.signal emptying (by simp [place]) taken⟩
  all_goals
    obtain ⟨code, here⟩ := handling
    rw [place] at here
    simp only [stepMove, place] at taken
    repeat' split at taken
    all_goals cases taken
    all_goals exact ⟨count, code, by first | exact trivial | exact here⟩

theorem Handling.main (handling : threads.Handling blocks start count)
    (taken : threads.stepMain other = some after) : after.Handling blocks start count := by
  have leaves := stepMain_leaves taken
  apply handling.woken leaves.move (stepMain_kept taken) leaves.emptied _ leaves.state
  unfold handled
  rw [leaves.coded, leaves.passed]

theorem Handling.save (handling : threads.Handling blocks start count) (sane : threads.SaveSane)
    (taken : threads.stepSave other = some after) : after.Handling blocks start count := by
  have leaves := stepSave_leaves taken
  have encrypts : env.settings.doEncrypt = true := by
    by_contra without
    rw [stepSave, (sane.unencrypted (by simpa using without)).1] at taken
    cases taken
  apply handling.woken leaves.move (stepSave_kept taken) leaves.emptied _ leaves.state
  unfold handled
  rw [if_pos encrypts, if_pos encrypts, leaves.coded]

end Threads

end Suspend
