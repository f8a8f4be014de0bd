import Suspend.SaveImage

set_option autoImplicit false

namespace Suspend

open Foundation.Memory

/-- The encrypted pages up to the first one that cannot be encrypted. -/
def PageCipher.encryptUntil (cipher : PageCipher) : cipher.State → List Bytes → List Bytes
  | _, [] => []
  | state, src :: rest =>
      match cipher.encrypt state src with
      | .error _ => []
      | .ok (coded, next) => coded :: encryptUntil cipher next rest

namespace SaveEnv

/-- The pages as they go to the swap, as far as it gets. -/
def codeUntil (env : SaveEnv) (state : env.cipher.State) (srcs : List Bytes) : List Bytes :=
  if env.settings.doEncrypt then env.cipher.encryptUntil state srcs else srcs

variable {env : SaveEnv}

theorem encryptUntil_append {cipher : PageCipher} {state last : cipher.State}
    {srcs coded : List Bytes} (more : List Bytes)
    (encrypted : cipher.encryptPages state srcs = .ok (coded, last)) :
    cipher.encryptUntil state (srcs ++ more) = coded ++ cipher.encryptUntil last more := by
  induction srcs generalizing state coded with
  | nil =>
      cases encrypted
      rfl
  | cons src rest ih =>
      cases answer : cipher.encrypt state src with
      | error error => simp [PageCipher.encryptPages, answer] at encrypted
      | ok result =>
          cases tail : cipher.encryptPages result.2 rest with
          | error error => simp [PageCipher.encryptPages, answer, tail, Except.map] at encrypted
          | ok later =>
              simp only [PageCipher.encryptPages, answer, tail, Except.map, Except.ok.injEq,
                Prod.mk.injEq] at encrypted
              obtain ⟨rfl, rfl⟩ := encrypted
              rw [List.cons_append, PageCipher.encryptUntil, answer]
              dsimp only
              rw [ih tail]
              rfl

theorem codeUntil_append {state last : env.cipher.State} {srcs coded : List Bytes}
    (more : List Bytes) (encoded : env.code state srcs = .ok (coded, last)) :
    env.codeUntil state (srcs ++ more) = coded ++ env.codeUntil last more := by
  unfold code at encoded
  unfold codeUntil
  by_cases encrypts : env.settings.doEncrypt = true
  · rw [if_pos encrypts] at encoded ⊢
    rw [if_pos encrypts]
    exact encryptUntil_append more encoded
  · rw [if_neg encrypts] at encoded ⊢
    cases encoded
    rw [if_neg encrypts]

theorem codeUntil_nil (state : env.cipher.State) : env.codeUntil state [] = [] := by
  unfold codeUntil
  split <;> rfl

theorem codeUntil_all {state last : env.cipher.State} {srcs coded : List Bytes}
    (encoded : env.code state srcs = .ok (coded, last)) : env.codeUntil state srcs = coded := by
  have whole := codeUntil_append [] encoded
  rwa [List.append_nil, codeUntil_nil, List.append_nil] at whole

theorem codeUntil_error {state : env.cipher.State} {src : Bytes} {error : ErrorCode}
    (encrypts : env.settings.doEncrypt = true)
    (refused : env.cipher.encrypt state src = .error error) (rest : List Bytes) :
    env.codeUntil state (src :: rest) = [] := by
  rw [codeUntil, if_pos encrypts, PageCipher.encryptUntil, refused]

/-- What a part of the save has passed to `save_page`, whether it succeeds or not. -/
structure Passes (env : SaveEnv) (pipe : Pipe env.cipher) (srcs : List Bytes)
    (result : Int × Pipe env.cipher) : Prop where
  passed : result.2.passed = pipe.passed ++ env.codeUntil pipe.state srcs
  stopped : result.1 ≠ 0 → ∀ more,
    env.codeUntil pipe.state (srcs ++ more) = env.codeUntil pipe.state srcs

variable {pipe middle : Pipe env.cipher} {srcs more coded : List Bytes}
  {result : Int × Pipe env.cipher}

theorem Passes.cons (encoded : env.code pipe.state srcs = .ok (coded, middle.state))
    (passed : middle.passed = pipe.passed ++ coded) (later : env.Passes middle more result) :
    env.Passes pipe (srcs ++ more) result where
  passed := by
    rw [later.passed, passed, codeUntil_append more encoded, List.append_assoc]
  stopped failed rest := by
    rw [List.append_assoc, codeUntil_append _ encoded, codeUntil_append _ encoded,
      later.stopped failed]

theorem Passes.stops (passes : env.Passes pipe srcs result) (failed : result.1 ≠ 0)
    (more : List Bytes) : env.Passes pipe (srcs ++ more) result where
  passed := by
    rw [passes.passed, passes.stopped failed]
  stopped _ rest := by
    rw [List.append_assoc, passes.stopped failed, passes.stopped failed]

section Unhindered

variable (granted : ∀ count, env.outcome count = 0)
include granted

theorem encryptAndSavePage_refused {src : Bytes}
    (failed : (env.encryptAndSavePage pipe src).1 ≠ 0) :
    env.settings.doEncrypt = true ∧ (∃ error, env.cipher.encrypt pipe.state src = .error error) ∧
      (env.encryptAndSavePage pipe src).2 = pipe := by
  unfold encryptAndSavePage at failed ⊢
  by_cases encrypts : env.settings.doEncrypt = true
  · rw [if_pos encrypts] at failed ⊢
    cases answer : env.cipher.encrypt pipe.state src with
    | error error => exact ⟨encrypts, ⟨error, rfl⟩, rfl⟩
    | ok coded => simp [answer, savePage, granted] at failed
  · rw [if_neg encrypts] at failed
    simp [savePage, granted] at failed

theorem savePagesOf_passes (pipe : Pipe env.cipher) (src : Bytes) (size : Nat) :
    env.Passes pipe (slices env.page.bytes (covering env.page.bytes size) src)
      (env.savePagesOf pipe src size) := by
  have positive := env.page.bytes_pos
  fun_induction savePagesOf env pipe src size with
  | case1 pipe src size some saved failed =>
      obtain ⟨encrypts, ⟨error, refused⟩, same⟩ := encryptAndSavePage_refused granted failed
      rw [covering_step positive some, slices_succ]
      constructor
      · rw [codeUntil_error encrypts refused, List.append_nil]
        exact congrArg Pipe.passed same
      · intro _ more
        rw [List.cons_append, codeUntil_error encrypts refused, codeUntil_error encrypts refused]
  | case2 pipe src size some step done ih =>
      obtain ⟨coded, state, encoded, after⟩ :=
        encryptAndSavePage_success (show (env.encryptAndSavePage pipe _).1 = 0 by simpa using done)
      rw [covering_step positive some, slices_succ, ← List.singleton_append]
      apply Passes.cons _ _ ih
      · exact [coded]
      · rw [after]
        exact encoded
      · rw [after]
        rfl
  | case3 pipe src size none =>
      have empty : size = 0 := by omega
      rw [empty, covering_zero positive, slices_zero]
      constructor
      · rw [codeUntil_nil, List.append_nil]
      · intro failed
        exact absurd rfl failed

theorem flushBuffer_passes (nonempty : pipe.buffer ≠ []) :
    env.Passes pipe (env.pagesOf pipe.writeBuffer pipe.buffer) (env.flushBuffer pipe) := by
  rw [flushBuffer, if_neg nonempty]
  have passes := savePagesOf_passes granted
    { pipe with
      ctx := if env.settings.checksums then pipe.ctx ++ [pipe.buffer] else pipe.ctx
      writeBuffer := pipe.writeBuffer.map fun _ =>
        env.fill (pipe.writeBuffer.getD pipe.buffer) pipe.buffer }
    (env.fill (pipe.writeBuffer.getD pipe.buffer) pipe.buffer) (env.blockSize pipe.buffer)
  exact ⟨passes.passed, passes.stopped⟩

variable (undisturbed : ∀ nrPages, env.aborted nrPages = false)
include undisturbed

/-- The save loop and the flush behind it pass the buffers of what is already buffered and of the
rest of the image. -/
theorem saveLoop_passes {m nrPages : Nat} {image : List Bytes} {looped : Int × Pipe env.cipher}
    (filled : List Bytes) (full : ∀ src ∈ filled ++ image, src.length = env.page.bytes)
    (room : filled.length < 32) (buffered : pipe.buffer = filled.flatten)
    (ran : env.saveLoop m nrPages (image.map .page) pipe = looped) :
    env.Passes pipe (env.plainPages pipe.writeBuffer (buffersOf (filled ++ image)))
      (if looped.1 ≠ 0 then looped else env.flushBuffer looped.2) := by
  have positive := env.page.bytes_pos
  induction image generalizing nrPages filled pipe with
  | nil =>
      rw [List.append_nil] at full ⊢
      simp only [List.map_nil, saveLoop] at ran
      subst ran
      rw [if_neg (by simp)]
      by_cases empty : filled = []
      · subst empty
        rw [flushBuffer_empty (by simpa using buffered), buffersOf_nil, plainPages]
        refine ⟨?_, fun failed => absurd rfl failed⟩
        rw [codeUntil_nil, List.append_nil]
      · have some := List.length_pos_iff.mpr empty
        have nonempty : pipe.buffer ≠ [] := by
          rw [buffered, ← List.length_pos_iff, flatten_length full]
          exact Nat.mul_pos positive some
        rw [buffersOf, batches_single empty (by omega), List.map_singleton, plainPages, plainPages,
          List.append_nil, ← buffered]
        exact flushBuffer_passes granted nonempty
  | cons src rest ih =>
      have fullFilled : ∀ part ∈ filled ++ [src], part.length = env.page.bytes := by
        intro part member
        apply full part
        rw [List.append_cons]
        exact List.mem_append_left _ member
      have joined : pipe.buffer ++ src = (filled ++ [src]).flatten := by
        rw [buffered]
        simp
      have size := flatten_length fullFilled
      have calm : ¬ (nrPages % m = 0 ∧ env.aborted nrPages = true) := by simp [undisturbed]
      rw [List.length_append, List.length_singleton] at size
      rw [List.append_cons] at full ⊢
      simp only [List.map_cons, saveLoop, if_neg calm] at ran
      by_cases reached : env.page.bufferSize ≤ (pipe.buffer ++ src).length
      · rw [if_pos reached] at ran
        rw [joined, size, PageSize.bufferSize] at reached
        have count := Nat.le_of_mul_le_mul_left reached positive
        have nonempty : pipe.buffer ++ src ≠ [] := by
          rw [← List.length_pos_iff, joined, size]
          exact Nat.mul_pos positive (Nat.succ_pos _)
        rw [buffersOf, batches_append rest (by decide)
          (by rw [List.length_append, List.length_singleton]; omega), List.map_cons, ← joined,
          plainPages]
        by_cases failed : (env.flushBuffer { pipe with buffer := pipe.buffer ++ src }).1 ≠ 0
        · rw [if_pos failed] at ran
          subst ran
          rw [if_pos failed]
          have stops := (flushBuffer_passes granted nonempty).stops failed
            (env.plainPages (env.refilled pipe.writeBuffer (pipe.buffer ++ src)) (buffersOf rest))
          exact ⟨stops.passed, stops.stopped⟩
        · rw [if_neg failed] at ran
          obtain ⟨⟨⟨coded, encoded, -, passed, -⟩, -⟩, memory⟩ :=
            flushBuffer_success nonempty (by simpa using failed)
          rw [plainPages, plainPages, List.append_nil] at encoded
          have later := ih [] (fun part member => full part (List.mem_append_right _ member))
            (by simp) rfl ran
          dsimp only at later
          rw [memory, List.nil_append] at later
          have whole := Passes.cons encoded passed ⟨later.passed, later.stopped⟩
          exact ⟨whole.passed, whole.stopped⟩
      · rw [if_neg reached] at ran
        rw [joined, size, PageSize.bufferSize] at reached
        have few : filled.length + 1 < 32 := by
          by_contra many
          exact reached (Nat.mul_le_mul_left _ (by omega))
        have later := ih (filled ++ [src]) full
          (by rw [List.length_append, List.length_singleton]; exact few) joined ran
        exact ⟨later.passed, later.stopped⟩

theorem saveImage_passed (nrPages : Nat) {image : List Bytes}
    (full : ∀ src ∈ image, src.length = env.page.bytes) (empty : pipe.buffer = []) :
    (env.saveImage nrPages (image.map .page) pipe).2.passed =
      pipe.passed ++ env.codeUntil pipe.state
        (env.plainPages pipe.writeBuffer (buffersOf image)) :=
  (saveLoop_passes granted undisturbed [] (by simpa using full) (by simp) empty rfl).passed

end Unhindered

end SaveEnv

end Suspend
