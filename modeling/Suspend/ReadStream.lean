import Suspend.ReadImage

set_option autoImplicit false

namespace Suspend

open Foundation.Memory

namespace ReadEnv

variable (env : ReadEnv)

/-- The page that the reader stands at, decrypted, and where the reader stands then. -/
def nextPage (reader : SwapReader Bytes) (state : env.cipher.State) :
    Option (Bytes × SwapReader Bytes × env.cipher.State) :=
  if reader.curOffset = 0 ∨ reader.fd.transfer.1 = false then none
  else
    let coded := env.asBytes (reader.fd.content (.page reader.curOffset))
    let next := env.advance { reader with fd := reader.fd.transfer.2 }
    if env.settings.doDecrypt then
      match env.cipher.decrypt state coded with
      | .error _ => none
      | .ok (src, later) => some (env.fit src, next, later)
    else some (coded, next, state)

variable {env}

theorem findNextImagePage_outcomes (reader : SwapReader Bytes) :
    (SwapReader.findNextImagePage env.page env.other reader).fd.outcomes.length ≤
      reader.fd.outcomes.length := by
  have fewer (fd : Device Bytes) : fd.transfer.2.outcomes.length ≤ fd.outcomes.length := by
    unfold Device.transfer
    split
    · exact Nat.le_refl _
    · next outcomes =>
      rw [outcomes]
      exact Nat.le_succ _
  have read (fd : Device Bytes) (buffer : Cell Bytes) (offset : Int) :
      (fd.readPage buffer offset).2.2.outcomes.length ≤ fd.outcomes.length := by
    unfold Device.readPage
    split
    · exact Nat.le_refl _
    · split <;> exact fewer fd
  have loaded (reader : SwapReader Bytes) :
      (SwapReader.loadExtentsPage env.page env.other reader).2.fd.outcomes.length ≤
        reader.fd.outcomes.length := by
    unfold SwapReader.loadExtentsPage
    dsimp only
    split <;> exact read ..
  unfold SwapReader.findNextImagePage
  dsimp only
  split
  · exact Nat.le_refl _
  · split
    · exact Nat.le_refl _
    · split <;> exact loaded _

/-- Every page takes a transfer. -/
theorem nextPage_outcomes {reader next : SwapReader Bytes} {state later : env.cipher.State}
    {src : Bytes} (found : env.nextPage reader state = some (src, next, later)) :
    next.fd.outcomes.length < reader.fd.outcomes.length := by
  have advanced : ∀ transferred : reader.fd.transfer.1 = true,
      (env.advance { reader with fd := reader.fd.transfer.2 }).fd.outcomes.length <
        reader.fd.outcomes.length := by
    intro transferred
    apply Nat.lt_of_le_of_lt (findNextImagePage_outcomes _)
    dsimp only
    unfold Device.transfer at transferred ⊢
    split
    · next none =>
      rw [none] at transferred
      cases transferred
    · next outcomes =>
      rw [outcomes]
      exact Nat.lt_succ_self _
  unfold nextPage at found
  split at found
  · cases found
  · next some =>
    have transferred : reader.fd.transfer.1 = true := by
      simpa using (not_or.mp some).2
    dsimp only at found
    split at found
    · split at found
      · cases found
      · cases found
        exact advanced transferred
    · cases found
      exact advanced transferred

variable (env) in
/-- The pages ahead of the reader, up to the first one that cannot be loaded, each with its swap
location. -/
def pagesAhead (reader : SwapReader Bytes) (state : env.cipher.State) : List (Int × Bytes) :=
  match found : env.nextPage reader state with
  | none => []
  | some (src, next, later) =>
      have := nextPage_outcomes found
      (reader.curOffset, src) :: pagesAhead next later
termination_by reader.fd.outcomes.length

theorem advance_totalSize (reader : SwapReader Bytes) :
    (env.advance reader).totalSize = reader.totalSize - env.page.bytes := by
  have loaded (reader : SwapReader Bytes) :
      (SwapReader.loadExtentsPage env.page env.other reader).2.totalSize = reader.totalSize := by
    unfold SwapReader.loadExtentsPage
    dsimp only
    split <;> rfl
  unfold advance SwapReader.findNextImagePage
  dsimp only
  split
  · rfl
  · split
    · rfl
    · split <;> exact loaded _

/-- Pages have been loaded and nothing else has happened. -/
structure Consumed (before after : ImageReader env.cipher) (pages : List (Int × Bytes)) : Prop where
  consumed : after.consumed = before.consumed ++ pages.map Prod.fst
  totalSize : after.totalSize = before.totalSize - env.page.bytes * pages.length
  buffer : after.buffer = before.buffer
  ctx : after.ctx = before.ctx

variable (env) in
/-- The pages ahead of an image reader. -/
def ahead (handle : ImageReader env.cipher) : List (Int × Bytes) :=
  env.pagesAhead handle.toSwapReader handle.state

theorem Consumed.refl (handle : ImageReader env.cipher) : Consumed handle handle [] :=
  ⟨(List.append_nil _).symm, by simp, rfl, rfl⟩

theorem Consumed.trans {before middle after : ImageReader env.cipher}
    {pages later : List (Int × Bytes)} (first : Consumed before middle pages)
    (second : Consumed middle after later) : Consumed before after (pages ++ later) := by
  refine ⟨?_, ?_, second.buffer.trans first.buffer, second.ctx.trans first.ctx⟩
  · rw [second.consumed, first.consumed, List.map_append, List.append_assoc]
  · rw [second.totalSize, first.totalSize, List.length_append]
    push_cast
    rw [Int.mul_add]
    omega

variable {handle : ImageReader env.cipher}

theorem loadAndDecryptPage_none (dst : Nat) (none : env.ahead handle = []) :
    ∃ error next, env.loadAndDecryptPage dst handle = (.error error, next) ∧
      next.consumed = handle.consumed := by
  unfold ahead at none
  rw [pagesAhead] at none
  split at none
  · next found =>
    unfold nextPage at found
    unfold loadAndDecryptPage
    dsimp only
    by_cases nowhere : handle.curOffset = 0
    · rw [if_pos nowhere]
      exact ⟨_, _, rfl, rfl⟩
    · rw [if_neg nowhere]
      unfold Device.readPage
      rw [if_neg nowhere]
      by_cases read : handle.fd.transfer.1 = true
      · simp only [nowhere, read, Bool.true_eq_false, or_self, ↓reduceIte] at found
        simp only [read, ↓reduceIte, ne_eq, not_true_eq_false]
        by_cases decrypts : env.settings.doDecrypt = true
        · rw [if_pos decrypts] at found ⊢
          cases decrypted : env.cipher.decrypt handle.state
              (env.asBytes (handle.fd.content (.page handle.curOffset))) with
          | error _ => exact ⟨_, _, rfl, rfl⟩
          | ok _ =>
            rw [decrypted] at found
            cases found
        · rw [if_neg decrypts] at found
          cases found
      · simp only [read]
        exact ⟨_, _, rfl, rfl⟩
  · cases none

theorem loadAndDecryptPage_some (dst : Nat) {loc : Int} {src : Bytes}
    {rest : List (Int × Bytes)} (some : env.ahead handle = (loc, src) :: rest) :
    ∃ next, env.loadAndDecryptPage dst handle = (.ok src, next) ∧ env.ahead next = rest ∧
      Consumed handle next [(loc, src)] := by
  unfold ahead at some
  rw [pagesAhead] at some
  split at some
  · cases some
  · next found =>
    rw [List.cons.injEq, Prod.mk.injEq] at some
    obtain ⟨⟨rfl, rfl⟩, rfl⟩ := some
    unfold nextPage at found
    split at found
    · cases found
    · next readable =>
      obtain ⟨somewhere, transferred⟩ := not_or.mp readable
      have read : handle.fd.transfer.1 = true := by simpa using transferred
      unfold loadAndDecryptPage Device.readPage
      dsimp only at found ⊢
      simp only [somewhere, read, ↓reduceIte, ne_eq, not_true_eq_false]
      by_cases decrypts : env.settings.doDecrypt = true
      · rw [if_pos decrypts] at found ⊢
        cases decrypted : env.cipher.decrypt handle.state
            (env.asBytes (handle.fd.content (.page handle.curOffset))) with
        | error _ =>
          rw [decrypted] at found
          cases found
        | ok _ =>
          rw [decrypted] at found
          cases found
          exact ⟨_, rfl, rfl, rfl, by simp [advance_totalSize], rfl, rfl⟩
      · rw [if_neg decrypts] at found ⊢
        cases found
        exact ⟨_, rfl, rfl, rfl, by simp [advance_totalSize], rfl, rfl⟩

/-- The loop over the rest of a block takes the pages that cover it. -/
theorem loadBlock_ahead (block : Bytes) (count : Nat) (handle : ImageReader env.cipher)
    (word : 8 ≤ block.length) {pages rest : List (Int × Bytes)}
    (ahead : env.ahead handle = pages ++ rest)
    (covers : count + pages.length =
      max count (covering env.page.bytes ((wordValue (block.take 8) + 8) % 2 ^ 64))) :
    ∃ next, env.loadBlock block (env.page.bytes * count) handle =
        (.ok (block ++ (pages.map Prod.snd).flatten), next) ∧
      env.ahead next = rest ∧ Consumed handle next pages := by
  have positive := env.page.bytes_pos
  induction pages generalizing block count handle with
  | nil =>
      have done : ¬ env.page.bytes * count < (wordValue (block.take 8) + 8) % 2 ^ 64 := by
        rw [← lt_covering positive]
        rw [List.length_nil] at covers
        omega
      rw [loadBlock, if_neg done]
      exact ⟨handle, by simp, ahead, .refl handle⟩
  | cons page pages ih =>
      have more : env.page.bytes * count < (wordValue (block.take 8) + 8) % 2 ^ 64 := by
        rw [← lt_covering positive]
        rw [List.length_cons] at covers
        omega
      obtain ⟨next, answer, left, taken⟩ :=
        loadAndDecryptPage_some (env.page.bytes * count) (List.cons_append ▸ ahead)
      obtain ⟨last, loaded, leftLast, takenLast⟩ := ih (block ++ page.2) (count + 1) next
        (by rw [List.length_append]; omega) left
        (by
          rw [List.take_append_of_le_length word]
          rw [List.length_cons] at covers
          omega)
      refine ⟨last, ?_, leftLast, taken.trans takenLast⟩
      rw [loadBlock, if_pos more, answer]
      dsimp only
      rw [Nat.mul_succ] at loaded
      rw [loaded, List.append_assoc]
      rfl

/-- It fails when they are not all there. -/
theorem loadBlock_short (block : Bytes) (count : Nat) (handle : ImageReader env.cipher)
    (word : 8 ≤ block.length)
    (short : count + (env.ahead handle).length <
      covering env.page.bytes ((wordValue (block.take 8) + 8) % 2 ^ 64)) :
    ∃ error next, env.loadBlock block (env.page.bytes * count) handle = (.error error, next) ∧
      next.consumed = handle.consumed ++ (env.ahead handle).map Prod.fst := by
  have positive := env.page.bytes_pos
  generalize ahead : env.ahead handle = pages at *
  induction pages generalizing block count handle with
  | nil =>
      have more : env.page.bytes * count < (wordValue (block.take 8) + 8) % 2 ^ 64 := by
        rw [← lt_covering positive]
        rw [List.length_nil] at short
        omega
      obtain ⟨error, next, answer, same⟩ :=
        loadAndDecryptPage_none (env.page.bytes * count) ahead
      refine ⟨error, next, ?_, by rw [same]; simp⟩
      rw [loadBlock, if_pos more, answer]
  | cons page pages ih =>
      have more : env.page.bytes * count < (wordValue (block.take 8) + 8) % 2 ^ 64 := by
        rw [← lt_covering positive]
        omega
      obtain ⟨next, answer, left, taken⟩ :=
        loadAndDecryptPage_some (env.page.bytes * count) ahead
      obtain ⟨error, last, failed, consumed⟩ := ih (block ++ page.2) (count + 1) next
        (by rw [List.length_append]; omega) left
        (by
          rw [List.take_append_of_le_length word]
          rw [List.length_cons] at short
          omega)
      refine ⟨error, last, ?_, ?_⟩
      · rw [loadBlock, if_pos more, answer]
        dsimp only
        rw [Nat.mul_succ] at failed
        rw [failed]
      · rw [consumed, taken.consumed, List.map_cons, List.append_assoc]
        rfl

/-- So many pages a buffer is made of when the image is not compressed. -/
def plainCount (env : ReadEnv) (totalSize : Int) : Nat :=
  min 32 (covering env.page.bytes totalSize.toNat)

theorem plain_more {count : Nat} {totalSize : Int} :
    (env.page.bytes * count < env.page.bufferSize ∧
      0 < totalSize - env.page.bytes * (count : Nat)) ↔ count < env.plainCount totalSize := by
  have positive := env.page.bytes_pos
  have buffer : env.page.bytes * count < env.page.bufferSize ↔ count < 32 :=
    Nat.mul_lt_mul_left positive
  unfold plainCount
  rw [buffer, lt_min_iff, lt_covering positive]
  omega

theorem loadPages_ahead (data : Bytes) (count : Nat) (handle : ImageReader env.cipher)
    {pages rest : List (Int × Bytes)} {totalSize : Int}
    (ahead : env.ahead handle = pages ++ rest)
    (total : handle.totalSize = totalSize - env.page.bytes * (count : Nat))
    (covers : count + pages.length = max count (env.plainCount totalSize)) :
    ∃ next, env.loadPages data (env.page.bytes * count) handle =
        (.ok (data ++ (pages.map Prod.snd).flatten), next) ∧
      env.ahead next = rest ∧ Consumed handle next pages := by
  induction pages generalizing data count handle with
  | nil =>
      have done : ¬ (env.page.bytes * count < env.page.bufferSize ∧ 0 < handle.totalSize) := by
        rw [total, plain_more]
        rw [List.length_nil] at covers
        omega
      rw [loadPages, if_neg done]
      exact ⟨handle, by simp, ahead, .refl handle⟩
  | cons page pages ih =>
      have more : env.page.bytes * count < env.page.bufferSize ∧ 0 < handle.totalSize := by
        rw [total, plain_more]
        rw [List.length_cons] at covers
        omega
      obtain ⟨next, answer, left, taken⟩ :=
        loadAndDecryptPage_some (env.page.bytes * count) (List.cons_append ▸ ahead)
      obtain ⟨last, loaded, leftLast, takenLast⟩ := ih (data ++ page.2) (count + 1) next left
        (by
          rw [taken.totalSize, total, List.length_singleton]
          push_cast
          rw [Int.mul_add]
          omega)
        (by rw [List.length_cons] at covers; omega)
      refine ⟨last, ?_, leftLast, taken.trans takenLast⟩
      rw [loadPages, if_pos more, answer]
      dsimp only
      rw [Nat.mul_succ] at loaded
      rw [loaded, List.append_assoc]
      rfl

theorem loadPages_short (data : Bytes) (count : Nat) (handle : ImageReader env.cipher)
    {totalSize : Int} (total : handle.totalSize = totalSize - env.page.bytes * (count : Nat))
    (short : count + (env.ahead handle).length < env.plainCount totalSize) :
    ∃ error next, env.loadPages data (env.page.bytes * count) handle = (.error error, next) ∧
      next.consumed = handle.consumed ++ (env.ahead handle).map Prod.fst := by
  generalize ahead : env.ahead handle = pages at *
  induction pages generalizing data count handle with
  | nil =>
      have more : env.page.bytes * count < env.page.bufferSize ∧ 0 < handle.totalSize := by
        rw [total, plain_more]
        rwa [List.length_nil] at short
      obtain ⟨error, next, answer, same⟩ :=
        loadAndDecryptPage_none (env.page.bytes * count) ahead
      refine ⟨error, next, ?_, by rw [same]; simp⟩
      rw [loadPages, if_pos more, answer]
  | cons page pages ih =>
      have more : env.page.bytes * count < env.page.bufferSize ∧ 0 < handle.totalSize := by
        rw [total, plain_more]
        omega
      obtain ⟨next, answer, left, taken⟩ :=
        loadAndDecryptPage_some (env.page.bytes * count) ahead
      obtain ⟨error, last, failed, consumed⟩ := ih (data ++ page.2) (count + 1) next
        (by
          rw [taken.totalSize, total, List.length_singleton]
          push_cast
          rw [Int.mul_add]
          omega)
        left (by rw [List.length_cons] at short; omega)
      refine ⟨error, last, ?_, ?_⟩
      · rw [loadPages, if_pos more, answer]
        dsimp only
        rw [Nat.mul_succ] at failed
        rw [failed]
      · rw [consumed, taken.consumed, List.map_cons, List.append_assoc]
        rfl

/-- So many pages `load_buffer` wants, given those that are ahead. -/
def wanted (env : ReadEnv) (totalSize : Int) (srcs : List Bytes) : Nat :=
  if env.settings.doDecompress then
    match srcs with
    | [] => 1
    | first :: _ =>
        max 1 (covering env.page.bytes ((wordValue (first.take 8) + 8) % 2 ^ 64))
  else env.plainCount totalSize

/-- What `load_buffer` makes of the pages it wanted: nothing if the block is broken. -/
def made (env : ReadEnv) (srcs : List Bytes) : Bytes :=
  if env.settings.doDecompress then
    (env.lzo.decompress ((srcs.flatten.drop 8).take (wordValue (srcs.flatten.take 8)))).getD []
  else srcs.flatten

/-- A buffer has been loaded from the first `count` pages ahead. -/
structure Buffered (env : ReadEnv) (before after : ImageReader env.cipher) (count : Nat)
    (data : Bytes) : Prop where
  ahead : env.ahead after = (env.ahead before).drop count
  totalSize : after.totalSize = before.totalSize - env.page.bytes * count
  buffer : after.buffer = overwrite data before.buffer
  ctx : after.ctx = if env.settings.verifyChecksum then before.ctx ++ [data] else before.ctx

theorem Consumed.buffered {before after : ImageReader env.cipher} {pages : List (Int × Bytes)}
    {rest : List (Int × Bytes)} (taken : Consumed before after pages)
    (front : env.ahead before = pages ++ rest) (left : env.ahead after = rest) (data : Bytes) :
    Buffered env before (env.loaded data after).2 pages.length data := by
  refine ⟨?_, taken.totalSize, ?_, ?_⟩
  · rw [front, List.drop_left]
    exact left
  · rw [← taken.buffer]
    rfl
  · rw [← taken.ctx]
    rfl

theorem loadBuffer_compressed (compressed : env.settings.doDecompress = true)
    {pages rest : List (Int × Bytes)} (ahead : env.ahead handle = pages ++ rest)
    (count : pages.length = env.wanted handle.totalSize ((pages ++ rest).map Prod.snd)) :
    ∃ next, env.loadBuffer handle = ((env.made (pages.map Prod.snd)).length, next) ∧
      next.consumed = handle.consumed ++ pages.map Prod.fst ∧
      (env.made (pages.map Prod.snd) ≠ [] →
        Buffered env handle next pages.length (env.made (pages.map Prod.snd))) := by
  have large := env.page.bytes_large
  cases pages with
  | nil =>
      have positive : 0 < env.wanted handle.totalSize (([] ++ rest).map Prod.snd) := by
        unfold wanted
        rw [if_pos compressed]
        split <;> omega
      rw [← count] at positive
      exact absurd positive (Nat.lt_irrefl 0)
  | cons first others =>
      obtain ⟨next, answer, left, taken⟩ := loadAndDecryptPage_some 0 (List.cons_append ▸ ahead)
      have width := loadAndDecryptPage_length (congrArg Prod.fst answer)
      have covers : 1 + others.length =
          max 1 (covering env.page.bytes ((wordValue (first.2.take 8) + 8) % 2 ^ 64)) := by
        unfold wanted at count
        rw [if_pos compressed] at count
        rw [Nat.add_comm]
        exact count
      obtain ⟨last, loaded, leftLast, takenLast⟩ :=
        loadBlock_ahead first.2 1 next (by omega) left covers
      rw [Nat.mul_one] at loaded
      have all := taken.trans takenLast
      have block : first.2 ++ (others.map Prod.snd).flatten =
          ((first :: others).map Prod.snd).flatten := rfl
      rw [block] at loaded
      unfold made
      rw [if_pos compressed, loadBuffer, if_pos compressed]
      dsimp only
      rw [answer]
      dsimp only
      rw [loaded]
      dsimp only
      unfold unpack
      split
      · next broken =>
        rw [broken]
        exact ⟨last, rfl, all.consumed, fun nonempty => absurd rfl nonempty⟩
      · next data unpacked =>
        rw [unpacked]
        exact ⟨_, rfl, all.consumed, fun _ => all.buffered ahead leftLast data⟩

theorem loadBuffer_plain (plain : env.settings.doDecompress = false)
    {pages rest : List (Int × Bytes)} (ahead : env.ahead handle = pages ++ rest)
    (count : pages.length = env.wanted handle.totalSize ((pages ++ rest).map Prod.snd)) :
    ∃ next, env.loadBuffer handle = ((env.made (pages.map Prod.snd)).length, next) ∧
      next.consumed = handle.consumed ++ pages.map Prod.fst ∧
      (env.made (pages.map Prod.snd) ≠ [] →
        Buffered env handle next pages.length (env.made (pages.map Prod.snd))) := by
  have covers : pages.length = env.plainCount handle.totalSize := by
    simpa [wanted, plain] using count
  obtain ⟨last, loaded, left, taken⟩ := loadPages_ahead [] 0 handle ahead
    (show handle.totalSize = handle.totalSize - env.page.bytes * (0 : Nat) by simp)
    (by rw [Nat.zero_add, covers, Nat.max_eq_right (Nat.zero_le _)])
  rw [Nat.mul_zero, List.nil_append] at loaded
  have data : env.made (pages.map Prod.snd) = (pages.map Prod.snd).flatten := by
    simp [made, plain]
  rw [data, loadBuffer, if_neg (by simp [plain])]
  dsimp only
  rw [loaded]
  exact ⟨_, rfl, taken.consumed, fun _ => taken.buffered ahead left _⟩

theorem loadBuffer_ahead {pages rest : List (Int × Bytes)}
    (ahead : env.ahead handle = pages ++ rest)
    (count : pages.length = env.wanted handle.totalSize ((pages ++ rest).map Prod.snd)) :
    ∃ next, env.loadBuffer handle = ((env.made (pages.map Prod.snd)).length, next) ∧
      next.consumed = handle.consumed ++ pages.map Prod.fst ∧
      (env.made (pages.map Prod.snd) ≠ [] →
        Buffered env handle next pages.length (env.made (pages.map Prod.snd))) := by
  cases mode : env.settings.doDecompress with
  | true => exact loadBuffer_compressed mode ahead count
  | false => exact loadBuffer_plain mode ahead count

/-- `load_buffer` takes what there is and fails if that is not enough. -/
theorem loadBuffer_short
    (short : (env.ahead handle).length <
      env.wanted handle.totalSize ((env.ahead handle).map Prod.snd)) :
    ∃ next, env.loadBuffer handle = (0, next) ∧
      next.consumed = handle.consumed ++ (env.ahead handle).map Prod.fst := by
  have large := env.page.bytes_large
  unfold wanted at short
  unfold loadBuffer
  cases mode : env.settings.doDecompress with
  | true =>
      rw [if_pos mode] at short
      rw [if_pos rfl]
      dsimp only
      cases pages : env.ahead handle with
      | nil =>
          obtain ⟨error, next, answer, same⟩ := loadAndDecryptPage_none 0 pages
          rw [answer]
          exact ⟨next, rfl, by rw [same]; simp⟩
      | cons first others =>
          obtain ⟨next, answer, left, taken⟩ := loadAndDecryptPage_some 0 pages
          have width := loadAndDecryptPage_length (congrArg Prod.fst answer)
          rw [pages] at short
          change others.length + 1 <
            max 1 (covering env.page.bytes ((wordValue (first.2.take 8) + 8) % 2 ^ 64)) at short
          obtain ⟨error, last, failed, consumed⟩ := loadBlock_short first.2 1 next (by omega)
            (by rw [left]; omega)
          rw [Nat.mul_one] at failed
          rw [answer]
          dsimp only
          rw [failed]
          refine ⟨last, rfl, ?_⟩
          rw [consumed, taken.consumed, left, List.append_assoc]
          rfl
  | false =>
      rw [if_neg (by simp [mode])] at short
      rw [if_neg Bool.false_ne_true]
      dsimp only
      obtain ⟨error, next, failed, consumed⟩ := loadPages_short [] 0 handle
        (show handle.totalSize = handle.totalSize - env.page.bytes * (0 : Nat) by simp)
        (by rwa [Nat.zero_add])
      rw [Nat.mul_zero] at failed
      rw [failed]
      exact ⟨next, rfl, consumed⟩

end ReadEnv

end Suspend
