import Suspend.ImageRoundTrip
import Suspend.ReadImage

set_option autoImplicit false

namespace Suspend

open Foundation.Memory

namespace ReadEnv

/-- The size of the buffer that pages are stored in: `read_buffer` if the image is compressed. -/
def room (env : ReadEnv) : Nat :=
  if env.settings.doDecompress then env.page.compressBufSize else env.page.bufferSize

/-- `load_image` has stayed inside its buffers. `find_next_image_page` looks at the current extent
and at most at the next one. -/
structure Inside (env : ReadEnv) (handle : ImageReader env.cipher) : Prop where
  stores : ∀ dst ∈ handle.asked, dst + env.page.bytes ≤ env.room
  walks : ∀ index ∈ handle.walked, index + 1 ≤ env.page.maxExtents
  current : handle.curExtent ≤ env.page.maxExtents

/-- So many pages can be loaded one behind the other. -/
def CanLoad (env : ReadEnv) : Nat → Nat → ImageReader env.cipher → Prop
  | 0, _, _ => True
  | count + 1, dst, handle =>
      match env.loadAndDecryptPage dst handle with
      | (.error _, _) => False
      | (.ok _, next) => CanLoad env count (dst + env.page.bytes) next

/-- The block that the reader stands at fits in `read_buffer`, or ends too early to leave it. -/
def Fits (env : ReadEnv) (handle : ImageReader env.cipher) : Prop :=
  env.settings.doDecompress = true →
  match env.loadAndDecryptPage 0 handle with
  | (.error _, _) => True
  | (.ok first, next) =>
      (wordValue (first.take 8) + 8) % 2 ^ 64 ≤ env.page.compressBufSize ∨
        ¬ env.CanLoad (env.page.compressBufSize / env.page.bytes - 1) env.page.bytes next

/-- Every block that `load_image` comes to fits. -/
def AllFit (env : ReadEnv) : Nat → Nat → env.Loading → Prop
  | 0, _, loading => loading.bufSize ≤ 0 → env.Fits loading.handle
  | left + 1, n, loading =>
      (loading.bufSize ≤ 0 → env.Fits loading.handle) ∧
        ((env.loadPage n loading).1 = 0 → AllFit env left (n + 1) (env.loadPage n loading).2)

variable {env : ReadEnv} {handle : ImageReader env.cipher}

/-- The last slot of the table ends it, and the current extent lies before it as long as there is
a page to read. -/
structure Placed (env : ReadEnv) (reader : SwapReader Bytes) : Prop where
  ended : reader.extents env.page.maxExtents = Extent.zero
  current : reader.curExtent ≤ env.page.maxExtents
  before : reader.curOffset ≠ 0 → reader.curExtent < env.page.maxExtents

theorem loadExtentsPage_placed (env : ReadEnv) (reader : SwapReader Bytes)
    (loaded : (SwapReader.loadExtentsPage env.page env.other reader).1 = 0) :
    env.Placed (SwapReader.loadExtentsPage env.page env.other reader).2 := by
  have positive := env.page.maxExtents_pos
  unfold SwapReader.loadExtentsPage at loaded ⊢
  dsimp only at loaded ⊢
  split at loaded
  · contradiction
  · next read =>
    rw [if_neg read]
    exact ⟨Function.update_self .., Nat.zero_le _, fun _ => positive⟩

theorem loadExtentsPage_failed (env : ReadEnv) (reader : SwapReader Bytes)
    (failed : (SwapReader.loadExtentsPage env.page env.other reader).1 ≠ 0) :
    (SwapReader.loadExtentsPage env.page env.other reader).2.extents = reader.extents ∧
      (SwapReader.loadExtentsPage env.page env.other reader).2.curExtent = reader.curExtent := by
  unfold SwapReader.loadExtentsPage at failed ⊢
  dsimp only at failed ⊢
  split at failed
  · next read =>
    rw [if_pos read]
    exact ⟨rfl, rfl⟩
  · contradiction

theorem Placed.advance {reader : SwapReader Bytes} (placed : env.Placed reader)
    (here : reader.curOffset ≠ 0) : env.Placed (env.advance reader) := by
  have inside := placed.before here
  unfold ReadEnv.advance SwapReader.findNextImagePage
  dsimp only
  split
  · exact ⟨placed.ended, placed.current, fun _ => inside⟩
  · split
    · next nonempty =>
      refine ⟨placed.ended, inside, fun _ => ?_⟩
      -- the last slot is empty
      apply Nat.lt_of_le_of_ne inside
      intro last
      rw [show reader.curExtent + 1 = env.page.maxExtents from last, placed.ended] at nonempty
      exact absurd nonempty (by decide)
    · split
      · next failed =>
        obtain ⟨extents, current⟩ := loadExtentsPage_failed env _ failed
        refine ⟨?_, ?_, fun moved => absurd rfl moved⟩
        · dsimp only
          rw [extents]
          exact placed.ended
        · dsimp only
          rw [current]
          exact inside
      · next loaded => exact loadExtentsPage_placed env _ (Decidable.not_not.mp loaded)

theorem loadAndDecryptPage_placed (dst : Nat) (handle : ImageReader env.cipher)
    (before : env.Placed handle.toSwapReader ∧
      ∀ index ∈ handle.walked, index + 1 ≤ env.page.maxExtents) :
    env.Placed (env.loadAndDecryptPage dst handle).2.toSwapReader ∧
      ∀ index ∈ (env.loadAndDecryptPage dst handle).2.walked,
        index + 1 ≤ env.page.maxExtents := by
  obtain ⟨placed, walked⟩ := before
  rcases env.loadAndDecryptPage_cases dst handle with
    ⟨src, state, here, _, answer⟩ | ⟨error, fd, answer⟩
  · rw [answer]
    have same : env.Placed { handle.toSwapReader with fd := handle.fd.transfer.2 } :=
      ⟨placed.ended, placed.current, placed.before⟩
    refine ⟨same.advance here, ?_⟩
    intro index member
    rcases List.mem_append.mp member with early | last
    · exact walked index early
    · rw [List.mem_singleton.mp last]
      exact placed.before here
  · rw [answer]
    exact ⟨⟨placed.ended, placed.current, placed.before⟩, walked⟩

/-- Everything stored so far lies in the buffer. -/
def StoresFit (env : ReadEnv) (handle : ImageReader env.cipher) : Prop :=
  ∀ dst ∈ handle.asked, dst + env.page.bytes ≤ env.room

theorem loadAndDecryptPage_asked (dst : Nat) (handle : ImageReader env.cipher) :
    (env.loadAndDecryptPage dst handle).2.asked = handle.asked ++ [dst] := by
  rcases env.loadAndDecryptPage_cases dst handle with
    ⟨src, state, _, _, answer⟩ | ⟨error, fd, answer⟩
  · rw [answer]
    rfl
  · rw [answer]

theorem storesFit_load (dst : Nat) (handle : ImageReader env.cipher) :
    env.StoresFit (env.loadAndDecryptPage dst handle).2 ↔
      env.StoresFit handle ∧ dst + env.page.bytes ≤ env.room := by
  unfold StoresFit
  rw [loadAndDecryptPage_asked, List.forall_mem_append]
  simp

/-- What was stored outside the buffer stays so. -/
theorem storesFit_before (dst : Nat) (handle : ImageReader env.cipher)
    (outside : ¬ env.StoresFit handle) :
    ¬ env.StoresFit (env.loadAndDecryptPage dst handle).2 :=
  fun fit => outside ((storesFit_load dst handle).mp fit).1

theorem compressBufSize_pages (page : PageSize) :
    page.bytes * (page.compressBufSize / page.bytes) = page.compressBufSize := by
  rw [SaveEnv.compressBufSize_whole, Nat.mul_div_cancel_left _ page.bytes_pos]

/-- The rest of a block is stored in the buffer unless it is too large, and there. -/
theorem loadBlock_stores (compressed : env.settings.doDecompress = true) (block : Bytes)
    (count : Nat) (handle : ImageReader env.cipher) (word : 8 ≤ block.length)
    (inside : count ≤ env.page.compressBufSize / env.page.bytes) :
    env.StoresFit (env.loadBlock block (env.page.bytes * count) handle).2 ↔
      env.StoresFit handle ∧
        ((wordValue (block.take 8) + 8) % 2 ^ 64 ≤ env.page.compressBufSize ∨
          ¬ env.CanLoad (env.page.compressBufSize / env.page.bytes - count)
            (env.page.bytes * count) handle) := by
  have positive := env.page.bytes_pos
  have pages := compressBufSize_pages env.page
  have room : env.room = env.page.compressBufSize := if_pos compressed
  generalize capacity : env.page.compressBufSize / env.page.bytes = limit at *
  generalize remains : limit - count = left
  induction left generalizing block count handle with
  | zero =>
      have last : count = limit := by omega
      rw [last, pages]
      by_cases more : env.page.compressBufSize < (wordValue (block.take 8) + 8) % 2 ^ 64
      · -- the page behind the buffer is asked for
        have outside : ¬ env.StoresFit (env.loadAndDecryptPage env.page.compressBufSize
            handle).2 := by
          rw [storesFit_load, room]
          omega
        have overrun : ¬ env.StoresFit
            (env.loadBlock block env.page.compressBufSize handle).2 := by
          rw [loadBlock, if_pos more]
          dsimp only
          split
          · exact outside
          · exact loadBlock_invariant storesFit_before _ _ _ outside
        refine iff_of_false overrun ?_
        rintro ⟨_, small | short⟩
        · omega
        · exact short trivial
      · rw [loadBlock, if_neg more]
        simp only [Nat.not_lt.mp more, true_or, and_true]
  | succ left ih =>
      have below : env.page.bytes * (count + 1) ≤ env.page.compressBufSize := by
        rw [← pages]
        exact Nat.mul_le_mul_left _ (by omega)
      have within : env.page.bytes * count + env.page.bytes ≤ env.room := by
        rw [room, ← Nat.mul_succ]
        exact below
      by_cases more : env.page.bytes * count < (wordValue (block.take 8) + 8) % 2 ^ 64
      · have stored := storesFit_load (env.page.bytes * count) handle
        rw [loadBlock, if_pos more, CanLoad]
        dsimp only
        cases answer : env.loadAndDecryptPage (env.page.bytes * count) handle with
        | mk loaded next =>
            rw [answer] at stored
            cases loaded with
            | error error =>
                dsimp only at stored ⊢
                rw [stored]
                simp [within]
            | ok src =>
                dsimp only at stored ⊢
                have step := ih (block ++ src) (count + 1) next
                  (by rw [List.length_append]; omega) (by omega) (by omega)
                rw [Nat.mul_succ, List.take_append_of_le_length word, stored] at step
                refine step.trans ?_
                simp only [within, and_true]
      · rw [loadBlock, if_neg more]
        have small : (wordValue (block.take 8) + 8) % 2 ^ 64 ≤ env.page.compressBufSize := by
          have ahead : env.page.bytes * count ≤ env.page.bytes * (count + 1) :=
            Nat.mul_le_mul_left _ (by omega)
          omega
        simp only [small, true_or, and_true]

/-- Without compression every page is stored in the buffer. -/
theorem loadPages_stores (plain : env.settings.doDecompress = false) (data : Bytes)
    (count : Nat) (handle : ImageReader env.cipher) :
    env.StoresFit (env.loadPages data (env.page.bytes * count) handle).2 ↔
      env.StoresFit handle := by
  have room : env.room = env.page.bufferSize := if_neg (by simp [plain])
  generalize remains : 32 - count = left
  induction left generalizing data count handle with
  | zero =>
      have full : ¬ env.page.bytes * count < env.page.bufferSize := by
        rw [Nat.not_lt]
        exact Nat.mul_le_mul_left _ (by omega)
      rw [loadPages, if_neg (fun more => full more.1)]
  | succ left ih =>
      have within : env.page.bytes * count + env.page.bytes ≤ env.room := by
        rw [room, ← Nat.mul_succ]
        exact Nat.mul_le_mul_left _ (by omega)
      rw [loadPages]
      split
      · have stored := storesFit_load (env.page.bytes * count) handle
        dsimp only
        split
        · rw [stored]
          simp [within]
        · next src _ =>
          have step := ih (data ++ src) (count + 1)
            (env.loadAndDecryptPage (env.page.bytes * count) handle).2 (by omega)
          rw [Nat.mul_succ] at step
          refine step.trans (stored.trans ?_)
          simp only [within, and_true]
      · exact Iff.rfl

theorem loadBuffer_stores (handle : ImageReader env.cipher) :
    env.StoresFit (env.loadBuffer handle).2 ↔ env.StoresFit handle ∧ env.Fits handle := by
  have large := env.page.bytes_large
  have pages := compressBufSize_pages env.page
  have whole := SaveEnv.compressBufSize_whole env.page
  have widths : env.page.bytes ≤ env.page.compressBufSize ∧
      env.page.bytes ≤ env.page.bufferSize :=
    ⟨by rw [whole]; exact Nat.le_mul_of_pos_right _ (by omega),
      Nat.le_mul_of_pos_right _ (by decide)⟩
  unfold loadBuffer Fits
  by_cases compressed : env.settings.doDecompress = true
  · have first := storesFit_load 0 handle
    have room : env.room = env.page.compressBufSize := if_pos compressed
    rw [Nat.zero_add, room] at first
    rw [if_pos compressed]
    dsimp only
    cases answer : env.loadAndDecryptPage 0 handle with
    | mk loaded next =>
        rw [answer] at first
        cases loaded with
        | error error =>
            dsimp only at first ⊢
            simp only [first, widths.1, and_true, imp_true_iff]
        | ok src =>
            dsimp only at first ⊢
            have length : src.length = env.page.bytes :=
              loadAndDecryptPage_length (congrArg Prod.fst answer)
            have atLeast : 1 ≤ env.page.compressBufSize / env.page.bytes :=
              (Nat.one_le_div_iff env.page.bytes_pos).mpr widths.1
            have rest := loadBlock_stores compressed src 1 next (by omega) atLeast
            rw [Nat.mul_one, first] at rest
            apply Iff.trans _ (rest.trans _)
            · split
              · exact Iff.rfl
              · unfold unpack
                split <;> exact Iff.rfl
            · simp only [widths.1, and_true, compressed, forall_const]
  · have plain : env.settings.doDecompress = false := Bool.not_eq_true _ ▸ compressed
    have all := loadPages_stores plain [] 0 handle
    rw [Nat.mul_zero] at all
    rw [if_neg compressed]
    dsimp only
    apply Iff.trans _ (all.trans ⟨fun fit => ⟨fit, fun wanted => absurd wanted compressed⟩,
      And.left⟩)
    split <;> exact Iff.rfl

theorem loadPage_stores (n : Nat) (loading : env.Loading) :
    env.StoresFit (env.loadPage n loading).2.handle ↔
      env.StoresFit loading.handle ∧ (loading.bufSize ≤ 0 → env.Fits loading.handle) := by
  have refilled : env.StoresFit (env.refill loading).handle ↔
      env.StoresFit loading.handle ∧ (loading.bufSize ≤ 0 → env.Fits loading.handle) := by
    unfold refill
    split
    · next used =>
      refine (loadBuffer_stores loading.handle).trans ?_
      simp only [used, forall_const]
    · next unused => simp only [unused, false_implies, and_true]
  rw [loadPage_handle, refilled]

theorem loadLoop_stores (left n : Nat) (loading : env.Loading) :
    env.StoresFit (env.loadLoop left n loading).2.handle ↔
      env.StoresFit loading.handle ∧ env.AllFit left n loading := by
  induction left generalizing n loading with
  | zero => exact loadPage_stores n loading
  | succ left ih =>
      have page := loadPage_stores n loading
      unfold loadLoop AllFit
      dsimp only
      split
      · next failed => simp only [page, failed, false_implies, and_true]
      · next loaded =>
        rw [ih, page, and_assoc]
        simp only [Decidable.not_not.mp loaded, forall_const]

/-- Whatever the device holds, loading the image stays inside its buffers if and only if every
block that it comes to does. -/
theorem stays_inside_iff (env : ReadEnv) (extents : Table) (buffer : Bytes)
    (state : env.cipher.State) (fd : Device Bytes) (start imageSize : Int) (pages : Nat) :
    let opened := env.initSwapReader extents buffer state fd start imageSize
    env.Inside (env.readImage pages opened).2.handle ↔
      (opened.1 = 0 → env.AllFit (pages % 2 ^ 32 - 1) 0 ⟨opened.2, 0, 0, []⟩) := by
  intro opened
  have unasked : opened.2.asked = [] ∧ opened.2.walked = [] := by
    dsimp only [opened]
    unfold initSwapReader
    split <;> exact ⟨rfl, rfl⟩
  have untouched : env.StoresFit opened.2 := by
    unfold StoresFit
    rw [unasked.1]
    exact fun _ member => absurd member List.not_mem_nil
  unfold readImage
  by_cases failed : opened.1 = 0
  · rw [if_neg (not_not_intro failed)]
    have placed : env.Placed opened.2.toSwapReader := by
      dsimp only [opened] at failed ⊢
      unfold initSwapReader at failed ⊢
      split at failed
      · cases failed
      · next somewhere =>
        rw [if_neg somewhere]
        exact loadExtentsPage_placed env _ failed
    have walked := loadLoop_invariant loadAndDecryptPage_placed
      (fun _ _ _ before => before) (pages % 2 ^ 32 - 1) 0 ⟨opened.2, 0, 0, []⟩
      ⟨placed, by rw [unasked.2]; exact fun _ member => absurd member List.not_mem_nil⟩
    have stores := loadLoop_stores (pages % 2 ^ 32 - 1) 0 ⟨opened.2, 0, 0, []⟩
    constructor
    · intro inside _
      exact (stores.mp inside.stores).2
    · intro fits
      exact ⟨stores.mpr ⟨untouched, fits failed⟩, walked.2, walked.1.current⟩
  · rw [if_pos failed]
    refine iff_of_true ⟨untouched, ?_, ?_⟩ (fun loaded => absurd loaded failed)
    · dsimp only
      rw [unasked.2]
      exact fun _ member => absurd member List.not_mem_nil
    · dsimp only [opened] at failed ⊢
      unfold initSwapReader at failed ⊢
      split at failed
      · next nowhere =>
        rw [if_pos nowhere]
        exact Nat.zero_le _
      · next somewhere =>
        rw [if_neg somewhere]
        dsimp only
        rw [(loadExtentsPage_failed env _ failed).2]
        exact Nat.zero_le _

/-- Reading a compressed image with pages of 32 bytes. -/
def smallReader : ReadEnv where
  page := PageSize.thirtyTwoBytes
  settings := ⟨true, false, false⟩
  lzo := ⟨id, some⟩
  cipher := SaveEnv.transparent
  verifyOnly := false
  accepts := fun _ => true
  other := ⟨fun _ => Table.zero, fun _ => Table.zero⟩
  tableBytes := fun _ => []
  headerBytes := fun _ => []

/-- A swap area with one extent of 40 pages, whose block claims to be a terabyte long. -/
def hugeBlock : Device Bytes where
  initial
    | .page 64 => .extents (Function.update Table.zero 0 ⟨128, 1408⟩)
    | .page _ => .data (wordBytes 8 (2 ^ 40) ++ List.replicate 24 0)
    | .record => ⟨0, SWAPSPACE2, SWSUSP_SIG⟩
  log := []
  outcomes := List.replicate 50 true

/-- The pages of the block are stored one after the other, until the swap area ends. -/
theorem huge_block_leaves :
    let opened := smallReader.initSwapReader Table.zero [] () hugeBlock 64 1280
    opened.1 = 0 ∧ ¬ smallReader.Inside (smallReader.readImage 32 opened).2.handle := by
  intro opened
  have run : opened.1 = 0 ∧
      1184 ∈ (smallReader.readImage 32 opened).2.handle.asked := by
    decide +kernel
  refine ⟨run.1, fun inside => ?_⟩
  have stored := inside.stores 1184 run.2
  have room : smallReader.room = 1184 := by decide
  have width : smallReader.page.bytes = 32 := by decide
  omega

end ReadEnv

end Suspend
