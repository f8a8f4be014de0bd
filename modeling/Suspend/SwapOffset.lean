import Suspend.AllocLoop
import Suspend.Header

set_option autoImplicit false

namespace Suspend

/-- What the system calls of `swap-offset` answer: an `errno`, or what they find. -/
structure SwapFile where
  page : PageSize
  opened : Except Int Unit
  regular : Except Int Bool
  sought : Except Int Unit
  signature : Except Int (List UInt8)
  blkSize : Except Int Nat
  fibmap : Nat → Except Int UInt32
  divides : ∀ size, blkSize = .ok size → size ∣ page.bytes

namespace SwapFile

/-- The variables of the loop over the blocks of the header page. -/
structure Blocks where
  first : UInt32
  last : UInt32
  size : Nat

/-- The loop over the blocks that are left, from the `i`-th one. -/
def contiguous (fibmap : Nat → Except Int UInt32) (blkSize : Nat) :
    Nat → Nat → Blocks → Except Int Blocks
  | 0, _, blocks => .ok blocks
  | left + 1, i, blocks =>
      match fibmap i with
      | .error errno => .error errno
      | .ok block =>
          if blocks.last ≠ 0 ∧ block ≠ blocks.last + 1 then .ok blocks
          else
            contiguous fibmap blkSize left (i + 1)
              { first := if blocks.first = 0 then block else blocks.first
                last := block
                size := blocks.size + blkSize }

/-- The error of a check that fails. -/
def refuse (failed : Prop) [Decidable failed] : Except Int Unit :=
  if failed then .error EINVAL else .ok ()

/-- `main`: the resume offset that is printed, or the error. -/
def offset (file : SwapFile) : Except Int Nat := do
  file.opened
  let regular ← file.regular
  refuse (¬ regular)
  file.sought
  let buf ← file.signature
  refuse (buf.length < 10)
  refuse (buf ≠ SWAPSPACE2.toList)
  let blkSize ← file.blkSize
  let blocks ← contiguous file.fibmap blkSize (file.page.bytes / blkSize) 0 ⟨0, 0, 0⟩
  refuse (blocks.size < file.page.bytes)
  return blocks.first.toNat * blkSize / file.page.bytes % 2 ^ 32

/-- The checks in front of the loop. -/
def SwapHeader (file : SwapFile) (blkSize : Nat) : Prop :=
  file.opened = .ok () ∧ file.regular = .ok true ∧ file.sought = .ok () ∧
    file.signature = .ok SWAPSPACE2.toList ∧ file.blkSize = .ok blkSize

/-- The header page is at this offset: its blocks are mapped, follow one another, and the first one
begins where the tools look for the page. -/
def HeaderAt (file : SwapFile) (blkSize resumeOffset : Nat) : Prop :=
  ∃ blocks : Nat → UInt32,
    (∀ i < file.page.bytes / blkSize, file.fibmap i = .ok (blocks i) ∧ blocks i ≠ 0) ∧
    (∀ i, i + 1 < file.page.bytes / blkSize → (blocks (i + 1)).toNat = (blocks i).toNat + 1) ∧
    (blocks 0).toNat * blkSize = resumeOffset * file.page.bytes

/-- Only usable offsets are reported. -/
def Honest (file : SwapFile) : Prop :=
  ∀ resumeOffset, file.offset = .ok resumeOffset →
    ∃ blkSize, file.blkSize = .ok blkSize ∧ file.HeaderAt blkSize resumeOffset

/-- Where the checks and the loop let a header page pass, no block of it is reported as block 0, and
its first block begins at a page of the device. -/
def Unambiguous (file : SwapFile) : Prop :=
  ∀ blkSize, file.SwapHeader blkSize → ∀ blocks : Nat → UInt32,
    (∀ i < file.page.bytes / blkSize, file.fibmap i = .ok (blocks i)) →
    (∀ i, i + 1 < file.page.bytes / blkSize → blocks i = 0 ∨ blocks (i + 1) = blocks i + 1) →
    (∀ i < file.page.bytes / blkSize, blocks i ≠ 0) ∧
      file.page.bytes ∣ (blocks 0).toNat * blkSize

section Loop

variable {fibmap : Nat → Except Int UInt32} {blkSize : Nat}

/-- Answers that pass the test of the loop are all counted. -/
theorem contiguous_complete (answers : Nat → UInt32) {left i : Nat} {blocks : Blocks}
    (answered : ∀ k, i ≤ k → k < i + left → fibmap k = .ok (answers k))
    (begins : 0 < left → blocks.last = 0 ∨ answers i = blocks.last + 1)
    (steps : ∀ k, i ≤ k → k + 1 < i + left → answers k = 0 ∨ answers (k + 1) = answers k + 1) :
    ∃ final, contiguous fibmap blkSize left i blocks = .ok final ∧
      final.size = blocks.size + left * blkSize := by
  induction left generalizing i blocks with
  | zero => exact ⟨blocks, rfl, by simp⟩
  | succ left ih =>
      have first := answered i (le_refl i) (by omega)
      have passes : ¬ (blocks.last ≠ 0 ∧ answers i ≠ blocks.last + 1) := by
        have begun := begins (Nat.succ_pos left)
        tauto
      obtain ⟨final, result, size⟩ := @ih (i + 1)
        ⟨if blocks.first = 0 then answers i else blocks.first, answers i, blocks.size + blkSize⟩
        (fun k above below => answered k (by omega) (by omega))
        (fun more => steps i (le_refl i) (by omega))
        (fun k above below => steps k (by omega) (by omega))
      refine ⟨final, ?_, ?_⟩
      · simp only [contiguous, first, passes, ↓reduceIte]
        exact result
      · rw [size, Nat.succ_mul]
        dsimp only
        omega

/-- The answer for a block, or 0. -/
def answer (fibmap : Nat → Except Int UInt32) (i : Nat) : UInt32 :=
  match fibmap i with
  | .ok block => block
  | .error _ => 0

/-- If all blocks are counted, they are answered and pass the test, and the first one that is not
block 0 is kept. -/
theorem contiguous_counted (positive : 0 < blkSize) {left i : Nat} {blocks final : Blocks}
    (result : contiguous fibmap blkSize left i blocks = .ok final) :
    (blocks.first ≠ 0 → final.first = blocks.first) ∧
      final.size ≤ blocks.size + left * blkSize ∧
      (final.size = blocks.size + left * blkSize →
        (∀ k, i ≤ k → k < i + left → fibmap k = .ok (answer fibmap k)) ∧
        (0 < left → blocks.last = 0 ∨ answer fibmap i = blocks.last + 1) ∧
        (∀ k, i ≤ k → k + 1 < i + left →
          answer fibmap k = 0 ∨ answer fibmap (k + 1) = answer fibmap k + 1) ∧
        (0 < left → blocks.first = 0 → answer fibmap i ≠ 0 → final.first = answer fibmap i)) := by
  induction left generalizing i blocks with
  | zero =>
      rw [contiguous, Except.ok.injEq] at result
      subst result
      exact ⟨fun _ => rfl, by omega, fun _ => ⟨by omega, by omega, by omega, by omega⟩⟩
  | succ left ih =>
      cases first : fibmap i with
      | error errno => simp [contiguous, first] at result
      | ok block =>
          have here : answer fibmap i = block := by rw [answer, first]
          simp only [contiguous, first] at result
          by_cases broken : blocks.last ≠ 0 ∧ block ≠ blocks.last + 1
          · rw [if_pos broken, Except.ok.injEq] at result
            subst result
            refine ⟨fun _ => rfl, by omega, fun full => ?_⟩
            have more : 0 < (left + 1) * blkSize := Nat.mul_pos (Nat.succ_pos left) positive
            omega
          · rw [if_neg broken] at result
            obtain ⟨keeps, bound, counted⟩ := ih result
            rw [Nat.succ_mul]
            dsimp only at keeps bound counted
            refine ⟨?_, by omega, fun full => ?_⟩
            · intro kept
              rw [if_neg kept] at keeps
              exact keeps kept
            · obtain ⟨answered, begins, steps, _⟩ := counted (by omega)
              refine ⟨?_, fun _ => by rw [here]; tauto, ?_, ?_⟩
              · intro k above below
                rcases Nat.eq_or_lt_of_le above with rfl | later
                · rw [here, first]
                · exact answered k later (by omega)
              · intro k above below
                rcases Nat.eq_or_lt_of_le above with rfl | later
                · rw [here]
                  exact begins (by omega)
                · exact steps k later (by omega)
              · intro _ none some
                rw [here] at some ⊢
                rw [if_pos none] at keeps
                exact keeps some

end Loop

theorem bind_ok_iff {α β : Type} {result : Except Int α} {next : α → Except Int β} {value : β} :
    (result >>= next) = .ok value ↔ ∃ found, result = .ok found ∧ next found = .ok value := by
  cases result with
  | error errno => simp [bind, Except.bind]
  | ok found => simp [bind, Except.bind]

theorem refuse_ok_iff {failed : Prop} [Decidable failed] {done : Unit} :
    refuse failed = .ok done ↔ ¬ failed := by
  by_cases fails : failed <;> simp [refuse, fails]

theorem offset_ok_iff {file : SwapFile} {resumeOffset : Nat} :
    file.offset = .ok resumeOffset ↔
      ∃ blkSize final, file.SwapHeader blkSize ∧
        contiguous file.fibmap blkSize (file.page.bytes / blkSize) 0 ⟨0, 0, 0⟩ = .ok final ∧
        file.page.bytes ≤ final.size ∧
        resumeOffset = final.first.toNat * blkSize / file.page.bytes % 2 ^ 32 := by
  simp only [offset, bind_ok_iff, refuse_ok_iff, pure, Except.pure, Except.ok.injEq]
  constructor
  · rintro ⟨_, opened, regular, stat, _, accepted, _, sought, buf, read, _, _, _, same, blkSize,
      asked, final, counted, _, full, rfl⟩
    rw [not_not] at accepted same
    subst accepted same
    exact ⟨blkSize, final, ⟨opened, stat, sought, read, asked⟩, counted, not_lt.mp full, rfl⟩
  · rintro ⟨blkSize, final, ⟨opened, stat, sought, read, asked⟩, counted, full, rfl⟩
    exact ⟨(), opened, true, stat, (), by simp, (), sought, _, read, (), by decide, (), by simp,
      blkSize, asked, final, counted, (), not_lt.mpr full, rfl⟩

theorem header_blocks {file : SwapFile} {blkSize : Nat} (header : file.SwapHeader blkSize) :
    0 < blkSize ∧ 0 < file.page.bytes / blkSize ∧
      file.page.bytes / blkSize * blkSize = file.page.bytes := by
  have divides := file.divides blkSize header.2.2.2.2
  have positive := file.page.bytes_pos
  have nonzero : 0 < blkSize := Nat.pos_of_dvd_of_pos divides positive
  exact ⟨nonzero, Nat.div_pos (Nat.le_of_dvd positive divides) nonzero, Nat.div_mul_cancel divides⟩

theorem toNat_succ {block : UInt32} (nonzero : block + 1 ≠ 0) :
    (block + 1).toNat = block.toNat + 1 := by
  have small := block.toNat_lt
  have sum := UInt32.toNat_add block 1
  have one : (1 : UInt32).toNat = 1 := rfl
  have positive : (block + 1).toNat ≠ 0 := fun zero => nonzero (UInt32.toNat_inj.mp zero)
  omega

/-- An aligned offset is not rounded, and fits in the unsigned int that is printed. -/
theorem printed_exact {page blkSize first : Nat} (positive : 0 < page) (within : blkSize ≤ page)
    (small : first < 2 ^ 32) (aligned : page ∣ first * blkSize) :
    first * blkSize = first * blkSize / page % 2 ^ 32 * page := by
  have quotient : first * blkSize / page < 2 ^ 32 := by
    rw [Nat.div_lt_iff_lt_mul positive]
    calc first * blkSize ≤ first * page := Nat.mul_le_mul_left first within
      _ < 2 ^ 32 * page := Nat.mul_lt_mul_of_pos_right small positive
  rw [Nat.mod_eq_of_lt quotient, Nat.div_mul_cancel aligned]

/-- `swap-offset` only reports usable offsets if and only if block 0 is never an answer in a page
that passes, and the page is aligned on the device. -/
theorem honest_iff (file : SwapFile) : file.Honest ↔ file.Unambiguous := by
  constructor
  · intro honest blkSize header blocks answered steps
    obtain ⟨positive, some, whole⟩ := header_blocks header
    obtain ⟨final, counted, size⟩ := @contiguous_complete file.fibmap blkSize blocks
      (file.page.bytes / blkSize) 0 ⟨0, 0, 0⟩ (fun k _ below => answered k (by omega))
      (fun _ => Or.inl rfl) (fun k _ below => steps k (by omega))
    have printed :=
      offset_ok_iff.mpr ⟨blkSize, final, header, counted, by dsimp only at size; omega, rfl⟩
    obtain ⟨asked, given, found, mapped, _, start⟩ := honest _ printed
    rw [header.2.2.2.2, Except.ok.injEq] at given
    subst given
    have same : ∀ i < file.page.bytes / blkSize, found i = blocks i := by
      intro i below
      have both := (mapped i below).1.symm.trans (answered i below)
      exact Except.ok.inj both
    constructor
    · intro i below
      rw [← same i below]
      exact (mapped i below).2
    · rw [← same 0 some, start]
      exact Nat.dvd_mul_left _ _
  · intro unambiguous resumeOffset printed
    obtain ⟨blkSize, final, header, counted, full, rfl⟩ := offset_ok_iff.mp printed
    obtain ⟨positive, some, whole⟩ := header_blocks header
    obtain ⟨_, bound, counts⟩ := contiguous_counted positive counted
    dsimp only at bound counts
    obtain ⟨answered, _, steps, first⟩ := counts (by omega)
    obtain ⟨nonzero, aligned⟩ := unambiguous blkSize header (answer file.fibmap)
      (fun i below => answered i (Nat.zero_le i) (by omega))
      (fun i below => steps i (Nat.zero_le i) (by omega))
    refine ⟨blkSize, header.2.2.2.2, answer file.fibmap, ?_, ?_, ?_⟩
    · intro i below
      exact ⟨answered i (Nat.zero_le i) (by omega), nonzero i below⟩
    · intro i below
      have next := (steps i (Nat.zero_le i) (by omega)).resolve_left (nonzero i (by omega))
      have mapped := nonzero (i + 1) below
      rw [next] at mapped ⊢
      exact toNat_succ mapped
    · rw [first some rfl (nonzero 0 some)]
      have within := Nat.le_of_dvd file.page.bytes_pos (file.divides blkSize header.2.2.2.2)
      exact printed_exact file.page.bytes_pos within (UInt32.toNat_lt _) aligned

/-- A swap file with this block size and this mapping. -/
def mapped (blkSize : Nat) (divides : blkSize ∣ 4096) (fibmap : Nat → UInt32) : SwapFile where
  page := .fourKilobytes
  opened := .ok ()
  regular := .ok true
  sought := .ok ()
  signature := .ok SWAPSPACE2.toList
  blkSize := .ok blkSize
  fibmap i := .ok (fibmap i)
  divides := by
    rintro _ ⟨⟩
    exact divides

/-- Four blocks that begin inside a page of the device are reported as if they began with it. -/
theorem unaligned_reported :
    (mapped 1024 (by decide) fun i => 5 + UInt32.ofNat i).offset = .ok 1 ∧
      ¬ (mapped 1024 (by decide) fun i => 5 + UInt32.ofNat i).Honest := by
  have printed : (mapped 1024 (by decide) fun i => 5 + UInt32.ofNat i).offset = .ok 1 := by
    decide +kernel
  refine ⟨printed, fun honest => ?_⟩
  obtain ⟨blkSize, ⟨⟩, blocks, answered, _, start⟩ := honest 1 printed
  have first : 5 + UInt32.ofNat 0 = blocks 0 := Except.ok.inj (answered 0 (by decide)).1
  rw [← first] at start
  exact absurd start (by decide)

/-- A hole at the start of the header page is not noticed. -/
example : (mapped 1024 (by decide) fun i => if i = 0 then 0 else 7 + UInt32.ofNat i).offset =
  .ok 2 := by
  decide +kernel

end SwapFile

end Suspend
