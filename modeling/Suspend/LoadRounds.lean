import Mathlib.Tactic.Positivity.Basic
import Suspend.LoadImage

set_option autoImplicit false

namespace Suspend

open Foundation.Memory

/-- More pages follow in the queue. -/
def Source.followed {cipher : PageCipher} (source : Source cipher) (extra : List Bytes) :
    Source cipher :=
  { source with swap := source.swap ++ extra }

@[simp] theorem Source.followed_totalSize {cipher : PageCipher} (source : Source cipher)
    (extra : List Bytes) : (source.followed extra).totalSize = source.totalSize := rfl

namespace LoadEnv

variable {env : LoadEnv} {source next : Source env.cipher} {src data : Bytes}

/-- More pages follow in the queue. -/
def Loading.followed (loading : env.Loading) (extra : List Bytes) : env.Loading :=
  { loading with source := loading.source.followed extra }

variable (extra : List Bytes)

theorem loadAndDecryptPage_followed (loaded : env.loadAndDecryptPage source = .ok (src, next)) :
    env.loadAndDecryptPage (source.followed extra) = .ok (src, next.followed extra) := by
  unfold loadAndDecryptPage Source.followed at *
  cases swap : source.swap with
  | nil =>
      rw [swap] at loaded
      cases loaded
  | cons coded rest =>
      rw [swap] at loaded
      rw [List.cons_append]
      dsimp only at loaded ⊢
      by_cases decrypts : env.settings.doDecrypt = true
      · rw [if_pos decrypts] at loaded ⊢
        cases answer : env.cipher.decrypt source.state coded with
        | error error =>
            rw [answer] at loaded
            cases loaded
        | ok result =>
            rw [answer] at loaded
            cases loaded
            rfl
      · rw [if_neg decrypts] at loaded ⊢
        cases loaded
        rfl

theorem loadBlock_followed {loaded : Bytes}
    (block : env.loadBlock source loaded = .ok (data, next)) :
    env.loadBlock (source.followed extra) loaded = .ok (data, next.followed extra) := by
  fun_induction loadBlock env source loaded with
  | case1 source loaded more error failed => cases block
  | case2 source loaded more src next answer shorter ih =>
      rw [loadBlock, if_pos more]
      split
      · next failed =>
        rw [loadAndDecryptPage_followed extra answer] at failed
        cases failed
      · next found =>
        rw [loadAndDecryptPage_followed extra answer] at found
        cases found
        exact ih block
  | case3 source loaded enough =>
      cases block
      rw [loadBlock, if_neg enough]

theorem loadPages_followed {loaded : Bytes}
    (pages : env.loadPages source loaded = .ok (data, next)) :
    env.loadPages (source.followed extra) loaded = .ok (data, next.followed extra) := by
  fun_induction loadPages env source loaded with
  | case1 source loaded more error failed => cases pages
  | case2 source loaded more src next answer shorter ih =>
      rw [loadPages, Source.followed_totalSize, if_pos more]
      split
      · next failed =>
        rw [loadAndDecryptPage_followed extra answer] at failed
        cases failed
      · next found =>
        rw [loadAndDecryptPage_followed extra answer] at found
        cases found
        exact ih pages
  | case3 source loaded enough =>
      cases pages
      rw [loadPages, Source.followed_totalSize, if_neg enough]

theorem loadBuffer_followed (some : 0 < (env.loadBuffer source).1) :
    env.loadBuffer (source.followed extra) =
      ((env.loadBuffer source).1, (env.loadBuffer source).2.followed extra) := by
  unfold loadBuffer at some ⊢
  by_cases compressed : env.settings.doDecompress = true
  · rw [if_pos compressed] at some ⊢
    rw [if_pos compressed]
    cases first : env.loadAndDecryptPage source with
    | error error => simp [first] at some
    | ok result =>
        simp only [first, loadAndDecryptPage_followed extra first] at some ⊢
        cases rest : env.loadBlock result.2 result.1 with
        | error error => simp [rest] at some
        | ok block =>
            simp only [rest, loadBlock_followed extra rest] at some ⊢
            cases unpacked : env.lzo.decompress
                ((block.1.drop 8).take (wordValue (block.1.take 8))) with
            | none => simp [unpacked] at some
            | some data => rfl
  · rw [if_neg compressed] at some ⊢
    rw [if_neg compressed]
    cases all : env.loadPages source [] with
    | error error => simp [all] at some
    | ok result =>
        simp only [loadPages_followed extra all]
        rfl

theorem loadPage_followed {n : Nat} {loading : env.Loading}
    (success : (env.loadPage n loading).1 = 0) :
    env.loadPage n (loading.followed extra) =
      (0, Loading.followed (env.loadPage n loading).2 extra) := by
  have refilled : 0 < (env.refill loading).bufSize →
      env.refill (loading.followed extra) = Loading.followed (env.refill loading) extra := by
    intro some
    unfold refill at some ⊢
    by_cases used : loading.bufSize ≤ 0
    · have used' : (loading.followed extra).bufSize ≤ 0 := used
      rw [if_pos used] at some ⊢
      rw [if_pos used']
      dsimp only at some
      have loaded := @loadBuffer_followed env loading.source extra (by omega)
      dsimp only [Loading.followed]
      rw [loaded]
    · have used' : ¬ (loading.followed extra).bufSize ≤ 0 := used
      rw [if_neg used, if_neg used']
  unfold loadPage at success ⊢
  dsimp only at success ⊢
  by_cases empty : (env.refill loading).bufSize ≤ 0
  · rw [if_pos empty] at success
    exact absurd success (show - EIO ≠ 0 by decide)
  · rw [refilled (by omega)]
    have empty' : ¬ (Loading.followed (env.refill loading) extra).bufSize ≤ 0 := empty
    rw [if_neg empty] at success ⊢
    rw [if_neg empty']
    by_cases taken : (env.verifyOnly || env.accepts n) = true
    · rw [if_pos taken, if_pos taken]
      rfl
    · rw [if_neg taken] at success
      exact absurd success (show - EIO ≠ 0 by decide)

/-- A run that succeeds does not notice the pages that follow. -/
theorem loadLoop_followed {left n : Nat} {loading : env.Loading}
    (success : (env.loadLoop left n loading).1 = 0) :
    env.loadLoop left n (loading.followed extra) =
      (0, Loading.followed (env.loadLoop left n loading).2 extra) := by
  induction left generalizing n loading with
  | zero => exact loadPage_followed extra success
  | succ left ih =>
      rw [loadLoop] at success ⊢
      rw [loadLoop]
      by_cases loaded : (env.loadPage n loading).1 = 0
      · rw [loadPage_followed extra loaded]
        simp only [loaded, ne_eq, not_true_eq_false, ↓reduceIte] at success ⊢
        exact ih success
      · simp [loaded] at success

/-- The pages that follow are not looked at when the block is loaded without them. -/
theorem blockStrays_loaded {loaded : Bytes}
    (block : env.loadBlock source loaded = .ok (data, next)) :
    env.blockStrays (source.followed extra) loaded = env.blockStrays source loaded := by
  fun_induction loadBlock env source loaded with
  | case1 source loaded more error failed => cases block
  | case2 source loaded more src next answer shorter ih =>
      rw [blockStrays_ok more (loadAndDecryptPage_followed extra answer),
        blockStrays_ok more answer, ih block]
  | case3 source loaded enough => rw [blockStrays, blockStrays, if_neg enough, if_neg enough]

theorem bufferStrays_loaded (some : 0 < (env.loadBuffer source).1) :
    env.bufferStrays (source.followed extra) = env.bufferStrays source := by
  unfold loadBuffer at some
  unfold bufferStrays
  by_cases compressed : env.settings.doDecompress = true
  · rw [if_pos compressed] at some
    cases first : env.loadAndDecryptPage source with
    | error error => simp [first] at some
    | ok result =>
        simp only [first, loadAndDecryptPage_followed extra first] at some ⊢
        cases rest : env.loadBlock result.2 result.1 with
        | error error => simp [rest] at some
        | ok block => rw [blockStrays_loaded extra rest, loadBlock_followed extra rest]
  · rw [Bool.eq_false_of_not_eq_true compressed, Bool.false_and, Bool.false_and]

theorem blockStrays_followed {loaded : Bytes} (strays : env.blockStrays source loaded = true) :
    env.blockStrays (source.followed extra) loaded = true := by
  fun_induction blockStrays env source loaded with
  | case1 source loaded more ih =>
      rcases Bool.or_eq_true_iff.mp strays with full | later
      · rw [blockStrays, if_pos more, full, Bool.true_or]
      · split at later
        · cases later
        · next src next answer =>
          rw [blockStrays_ok more (loadAndDecryptPage_followed extra answer),
            ih src next answer later, Bool.or_true]
  | case2 source loaded enough =>
      rw [blockStrays, if_neg enough]
      exact strays

theorem bufferStrays_followed (strays : env.bufferStrays source = true) :
    env.bufferStrays (source.followed extra) = true := by
  unfold bufferStrays at strays ⊢
  obtain ⟨compressed, strays⟩ := Bool.and_eq_true_iff.mp strays
  rw [compressed, Bool.true_and]
  cases first : env.loadAndDecryptPage source with
  | error error =>
      rw [first] at strays
      cases strays
  | ok result =>
      simp only [first, loadAndDecryptPage_followed extra first] at strays ⊢
      rcases Bool.or_eq_true_iff.mp strays with outside | large
      · rw [blockStrays_followed extra outside, Bool.true_or]
      · cases rest : env.loadBlock result.2 result.1 with
        | error error =>
            rw [rest] at large
            cases large
        | ok block =>
            rw [rest] at large
            rw [loadBlock_followed extra rest]
            exact Bool.or_eq_true_iff.mpr (.inr large)

/-- A run that leaves its buffers does so, too, when more pages follow. -/
theorem strays_followed {left n : Nat} {loading : env.Loading}
    (strays : env.strays left n loading = true) :
    env.strays left n (loading.followed extra) = true := by
  have page {loading : env.Loading} (strays : env.pageStrays loading = true) :
      env.pageStrays (loading.followed extra) = true := by
    obtain ⟨used, outside⟩ := Bool.and_eq_true_iff.mp strays
    exact Bool.and_eq_true_iff.mpr ⟨used, bufferStrays_followed extra outside⟩
  induction left generalizing n loading with
  | zero => exact page strays
  | succ left ih =>
      rcases Bool.or_eq_true_iff.mp strays with here | later
      · exact Bool.or_eq_true_iff.mpr (.inl (page here))
      · obtain ⟨loaded, outside⟩ := Bool.and_eq_true_iff.mp later
        have success := of_decide_eq_true loaded
        apply Bool.or_eq_true_iff.mpr (.inr _)
        rw [loadPage_followed extra success]
        exact ih outside

end LoadEnv

namespace LoadEnv

variable {env : LoadEnv} {holds : List Bytes → Source env.cipher → Prop}
  {current upcoming more : List Bytes} {src : Bytes} {loading : env.Loading}

/-- While there are pages left in a source, `load_buffer` gets the next 32 of them without leaving
its buffers. -/
def Supplies (env : LoadEnv) (holds : List Bytes → Source env.cipher → Prop) : Prop :=
  ∀ upcoming source, upcoming ≠ [] → (∀ src ∈ upcoming, src.length = env.page.bytes) →
    holds upcoming source →
    env.bufferStrays source = false ∧
      ∃ next, env.loadBuffer source = ((upcoming.take 32).flatten.length, next) ∧
        next.buffer.take (upcoming.take 32).flatten.length = (upcoming.take 32).flatten ∧
        holds (upcoming.drop 32) next

/-- Between two rounds of `load_image`: `current` is what the buffer still holds, `upcoming` what
the source does. -/
structure Between (env : LoadEnv) (holds : List Bytes → Source env.cipher → Prop)
    (current upcoming : List Bytes) (loading : env.Loading) : Prop where
  full : ∀ src ∈ current ++ upcoming, src.length = env.page.bytes
  bufSize : loading.bufSize = env.page.bytes * current.length
  held : (loading.source.buffer.drop loading.position).take (env.page.bytes * current.length) =
    current.flatten
  queue : holds upcoming loading.source

theorem Between.refill (supplies : env.Supplies holds)
    (between : Between env holds [] upcoming loading) (nonempty : upcoming ≠ []) :
    Between env holds (upcoming.take 32) (upcoming.drop 32) (env.refill loading) ∧
      (env.refill loading).delivered = loading.delivered := by
  obtain ⟨-, next, loaded, held, queue⟩ :=
    supplies upcoming loading.source nonempty between.full between.queue
  have full : ∀ src ∈ upcoming.take 32, src.length = env.page.bytes :=
    fun src member => between.full src (List.mem_of_mem_take member)
  have used : loading.bufSize ≤ 0 := by
    rw [between.bufSize]
    simp
  simp only [LoadEnv.refill, used, ↓reduceIte, loaded, and_true]
  refine ⟨?_, ?_, ?_, queue⟩
  · rw [List.take_append_drop]
    exact between.full
  · rw [flatten_length full]
    push_cast
    rfl
  · rw [List.drop_zero, ← flatten_length full]
    exact held

theorem Between.unused (between : Between env holds (src :: more) upcoming loading) :
    ¬ loading.bufSize ≤ 0 := by
  have positive := env.page.bytes_pos
  have rest : (0 : Int) ≤ env.page.bytes * more.length := by positivity
  rw [between.bufSize, List.length_cons]
  push_cast
  rw [Int.mul_add]
  omega

theorem Between.refill_kept (between : Between env holds (src :: more) upcoming loading) :
    env.refill loading = loading := by
  simp only [LoadEnv.refill, between.unused, ↓reduceIte]

theorem Between.pass {refilled : env.Loading}
    (between : Between env holds (src :: more) upcoming refilled)
    (arrived : env.refill loading = refilled) {n : Nat}
    (accepted : (env.verifyOnly || env.accepts n) = true) :
    ∃ next, env.loadPage n loading = (0, next) ∧ Between env holds more upcoming next ∧
      next.delivered = refilled.delivered ++ [src] := by
  have width : src.length = env.page.bytes := between.full src (by simp)
  have some := between.unused
  have held := between.held
  have bufSize := between.bufSize
  rw [List.length_cons, Nat.mul_succ, Nat.add_comm, List.take_add, List.flatten_cons] at held
  rw [List.length_cons, Nat.cast_succ, Int.mul_add, Int.mul_one] at bufSize
  have enough : env.page.bytes ≤ (refilled.source.buffer.drop refilled.position).length := by
    have total := congrArg List.length held
    rw [List.length_append, List.length_append, width,
      flatten_length fun part member => between.full part (by simp [member]), List.length_take,
      List.length_take] at total
    simp only [List.length_drop] at total ⊢
    by_contra short
    omega
  obtain ⟨front, behind⟩ := List.append_inj held (by
    rw [List.length_take, width]
    exact Nat.min_eq_left enough)
  refine ⟨{ refilled with
    position := refilled.position + env.page.bytes
    bufSize := refilled.bufSize - env.page.bytes
    delivered := refilled.delivered ++ [src] }, ?_, ⟨?_, ?_, ?_, between.queue⟩, rfl⟩
  · simp only [loadPage, arrived, some, accepted, ↓reduceIte, front]
  · exact fun part member => between.full part (List.mem_cons_of_mem _ member)
  · dsimp only
    omega
  · dsimp only
    rw [← List.drop_drop]
    exact behind

theorem Between.step (supplies : env.Supplies holds)
    (between : Between env holds current upcoming loading)
    (next : current ++ upcoming = src :: more) {n : Nat}
    (accepted : (env.verifyOnly || env.accepts n) = true) :
    ∃ later current upcoming, env.loadPage n loading = (0, later) ∧
      Between env holds current upcoming later ∧ current ++ upcoming = more ∧
      later.delivered = loading.delivered ++ [src] := by
  cases current with
  | nil =>
      -- the buffer is used up: it is refilled, and the page is the first of the new ones
      rw [List.nil_append] at next
      subst next
      obtain ⟨refilled, same⟩ := between.refill supplies (List.cons_ne_nil src more)
      rw [List.take_succ_cons, List.drop_succ_cons] at refilled
      obtain ⟨later, passed, arrived, delivered⟩ := refilled.pass rfl accepted
      rw [same] at delivered
      exact ⟨later, _, _, passed, arrived, List.take_append_drop 31 more, delivered⟩
  | cons first rest =>
      rw [List.cons_append, List.cons.injEq] at next
      obtain ⟨rfl, rfl⟩ := next
      obtain ⟨later, passed, arrived, delivered⟩ := between.pass between.refill_kept accepted
      exact ⟨later, _, _, passed, arrived, rfl, delivered⟩

theorem Between.rounds (supplies : env.Supplies holds)
    (between : Between env holds current upcoming loading) (n left : Nat)
    (enough : left + 1 ≤ (current ++ upcoming).length)
    (accepted : ∀ index < n + left + 1, (env.verifyOnly || env.accepts index) = true) :
    ∃ later current' upcoming', env.loadLoop left n loading = (0, later) ∧
      Between env holds current' upcoming' later ∧
      current' ++ upcoming' = (current ++ upcoming).drop (left + 1) ∧
      later.delivered = loading.delivered ++ (current ++ upcoming).take (left + 1) := by
  obtain ⟨src, more, next⟩ := List.exists_cons_of_length_pos
    (show 0 < (current ++ upcoming).length by omega)
  obtain ⟨later, current', upcoming', passed, arrived, rest, delivered⟩ :=
    between.step supplies next (accepted n (by omega))
  rw [next, List.drop_succ_cons, List.take_succ_cons, ← rest]
  -- what the buffer and the source still hold together is the rest of the image in every round
  induction left generalizing current upcoming loading n src more later current' upcoming' with
  | zero => exact ⟨later, current', upcoming', passed, arrived, rfl, delivered⟩
  | succ left ih =>
      rw [next, List.length_cons, ← rest] at enough
      obtain ⟨src', more', next'⟩ := List.exists_cons_of_length_pos
        (show 0 < (current' ++ upcoming').length by omega)
      obtain ⟨later', current'', upcoming'', passed', arrived', rest', delivered'⟩ :=
        arrived.step supplies next' (accepted (n + 1) (by omega))
      obtain ⟨final, current₃, upcoming₃, ran, ended, remaining, all⟩ := ih arrived (n + 1)
        (by omega) (fun index below => accepted index (by omega)) src' more' next' later'
        current'' upcoming'' passed' arrived' rest' delivered'
      refine ⟨final, current₃, upcoming₃, ?_, ended, ?_, ?_⟩
      · rw [loadLoop, passed]
        exact ran
      · rw [remaining, next', List.drop_succ_cons, rest']
      · rw [all, delivered, next', List.take_succ_cons, rest', List.append_assoc]
        rfl

theorem Between.run (supplies : env.Supplies holds)
    (between : Between env holds current upcoming loading) (n left : Nat)
    (count : (current ++ upcoming).length = left + 1)
    (accepted : ∀ index < n + left + 1, (env.verifyOnly || env.accepts index) = true) :
    ∃ later, env.loadLoop left n loading = (0, later) ∧ Between env holds [] [] later ∧
      later.delivered = loading.delivered ++ (current ++ upcoming) := by
  obtain ⟨later, current', upcoming', ran, ended, rest, delivered⟩ :=
    between.rounds supplies n left (Nat.le_of_eq count.symm) accepted
  rw [List.drop_eq_nil_of_le (Nat.le_of_eq count)] at rest
  rw [List.take_of_length_le (Nat.le_of_eq count)] at delivered
  obtain ⟨rfl, rfl⟩ := List.append_eq_nil_iff.mp rest
  exact ⟨later, ran, ended, delivered⟩

/-- Refilling the buffer does not leave it, whatever follows the image. -/
theorem Between.page_inside (supplies : env.Supplies holds)
    (between : Between env holds current upcoming loading) (some : current ++ upcoming ≠ [])
    (extra : List Bytes) : env.pageStrays (loading.followed extra) = false := by
  unfold pageStrays
  cases current with
  | nil =>
      have full : ∀ src ∈ upcoming, src.length = env.page.bytes := between.full
      obtain ⟨inside, next, loaded, -, -⟩ :=
        supplies upcoming loading.source some full between.queue
      have positive := env.page.bytes_pos
      have first := List.length_pos_iff.mpr (show upcoming ≠ [] from some)
      have filled : 0 < (env.loadBuffer loading.source).1 := by
        rw [loaded, flatten_length fun src member => full src (List.mem_of_mem_take member),
          List.length_take]
        exact Nat.mul_pos positive (by omega)
      have outside : env.bufferStrays (loading.followed extra).source = false :=
        (bufferStrays_loaded extra filled).trans inside
      rw [outside, Bool.and_false]
  | cons first rest =>
      have kept : ¬ (loading.followed extra).bufSize ≤ 0 := between.unused
      rw [decide_eq_false kept, Bool.false_and]

theorem loadPage_accepted {n : Nat} (success : (env.loadPage n loading).1 = 0) :
    (env.verifyOnly || env.accepts n) = true := by
  unfold LoadEnv.loadPage at success
  dsimp only at success
  split at success
  · exact absurd success eio_ne_zero
  · split at success
    · assumption
    · exact absurd success eio_ne_zero

/-- Whatever the kernel refuses and whatever follows the image, no round leaves the buffers as long
as there are pages. -/
theorem Between.inside (supplies : env.Supplies holds)
    (between : Between env holds current upcoming loading) (n left : Nat)
    (enough : left + 1 ≤ (current ++ upcoming).length) (extra : List Bytes) :
    env.strays left n (loading.followed extra) = false := by
  have here := between.page_inside supplies
    (List.ne_nil_of_length_pos (Nat.lt_of_lt_of_le (Nat.succ_pos left) enough)) extra
  induction left generalizing current upcoming loading n with
  | zero => exact here
  | succ left ih =>
      rw [strays, here, Bool.false_or]
      by_cases success : (env.loadPage n (loading.followed extra)).1 = 0
      · obtain ⟨src, more, next⟩ := List.exists_cons_of_length_pos
          (show 0 < (current ++ upcoming).length by omega)
        obtain ⟨later, current', upcoming', passed, arrived, rest, -⟩ :=
          between.step supplies next (loadPage_accepted success)
        have followed := loadPage_followed extra (congrArg Prod.fst passed)
        rw [passed] at followed
        rw [next, List.length_cons, ← rest] at enough
        rw [followed, ih arrived (n + 1) (Nat.le_of_succ_le_succ enough)
          (arrived.page_inside supplies (List.ne_nil_of_length_pos (by omega)) extra),
          Bool.and_false]
      · rw [decide_eq_false success, Bool.false_and]

end LoadEnv

end Suspend
