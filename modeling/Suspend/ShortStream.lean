import Suspend.ReadStream
import Suspend.SwapLayout

set_option autoImplicit false

namespace Suspend

open Foundation.Memory

namespace ReadEnv

variable {env : ReadEnv}

theorem made_wanted {totalSize : Int} {srcs : List Bytes}
    (some : env.made (srcs.take (env.wanted totalSize srcs)) ≠ []) :
    0 < env.wanted totalSize srcs := by
  by_contra none
  have zero : env.wanted totalSize srcs = 0 := by omega
  rw [zero] at some
  unfold wanted at zero
  unfold made at some
  by_cases compressed : env.settings.doDecompress = true
  · rw [if_pos compressed] at zero
    split at zero <;> omega
  · rw [if_neg compressed] at some
    exact some rfl

variable (env) in
/-- The number of image pages in the stored pages `srcs` if `load_image` cannot get past these:
there is a buffer that lies within them and that it fails to load, or finds empty. -/
def held (totalSize : Int) (srcs : List Bytes) : Option Nat :=
  if srcs.length < env.wanted totalSize srcs then none
  else
    if _some : env.made (srcs.take (env.wanted totalSize srcs)) ≠ [] then
      (held (totalSize - env.page.bytes * env.wanted totalSize srcs)
        (srcs.drop (env.wanted totalSize srcs))).map fun later =>
          covering env.page.bytes (env.made (srcs.take (env.wanted totalSize srcs))).length + later
    else Option.some 0
termination_by srcs.length
decreasing_by
  have positive := made_wanted _some
  rw [List.length_drop]
  omega

/-- Without compression the image ends in time if `total_size` is not larger than what is stored,
and then it has `total_size` bytes. -/
theorem held_plain (plain : env.settings.doDecompress = false) (totalSize : Int)
    (srcs : List Bytes) (full : ∀ src ∈ srcs, src.length = env.page.bytes) :
    env.held totalSize srcs = if totalSize ≤ env.page.bytes * (srcs.length : Nat) then
      some (covering env.page.bytes totalSize.toNat) else none := by
  have positive := env.page.bytes_pos
  have wants (total : Int) (srcs : List Bytes) :
      env.wanted total srcs = min 32 (covering env.page.bytes total.toNat) := by
    simp only [wanted, plain, Bool.false_eq_true, ↓reduceIte, plainCount]
  have fits (total : Int) (count : Nat) : total ≤ env.page.bytes * (count : Nat) ↔
      covering env.page.bytes total.toNat ≤ count := by
    rw [← Nat.not_lt, lt_covering positive]
    omega
  have data {srcs : List Bytes} (full : ∀ src ∈ srcs, src.length = env.page.bytes) (count : Nat) :
      (env.made (srcs.take count)).length = env.page.bytes * min count srcs.length := by
    simp only [made, plain, Bool.false_eq_true, ↓reduceIte]
    rw [flatten_length fun part member => full part (List.mem_of_mem_take member),
      List.length_take]
  fun_induction held env totalSize srcs with
  | case1 totalSize srcs short =>
      rw [wants] at short
      rw [if_neg]
      rw [fits]
      omega
  | case2 totalSize srcs enough some ih =>
      have some := data full (env.wanted totalSize srcs) ▸ List.length_pos_iff.mpr some
      rw [ih fun src member => full src (List.mem_of_mem_drop member), data full,
        List.length_drop]
      rw [wants] at enough some ⊢
      generalize hpages : covering env.page.bytes totalSize.toNat = pages at *
      have rest : covering env.page.bytes
          (totalSize - env.page.bytes * (min 32 pages : Nat)).toNat = pages - min 32 pages := by
        rw [← hpages, ← covering_sub _ _ positive]
        congr 1
        have cast := Int.natCast_mul env.page.bytes
          (min 32 (covering env.page.bytes totalSize.toNat))
        omega
      have all : min (min 32 pages) srcs.length = min 32 pages := by omega
      rw [all, covering_mul positive]
      simp only [fits, rest, hpages]
      split
      · rw [if_pos (by omega)]
        exact congrArg Option.some (by dsimp only; omega)
      · rw [if_neg (by omega)]
        rfl
  | case3 totalSize srcs enough none =>
      have nothing : env.made (srcs.take (env.wanted totalSize srcs)) = [] :=
        Decidable.not_not.mp none
      have empty := data full (env.wanted totalSize srcs)
      rw [nothing, List.length_nil, wants] at empty
      rw [wants] at enough
      have zero : covering env.page.bytes totalSize.toNat = 0 := by
        have product := (Nat.mul_eq_zero.mp empty.symm).resolve_left positive.ne'
        omega
      rw [if_pos ((fits _ _).mpr (by omega)), zero]

/-- The pages ahead that matter are known if there are enough of them. -/
theorem wanted_append {totalSize : Int} {front : List Bytes} (more : List Bytes)
    (enough : env.wanted totalSize front ≤ front.length) :
    env.wanted totalSize (front ++ more) = env.wanted totalSize front := by
  unfold wanted at enough ⊢
  split
  · next compressed =>
    rw [if_pos compressed] at enough
    cases front with
    | nil => exact absurd enough (Nat.not_succ_le_zero 0)
    | cons first rest => rfl
  · rfl

theorem wanted_short {totalSize : Int} {front : List Bytes} (more : List Bytes)
    (short : front.length < env.wanted totalSize front) :
    front.length < env.wanted totalSize (front ++ more) := by
  unfold wanted at short ⊢
  split
  · next compressed =>
    rw [if_pos compressed] at short
    cases front with
    | nil =>
        rw [List.nil_append, List.length_nil]
        split <;> omega
    | cons first rest => exact short
  · next plain =>
    rwa [if_neg plain] at short

theorem prefix_drop {α : Type} {short long : List α} (front : short <+: long) (count : Nat) :
    short.drop count <+: long.drop count := by
  obtain ⟨rest, rfl⟩ := front
  rw [List.drop_append]
  exact List.prefix_append _ _

/-- The reader is somewhere in the chain: it has consumed the first of the `locations`, and the
pages of `front` are left, unless it cannot get to them. -/
structure Within (env : ReadEnv) (locations : List Int) (front : List (Int × Bytes))
    (handle : ImageReader env.cipher) : Prop where
  ahead : env.ahead handle <+: front ∨ front <+: env.ahead handle
  consumed : handle.consumed ++ front.map Prod.fst = locations

variable {locations : List Int} {front : List (Int × Bytes)}

/-- What becomes of a buffer that lies within the chain. -/
theorem loadBuffer_within {handle : ImageReader env.cipher} {count : Nat}
    (within : env.Within locations front handle)
    (some : env.held handle.totalSize (front.map Prod.snd) = Option.some count) :
    ∃ size next, env.loadBuffer handle = (size, next) ∧
      (size = 0 ∧ next.consumed <+: locations ∨
        ∃ rest later, 0 < size ∧ env.Within locations rest next ∧
          env.held next.totalSize (rest.map Prod.snd) = Option.some later ∧
          covering env.page.bytes size + later = count) := by
  rw [held] at some
  split at some
  · cases some
  next enough =>
    have fits : env.wanted handle.totalSize (front.map Prod.snd) ≤ front.length := by
      rw [List.length_map] at enough
      omega
    by_cases short : (env.ahead handle).length <
        env.wanted handle.totalSize ((env.ahead handle).map Prod.snd)
    · -- the pages ahead end before the buffer does
      obtain ⟨next, failed, consumed⟩ := loadBuffer_short short
      refine ⟨0, next, failed, .inl ⟨rfl, ?_⟩⟩
      rcases within.ahead with ⟨more, rfl⟩ | ⟨more, longer⟩
      · rw [consumed, ← within.consumed, List.map_append, ← List.append_assoc]
        exact List.prefix_append _ _
      · have same := wanted_append (more.map Prod.snd) (Nat.not_lt.mp enough)
        rw [← List.map_append, longer] at same
        rw [same, ← longer, List.length_append] at short
        omega
    · have same : env.wanted handle.totalSize ((env.ahead handle).map Prod.snd) =
          env.wanted handle.totalSize (front.map Prod.snd) := by
        rcases within.ahead with ⟨more, rfl⟩ | ⟨more, longer⟩
        · rw [List.map_append]
          exact (wanted_append _ (by rw [List.length_map]; omega)).symm
        · rw [← longer, List.map_append]
          exact wanted_append _ (Nat.not_lt.mp enough)
      rw [same] at short
      generalize env.wanted handle.totalSize (front.map Prod.snd) = wants at *
      have taken : (env.ahead handle).take wants = front.take wants := by
        rcases within.ahead with ⟨more, rfl⟩ | ⟨more, longer⟩
        · rw [List.take_append_of_le_length (by omega)]
        · rw [← longer, List.take_append_of_le_length fits]
      obtain ⟨next, loaded, consumed, buffered⟩ := loadBuffer_ahead
        (List.take_append_drop wants (env.ahead handle)).symm
        (by rw [List.take_append_drop, List.length_take, same]; omega)
      rw [taken, List.map_take] at loaded consumed
      refine ⟨_, next, loaded, ?_⟩
      by_cases empty : env.made ((front.map Prod.snd).take wants) = []
      · refine .inl ⟨by rw [empty]; rfl, ?_⟩
        rw [consumed, ← within.consumed, List.prefix_append_right_inj]
        exact List.take_prefix _ _
      · rw [dif_pos empty] at some
        rw [taken, List.map_take] at buffered
        have step := buffered empty
        have width : (front.take wants).length = wants := by
          rw [List.length_take]
          omega
        rw [width] at step
        obtain ⟨later, rest, total⟩ := Option.map_eq_some_iff.mp some
        refine .inr ⟨front.drop wants, later, List.length_pos_iff.mpr empty, ⟨?_, ?_⟩, ?_, total⟩
        · rw [step.ahead]
          exact within.ahead.imp (fun shorter => prefix_drop shorter wants)
            fun longer => prefix_drop longer wants
        · rw [consumed, List.append_assoc, List.map_drop, List.take_append_drop]
          exact within.consumed
        · rw [step.totalSize, List.map_drop]
          exact rest

/-- So many pages of the buffer are still to be passed on. -/
def waiting (env : ReadEnv) (loading : env.Loading) : Nat :=
  covering env.page.bytes loading.bufSize.toNat

theorem waiting_step {loading : env.Loading} (more : 0 < loading.bufSize) :
    env.waiting loading =
      covering env.page.bytes (loading.bufSize - env.page.bytes).toNat + 1 := by
  unfold waiting
  rw [covering_step env.page.bytes_pos (by omega)]
  congr 2
  omega

/-- A page is passed on only if there is one in the buffer. -/
theorem loadPage_cases (n : Nat) (loading : env.Loading) :
    ((env.loadPage n loading).1 ≠ 0 ∧
        (env.loadPage n loading).2.handle = (env.refill loading).handle) ∨
      ((env.loadPage n loading).1 = 0 ∧ 0 < (env.refill loading).bufSize ∧
        (env.loadPage n loading).2.handle = (env.refill loading).handle ∧
        (env.loadPage n loading).2.bufSize = (env.refill loading).bufSize - env.page.bytes) := by
  unfold loadPage
  dsimp only
  split
  · exact .inl ⟨show - EIO ≠ 0 by decide, rfl⟩
  · next some =>
    split
    · exact .inr ⟨rfl, by omega, rfl, rfl⟩
    · exact .inl ⟨show - EIO ≠ 0 by decide, rfl⟩

/-- Within the chain there are pages to pass on, or the load ends. -/
theorem refill_within {loading : env.Loading} {count : Nat}
    (within : env.Within locations front loading.handle)
    (some : env.held loading.handle.totalSize (front.map Prod.snd) = Option.some count) :
    ((env.refill loading).bufSize ≤ 0 ∧ (env.refill loading).handle.consumed <+: locations) ∨
      ∃ rest later, 0 < (env.refill loading).bufSize ∧
        env.Within locations rest (env.refill loading).handle ∧
        env.held (env.refill loading).handle.totalSize (rest.map Prod.snd) = Option.some later ∧
        env.waiting (env.refill loading) + later = env.waiting loading + count := by
  unfold refill
  split
  · next used =>
    have nothing : env.waiting loading = 0 := by
      unfold waiting
      rw [Int.toNat_of_nonpos used]
      exact covering_zero env.page.bytes_pos
    obtain ⟨size, next, answer, ⟨failed, consumed⟩ | ⟨rest, later, more, inside, held, total⟩⟩ :=
      loadBuffer_within within some
    · rw [answer, failed]
      exact .inl ⟨Int.le_refl 0, consumed⟩
    · rw [answer]
      refine .inr ⟨rest, later, ?_, inside, held, ?_⟩
      · dsimp only
        omega
      · rw [nothing, Nat.zero_add]
        exact total
  · next unused => exact .inr ⟨front, count, by omega, within, some, rfl⟩

theorem Within.prefix {handle : ImageReader env.cipher}
    (within : env.Within locations front handle) : handle.consumed <+: locations := by
  rw [← within.consumed]
  exact List.prefix_append _ _

theorem refill_consumed {loading : env.Loading} {count : Nat}
    (within : env.Within locations front loading.handle)
    (some : env.held loading.handle.totalSize (front.map Prod.snd) = Option.some count) :
    (env.refill loading).handle.consumed <+: locations := by
  rcases refill_within within some with ⟨_, consumed⟩ | ⟨rest, later, _, inside, _⟩
  · exact consumed
  · exact inside.prefix

/-- If more pages are wanted than the chain holds, the load fails, and no page behind the end of
the chain has been consumed. -/
theorem loadLoop_within (left n : Nat) {loading : env.Loading} {count : Nat}
    (within : env.Within locations front loading.handle)
    (some : env.held loading.handle.totalSize (front.map Prod.snd) = Option.some count)
    (few : env.waiting loading + count ≤ left) :
    (env.loadLoop left n loading).1 ≠ 0 ∧
      (env.loadLoop left n loading).2.handle.consumed <+: locations := by
  have consumed := refill_consumed within some
  induction left generalizing n loading front count with
  | zero =>
      rcases loadPage_cases n loading with ⟨failed, same⟩ | ⟨_, more, _⟩
      · exact ⟨failed, same ▸ consumed⟩
      · rcases refill_within within some with ⟨used, _⟩ | ⟨rest, later, _, _, _, total⟩
        · omega
        · have page := waiting_step more
          omega
  | succ left ih =>
      unfold loadLoop
      dsimp only
      rcases loadPage_cases n loading with ⟨failed, same⟩ | ⟨passed, more, same, size⟩
      · rw [if_pos failed]
        exact ⟨failed, same ▸ consumed⟩
      · rw [if_neg (not_not_intro passed)]
        rcases refill_within within some with ⟨used, _⟩ | ⟨rest, later, _, inside, held, total⟩
        · omega
        · have page := waiting_step more
          rw [← size] at page
          rw [← same] at inside held
          refine ih (n + 1) inside held ?_ (refill_consumed inside held)
          unfold waiting at *
          omega

theorem loadAndDecryptPage_consumes (dst : Nat) (handle : ImageReader env.cipher) :
    handle.consumed <+: (env.loadAndDecryptPage dst handle).2.consumed := by
  rcases env.loadAndDecryptPage_cases dst handle with
    ⟨src, state, _, _, answer⟩ | ⟨error, fd, answer⟩
  · rw [answer]
    exact List.prefix_append _ _
  · simp only [answer, List.prefix_rfl]

/-- The reader is somewhere in the chain, and can get to its end and beyond. -/
structure Beyond (env : ReadEnv) (locations : List Int) (again : Int) (front : List (Int × Bytes))
    (handle : ImageReader env.cipher) : Prop where
  ahead : ∃ src more, env.ahead handle = front ++ (again, src) :: more
  consumed : handle.consumed ++ front.map Prod.fst = locations

variable {again : Int}

/-- A buffer is loaded from within the chain, or a page behind its end is consumed. -/
theorem loadBuffer_beyond {handle : ImageReader env.cipher}
    (beyond : env.Beyond locations again front handle) :
    (locations ++ [again]) <+: (env.loadBuffer handle).2.consumed ∨
      ∃ size next, env.loadBuffer handle = (size, next) ∧
        (env.held handle.totalSize (front.map Prod.snd) = Option.some 0 ∨
          ∃ rest, 0 < size ∧ env.Beyond locations again rest next ∧
            ∀ later, env.held next.totalSize (rest.map Prod.snd) = Option.some later →
              env.held handle.totalSize (front.map Prod.snd) =
                Option.some (covering env.page.bytes size + later)) := by
  obtain ⟨src, more, ahead⟩ := beyond.ahead
  have known := beyond.consumed
  by_cases short : (front.map Prod.snd).length <
      env.wanted handle.totalSize (front.map Prod.snd)
  · -- the buffer reaches beyond the chain
    left
    have longer := wanted_short (((again, src) :: more).map Prod.snd) short
    rw [← List.map_append, ← ahead, List.length_map] at longer
    generalize wants : env.wanted handle.totalSize ((env.ahead handle).map Prod.snd) = count at *
    by_cases enough : count ≤ (env.ahead handle).length
    · obtain ⟨next, loaded, consumed, _⟩ := loadBuffer_ahead
        (List.take_append_drop count (env.ahead handle)).symm
        (by rw [List.take_append_drop, List.length_take, wants]; omega)
      obtain ⟨extra, sum⟩ := Nat.exists_eq_add_of_lt longer
      rw [loaded]
      dsimp only
      rw [consumed, ← known, List.append_assoc, List.prefix_append_right_inj, ahead,
        List.take_append, List.map_append, List.take_of_length_le (by omega),
        List.prefix_append_right_inj, show count - front.length = extra + 1 by omega]
      exact ⟨_, rfl⟩
    · obtain ⟨next, failed, consumed⟩ := loadBuffer_short (by rw [wants]; omega)
      rw [failed]
      dsimp only
      rw [consumed, ← known, ahead, List.append_assoc, List.prefix_append_right_inj,
        List.map_append, List.prefix_append_right_inj]
      exact ⟨_, rfl⟩
  · right
    have same := wanted_append (((again, src) :: more).map Prod.snd) (Nat.not_lt.mp short)
    rw [← List.map_append, ← ahead] at same
    rw [held, if_neg short]
    rw [List.length_map] at short
    generalize env.wanted handle.totalSize (front.map Prod.snd) = count at *
    have taken : (env.ahead handle).take count = front.take count := by
      rw [ahead, List.take_append_of_le_length (by omega)]
    have width : (front.take count).length = count := by
      rw [List.length_take]
      omega
    obtain ⟨next, loaded, consumed, buffered⟩ := loadBuffer_ahead
      (List.take_append_drop count (env.ahead handle)).symm
      (by rw [List.take_append_drop, taken, width, same])
    rw [taken, List.map_take] at loaded consumed
    rw [taken, List.map_take, width] at buffered
    refine ⟨_, next, loaded, ?_⟩
    by_cases empty : env.made ((front.map Prod.snd).take count) = []
    · exact .inl (dif_neg (not_not_intro empty))
    · have step := buffered empty
      refine .inr ⟨front.drop count, List.length_pos_iff.mpr empty, ⟨⟨src, more, ?_⟩, ?_⟩, ?_⟩
      · rw [step.ahead, ahead, List.drop_append_of_le_length (by omega)]
      · rw [consumed, List.append_assoc, List.map_drop, List.take_append_drop]
        exact known
      · intro later rest
        rw [step.totalSize, List.map_drop] at rest
        rw [dif_pos empty, rest]
        rfl

theorem loadLoop_consumes {consumed : List Int} (left n : Nat) (loading : env.Loading)
    (before : consumed <+: loading.handle.consumed) :
    consumed <+: (env.loadLoop left n loading).2.handle.consumed :=
  loadLoop_invariant
    (fun dst handle front => List.IsPrefix.trans front (loadAndDecryptPage_consumes dst handle))
    (fun _ _ _ front => front) left n loading before

theorem refill_beyond {loading : env.Loading}
    (beyond : env.Beyond locations again front loading.handle) :
    (locations ++ [again]) <+: (env.refill loading).handle.consumed ∨
      env.held loading.handle.totalSize (front.map Prod.snd) = Option.some 0 ∧
        loading.bufSize ≤ 0 ∨
      ∃ rest, 0 < (env.refill loading).bufSize ∧
        env.Beyond locations again rest (env.refill loading).handle ∧
        ∀ later, env.held (env.refill loading).handle.totalSize (rest.map Prod.snd) =
            Option.some later →
          ∃ count, env.held loading.handle.totalSize (front.map Prod.snd) = Option.some count ∧
            env.waiting (env.refill loading) + later = env.waiting loading + count := by
  unfold refill
  split
  · next used =>
    have nothing : env.waiting loading = 0 := by
      unfold waiting
      rw [Int.toNat_of_nonpos used]
      exact covering_zero env.page.bytes_pos
    rcases loadBuffer_beyond beyond with past | ⟨size, next, answer, broken | ⟨rest, more, inside,
      held⟩⟩
    · exact .inl past
    · exact .inr (.inl ⟨broken, used⟩)
    · rw [answer]
      refine .inr (.inr ⟨rest, ?_, inside, fun later found => ⟨_, held later found, ?_⟩⟩)
      · dsimp only
        omega
      · rw [nothing, Nat.zero_add]
        rfl
  · next unused =>
    exact .inr (.inr ⟨front, by omega, beyond, fun later found => ⟨later, found, rfl⟩⟩)

/-- Otherwise the load succeeds, or a page behind the end of the chain is consumed. -/
theorem loadLoop_beyond (accepted : ∀ n, (env.verifyOnly || env.accepts n) = true)
    (left n : Nat) {loading : env.Loading}
    (beyond : env.Beyond locations again front loading.handle)
    (many : ∀ count, env.held loading.handle.totalSize (front.map Prod.snd) =
      Option.some count → left < env.waiting loading + count) :
    (env.loadLoop left n loading).1 = 0 ∨
      (locations ++ [again]) <+: (env.loadLoop left n loading).2.handle.consumed := by
  have passes (n : Nat) {loading : env.Loading} (some : 0 < (env.refill loading).bufSize) :
    (env.loadPage n loading).1 = 0 ∧
      (env.loadPage n loading).2.handle = (env.refill loading).handle ∧
      (env.loadPage n loading).2.bufSize = (env.refill loading).bufSize - env.page.bytes := by
    unfold loadPage
    dsimp only
    rw [if_neg (by omega), if_pos (accepted n)]
    exact ⟨rfl, rfl, rfl⟩
  induction left generalizing n loading front with
  | zero =>
      rcases refill_beyond beyond with past | ⟨broken, used⟩ | ⟨rest, more, _⟩
      · refine .inr ?_
        unfold loadLoop
        rwa [loadPage_handle]
      · have nothing := many 0 broken
        unfold waiting at nothing
        rw [Int.toNat_of_nonpos used, covering_zero env.page.bytes_pos] at nothing
        exact absurd nothing (Nat.lt_irrefl 0)
      · exact .inl (passes n more).1
  | succ left ih =>
      unfold loadLoop
      dsimp only
      rcases refill_beyond beyond with past | ⟨broken, used⟩ | ⟨rest, more, inside, total⟩
      · refine .inr ?_
        rw [← loadPage_handle n] at past
        split
        · exact past
        · exact loadLoop_consumes left (n + 1) _ past
      · have nothing := many 0 broken
        unfold waiting at nothing
        rw [Int.toNat_of_nonpos used, covering_zero env.page.bytes_pos] at nothing
        omega
      · obtain ⟨passed, same, size⟩ := passes n more
        rw [if_neg (not_not_intro passed)]
        rw [← same] at inside total
        refine ih (n + 1) inside ?_
        intro later found
        obtain ⟨count, known, sum⟩ := total later found
        have wanted := many count known
        have page := waiting_step more
        rw [← size] at page
        unfold waiting at *
        omega

end ReadEnv

end Suspend
