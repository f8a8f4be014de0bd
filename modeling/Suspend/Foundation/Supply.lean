import Mathlib.Data.List.Infix

set_option autoImplicit false

namespace Foundation.Supply

variable {Answer Result Other : Type}

/-- What a call takes: it is good with the answers `used` and whatever follows them, and it fails
with any fewer. -/
structure Takes (call : List Answer → Result × List Answer) (fails : Result → Prop)
    (answers used : List Answer) : Prop where
  split : answers = used ++ (call answers).2
  enough : ∀ rest, call (used ++ rest) = ((call answers).1, rest)
  fewer : ∀ part, part <+: used → part ≠ used → fails (call part).1

namespace Takes

variable {call : List Answer → Result × List Answer} {fails : Result → Prop}
  {answers used : List Answer}

theorem congr {other : List Answer → Result × List Answer} (takes : Takes call fails answers used)
    (same : ∀ answers, other answers = call answers) : Takes other fails answers used := by
  rwa [funext same]

theorem nothing {result : Result} (same : ∀ answers, call answers = (result, answers)) :
    Takes call fails answers [] where
  split := by rw [same, List.nil_append]
  enough := by
    intro rest
    rw [same, same, List.nil_append]
  fewer := fun part short different => absurd (List.prefix_nil.mp short) different

theorem bind (takes : Takes call fails answers used)
    (next : Result → List Answer → Other × List Answer) {failing : Other → Prop}
    {more : List Answer}
    (stops : ∀ part, fails (call part).1 → failing (next (call part).1 (call part).2).1)
    (later : Takes (next (call answers).1) failing (call answers).2 more) :
    Takes (fun answers => next (call answers).1 (call answers).2) failing answers
      (used ++ more) where
  split := by
    rw [List.append_assoc, ← later.split]
    exact takes.split
  enough := by
    intro rest
    rw [List.append_assoc, takes.enough]
    exact later.enough rest
  fewer := by
    intro part short different
    rcases List.prefix_or_prefix_of_prefix short (List.prefix_append used more) with within | beyond
    · by_cases whole : part = used
      · have stopped := later.fewer [] List.nil_prefix (by
          rintro rfl
          exact different (by rw [whole, List.append_nil]))
        have run := takes.enough []
        rw [List.append_nil] at run
        rw [whole, run]
        exact stopped
      · exact stops part (takes.fewer part within whole)
    · obtain ⟨tail, rfl⟩ := beyond
      have stopped := later.fewer tail ((List.prefix_append_right_inj used).mp short) (by
        rintro rfl
        exact different rfl)
      rw [takes.enough]
      exact stopped

theorem map (takes : Takes call fails answers used) {view : Result → Other}
    {failing : Other → Prop} (stops : ∀ result, fails result → failing (view result)) :
    Takes (fun answers => (view (call answers).1, (call answers).2)) failing answers used where
  split := takes.split
  enough := by
    intro rest
    dsimp only
    rw [takes.enough]
  fewer := fun part short different => stops _ (takes.fewer part short different)

/-- A call gets through with some of the answers just if these are enough. -/
theorem fails_take_iff (takes : Takes call fails answers used) (good : ¬ fails (call answers).1)
    (count : Nat) : fails (call (answers.take count)).1 ↔ count < used.length := by
  constructor
  · intro failed
    by_contra enough
    apply good
    have more := takes.enough ((call answers).2.take (count - used.length))
    have front : answers.take count = used ++ (call answers).2.take (count - used.length) := by
      conv_lhs => rw [takes.split]
      rw [List.take_append, List.take_of_length_le (Nat.not_lt.mp enough)]
    rw [front, more] at failed
    exact failed
  · intro few
    have front : answers.take count = used.take count := by
      conv_lhs => rw [takes.split]
      exact List.take_append_of_le_length (Nat.le_of_lt few)
    rw [front]
    apply takes.fewer _ (List.take_prefix count used)
    intro whole
    have length := congrArg List.length whole
    rw [List.length_take] at length
    omega

end Takes

end Foundation.Supply
