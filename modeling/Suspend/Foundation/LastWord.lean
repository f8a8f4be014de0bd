import Mathlib.Logic.Function.Basic

set_option autoImplicit false

namespace Foundation.LastWord

/-- What is said: `none` if it is refused, and `some none` if it is about no variable. -/
abbrev Word (Var Value : Type) := Option (Option (Var × Value))

variable {Var Value : Type}

/-- Nobody speaks of the variable. -/
def Silent (words : List (Word Var Value)) (var : Var) : Prop :=
  ∀ value, some (some (var, value)) ∉ words

/-- The last word on the variable counts, if there is one. -/
def Effective (words : List (Word Var Value)) (store : Var → Value) (var : Var) (value : Value) :
    Prop :=
  Silent words var ∧ value = store var ∨
    ∃ before after, words = before ++ some (some (var, value)) :: after ∧ Silent after var

theorem silent_cons (word : Word Var Value) (rest : List (Word Var Value)) (var : Var) :
    Silent (word :: rest) var ↔ (∀ value, word ≠ some (some (var, value))) ∧ Silent rest var := by
  simp only [Silent, List.mem_cons, not_or, forall_and, ne_comm]

theorem effective_nil (store : Var → Value) (var : Var) (value : Value) :
    Effective [] store var value ↔ value = store var := by
  simp [Effective, Silent]

/-- A word on another variable, or on none, makes no difference. -/
theorem effective_other {word : Word Var Value} {var : Var}
    (other : ∀ value, word ≠ some (some (var, value))) (rest : List (Word Var Value))
    (store : Var → Value) (value : Value) :
    Effective (word :: rest) store var value ↔ Effective rest store var value := by
  unfold Effective
  rw [silent_cons, and_iff_right other]
  apply or_congr_right
  constructor
  · rintro ⟨before, after, split, silent⟩
    cases before with
    | nil => exact absurd (List.cons.inj split).1 (other value)
    | cons first before => exact ⟨before, after, (List.cons.inj split).2, silent⟩
  · rintro ⟨before, after, split, silent⟩
    exact ⟨word :: before, after, by rw [split, List.cons_append], silent⟩

section Run

variable [DecidableEq Var]

/-- One word after the other, unless one of them is refused. -/
def run : List (Word Var Value) → (Var → Value) → Option (Var → Value)
  | [], store => some store
  | none :: _, _ => none
  | some none :: rest, store => run rest store
  | some (some (var, value)) :: rest, store => run rest (Function.update store var value)

/-- For the words behind it, a word on the variable is what there was before. -/
theorem effective_same (var : Var) (said : Value) (rest : List (Word Var Value))
    (store : Var → Value) (value : Value) :
    Effective (some (some (var, said)) :: rest) store var value ↔
      Effective rest (Function.update store var said) var value := by
  unfold Effective
  rw [silent_cons, Function.update_self]
  constructor
  · rintro (⟨⟨other, -⟩, -⟩ | ⟨before, after, split, silent⟩)
    · exact absurd rfl (other said)
    · cases before with
      | nil =>
          cases split
          exact .inl ⟨silent, rfl⟩
      | cons first before => exact .inr ⟨before, after, (List.cons.inj split).2, silent⟩
  · rintro (⟨silent, rfl⟩ | ⟨before, after, split, silent⟩)
    · exact .inr ⟨[], rest, rfl, silent⟩
    · exact .inr ⟨_ :: before, after, by rw [split, List.cons_append], silent⟩

/-- What the words leave, if none of them is refused. -/
theorem run_eq_some_iff (words : List (Word Var Value)) (store after : Var → Value) :
    run words store = some after ↔ none ∉ words ∧ ∀ var, Effective words store var (after var) := by
  induction words generalizing store with
  | nil =>
      simp only [run, effective_nil, List.not_mem_nil, not_false_eq_true, true_and,
        Option.some.injEq, funext_iff]
      exact forall_congr' fun var => eq_comm
  | cons word rest ih =>
      rcases word with _ | _ | ⟨var, value⟩
      · simp [run]
      · rw [run, ih, List.mem_cons, or_iff_right (by simp)]
        apply and_congr_right
        intro _
        apply forall_congr'
        intro var
        exact (effective_other (by simp) rest store (after var)).symm
      · rw [run, ih, List.mem_cons, or_iff_right (by simp)]
        apply and_congr_right
        intro _
        apply forall_congr'
        intro other
        by_cases same : other = var
        · rw [same]
          exact (effective_same var value rest store (after var)).symm
        · rw [effective_other (by simp [Ne.symm same])]
          simp only [Effective, Function.update_of_ne same]

theorem run_append (front behind : List (Word Var Value)) (store : Var → Value) :
    run (front ++ behind) store = (run front store).bind (run behind) := by
  induction front generalizing store with
  | nil => rfl
  | cons word rest ih =>
      rcases word with _ | _ | ⟨var, value⟩
      · rfl
      · exact ih store
      · exact ih (Function.update store var value)

end Run

end Foundation.LastWord
