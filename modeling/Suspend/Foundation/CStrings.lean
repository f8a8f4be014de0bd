import Mathlib.Data.List.Basic

set_option autoImplicit false

namespace Foundation.CStrings

/-- The number of bytes in front of the first NUL. -/
def strlen : List UInt8 → Option Nat
  | [] => none
  | byte :: rest => if byte = 0 then some 0 else (strlen rest).map (· + 1)

/-- The number of bytes in front of the first two NULs in a row. The second one of two bytes is
only looked at if the first one is a NUL. -/
def beforeTwo : List UInt8 → Option Nat
  | [] => none
  | [_] => none
  | byte :: next :: rest =>
      if byte = 0 ∧ next = 0 then some 0 else (beforeTwo (next :: rest)).map (· + 1)

/-- Strings in their order, each with its NUL. -/
def pack (strings : List (List UInt8)) : List UInt8 := strings.flatMap (· ++ [0])

@[simp] theorem pack_nil : pack [] = [] := rfl

@[simp] theorem pack_cons (text : List UInt8) (strings : List (List UInt8)) :
    pack (text :: strings) = text ++ 0 :: pack strings := by
  simp [pack]

theorem pack_append (first second : List (List UInt8)) :
    pack (first ++ second) = pack first ++ pack second :=
  List.flatMap_append

theorem strlen_append {text : List UInt8} (free : 0 ∉ text) (rest : List UInt8) :
    strlen (text ++ 0 :: rest) = some text.length := by
  induction text with
  | nil => simp [strlen]
  | cons byte text ih =>
      rw [List.mem_cons, not_or] at free
      have other : ¬ byte = 0 := fun same => free.1 same.symm
      rw [List.cons_append, strlen, if_neg other, ih free.2]
      rfl

theorem strlen_eq_some {bytes : List UInt8} {length : Nat} (found : strlen bytes = some length) :
    ∃ text rest, bytes = text ++ 0 :: rest ∧ 0 ∉ text ∧ text.length = length := by
  induction bytes generalizing length with
  | nil => cases found
  | cons byte bytes ih =>
      rw [strlen] at found
      by_cases zero : byte = 0
      · rw [if_pos zero, Option.some.injEq] at found
        exact ⟨[], bytes, by simp [zero], by simp, found⟩
      · rw [if_neg zero, Option.map_eq_some_iff] at found
        obtain ⟨shorter, found, rfl⟩ := found
        obtain ⟨text, rest, rfl, free, rfl⟩ := ih found
        exact ⟨byte :: text, rest, rfl, by simp [free, Ne.symm zero], rfl⟩

/-- Where the first two NULs in a row are. -/
theorem beforeTwo_eq_some_iff {bytes : List UInt8} {count : Nat} :
    beforeTwo bytes = some count ↔
      (bytes[count]? = some 0 ∧ bytes[count + 1]? = some 0) ∧
        ∀ earlier < count, ¬ (bytes[earlier]? = some 0 ∧ bytes[earlier + 1]? = some 0) := by
  fun_induction beforeTwo bytes generalizing count with
  | case1 => simp
  | case2 => simp
  | case3 byte next rest both =>
      constructor
      · intro found
        rw [Option.some.injEq] at found
        subst found
        exact ⟨by simp [both], by simp⟩
      · rintro ⟨_, first⟩
        by_contra more
        have positive : 0 < count := by
          by_contra zero
          exact more (congrArg some (by omega))
        exact first 0 positive (by simp [both])
  | case4 byte next rest apart ih =>
      cases count with
      | zero =>
          constructor
          · intro found
            simp at found
          · rintro ⟨here, _⟩
            simp at here
            exact absurd here apart
      | succ count =>
          rw [Option.map_eq_some_iff]
          constructor
          · rintro ⟨_, found, ⟨⟩⟩
            obtain ⟨here, first⟩ := ih.mp found
            refine ⟨by simpa using here, ?_⟩
            intro earlier less
            cases earlier with
            | zero => simpa using apart
            | succ earlier => simpa using first earlier (by omega)
          · rintro ⟨here, first⟩
            refine ⟨count, ih.mpr ⟨by simpa using here, ?_⟩, rfl⟩
            intro earlier less
            simpa using first (earlier + 1) (by omega)

theorem beforeTwo_text {text : List UInt8} (free : 0 ∉ text) {rest : List UInt8} {count : Nat}
    (found : beforeTwo rest = some count) :
    beforeTwo (text ++ rest) = some (text.length + count) := by
  induction text with
  | nil => simpa using found
  | cons byte text ih =>
      rw [List.mem_cons, not_or] at free
      have more := ih free.2
      cases tail : text ++ rest with
      | nil =>
          rw [tail] at more
          cases more
      | cons next others =>
          have other : ¬ (byte = 0 ∧ next = 0) := fun both => free.1 both.1.symm
          rw [List.cons_append, tail, beforeTwo, if_neg other, ← tail, more, Option.map_some,
            List.length_cons]
          congr 1
          omega

/-- Behind strings that are not empty the two NULs in a row are the end of the last one and what
follows. -/
theorem beforeTwo_pack {strings : List (List UInt8)} (nonempty : strings ≠ [])
    (texts : ∀ text ∈ strings, text ≠ [] ∧ 0 ∉ text) (rest : List UInt8) :
    beforeTwo (pack strings ++ 0 :: rest) = some ((pack strings).length - 1) := by
  induction strings with
  | nil => exact absurd rfl nonempty
  | cons text strings ih =>
      have plain := (texts text List.mem_cons_self).2
      rw [pack_cons, List.append_assoc, List.cons_append]
      cases strings with
      | nil =>
          have found : beforeTwo (0 :: (pack [] ++ 0 :: rest)) = some 0 := by simp [beforeTwo]
          rw [beforeTwo_text plain found]
          simp
      | cons next strings =>
          have following := ih (by simp) fun other present =>
            texts other (List.mem_cons_of_mem _ present)
          have short := texts next (by simp)
          obtain ⟨first, more, rfl⟩ := List.exists_cons_of_ne_nil short.1
          have other : ¬ ((0 : UInt8) = 0 ∧ first = 0) := fun both =>
            short.2 (both.2 ▸ List.mem_cons_self)
          have found : beforeTwo (0 :: (pack ((first :: more) :: strings) ++ 0 :: rest)) =
              some ((pack ((first :: more) :: strings)).length - 1 + 1) := by
            rw [pack_cons, List.cons_append, List.cons_append, beforeTwo, if_neg other,
              ← List.cons_append, ← List.cons_append, ← pack_cons, following, Option.map_some]
          rw [beforeTwo_text plain found]
          simp only [pack_cons, List.length_append, List.length_cons]
          congr 1

/-- What `strncpy` makes of the bytes at its destination. -/
def strncpy (dst src : List UInt8) (count : Nat) : List UInt8 :=
  src.take count ++ List.replicate (count - src.length) 0 ++ dst.drop count

/-- The string that an array starts with. -/
def string (bytes : List UInt8) : List UInt8 := bytes.takeWhile (· ≠ 0)

theorem string_append {text : List UInt8} (free : 0 ∉ text) (rest : List UInt8) :
    string (text ++ 0 :: rest) = text := by
  have passed : ∀ byte ∈ text, decide (byte ≠ 0) = true := by
    intro byte present
    have other : byte ≠ 0 := by
      rintro rfl
      exact free present
    simpa using other
  rw [string, List.takeWhile_append_of_pos passed, List.takeWhile_cons_of_neg (by simp),
    List.append_nil]

theorem length_strncpy {dst : List UInt8} (src : List UInt8) {count : Nat}
    (room : count ≤ dst.length) : (strncpy dst src count).length = dst.length := by
  simp only [strncpy, List.length_append, List.length_take, List.length_replicate,
    List.length_drop]
  omega

/-- The last byte of an array stays what it is if there is room for it. -/
theorem getLast_strncpy {dst : List UInt8} (src : List UInt8) {count : Nat}
    (room : count < dst.length) : (strncpy dst src count).getLast? = dst.getLast? := by
  have remaining : dst.drop count ≠ [] := by
    rw [ne_eq, List.drop_eq_nil_iff]
    exact Nat.not_le.mpr room
  rw [strncpy, List.getLast?_append_of_ne_nil _ remaining, List.getLast?_drop,
    if_neg (Nat.not_le.mpr room)]

/-- In front of a last byte that is NUL the string is cut, and nothing of the old one is left. -/
theorem string_strncpy {dst src : List UInt8} (free : 0 ∉ src) {count : Nat}
    (size : dst.length = count + 1) (closed : dst.getLast? = some 0) :
    string (strncpy dst src count) = src.take count := by
  have last : dst.drop count = [0] := by
    rw [← List.dropLast_append_getLast? 0 closed, List.drop_append_of_le_length (by simp [size]),
      List.drop_of_length_le (by simp [size]), List.nil_append]
  have cut : 0 ∉ src.take count := fun present => free (List.mem_of_mem_take present)
  rw [strncpy, last]
  cases padding : count - src.length with
  | zero => exact (congrArg string (by simp)).trans (string_append cut [])
  | succ more =>
      rw [List.replicate_succ, List.append_assoc, List.cons_append]
      exact string_append cut _

end Foundation.CStrings
