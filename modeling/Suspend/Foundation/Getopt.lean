import Mathlib.Data.List.TakeWhile

set_option autoImplicit false

namespace Foundation.Getopt

/-- An element of the array that `getopt_long` is given. A flag to set is not supported. -/
structure LongOption where
  name : List UInt8
  hasArg : Bool
  val : Nat
  deriving DecidableEq

/-- The options that a program knows. An optional argument (`::`) is not supported. -/
structure Options where
  optstring : List UInt8
  long : List LongOption

/-- What a call returns, and `optarg`; `none` is for `'?'`. -/
abbrev Returned := Option (Nat × List UInt8)

/-- What a word is read as: what is returned for it, and the option that waits for the next word as
its argument. -/
abbrev Reading := List Returned × Option Nat

/-- What the words are read as: what is returned, the option that misses its argument at the end,
the words of the options, whether `--` ends them, and the other words. -/
structure Scan where
  returned : List Returned
  missing : Option Nat
  words : List (List UInt8)
  ended : Bool
  operands : List (List UInt8)

def terminator : List UInt8 := [0x2d, 0x2d]

/-- A word that begins with a dash, and is more than that. -/
def IsOption (word : List UInt8) : Prop := word.head? = some 0x2d ∧ word ≠ [0x2d]

instance (word : List UInt8) : Decidable (IsOption word) := inferInstanceAs (Decidable (_ ∧ _))

/-- A long option with what is behind its name: an equals sign and the argument, or nothing. -/
def LongOption.readArg (option : LongOption) : List UInt8 → Reading
  | _ :: arg => if option.hasArg then ([some (option.val, arg)], none) else ([none], none)
  | [] => if option.hasArg then ([], some option.val) else ([some (option.val, [])], none)

namespace Options

variable (options : Options)

/-- Whether the letter is an option, and whether it has an argument. -/
def short (letter : UInt8) : Option Bool :=
  if letter = 0x3a then none
  else
    match options.optstring.dropWhile (· ≠ letter) with
    | [] => none
    | _ :: rest => some (decide (rest.head? = some 0x3a))

/-- The long option of this name, or the one that it abbreviates. An abbreviation may fit more than
one if it makes no difference. -/
def findLong (name : List UInt8) : Option LongOption :=
  match options.long.find? (·.name = name) with
  | some option => some option
  | none =>
      match options.long.filter (name.isPrefixOf ·.name) with
      | [] => none
      | first :: rest =>
          if ∀ other ∈ rest, other.hasArg = first.hasArg ∧ other.val = first.val then some first
          else none

/-- The text behind two dashes. -/
def readLong (text : List UInt8) : Reading :=
  match options.findLong (text.takeWhile (· ≠ 0x3d)) with
  | none => ([none], none)
  | some option => option.readArg (text.dropWhile (· ≠ 0x3d))

/-- The letters behind one dash. -/
def readShort : List UInt8 → Reading
  | [] => ([], none)
  | letter :: rest =>
      match options.short letter with
      | none => (none :: (readShort rest).1, (readShort rest).2)
      | some false => (some (letter.toNat, []) :: (readShort rest).1, (readShort rest).2)
      | some true =>
          if rest = [] then ([], some letter.toNat) else ([some (letter.toNat, rest)], none)

def readWord (word : List UInt8) : Reading :=
  if terminator.isPrefixOf word then options.readLong (word.drop 2)
  else options.readShort (word.drop 1)

/-- `getopt_long` until it returns -1, where the words that are no options do not end them. -/
def scan : Option Nat → List (List UInt8) → Scan
  | missing, [] => ⟨[], missing, [], false, []⟩
  | some val, word :: rest =>
      let later := scan none rest
      { later with returned := some (val, word) :: later.returned, words := word :: later.words }
  | none, word :: rest =>
      if word = terminator then ⟨[], none, [], true, rest⟩
      else if IsOption word then
        let later := scan (options.readWord word).2 rest
        { later with
          returned := (options.readWord word).1 ++ later.returned
          words := word :: later.words }
      else
        let later := scan none rest
        { later with operands := word :: later.operands }

end Options

namespace Scan

variable (scan : Scan)

/-- What has been returned, with a `'?'` for an argument that is missing. -/
def all : List Returned := scan.returned ++ if scan.missing.isSome then [none] else []

/-- The words as `getopt_long` leaves them, the options first. -/
def permuted : List (List UInt8) :=
  scan.words ++ (if scan.ended then terminator :: scan.operands else scan.operands)

/-- What a second pass makes of it. -/
def again : Scan :=
  match scan.missing, scan.operands with
  | some val, word :: rest =>
      { scan with
        returned := scan.returned ++ [some (val, word)]
        missing := none
        words := scan.words ++ [word]
        operands := rest }
  | _, _ => scan

/-- The option has been met, be it without its argument. -/
def Meets (val : Nat) : Prop := (∃ arg, some (val, arg) ∈ scan.returned) ∨ scan.missing = some val

theorem again_returned {returned : Returned} (member : returned ∈ scan.returned) :
    returned ∈ scan.again.all := by
  unfold again all
  split
  · exact List.mem_append_left _ (List.mem_append_left _ member)
  · exact List.mem_append_left _ member

/-- An option that has been met is returned in the second pass, or its argument is still missing. -/
theorem again_meets {scan : Scan} {val : Nat} (met : scan.Meets val) :
    (∃ arg, some (val, arg) ∈ scan.again.all) ∨ none ∈ scan.again.all := by
  rcases met with ⟨arg, member⟩ | missing
  · exact .inl ⟨arg, scan.again_returned member⟩
  · unfold again all
    rw [missing]
    cases scan.operands with
    | nil =>
        right
        simp [missing]
    | cons word rest => exact .inl ⟨word, by simp⟩

end Scan

namespace Options

variable {options : Options}

/-- The words of the options are read again as they were, and then those that are behind them. -/
theorem scan_words (missing : Option Nat) (argv rest : List (List UInt8)) :
    options.scan missing ((options.scan missing argv).words ++ rest) =
      let first := options.scan missing argv
      let later := options.scan first.missing rest
      { later with
        returned := first.returned ++ later.returned
        words := first.words ++ later.words } := by
  fun_induction options.scan missing argv with
  | case1 missing => simp
  | case2 val word argv later ih => simp only [List.cons_append, scan, ih, later]
  | case3 => simp
  | case4 word argv more dash later ih =>
      simp only [List.cons_append, scan, if_neg more, if_pos dash, ih, List.append_assoc, later]
  | case5 word argv more dash later ih => exact ih

theorem scan_operands {argv : List (List UInt8)} (plain : ∀ word ∈ argv, ¬ IsOption word) :
    options.scan none argv = ⟨[], none, [], false, argv⟩ := by
  induction argv with
  | nil => rfl
  | cons word rest ih =>
      have operand := plain word List.mem_cons_self
      have more : word ≠ terminator := fun dashes => operand (by rw [dashes]; decide)
      rw [scan, if_neg more, if_neg operand,
        ih fun other member => plain other (List.mem_cons_of_mem _ member)]

/-- Only `--` leaves options behind it, and no option misses its argument then. -/
theorem scan_plain (missing : Option Nat) (argv : List (List UInt8)) :
    if (options.scan missing argv).ended then (options.scan missing argv).missing = none
    else ∀ word ∈ (options.scan missing argv).operands, ¬ IsOption word := by
  fun_induction options.scan missing argv with
  | case1 missing => simp
  | case2 val word argv later ih => exact ih
  | case3 => simp
  | case4 word argv more dash later ih => exact ih
  | case5 word argv more dash later ih =>
      by_cases ends : later.ended = true
      · rw [if_pos ends] at ih ⊢
        exact ih
      · rw [if_neg ends] at ih ⊢
        intro other member
        rcases List.mem_cons.mp member with rfl | behind
        · exact dash
        · exact ih other behind

/-- The second pass finds what the first one did, but that an option which missed its argument now
takes the first of the other words. -/
theorem scan_permuted (argv : List (List UInt8)) :
    options.scan none (options.scan none argv).permuted = (options.scan none argv).again := by
  have plain := @scan_plain options none argv
  unfold Scan.permuted
  rw [scan_words]
  generalize options.scan none argv = first at plain ⊢
  obtain ⟨returned, missing, words, ended, operands⟩ := first
  dsimp only at plain ⊢
  cases ended with
  | true =>
      obtain rfl : missing = none := plain
      simp [scan, Scan.again]
  | false =>
      have plain : ∀ word ∈ operands, ¬ IsOption word := plain
      rw [if_neg Bool.false_ne_true]
      cases missing with
      | none => simp [scan_operands plain, Scan.again]
      | some val =>
          cases operands with
          | nil => simp [scan, Scan.again]
          | cons word rest =>
              have behind : ∀ other ∈ rest, ¬ IsOption other := fun other member =>
                plain other (List.mem_cons_of_mem _ member)
              simp [scan, scan_operands behind, Scan.again]

theorem findLong_exact {name : List UInt8} {option : LongOption} (member : option ∈ options.long)
    (exact : option.name = name)
    (unique : ∀ option ∈ options.long, ∀ other ∈ options.long, option.name = other.name →
      option = other) :
    options.findLong name = some option := by
  have found : (options.long.find? (·.name = name)).isSome = true :=
    List.find?_isSome.mpr ⟨option, member, by simpa using exact⟩
  obtain ⟨first, finds⟩ := Option.isSome_iff_exists.mp found
  have same : first = option := unique _ (List.mem_of_find?_eq_some finds) _ member
    ((by simpa using List.find?_some finds : first.name = name).trans exact.symm)
  unfold findLong
  rw [finds, same]

theorem findLong_abbreviated {name : List UInt8}
    (inexact : ∀ option ∈ options.long, option.name ≠ name) :
    options.findLong name =
      match options.long.filter (name.isPrefixOf ·.name) with
      | [] => none
      | first :: rest =>
          if ∀ other ∈ rest, other.hasArg = first.hasArg ∧ other.val = first.val then some first
          else none := by
  unfold findLong
  rw [List.find?_eq_none.mpr fun option member => by simpa using inexact option member]

theorem findLong_cases {name : List UInt8} {option : LongOption}
    (found : options.findLong name = some option) :
    option ∈ options.long ∧ (option.name = name ∨
      (∀ other ∈ options.long, other.name ≠ name) ∧ name.isPrefixOf option.name = true ∧
      ∀ other ∈ options.long, name.isPrefixOf other.name = true →
        other.hasArg = option.hasArg ∧ other.val = option.val) := by
  by_cases inexact : ∀ other ∈ options.long, other.name ≠ name
  · rw [findLong_abbreviated inexact] at found
    cases fits : options.long.filter (name.isPrefixOf ·.name) with
    | nil => simp [fits] at found
    | cons first rest =>
        rw [fits] at found
        dsimp only at found
        split at found
        · case isTrue alike =>
          obtain rfl := Option.some.inj found
          have member : first ∈ options.long.filter (name.isPrefixOf ·.name) := by simp [fits]
          obtain ⟨there, abbreviates⟩ := List.mem_filter.mp member
          refine ⟨there, .inr ⟨inexact, abbreviates, fun other here again => ?_⟩⟩
          have one : other ∈ first :: rest := fits ▸ List.mem_filter.mpr ⟨here, again⟩
          rcases List.mem_cons.mp one with rfl | later
          · exact ⟨rfl, rfl⟩
          · exact alike other later
        · cases found
  · obtain ⟨other, member, exact⟩ : ∃ other ∈ options.long, other.name = name := by
      simpa using inexact
    unfold findLong at found
    cases finds : options.long.find? (·.name = name) with
    | none =>
        exact absurd exact (by simpa using List.find?_eq_none.mp finds other member)
    | some first =>
        rw [finds] at found
        obtain rfl := Option.some.inj found
        exact ⟨List.mem_of_find?_eq_some finds, .inl (by simpa using List.find?_some finds)⟩

/-- The letters of the options are those of `optstring`, but for the colon. -/
theorem short_isSome (letter : UInt8) :
    (options.short letter).isSome = true ↔ letter ∈ options.optstring ∧ letter ≠ 0x3a := by
  unfold short
  by_cases colon : letter = 0x3a
  · simp [colon]
  rw [if_neg colon, and_iff_left colon]
  cases found : options.optstring.dropWhile (· ≠ letter) with
  | nil =>
      refine iff_of_false Bool.false_ne_true fun member => ?_
      exact absurd (List.dropWhile_eq_nil_iff.mp found letter member) (by simp)
  | cons head rest =>
      refine iff_of_true rfl ?_
      have stops := List.head?_dropWhile_not (· ≠ letter) options.optstring
      rw [found] at stops
      have here : head = letter := by simpa using stops
      rw [← here]
      exact (List.dropWhile_sublist _).subset (found ▸ List.mem_cons_self)

/-- The program knows an option that is returned so. -/
def Knows (options : Options) (val : Nat) : Prop :=
  (∃ letter ∈ options.optstring, letter.toNat = val) ∨
    ∃ option ∈ options.long, option.val = val

instance (options : Options) (val : Nat) : Decidable (options.Knows val) :=
  inferInstanceAs (Decidable (_ ∨ _))

/-- The options of one program are some of those of another, which has no others that return the
same, nor others whose name begins one of these. -/
structure Within (options large : Options) : Prop where
  short : ∀ letter ∈ options.optstring, options.short letter = large.short letter
  letters : ∀ letter ∈ large.optstring, letter ∉ options.optstring →
    ¬ options.Knows letter.toNat
  long : options.long.Sublist large.long
  unique : ∀ option ∈ large.long, ∀ other ∈ large.long, option.name = other.name → option = other
  names : ∀ option ∈ large.long, option ∉ options.long →
    ∀ other ∈ options.long, option.name.isPrefixOf other.name = false
  vals : ∀ option ∈ large.long, option ∉ options.long → ¬ options.Knows option.val

variable {large : Options}

/-- A name that is found is found with fewer options, too, or is that of an option which is not one
of them. -/
theorem Within.findLong (within : options.Within large) {name : List UInt8} {option : LongOption}
    (found : large.findLong name = some option) :
    (∃ same, options.findLong name = some same ∧ same.hasArg = option.hasArg ∧
      same.val = option.val) ∨
    options.findLong name = none ∧ ¬ options.Knows option.val := by
  have sub := within.long.subset
  obtain ⟨member, exact | ⟨inexact, abbreviates, alike⟩⟩ := findLong_cases found
  · by_cases kept : option ∈ options.long
    · refine .inl ⟨option, findLong_exact kept exact ?_, rfl, rfl⟩
      exact fun one here other there => within.unique one (sub here) other (sub there)
    · refine .inr ⟨?_, within.vals option member kept⟩
      have none_fits : ∀ other ∈ options.long, name.isPrefixOf other.name = false := by
        rw [← exact]
        exact within.names option member kept
      have inexact : ∀ other ∈ options.long, other.name ≠ name := by
        rintro other here rfl
        exact absurd (none_fits other here) (by simp)
      rw [findLong_abbreviated inexact,
        List.filter_eq_nil_iff.mpr fun other here => by simp [none_fits other here]]
  · have inexact' : ∀ other ∈ options.long, other.name ≠ name := fun other here =>
      inexact other (sub here)
    rw [findLong_abbreviated inexact']
    cases fits : options.long.filter (name.isPrefixOf ·.name) with
    | nil =>
        refine .inr ⟨rfl, within.vals option member fun kept => ?_⟩
        exact List.filter_eq_nil_iff.mp fits option kept abbreviates
    | cons first rest =>
        have all : ∀ other ∈ first :: rest,
            other.hasArg = option.hasArg ∧ other.val = option.val := by
          intro other here
          rw [← fits] at here
          obtain ⟨there, again⟩ := List.mem_filter.mp here
          exact alike other (sub there) again
        have same := all first List.mem_cons_self
        refine .inl ⟨first, if_pos fun other later => ?_, same⟩
        have alike := all other (List.mem_cons_of_mem _ later)
        exact ⟨alike.1.trans same.1.symm, alike.2.trans same.2.symm⟩

/-- The option is in what has been read, be it without its argument. -/
def Reading.Meets (reading : Reading) (val : Nat) : Prop :=
  (∃ arg, some (val, arg) ∈ reading.1) ∨ reading.2 = some val

/-- What is read with fewer options: the same, or something is refused that is not one of them. -/
def Narrows (options : Options) (small large : Reading) : Prop :=
  small = large ∨ none ∈ small.1 ∧ ∃ val, Reading.Meets large val ∧ ¬ options.Knows val

theorem meets_readArg {option : LongOption} {text : List UInt8}
    (known : none ∉ (option.readArg text).1) : Reading.Meets (option.readArg text) option.val := by
  cases text with
  | nil => cases takes : option.hasArg <;> simp [LongOption.readArg, Reading.Meets, takes]
  | cons equals arg =>
      cases takes : option.hasArg
      · simp [LongOption.readArg, takes] at known
      · simp [LongOption.readArg, Reading.Meets, takes]

theorem Within.readLong (within : options.Within large) {text : List UInt8}
    (known : none ∉ (large.readLong text).1) :
    options.Narrows (options.readLong text) (large.readLong text) := by
  unfold Options.readLong at known ⊢
  cases found : large.findLong (text.takeWhile (· ≠ 0x3d)) with
  | none =>
      rw [found] at known
      exact absurd (List.mem_singleton_self _) known
  | some option =>
      rw [found] at known
      rcases within.findLong found with ⟨same, finds, hasArg, val⟩ | ⟨lost, unknown⟩
      · rw [finds]
        left
        unfold LongOption.readArg
        dsimp only
        rw [hasArg, val]
      · rw [lost]
        exact .inr ⟨List.mem_singleton_self _, option.val, meets_readArg known, unknown⟩

theorem Within.readShort (within : options.Within large) {letters : List UInt8}
    (known : none ∉ (large.readShort letters).1) :
    options.Narrows (options.readShort letters) (large.readShort letters) := by
  induction letters with
  | nil => exact .inl rfl
  | cons letter rest ih =>
      unfold Options.readShort at known ⊢
      cases found : large.short letter with
      | none => simp [found] at known
      | some takes =>
          rw [found] at known
          cases here : options.short letter with
          | none =>
              obtain ⟨there, letterly⟩ := short_isSome letter |>.mp (by rw [found]; rfl)
              have missing : letter ∉ options.optstring := fun member => by
                have known := (options.short_isSome letter).mpr ⟨member, letterly⟩
                simp [here] at known
              have unknown := within.letters letter there missing
              refine .inr ⟨List.mem_cons_self, letter.toNat, ?_, unknown⟩
              cases takes with
              | false => exact .inl ⟨[], List.mem_cons_self⟩
              | true =>
                  dsimp only
                  split
                  · exact .inr rfl
                  · exact .inl ⟨rest, List.mem_singleton_self _⟩
          | some takes' =>
              have member := ((short_isSome letter).mp (by rw [here]; rfl)).1
              obtain rfl : takes' = takes := Option.some.inj
                (here.symm.trans ((within.short letter member).trans found))
              cases takes' with
              | true => exact .inl rfl
              | false =>
                  have later : none ∉ (large.readShort rest).1 := fun refused =>
                    known (List.mem_cons_of_mem _ refused)
                  rcases ih later with same | ⟨refused, val, met, unknown⟩
                  · exact .inl (by rw [same])
                  · refine .inr ⟨List.mem_cons_of_mem _ refused, val, ?_, unknown⟩
                    exact met.imp (fun found => found.imp fun _ => List.mem_cons_of_mem _) id

theorem Within.readWord (within : options.Within large) {word : List UInt8}
    (known : none ∉ (large.readWord word).1) :
    options.Narrows (options.readWord word) (large.readWord word) := by
  unfold Options.readWord at known ⊢
  by_cases long : terminator.isPrefixOf word = true
  · rw [if_pos long] at known
    rw [if_pos long, if_pos long]
    exact within.readLong known
  · rw [if_neg long] at known
    rw [if_neg long, if_neg long]
    exact within.readShort known

/-- An option that waits for its argument is met, be there one or not. -/
theorem meets_scan (options : Options) (val : Nat) (argv : List (List UInt8)) :
    (options.scan (some val) argv).Meets val := by
  cases argv with
  | nil => exact .inr rfl
  | cons word rest => exact .inl ⟨word, List.mem_cons_self⟩

/-- If nothing is refused, fewer options read the words in the same way, or refuse an option that is
not one of them. -/
theorem Within.scan (within : options.Within large) {missing : Option Nat}
    {argv : List (List UInt8)} (known : none ∉ (large.scan missing argv).returned) :
    options.scan missing argv = large.scan missing argv ∨
      none ∈ (options.scan missing argv).returned ∧
        ∃ val, (large.scan missing argv).Meets val ∧ ¬ options.Knows val := by
  fun_induction large.scan missing argv with
  | case1 missing => exact .inl rfl
  | case2 val word argv later ih =>
      rw [Options.scan]
      rcases ih fun refused => known (List.mem_cons_of_mem _ refused) with
        same | ⟨refused, other, met, unknown⟩
      · exact .inl (by rw [same])
      · refine .inr ⟨List.mem_cons_of_mem _ refused, other, ?_, unknown⟩
        exact met.imp (fun found => found.imp fun _ => List.mem_cons_of_mem _) id
  | case3 => exact .inl (by rw [Options.scan, if_pos rfl])
  | case4 word argv more dash later ih =>
      obtain ⟨now, behind⟩ := not_or.mp (List.mem_append.not.mp known)
      rw [Options.scan, if_neg more, if_pos dash]
      rcases within.readWord now with same | ⟨refused, other, met, unknown⟩
      · rcases ih behind with again | ⟨refused, other, met, unknown⟩
        · exact .inl (by rw [same, again])
        · rw [same]
          refine .inr ⟨List.mem_append_right _ refused, other, ?_, unknown⟩
          exact met.imp (fun found => found.imp fun _ => List.mem_append_right _) id
      · refine .inr ⟨List.mem_append_left _ refused, other, ?_, unknown⟩
        rcases met with ⟨arg, read⟩ | waits
        · exact .inl ⟨arg, List.mem_append_left _ read⟩
        · have met : later.Meets other := by
            change (large.scan (large.readWord word).2 argv).Meets other
            rw [waits]
            exact large.meets_scan other argv
          exact met.imp (fun found => found.imp fun _ => List.mem_append_right _) id
  | case5 word argv more dash later ih =>
      rw [Options.scan, if_neg more, if_neg dash]
      exact (ih known).imp (fun same => by rw [same]) id

end Options

end Foundation.Getopt
