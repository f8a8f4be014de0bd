import Suspend.ConfigParser

set_option autoImplicit false

namespace Suspend

/-- The first line of a file with its newline, and what follows it. -/
def splitLine : Bytes → Bytes × Bytes
  | [] => ([], [])
  | byte :: rest =>
      if byte = 0x0a then ([byte], rest) else (byte :: (splitLine rest).1, (splitLine rest).2)

theorem splitLine_shorter (byte : UInt8) (rest : Bytes) :
    (splitLine (byte :: rest)).2.length ≤ rest.length := by
  induction rest generalizing byte with
  | nil =>
      unfold splitLine
      split <;> simp [splitLine]
  | cons next rest ih =>
      rw [splitLine]
      split
      · exact Nat.le_refl _
      · exact (ih next).trans (Nat.le_succ _)

/-- The lines of a file. The last one may have no newline. -/
def lines : Bytes → List Bytes
  | [] => []
  | byte :: rest => (splitLine (byte :: rest)).1 :: lines (splitLine (byte :: rest)).2
termination_by file => file.length
decreasing_by exact Nat.lt_succ_of_le (splitLine_shorter byte rest)

/-- The bytes of a line in front of a NUL. -/
def cString (line : Bytes) : Bytes := line.takeWhile (· ≠ 0)

/-- The pieces of a line that fit in the buffer. -/
def pieces : Bytes → List Bytes
  | [] => []
  | byte :: rest =>
      (byte :: rest).take (MAX_STR_LEN - 1) :: pieces ((byte :: rest).drop (MAX_STR_LEN - 1))
termination_by line => line.length
decreasing_by
  rw [List.length_drop, List.length_cons, MAX_STR_LEN]
  omega

/-- What is left of strings without the white space at their start, the empty ones and the
comments. -/
def loud (strs : List Bytes) : List Bytes :=
  (strs.map (·.dropWhile isSpace)).filter fun str => str ≠ [] ∧ str.head? ≠ some 0x23

/-- But for blank ones and comments, the pieces of the line are the line. -/
def Whole (line : Bytes) : Prop := loud ((pieces line).map cString) = loud [cString line]

instance (line : Bytes) : Decidable (Whole line) := inferInstanceAs (Decidable (_ = _))

theorem splitLine_append {file line rest : Bytes} (split : splitLine file = (line, rest)) :
    line ++ rest = file := by
  induction file generalizing line rest with
  | nil => cases split; rfl
  | cons byte file ih =>
      unfold splitLine at split
      split at split
      · cases split
        rfl
      · cases split
        rw [List.cons_append, ih rfl]

theorem splitLine_drop {file line rest : Bytes} (split : splitLine file = (line, rest))
    {count : Nat}
    (within : count < line.length) :
    splitLine (line.drop count ++ rest) = (line.drop count, rest) := by
  induction file generalizing line rest count with
  | nil => cases split; cases within
  | cons byte file ih =>
      cases count with
      | zero => rw [List.drop_zero, splitLine_append split, split]
      | succ count =>
          unfold splitLine at split
          split at split
          · cases split
            simp at within
          · cases split
            rw [List.drop_succ_cons]
            exact ih rfl (Nat.lt_of_succ_lt_succ within)

/-- A call of `fgets` stays within a line. -/
theorem fgets_splitLine {file line rest : Bytes} (split : splitLine file = (line, rest))
    (size : Nat) : fgets size file = (line.take size, line.drop size ++ rest) := by
  induction size generalizing file line rest with
  | zero => rw [fgets, List.take_zero, List.drop_zero, splitLine_append split]
  | succ size ih =>
      cases file with
      | nil => cases split; rfl
      | cons byte file =>
          unfold splitLine at split
          rw [fgets]
          split at split
          · next newline =>
              cases split
              rw [if_pos newline]
              simp
          · next other =>
              cases split
              rw [if_neg other, ih rfl]
              rfl

theorem pieces_eq {line : Bytes} (nonempty : line ≠ []) :
    pieces line = line.take (MAX_STR_LEN - 1) :: pieces (line.drop (MAX_STR_LEN - 1)) := by
  cases line with
  | nil => exact absurd rfl nonempty
  | cons byte rest => rw [pieces]

theorem lines_eq {file line rest : Bytes} (nonempty : file ≠ [])
    (split : splitLine file = (line, rest)) : lines file = line :: lines rest := by
  cases file with
  | nil => exact absurd rfl nonempty
  | cons byte file => rw [lines, split]

theorem filePieces_split {file line rest : Bytes} (nonempty : file ≠ [])
    (split : splitLine file = (line, rest)) :
    filePieces file = cString (line.take (MAX_STR_LEN - 1)) ::
      filePieces (line.drop (MAX_STR_LEN - 1) ++ rest) := by
  cases file with
  | nil => exact absurd rfl nonempty
  | cons byte file => rw [filePieces, fgets_splitLine split, cString]

theorem splitLine_nonempty {file line rest : Bytes} (nonempty : file ≠ [])
    (split : splitLine file = (line, rest)) : line ≠ [] := by
  cases file with
  | nil => exact absurd rfl nonempty
  | cons byte file =>
      unfold splitLine at split
      split at split <;> cases split <;> simp

theorem filePieces_eq (file : Bytes) :
    filePieces file = (lines file).flatMap fun line => (pieces line).map cString := by
  induction length : file.length using Nat.strongRecOn generalizing file with
  | ind size ih =>
      by_cases nonempty : file = []
      · rw [nonempty, filePieces, lines]
        rfl
      · cases split : splitLine file with
        | mk line rest =>
            have whole := splitLine_append split
            have some := splitLine_nonempty nonempty split
            have positive := List.length_pos_iff.mpr some
            have shorter : (line.drop (MAX_STR_LEN - 1) ++ rest).length < size := by
              have sum := congrArg List.length whole
              rw [List.length_append] at sum
              rw [List.length_append, List.length_drop, MAX_STR_LEN]
              omega
            rw [filePieces_split nonempty split, lines_eq nonempty split, List.flatMap_cons,
              pieces_eq some, ih _ shorter _ rfl]
            by_cases short : line.length ≤ MAX_STR_LEN - 1
            · rw [List.drop_of_length_le short, List.nil_append, pieces]
              rfl
            · have remaining : line.drop (MAX_STR_LEN - 1) ≠ [] := by
                rw [ne_eq, List.drop_eq_nil_iff]
                omega
              have more := splitLine_drop split (not_le.mp short)
              rw [lines_eq (by simp [remaining]) more, List.flatMap_cons]
              rfl

section Parser

variable {Var : Type} [DecidableEq Var] {parv : List (ConfigPar Var)}

theorem loud_cons (str : Bytes) (strs : List Bytes) :
    loud (str :: strs) = loud [str] ++ loud strs := by
  unfold loud
  rw [List.map_cons, List.filter_cons, List.map_cons, List.filter_cons]
  split <;> rfl

theorem loud_append (first second : List Bytes) :
    loud (first ++ second) = loud first ++ loud second := by
  unfold loud
  rw [List.map_append, List.filter_append]

theorem loud_flatMap {α : Type} (strs : α → List Bytes) (items : List α) :
    loud (items.flatMap strs) = items.flatMap fun item => loud (strs item) := by
  induction items with
  | nil => rfl
  | cons item items ih => rw [List.flatMap_cons, loud_append, ih, List.flatMap_cons]

theorem parseLine_quiet {str : Bytes} (quiet : loud [str] = []) (store : Store Var) :
    parseLine parv str store = (0, store) := by
  have silent : ¬ (str.dropWhile isSpace ≠ [] ∧ (str.dropWhile isSpace).head? ≠ some 0x23) := by
    simpa [loud] using quiet
  unfold parseLine
  dsimp only
  split
  · rfl
  · next some =>
      split
      · rfl
      · next other => exact absurd ⟨some, other⟩ silent

/-- The white space at the start of a string does not matter. -/
theorem parseLine_dropWhile (str : Bytes) (store : Store Var) :
    parseLine parv (str.dropWhile isSpace) store = parseLine parv str store := by
  unfold parseLine
  rw [List.dropWhile_idempotent]

theorem loud_singleton (str : Bytes) : loud [str] = [] ∨ loud [str] = [str.dropWhile isSpace] := by
  unfold loud
  by_cases heard : str.dropWhile isSpace ≠ [] ∧ (str.dropWhile isSpace).head? ≠ some 0x23
  · exact Or.inr (List.filter_cons_of_pos (by simpa using heard))
  · exact Or.inl (List.filter_cons_of_neg (by simpa using heard))

/-- What is heard is heard again. -/
theorem loud_of_mem {str : Bytes} {strs : List Bytes} (heard : str ∈ loud strs) :
    loud [str] = [str] := by
  unfold loud at heard
  rw [List.mem_filter] at heard
  obtain ⟨other, _, rfl⟩ := List.mem_map.mp heard.1
  unfold loud
  rw [List.map_singleton, List.dropWhile_idempotent]
  exact List.filter_cons_of_pos heard.2

theorem parseLines_heard (str : Bytes) (strs : List Bytes) (store : Store Var) :
    parseLines parv (str :: strs) store = parseLines parv (loud [str] ++ strs) store := by
  rcases loud_singleton str with quiet | heard
  · rw [quiet, List.nil_append, parseLines, parseLine_quiet quiet]
    rfl
  · rw [heard, List.singleton_append, parseLines, parseLines, parseLine_dropWhile]

/-- Only what is heard has an effect. -/
theorem parseLines_loud (strs : List Bytes) (store : Store Var) :
    parseLines parv strs store = parseLines parv (loud strs) store := by
  induction strs generalizing store with
  | nil => rfl
  | cons str strs ih =>
      rw [loud_cons, parseLines_heard]
      rcases loud_singleton str with quiet | heard
      · rw [quiet]
        exact ih store
      · rw [heard, List.singleton_append, List.singleton_append, parseLines, parseLines]
        simp only [ih]

theorem parseLine_refused {str : Bytes} {store : Store Var}
    (refused : (parseLine parv str store).1 ≠ 0) : parseLine parv str store = (-EINVAL, store) := by
  have names (parv : List (ConfigPar Var)) (str : Bytes)
      (refused : (parseNames parv str store).1 ≠ 0) :
      parseNames parv str store = (-EINVAL, store) := by
    fun_induction parseNames parv str store <;> grind
  unfold parseLine at refused ⊢
  grind

/-- `parse` comes to lines that are whole as long as none is refused, and of the first one that is
refused, the first piece that is heard is refused, too. -/
def ReadWhole (parv : List (ConfigPar Var)) : List Bytes → Store Var → Prop
  | [], _ => True
  | line :: rest, store =>
      if (parseLine parv (cString line) store).1 = 0 then
        Whole line ∧ ReadWhole parv rest (parseLine parv (cString line) store).2
      else
        ∃ piece ∈ (loud ((pieces line).map cString)).head?, (parseLine parv piece store).1 ≠ 0

theorem readWhole_of_whole {rows : List Bytes} (whole : ∀ line ∈ rows, Whole line)
    (store : Store Var) : ReadWhole parv rows store := by
  induction rows generalizing store with
  | nil => trivial
  | cons line rest ih =>
      obtain ⟨here, later⟩ := List.forall_mem_cons.mp whole
      unfold ReadWhole
      split
      · exact ⟨here, ih later _⟩
      · next refused =>
        rcases loud_singleton (cString line) with quiet | heard
        · rw [parseLine_quiet quiet] at refused
          exact absurd rfl refused
        · refine ⟨(cString line).dropWhile isSpace, ?_, ?_⟩
          · rw [here, heard]
            rfl
          · rwa [parseLine_dropWhile]

/-- As long as the lines are whole, `parse` goes line by line. -/
theorem parse_whole {file : Bytes} {store : Store Var} (whole : ReadWhole parv (lines file) store) :
    parse parv file store = parseLines parv ((lines file).map cString) store := by
  rw [parse, filePieces_eq, parseLines_loud, loud_flatMap]
  generalize lines file = rows at whole
  -- the store is the same before every line
  induction rows generalizing store with
  | nil => rfl
  | cons line rest ih =>
      rw [List.flatMap_cons, List.map_cons]
      unfold ReadWhole at whole
      split at whole
      · next accepted =>
        rw [whole.1, ← parseLines_heard, parseLines, parseLines]
        rw [if_neg (not_not_intro accepted), if_neg (not_not_intro accepted), ih whole.2]
      · next refused =>
        obtain ⟨piece, first, failed⟩ := whole
        cases heard : loud ((pieces line).map cString) with
        | nil =>
            rw [heard] at first
            cases first
        | cons head tail =>
            rw [heard] at first
            obtain rfl : head = piece := Option.some.inj first
            rw [List.cons_append, parseLines, parseLines]
            rw [if_pos failed, if_pos refused, parseLine_refused failed, parseLine_refused refused]

end Parser

/-- A table with one parameter. -/
def soleEntry (name : Bytes) : List (ConfigPar Unit) := [⟨name, .s, some (), 1⟩]

theorem parseLine_named {name : Bytes} (heard : loud [name] = [name]) (store : Store Unit) :
    parseLine (soleEntry name) name store = (-EINVAL, store) := by
  have start : name.dropWhile isSpace = name := by
    rcases loud_singleton name with quiet | again
    · rw [quiet] at heard
      cases heard
    · rw [again] at heard
      exact List.singleton_inj.mp heard
  have both : name ≠ [] ∧ name.head? ≠ some 0x23 := by
    have present : name ∈ loud [name] := by simp [heard]
    simpa [loud, start] using present
  have prefixed : name.isPrefixOf name = true :=
    List.isPrefixOf_iff_prefix.mpr (List.prefix_refl name)
  simp only [parseLine, start, both, soleEntry, parseNames, prefixed, List.drop_length,
    List.dropWhile_nil, ↓reduceIte]

/-- Strings that are shorter than the name are not about the parameter. -/
theorem parseLines_shorter {name : Bytes} {strs : List Bytes}
    (shorter : ∀ str ∈ strs, str.length < name.length) (store : Store Unit) :
    parseLines (soleEntry name) strs store = (0, store) := by
  induction strs with
  | nil => rfl
  | cons str strs ih =>
      have other : name.isPrefixOf (str.dropWhile isSpace) = false := by
        rw [Bool.eq_false_iff, ne_eq, List.isPrefixOf_iff_prefix]
        intro start
        have longer := start.length_le.trans (List.dropWhile_sublist isSpace).length_le
        exact absurd (shorter str List.mem_cons_self) (not_lt.mpr longer)
      have nothing : parseLine (soleEntry name) str store = (0, store) := by
        simp [parseLine, soleEntry, parseNames, other]
      rw [parseLines, nothing]
      exact ih fun later present => shorter later (List.mem_cons_of_mem str present)

/-- Where the first of some strings that is not blank begins, the strings together begin. -/
theorem split_blank {strs : List Bytes} (nonblank : strs.flatten.dropWhile isSpace ≠ []) :
    ∃ blanks str later, strs = blanks ++ str :: later ∧
      (∀ blank ∈ blanks, blank.dropWhile isSpace = []) ∧ str.dropWhile isSpace ≠ [] ∧
      strs.flatten.dropWhile isSpace = str.dropWhile isSpace ++ later.flatten := by
  induction strs with
  | nil => exact absurd rfl nonblank
  | cons first strs ih =>
      rw [List.flatten_cons, List.dropWhile_append] at nonblank ⊢
      by_cases blank : (first.dropWhile isSpace).isEmpty = true
      · rw [if_pos blank] at nonblank ⊢
        obtain ⟨blanks, str, later, rfl, all, visible, together⟩ := ih nonblank
        refine ⟨first :: blanks, str, later, rfl, ?_, visible, together⟩
        rw [List.forall_mem_cons]
        exact ⟨List.isEmpty_iff.mp blank, all⟩
      · rw [if_neg blank]
        exact ⟨[], first, strs, rfl, by simp, fun none => blank (List.isEmpty_iff.mpr none), rfl⟩

theorem flatten_pieces (line : Bytes) : (pieces line).flatten = line := by
  fun_induction pieces line with
  | case1 => rfl
  | case2 byte rest ih => rw [List.flatten_cons, ih, List.take_append_drop]

theorem loud_blanks {strs : List Bytes} (blank : ∀ str ∈ strs, str.dropWhile isSpace = []) :
    loud strs = [] := by
  unfold loud
  rw [List.filter_eq_nil_iff]
  intro str present
  obtain ⟨other, inside, rfl⟩ := List.mem_map.mp present
  simp [blank other inside]

theorem cString_free {str : Bytes} (free : 0 ∉ str) : cString str = str := by
  unfold cString
  rw [List.takeWhile_eq_self_iff]
  intro byte present
  have nonzero : byte ≠ 0 := by
    rintro rfl
    exact free present
  simpa using nonzero

/-- Without NULs the pieces of a line are what `fgets` returns. -/
theorem map_pieces_free {line : Bytes} (free : 0 ∉ line) :
    (pieces line).map cString = pieces line := by
  have each : ∀ piece ∈ pieces line, 0 ∉ piece := by
    intro piece present zero
    apply free
    rw [← flatten_pieces line]
    exact List.mem_flatten.mpr ⟨piece, present, zero⟩
  calc (pieces line).map cString = (pieces line).map id :=
        List.map_congr_left fun piece present => cString_free (each piece present)
    _ = pieces line := List.map_id _

/-- The pieces of a line that is heard and not whole are all shorter than the line. -/
theorem loud_pieces_shorter {line : Bytes} (heard : loud [line] = [line.dropWhile isSpace])
    (broken : loud (pieces line) ≠ loud [line]) :
    ∀ str ∈ loud (pieces line), str.length < (line.dropWhile isSpace).length := by
  have present : line.dropWhile isSpace ∈ loud [line] := by simp [heard]
  have nonblank : (pieces line).flatten.dropWhile isSpace ≠ [] := by
    have both : line.dropWhile isSpace ≠ [] ∧ (line.dropWhile isSpace).head? ≠ some 0x23 := by
      simpa [loud] using present
    rw [flatten_pieces]
    exact both.1
  obtain ⟨blanks, first, later, split, blank, visible, together⟩ := split_blank nonblank
  rw [flatten_pieces] at together
  have longer : later.flatten ≠ [] := by
    intro none
    apply broken
    have quiet : loud later = [] := loud_blanks fun str inside => by
      rw [List.flatten_eq_nil_iff.mp none str inside]
      rfl
    rw [none, List.append_nil] at together
    have same : loud [first] = loud [line] := by
      unfold loud
      rw [List.map_singleton, List.map_singleton, together]
    rw [split, loud_append, loud_cons, loud_blanks blank, quiet, List.append_nil, same]
    rfl
  have whole := congrArg List.length together
  rw [List.length_append] at whole
  have more := List.length_pos_iff.mpr longer
  have start := List.length_pos_iff.mpr visible
  intro str found
  rw [split, loud_append, loud_cons, loud_blanks blank, List.nil_append, List.mem_append] at found
  rcases found with here | behind
  · rcases loud_singleton first with quiet | same
    · rw [quiet] at here
      cases here
    · rw [same, List.mem_singleton] at here
      rw [here]
      omega
  · obtain ⟨piece, inside, rfl⟩ := List.mem_map.mp (List.mem_of_mem_filter behind)
    have part := (List.dropWhile_sublist isSpace (l := piece)).length_le
    have sum := (List.sublist_flatten_of_mem inside).length_le
    omega

/-- A line of a file of its own that is not whole is not parsed like a line by some table. -/
theorem whole_of_alike {line : Bytes} (free : 0 ∉ line) (one : lines line = [line])
    (alike : ∀ (parv : List (ConfigPar Unit)) (store : Store Unit),
      parse parv line store = parseLines parv [cString line] store) : Whole line := by
  unfold Whole
  rw [map_pieces_free free, cString_free free]
  by_contra broken
  have chunks : filePieces line = pieces line := by
    rw [filePieces_eq, one, List.flatMap_singleton, map_pieces_free free]
  have store : Store Unit := fun _ => .number 0
  rcases loud_singleton line with quiet | heard
  · cases found : loud (pieces line) with
    | nil => exact broken (found.trans quiet.symm)
    | cons str rest =>
        have loud_str : loud [str] = [str] := loud_of_mem (found ▸ List.mem_cons_self)
        have same := alike (soleEntry str) store
        rw [parse, chunks, parseLines_loud, found, parseLines, parseLine_named loud_str,
          cString_free free,
          parseLines, parseLine_quiet quiet] at same
        cases congrArg Prod.fst same
  · have same := alike (soleEntry (line.dropWhile isSpace)) store
    have named : loud [line.dropWhile isSpace] = [line.dropWhile isSpace] :=
      loud_of_mem (heard ▸ List.mem_singleton_self _)
    rw [parse, chunks, parseLines_loud, parseLines_shorter (loud_pieces_shorter heard broken),
      cString_free free, parseLines_loud [line], heard, parseLines, parseLine_named named] at same
    cases congrArg Prod.fst same

/-- `parse` goes line by line as long as the lines that it comes to are whole. For a file of one
line without NULs this is also necessary, if it is to hold for every table. -/
theorem parse_by_lines (file : Bytes) :
    (∀ (Var : Type) [DecidableEq Var] (parv : List (ConfigPar Var)) (store : Store Var),
      ReadWhole parv (lines file) store →
        parse parv file store = parseLines parv ((lines file).map cString) store) ∧
    (0 ∉ file → lines file = [file] →
      ((∀ (Var : Type) [DecidableEq Var] (parv : List (ConfigPar Var)) (store : Store Var),
        parse parv file store = parseLines parv [cString file] store) ↔ Whole file)) := by
  refine ⟨fun Var _ parv store whole => parse_whole whole, fun free one => ?_⟩
  constructor
  · intro alike
    exact whole_of_alike free one fun parv store => alike Unit parv store
  · intro whole Var _ parv store
    have all : ∀ line ∈ lines file, Whole line := by
      rw [one]
      simpa using whole
    rw [parse_whole (readWhole_of_whole all store), one, List.map_singleton]

theorem whole_of_short {line : Bytes} (short : line.length < MAX_STR_LEN) : Whole line := by
  by_cases empty : line = []
  · simp [empty, Whole, pieces, loud, cString]
  · have fits : line.length ≤ MAX_STR_LEN - 1 := Nat.le_sub_one_of_lt short
    rw [Whole, pieces_eq empty, List.take_of_length_le fits, List.drop_of_length_le fits, pieces,
      List.map_singleton]

/-- A table with the resume offset. -/
def offsetTable : List (ConfigPar Unit) := [⟨ascii "resume offset", .llu, some (), 0⟩]

/-- A comment of 255 bytes, and what stands behind it on the same line. -/
def longComment : Bytes :=
  0x23 :: List.replicate 254 0x2d ++ ascii "resume offset = 5\n"

/-- Behind a line that is refused a long comment does no harm. -/
def longAfterError : Bytes := ascii "resume offset\n" ++ longComment

theorem longAfterError_read :
    ReadWhole offsetTable (lines longAfterError) fun _ => .number 0 := by
  have refused : (parseLine offsetTable (ascii "resume offset\n") fun _ => .number 0).1 ≠ 0 := by
    decide +kernel
  have rows : lines longAfterError = [ascii "resume offset\n", longComment] := by decide +kernel
  have first : cString (ascii "resume offset\n") = ascii "resume offset\n" := by decide +kernel
  rw [rows, ReadWhole, first, if_neg refused]
  exact ⟨ascii "resume offset\n", by decide +kernel, refused⟩

theorem short_lines_parsed :
    parse offsetTable (ascii "# offset\nresume offset = 5\n") (fun _ => .number 0) =
        parseLines offsetTable ((lines (ascii "# offset\nresume offset = 5\n")).map cString)
          (fun _ => .number 0) ∧
      parse offsetTable longAfterError (fun _ => .number 0) =
        parseLines offsetTable ((lines longAfterError).map cString) (fun _ => .number 0) ∧
      ¬ Whole longComment := by
  refine ⟨?_, ?_, ?_⟩
  · exact (parse_by_lines _).1 Unit offsetTable _ (readWhole_of_whole (by decide +kernel) _)
  · exact (parse_by_lines _).1 Unit offsetTable _ longAfterError_read
  · intro whole
    have alike := ((parse_by_lines longComment).2 (by decide +kernel) (by decide +kernel)).mpr whole
      Unit offsetTable fun _ => .number 0
    have effect := congrArg (fun result => result.2 ()) alike
    revert effect
    decide +kernel

/-- A long comment sets a parameter. -/
theorem long_comment_parsed :
    (parse offsetTable longComment fun _ => .number 0).2 () = .number 5 ∧
      (parseLines offsetTable ((lines longComment).map cString) fun _ => .number 0).2 () =
        .number 0 := by
  decide +kernel

end Suspend
