import Suspend.ConfigLines
import Suspend.Encryption
import Suspend.Foundation.FixedWidth

set_option autoImplicit false

namespace Suspend

open Foundation.FixedWidth

def PASS_SIZE : Nat := 128

/-- What the calls of `fgets` return until the end of the input, with `room + 1` bytes in front of
the NUL. -/
def reads (room : Nat) : Bytes → List Bytes
  | [] => []
  | byte :: rest =>
      (fgets (room + 1) (byte :: rest)).1 :: reads room (fgets (room + 1) (byte :: rest)).2
termination_by input => input.length
decreasing_by
  rw [fgets]
  split
  · exact Nat.lt_succ_self _
  · exact Nat.lt_succ_of_le (fgets_shorter room rest)

/-- `if (buf[len] == '\n') buf[len] = '\0'`, on the string in the buffer. -/
def chop (text : Bytes) (len : Nat) : Bytes :=
  if text[len]? = some 0x0a then text.take len else text

/-- The passphrase that a prompt makes of what `fgets` has read, unless it asks again. -/
def passphraseOf (read : Bytes) : Option Bytes :=
  let text := cString read
  if text.length ≤ 1 then none else some (chop text (text.length - 1))

/-- The passphrases that the calls of `read_password` return. At the end of the input it goes on
asking, or returns the last one for ever. -/
def readPasswords (input : Bytes) : List Bytes :=
  (reads (PASS_SIZE - 2) input).filterMap passphraseOf

/-- The two prompts of `suspend-keygen`, over what `fgets` reads from now on, with the strings in
`pass_buf` and in `vrfy_buf`. The result comes with what there was to read at its prompt. -/
def choosePassphrase (pass : Bytes) (origin : List Bytes) (vrfy : Bytes) :
    List Bytes → Option (Bytes × List Bytes)
  | [] =>
      -- from now on `fgets` leaves both buffers alone
      if pass.length ≤ 1 then none
      else
        let chosen := chop pass (pass.length - 1)
        if chosen = chop vrfy (pass.length - 1) then some (chosen, origin) else none
  | [read] =>
      let pass := cString read
      if pass.length ≤ 1 then choosePassphrase pass [read] vrfy []
      else
        let chosen := chop pass (pass.length - 1)
        let vrfy := chop vrfy (pass.length - 1)
        if chosen = vrfy then some (chosen, [read]) else choosePassphrase chosen [read] vrfy []
  | read :: answer :: rest =>
      let pass := cString read
      if pass.length ≤ 1 then choosePassphrase pass (read :: answer :: rest) vrfy (answer :: rest)
      else
        let chosen := chop pass (pass.length - 1)
        let vrfy := chop (cString answer) (pass.length - 1)
        if chosen = vrfy then some (chosen, read :: answer :: rest)
        else choosePassphrase chosen (read :: answer :: rest) vrfy rest

/-- The passphrase that `suspend-keygen` accepts, and the input from its line on. -/
def keygenPassphrase (input : Bytes) : Option (Bytes × Bytes) :=
  (choosePassphrase [] [] [] (reads (MAX_STR_LEN - 2) input)).map fun chosen =>
    (chosen.1, chosen.2.flatten)

/-- `sizeof(struct RSA_data) - RSA_DATA_SIZE`. -/
def rsaPrefix : Nat := 32

namespace RSAData

/-- `struct RSA_data` in memory. -/
def bytes (order : ByteOrder) (rsa : RSAData) : Bytes :=
  rsa.field.flatten ++ rsa.size.flatMap (fun size => order.arrange (toBytes 2 size)) ++
    rsa.keyTest ++ rsa.data

def ofBytes (order : ByteOrder) (bytes : Bytes) : RSAData where
  field := (List.range 6).map fun index => (bytes.drop (2 * index)).take 2
  size := (List.range 6).map fun index =>
    fromBytes (order.arrange ((bytes.drop (12 + 2 * index)).take 2))
  keyTest := (bytes.drop 24).take 8
  data := (bytes.drop rsaPrefix).take RSA_DATA_SIZE

end RSAData

/-- What `suspend-keygen` writes: the structure up to the last component. -/
def keyFile (order : ByteOrder) (rsa : RSAData) : Bytes :=
  (rsa.bytes order).take (rsa.size.sum + rsaPrefix)

/-- `read(fd, rsa, sizeof(struct RSA_data))` into the zeroed `key_data`. -/
def readKeyFile (order : ByteOrder) (file : Bytes) : Option RSAData :=
  let read := file.take (rsaPrefix + RSA_DATA_SIZE)
  if read = [] then none
  else some (.ofBytes order (read ++ List.replicate (rsaPrefix + RSA_DATA_SIZE - read.length) 0))

theorem reads_eq {input line rest : Bytes} (nonempty : input ≠ [])
    (split : splitLine input = (line, rest)) (room : Nat) :
    reads room input = line.take (room + 1) :: reads room (line.drop (room + 1) ++ rest) := by
  cases input with
  | nil => exact absurd rfl nonempty
  | cons byte input => rw [reads, fgets_splitLine split]

theorem flatten_reads (room : Nat) (input : Bytes) : (reads room input).flatten = input := by
  fun_induction reads room input with
  | case1 => rfl
  | case2 byte rest ih =>
    cases split : splitLine (byte :: rest) with
    | mk line more =>
      have whole := splitLine_append split
      rw [fgets_splitLine split] at ih ⊢
      rw [List.flatten_cons, ih, ← List.append_assoc, List.take_append_drop, whole]

theorem reads_flatten {room : Nat} {input : Bytes} {later : List Bytes}
    (suffix : later <:+ reads room input) : reads room later.flatten = later := by
  fun_induction reads room input with
  | case1 =>
    rw [List.suffix_nil.mp suffix]
    exact reads.eq_1 room
  | case2 byte rest ih =>
    cases List.suffix_cons_iff.mp suffix with
    | inl whole =>
      rw [whole, ← reads, flatten_reads]
    | inr behind => exact ih behind

theorem newline_splitLine {input line rest : Bytes} (split : splitLine input = (line, rest)) :
    0x0a ∉ line.dropLast := by
  induction input generalizing line rest with
  | nil => cases split; simp
  | cons byte input ih =>
    unfold splitLine at split
    split at split
    · cases split
      simp
    · rename_i other
      cases split
      intro inside
      cases more : (splitLine input).1 with
      | nil => simp [more] at inside
      | cons next line =>
        rw [more, List.dropLast_cons_cons, List.mem_cons] at inside
        cases inside with
        | inl same => exact other same.symm
        | inr later => exact ih (Prod.ext more rfl) later

theorem dropLast_subset {front whole : Bytes} (start : front <+: whole) :
    front.dropLast ⊆ whole.dropLast := by
  obtain ⟨more, rfl⟩ := start
  cases more with
  | nil =>
    rw [List.append_nil]
    exact List.Subset.refl _
  | cons byte more =>
    rw [List.dropLast_append_of_ne_nil (List.cons_ne_nil _ _)]
    exact fun _ inside => List.mem_append_left _ (List.dropLast_subset _ inside)

theorem newline_reads {room : Nat} {input read : Bytes} (present : read ∈ reads room input) :
    0x0a ∉ read.dropLast := by
  fun_induction reads room input with
  | case1 => cases present
  | case2 byte rest ih =>
    cases List.mem_cons.mp present with
    | inl first =>
      cases split : splitLine (byte :: rest) with
      | mk line more =>
        rw [first, fgets_splitLine split]
        exact fun inside =>
          newline_splitLine split (dropLast_subset (List.take_prefix _ _) inside)
    | inr later => exact ih later

theorem length_reads {room : Nat} {input read : Bytes} (present : read ∈ reads room input) :
    read.length ≤ room + 1 := by
  fun_induction reads room input with
  | case1 => cases present
  | case2 byte rest ih =>
    cases List.mem_cons.mp present with
    | inl first =>
      cases split : splitLine (byte :: rest) with
      | mk line more =>
        rw [first, fgets_splitLine split]
        exact List.length_take_le _ _
    | inr later => exact ih later

theorem chop_plain {text : Bytes} (plain : 0x0a ∉ text) (len : Nat) : chop text len = text := by
  rw [chop, if_neg]
  intro newline
  exact plain (List.mem_of_getElem? newline)

theorem cString_take (line : Bytes) (size : Nat) :
    cString (line.take size) = (cString line).take size :=
  List.take_takeWhile.symm

theorem cString_front (line : Bytes) : cString line <+: line := List.takeWhile_prefix _

theorem passphraseOf_spec {read pass : Bytes} (plain : 0x0a ∉ read.dropLast)
    (found : passphraseOf read = some pass) :
    0x0a ∉ pass ∧ (cString read = pass ∨ cString read = pass ++ [0x0a]) := by
  have inner : 0x0a ∉ (cString read).dropLast := fun inside =>
    plain (dropLast_subset (cString_front read) inside)
  unfold passphraseOf at found
  dsimp only at found
  by_cases short : (cString read).length ≤ 1
  · rw [if_pos short] at found
    cases found
  · rw [if_neg short] at found
    cases found
    have nonempty : cString read ≠ [] := by
      intro none
      rw [none] at short
      exact short (by decide)
    have split := List.dropLast_append_getLast nonempty
    have last : (cString read)[(cString read).length - 1]? =
        some ((cString read).getLast nonempty) := by
      rw [← List.getLast?_eq_getElem?, List.getLast?_eq_some_getLast nonempty]
    by_cases newline : (cString read).getLast nonempty = 0x0a
    · have cut : chop (cString read) ((cString read).length - 1) = (cString read).dropLast := by
        rw [chop, if_pos (last.trans (congrArg some newline)), List.dropLast_eq_take]
      rw [cut]
      apply And.intro inner
      right
      rw [← newline, split]
    · have whole : 0x0a ∉ cString read := by
        rw [← split]
        simp only [List.mem_append, List.mem_singleton, not_or]
        exact ⟨inner, fun same => newline same.symm⟩
      rw [chop_plain whole]
      exact ⟨whole, Or.inl rfl⟩

theorem length_passphraseOf {read pass : Bytes} (plain : 0x0a ∉ read.dropLast)
    (found : passphraseOf read = some pass) : pass.length ≤ read.length := by
  have bound := (cString_front read).length_le
  cases (passphraseOf_spec plain found).2 with
  | inl same => rwa [← same]
  | inr newline =>
    rw [newline, List.length_append] at bound
    omega

theorem passphraseOf_congr {first second : Bytes} (same : cString first = cString second) :
    passphraseOf first = passphraseOf second := by
  rw [passphraseOf, passphraseOf, same]

theorem passphraseOf_plain {read : Bytes} (plain : 0x0a ∉ cString read)
    (enough : 2 ≤ (cString read).length) : passphraseOf read = some (cString read) := by
  rw [passphraseOf, if_neg (by omega), chop_plain plain]

theorem two_le_cString {read pass : Bytes} (found : passphraseOf read = some pass) :
    2 ≤ (cString read).length := by
  unfold passphraseOf at found
  dsimp only at found
  split at found
  · cases found
  · omega

/-- A passphrase that fits in the smaller buffer is the same in both. -/
theorem passphraseOf_take (small : Nat) {line pass : Bytes} {large : Nat}
    (plain : 0x0a ∉ line.dropLast) (found : passphraseOf (line.take large) = some pass)
    (fits : pass.length ≤ small)
    (smaller : small ≤ large) (enough : 2 ≤ small) :
    passphraseOf (line.take small) = some pass := by
  have inner : 0x0a ∉ (line.take large).dropLast := fun inside =>
    plain (dropLast_subset (List.take_prefix _ _) inside)
  have both : cString (line.take small) = (cString (line.take large)).take small := by
    rw [cString_take, cString_take, List.take_take, min_eq_left smaller]
  have long := two_le_cString found
  obtain ⟨free, text⟩ := passphraseOf_spec inner found
  by_cases room : (cString (line.take large)).length ≤ small
  · rw [← found]
    apply passphraseOf_congr
    rw [both, List.take_of_length_le room]
  · have cut : cString (line.take small) = pass := by
      cases text with
      | inl same =>
        rw [same] at room
        exact absurd fits room
      | inr newline =>
        rw [newline, List.length_append, List.length_singleton] at room
        rw [both, newline]
        exact List.take_left' (by omega)
    have length : pass.length = small := by
      rw [← cut, both, List.length_take]
      omega
    rw [passphraseOf_plain (by rwa [cut]) (by rw [cut]; omega), cut]

/-- What `pass_buf` holds has been read from where `origin` begins, or is too short. -/
def Prompted (all : List Bytes) (pass : Bytes) (origin : List Bytes) : Prop :=
  pass.length ≤ 1 ∨ 0x0a ∉ pass ∧ origin <:+ all ∧
    ∃ read rest, origin = read :: rest ∧ passphraseOf read = some pass

theorem prompted_read {all : List Bytes} (plain : ∀ read ∈ all, 0x0a ∉ read.dropLast)
    {read : Bytes} {rest : List Bytes} (left : read :: rest <:+ all)
    (long : ¬ (cString read).length ≤ 1) :
    passphraseOf read = some (chop (cString read) ((cString read).length - 1)) ∧
      Prompted all (chop (cString read) ((cString read).length - 1)) (read :: rest) := by
  have found : passphraseOf read = some (chop (cString read) ((cString read).length - 1)) :=
    if_neg long
  have free := (passphraseOf_spec (plain read (left.mem List.mem_cons_self)) found).1
  exact ⟨found, Or.inr ⟨free, left, read, rest, rfl, found⟩⟩

/-- The accepted passphrase is that of the read at the start of what it comes with. -/
theorem choosePassphrase_spec {all : List Bytes}
    (plain : ∀ read ∈ all, 0x0a ∉ read.dropLast) {pass vrfy : Bytes} {origin input : List Bytes}
    (prompted : Prompted all pass origin) (left : input <:+ all)
    {chosen : Bytes} {start : List Bytes}
    (accepted : choosePassphrase pass origin vrfy input = some (chosen, start)) :
    start <:+ all ∧ ∃ read rest, start = read :: rest ∧ passphraseOf read = some chosen := by
  fun_induction choosePassphrase pass origin vrfy input with
  | case1 => cases accepted
  | case2 pass origin vrfy long candidate same =>
    obtain ⟨free, suffix, read, rest, begins, found⟩ := prompted.resolve_left long
    obtain ⟨name, place⟩ := Prod.mk.inj (Option.some.inj accepted)
    have whole : candidate = pass := chop_plain free _
    rw [← place, ← name, whole]
    exact ⟨suffix, read, rest, begins, found⟩
  | case3 => cases accepted
  | case4 pass origin vrfy read text short ih =>
    exact ih (Or.inl short) List.nil_suffix accepted
  | case5 pass origin vrfy read text long candidate answer same =>
    obtain ⟨name, place⟩ := Prod.mk.inj (Option.some.inj accepted)
    rw [← place, ← name]
    exact ⟨left, read, [], rfl, (prompted_read plain left long).1⟩
  | case6 pass origin vrfy read text long candidate answer other ih =>
    exact ih (prompted_read plain left long).2 List.nil_suffix accepted
  | case7 pass origin vrfy read answer rest text short ih =>
    exact ih (Or.inl short) ((List.suffix_cons _ _).trans left) accepted
  | case8 pass origin vrfy read answer rest text long candidate typed same =>
    obtain ⟨name, place⟩ := Prod.mk.inj (Option.some.inj accepted)
    rw [← place, ← name]
    exact ⟨left, read, answer :: rest, rfl, (prompted_read plain left long).1⟩
  | case9 pass origin vrfy read answer rest text long candidate typed other ih =>
    exact ih (prompted_read plain left long).2
      (((List.suffix_cons _ _).trans (List.suffix_cons _ _)).trans left) accepted

/-- The line that the passphrase of the key file has been typed on. -/
def typedLine (start : Bytes) : Bytes := (splitLine start).1

theorem keygenPassphrase_spec {input pass start : Bytes}
    (accepted : keygenPassphrase input = some (pass, start)) :
    passphraseOf ((typedLine start).take (MAX_STR_LEN - 1)) = some pass := by
  unfold keygenPassphrase at accepted
  obtain ⟨chosen, found, same⟩ := Option.map_eq_some_iff.mp accepted
  cases same
  obtain ⟨suffix, read, rest, begins, answer⟩ := choosePassphrase_spec
    (fun read present => newline_reads present) (Or.inl (by decide)) (List.suffix_refl _) found
  have again := reads_flatten suffix
  cases split : splitLine chosen.2.flatten with
  | mk line more =>
    have some' : chosen.2.flatten ≠ [] := by
      intro none
      rw [none, reads, begins] at again
      cases again
    rw [reads_eq some' split, begins] at again
    rw [typedLine, split]
    cases again
    exact answer

theorem splitLine_newline {line : Bytes} (plain : 0x0a ∉ line) (rest : Bytes) :
    splitLine (line ++ 0x0a :: rest) = (line ++ [0x0a], rest) := by
  induction line with
  | nil => rfl
  | cons byte line ih =>
    rw [List.mem_cons, not_or] at plain
    rw [List.cons_append, splitLine, if_neg (Ne.symm plain.1), ih plain.2]
    rfl

theorem reads_newline {line : Bytes} (plain : 0x0a ∉ line) {room : Nat}
    (fits : line.length ≤ room) (rest : Bytes) :
    reads room (line ++ 0x0a :: rest) = (line ++ [0x0a]) :: reads room rest := by
  have length : (line ++ [(0x0a : UInt8)]).length ≤ room + 1 := by
    rw [List.length_append]
    exact Nat.succ_le_succ fits
  rw [reads_eq (by simp) (splitLine_newline plain rest), List.take_of_length_le length,
    List.drop_of_length_le length, List.nil_append]

theorem passphraseOf_newline {line : Bytes} (free : 0 ∉ line)
    (nonempty : line ≠ []) : passphraseOf (line ++ [0x0a]) = some line := by
  have whole : cString (line ++ [0x0a]) = line ++ [0x0a] := by
    apply cString_free
    simpa using free
  have positive := List.length_pos_iff.mpr nonempty
  have cut : chop (line ++ [0x0a]) ((line ++ [0x0a]).length - 1) = line := by
    rw [chop, if_pos (by simp), List.length_append, List.length_singleton, Nat.add_sub_cancel,
      List.take_left]
  rw [passphraseOf, whole, if_neg (by simp; omega), cut]

theorem keygenPassphrase_twice (line : Bytes) (plain : 0x0a ∉ line) (free : 0 ∉ line)
    (nonempty : line ≠ []) (fits : line.length ≤ MAX_STR_LEN - 2) :
    keygenPassphrase (line ++ 0x0a :: (line ++ [0x0a])) =
      some (line, line ++ 0x0a :: (line ++ [0x0a])) := by
  have both : reads (MAX_STR_LEN - 2) (line ++ 0x0a :: (line ++ [0x0a])) =
      [line ++ [0x0a], line ++ [0x0a]] := by
    rw [reads_newline plain fits, reads_newline plain fits, reads]
  have text := passphraseOf_newline free nonempty
  unfold passphraseOf at text
  dsimp only at text
  split at text
  · cases text
  · rename_i long
    have cut := Option.some.inj text
    rw [keygenPassphrase, both, choosePassphrase, if_neg long]
    simp only [cut, ↓reduceIte, Option.map_some, List.flatten_cons, List.flatten_nil,
      List.append_nil, List.append_assoc, List.singleton_append]

theorem newline_typedLine (start : Bytes) : 0x0a ∉ (typedLine start).dropLast :=
  newline_splitLine (Prod.ext rfl rfl)

theorem splitLine_typedLine (start : Bytes) :
    splitLine (typedLine start) = (typedLine start, []) := by
  unfold typedLine
  induction start with
  | nil => rfl
  | cons byte start ih =>
    rw [splitLine]
    split
    · rename_i newline
      simp only [splitLine, newline, ↓reduceIte]
    · rename_i other
      simp only [splitLine, other, ↓reduceIte, ih]

/-- A passphrase that fits is the first one that `read_password` returns. -/
theorem readPasswords_fits {start pass : Bytes}
    (found : passphraseOf ((typedLine start).take (MAX_STR_LEN - 1)) = some pass)
    (fits : pass.length < PASS_SIZE) :
    ∃ later, readPasswords (typedLine start) = pass :: later := by
  have shorter := passphraseOf_take (PASS_SIZE - 1) (newline_typedLine start) found
    (by omega) (by decide) (by decide)
  have some' : typedLine start ≠ [] := by
    intro none
    rw [none] at shorter
    cases shorter
  rw [readPasswords, reads_eq some' (splitLine_typedLine start)]
  exact ⟨_, List.filterMap_cons_some shorter⟩

/-- None of what `read_password` returns is longer than its buffer. -/
theorem length_readPasswords {line typed : Bytes} (present : typed ∈ readPasswords line) :
    typed.length < PASS_SIZE := by
  obtain ⟨read, inside, found⟩ := List.mem_filterMap.mp present
  have bound := length_reads inside
  have shorter := length_passphraseOf (newline_reads inside) found
  simp only [PASS_SIZE] at bound ⊢
  omega

/-- Equal parts are found again at the multiples of their length. -/
theorem parts_flatten {width : Nat} {parts : List Bytes}
    (each : ∀ part ∈ parts, part.length = width) (rest : Bytes) :
    ((List.range parts.length).map fun index =>
      ((parts.flatten ++ rest).drop (width * index)).take width) = parts := by
  induction parts with
  | nil => rfl
  | cons part parts ih =>
    have first := each part List.mem_cons_self
    have later := ih fun other present => each other (List.mem_cons_of_mem _ present)
    rw [List.length_cons, List.range_succ_eq_map, List.map_cons, List.map_map]
    congr 1
    · rw [Nat.mul_zero, List.drop_zero, List.flatten_cons, List.append_assoc,
        List.take_left' first]
    · refine Eq.trans (List.map_congr_left ?_) later
      intro index _
      rw [Function.comp_apply, List.flatten_cons, List.append_assoc, Nat.succ_eq_add_one,
        Nat.mul_succ, Nat.add_comm, ← List.drop_drop, List.drop_left' first]

namespace RSAData

/-- The lengths that the arrays of the structure have, and nothing behind the components. -/
structure WellFormed (rsa : RSAData) : Prop where
  field : rsa.field.length = 6 ∧ ∀ name ∈ rsa.field, name.length = 2
  size : rsa.size.length = 6 ∧ ∀ size ∈ rsa.size, size < 2 ^ 16
  keyTest : rsa.keyTest.length = 8
  data : rsa.data.length = RSA_DATA_SIZE
  used : rsa.size.sum ≤ RSA_DATA_SIZE
  unused : rsa.data.drop rsa.size.sum = List.replicate (RSA_DATA_SIZE - rsa.size.sum) 0

variable {rsa : RSAData} {order : ByteOrder}

/-- The bytes of the sizes, one after the other. -/
def sizeBytes (order : ByteOrder) (rsa : RSAData) : List Bytes :=
  rsa.size.map fun size => order.arrange (toBytes 2 size)

theorem bytes_eq : rsa.bytes order =
    rsa.field.flatten ++ ((rsa.sizeBytes order).flatten ++ (rsa.keyTest ++ rsa.data)) := by
  rw [bytes, sizeBytes, List.flatMap_def, List.append_assoc, List.append_assoc]

theorem length_flatten_of {width : Nat} {parts : List Bytes}
    (each : ∀ part ∈ parts, part.length = width) :
    parts.flatten.length = parts.length * width := by
  rw [List.length_flatten, List.map_congr_left each, List.map_const', List.sum_replicate_nat]

theorem WellFormed.length_field (wellFormed : rsa.WellFormed) : rsa.field.flatten.length = 12 := by
  rw [length_flatten_of wellFormed.field.2, wellFormed.field.1]

theorem length_sizeBytes (rsa : RSAData) (order : ByteOrder) :
    ∀ part ∈ rsa.sizeBytes order, part.length = 2 := by
  intro part present
  obtain ⟨size, _, rfl⟩ := List.mem_map.mp present
  simp

theorem WellFormed.length_size (wellFormed : rsa.WellFormed) (order : ByteOrder) :
    (rsa.sizeBytes order).flatten.length = 12 := by
  rw [length_flatten_of (length_sizeBytes rsa order), sizeBytes, List.length_map, wellFormed.size.1]

theorem WellFormed.ofBytes_bytes (wellFormed : rsa.WellFormed) (order : ByteOrder) :
    ofBytes order (rsa.bytes order) = rsa := by
  have behind (count : Nat) : (rsa.bytes order).drop (12 + count) =
      ((rsa.sizeBytes order).flatten ++ (rsa.keyTest ++ rsa.data)).drop count := by
    rw [bytes_eq, ← List.drop_drop, List.drop_left' wellFormed.length_field]
  have field : ((List.range 6).map fun index => ((rsa.bytes order).drop (2 * index)).take 2) =
      rsa.field := by
    rw [bytes_eq, ← wellFormed.field.1]
    exact parts_flatten wellFormed.field.2 _
  have size : ((List.range 6).map fun index =>
      fromBytes (order.arrange (((rsa.bytes order).drop (12 + 2 * index)).take 2))) =
        rsa.size := by
    have parts := parts_flatten (length_sizeBytes rsa order) (rsa.keyTest ++ rsa.data)
    rw [sizeBytes, List.length_map, wellFormed.size.1, ← sizeBytes] at parts
    calc ((List.range 6).map fun index =>
          fromBytes (order.arrange (((rsa.bytes order).drop (12 + 2 * index)).take 2)))
        = ((List.range 6).map fun index => (((rsa.sizeBytes order).flatten ++
            (rsa.keyTest ++ rsa.data)).drop (2 * index)).take 2).map
              fun part => fromBytes (order.arrange part) := by
          rw [List.map_map]
          apply List.map_congr_left
          intro index _
          rw [Function.comp_apply, behind]
      _ = rsa.size.map fun size => fromBytes (order.arrange (order.arrange (toBytes 2 size))) := by
          rw [parts, sizeBytes, List.map_map]
          rfl
      _ = rsa.size.map id := by
          apply List.map_congr_left
          intro size present
          rw [ByteOrder.arrange_arrange, fromBytes_toBytes]
          exact Nat.mod_eq_of_lt (wellFormed.size.2 size present)
      _ = rsa.size := List.map_id _
  have keyTest : ((rsa.bytes order).drop 24).take 8 = rsa.keyTest := by
    rw [behind 12, List.drop_left' (wellFormed.length_size order),
      List.take_left' wellFormed.keyTest]
  have data : ((rsa.bytes order).drop rsaPrefix).take RSA_DATA_SIZE = rsa.data := by
    have later : 20 = 12 + 8 := rfl
    rw [rsaPrefix, behind 20, later, ← List.drop_drop,
      List.drop_left' (wellFormed.length_size order), List.drop_left' wellFormed.keyTest]
    exact List.take_of_length_le (le_of_eq wellFormed.data)
  rw [ofBytes, field, size, keyTest, data]

end RSAData

theorem readKeyFile_keyFile {rsa : RSAData} (wellFormed : rsa.WellFormed) (order : ByteOrder) :
    readKeyFile order (keyFile order rsa) = some rsa := by
  have length : (rsa.bytes order).length = rsaPrefix + RSA_DATA_SIZE := by
    rw [RSAData.bytes_eq]
    simp only [List.length_append, wellFormed.length_field, wellFormed.length_size order,
      wellFormed.keyTest, wellFormed.data, rsaPrefix]
    rfl
  have written : (keyFile order rsa).length = rsa.size.sum + rsaPrefix := by
    have room := wellFormed.used
    rw [keyFile, List.length_take, length]
    omega
  have whole : (keyFile order rsa).take (rsaPrefix + RSA_DATA_SIZE) = keyFile order rsa := by
    have room := wellFormed.used
    apply List.take_of_length_le
    omega
  have padded : keyFile order rsa ++
      List.replicate (rsaPrefix + RSA_DATA_SIZE - (keyFile order rsa).length) 0 =
        rsa.bytes order := by
    have rest : (rsa.bytes order).drop (rsa.size.sum + rsaPrefix) =
        List.replicate (RSA_DATA_SIZE - rsa.size.sum) 0 := by
      have front : (rsa.field.flatten ++ (rsa.sizeBytes order).flatten ++ rsa.keyTest).length =
          rsaPrefix := by
        simp only [List.length_append, wellFormed.length_field, wellFormed.length_size order,
          wellFormed.keyTest, rsaPrefix]
      rw [← wellFormed.unused, RSAData.bytes_eq, ← List.append_assoc, ← List.append_assoc,
        Nat.add_comm, ← List.drop_drop, List.drop_left' front]
    have count : rsaPrefix + RSA_DATA_SIZE - (keyFile order rsa).length =
        RSA_DATA_SIZE - rsa.size.sum := by
      omega
    rw [count, ← rest, keyFile, List.take_append_drop]
  have nonempty : keyFile order rsa ≠ [] := by
    intro none
    rw [none] at written
    simp [rsaPrefix] at written
  unfold readKeyFile
  dsimp only
  rw [whole, if_neg nonempty, padded, wellFormed.ofBytes_bytes]

namespace Crypto

variable {crypto : Crypto}

theorem writeComponents_sizes (streams : crypto.pkCipher.Streams) {numbers : List Nat}
    {index offset : Nat} {state : crypto.pkCipher.State} {sizes : List Nat} {data : Bytes}
    (written : crypto.writeComponents index offset state numbers = .ok (sizes, data))
    (room : offset ≤ RSA_DATA_SIZE) :
    sizes.length = numbers.length ∧ sizes.sum = data.length ∧
      offset + data.length ≤ RSA_DATA_SIZE := by
  induction numbers generalizing index offset state sizes data with
  | nil =>
    cases written
    exact ⟨rfl, rfl, room⟩
  | cons number rest ih =>
    simp only [writeComponents] at written
    split at written
    · cases written
    · rename_i fits
      have further : offset + (mpiPrint number).length ≤ RSA_DATA_SIZE := by omega
      by_cases isPublic : index < RSA_FIELDS_PUB
      · rw [if_pos isPublic] at written
        cases later : crypto.writeComponents (index + 1) (offset + (mpiPrint number).length)
            state rest with
        | error error => simp [later, Except.map] at written
        | ok more =>
          simp only [later, Except.map, Except.ok.injEq, Prod.mk.injEq] at written
          obtain ⟨length, sum, within⟩ := ih later further
          rw [← written.1, ← written.2, List.length_cons, List.length_cons, List.sum_cons,
            List.length_append]
          omega
      · rw [if_neg isPublic] at written
        cases answer : crypto.pkCipher.encrypt state (mpiPrint number) with
        | error error => simp [answer] at written
        | ok result =>
          simp only [answer] at written
          cases later : crypto.writeComponents (index + 1) (offset + (mpiPrint number).length)
              result.2 rest with
          | error error => simp [later, Except.map] at written
          | ok more =>
            simp only [later, Except.map, Except.ok.injEq, Prod.mk.injEq] at written
            obtain ⟨length, sum, within⟩ := ih later further
            have kept := (streams _ _ _ _ answer).1
            rw [← written.1, ← written.2, List.length_cons, List.length_cons, List.sum_cons,
              List.length_append]
            omega

/-- What `suspend-keygen` makes fits the structure. -/
theorem keygen_wellFormed (streams : crypto.pkCipher.Streams) {passphrase : Bytes}
    {numbers : List Nat} (six : numbers.length = 6) {rsa : RSAData}
    (generated : crypto.keygen passphrase numbers = .ok rsa) : rsa.WellFormed := by
  unfold keygen at generated
  cases cipher : crypto.passphraseCipher passphrase with
  | error error => simp [cipher] at generated
  | ok state =>
    cases test : crypto.pkCipher.encrypt state KEY_TEST_DATA with
    | error error => simp [cipher, test] at generated
    | ok out =>
      cases written : crypto.writeComponents 0 0 state numbers with
      | error error => simp [cipher, test, written, Except.map] at generated
      | ok result =>
        simp only [cipher, test, written, Except.map, Except.ok.injEq] at generated
        obtain ⟨length, sum, within⟩ := writeComponents_sizes streams written (Nat.zero_le _)
        rw [Nat.zero_add] at within
        subst generated
        constructor
        case field =>
          have names : rsaKeys.length = 6 ∧ ∀ name ∈ rsaKeys, name.length = 2 := by decide
          exact names
        case size =>
          apply And.intro (length.trans six)
          intro size present
          obtain ⟨before, after, split⟩ := List.append_of_mem present
          simp only at split
          rw [split, List.sum_append, List.sum_cons] at sum
          rw [RSA_DATA_SIZE] at within
          omega
        case keyTest => exact (streams _ _ _ _ test).1
        case data =>
          rw [List.length_append, List.length_replicate]
          omega
        case used =>
          rw [sum]
          exact within
        case unused => rw [sum, List.drop_left]

variable (crypto) in
/-- What the key test makes of a passphrase. -/
def keyTest (passphrase : Bytes) : Option Bytes :=
  match crypto.passphraseCipher passphrase with
  | .error _ => none
  | .ok state =>
      match crypto.pkCipher.encrypt state KEY_TEST_DATA with
      | .error _ => none
      | .ok (out, _) => some out

variable (crypto) in
/-- The key test tells the passphrase from the others that are typed. -/
def TellsApart (passphrase : Bytes) (typed : List Bytes) : Prop :=
  ∀ other ∈ typed, other ≠ passphrase → crypto.keyTest other ≠ crypto.keyTest passphrase

theorem keyTest_keygen {passphrase : Bytes} {numbers : List Nat} {rsa : RSAData}
    (generated : crypto.keygen passphrase numbers = .ok rsa) :
    crypto.keyTest passphrase = some rsa.keyTest := by
  unfold keygen at generated
  unfold keyTest
  cases cipher : crypto.passphraseCipher passphrase with
  | error error => simp [cipher] at generated
  | ok state =>
    cases test : crypto.pkCipher.encrypt state KEY_TEST_DATA with
    | error error => simp [cipher, test] at generated
    | ok out =>
      cases written : crypto.writeComponents 0 0 state numbers with
      | error error => simp [cipher, test, written, Except.map] at generated
      | ok result =>
        simp only [cipher, test, written, Except.map, Except.ok.injEq] at generated
        subst generated
        simp only [test]

/-- Whoever gets past the key test has typed something that passes it. -/
theorem askPassphrase_passed {rsa : RSAData} {typed : List Bytes} {passphrase : Bytes}
    (passed : crypto.askPassphrase rsa typed = some (.ok passphrase)) :
    passphrase ∈ typed ∧ crypto.keyTest passphrase = some rsa.keyTest := by
  induction typed with
  | nil => cases passed
  | cons other rest ih =>
    rw [askPassphrase] at passed
    cases cipher : crypto.passphraseCipher other with
    | error error => simp [cipher] at passed
    | ok state =>
      cases test : crypto.pkCipher.encrypt state KEY_TEST_DATA with
      | error error => simp [cipher, test] at passed
      | ok out =>
        simp only [cipher, test] at passed
        by_cases right : out.1 = rsa.keyTest
        · rw [if_pos right] at passed
          cases passed
          exact ⟨List.mem_cons_self, by simp [keyTest, cipher, test, right]⟩
        · rw [if_neg right] at passed
          obtain ⟨present, same⟩ := ih passed
          exact ⟨List.mem_cons_of_mem _ present, same⟩

theorem decryptKey_asked {rsa : RSAData} {key : EncryptedKey} {typed : List Bytes}
    {opened : Bytes × Bytes} (unlocked : crypto.decryptKey rsa key typed = some (.ok opened)) :
    ∃ passphrase, crypto.askPassphrase rsa typed = some (.ok passphrase) := by
  unfold decryptKey at unlocked
  cases asked : crypto.askPassphrase rsa typed with
  | none => simp [asked] at unlocked
  | some answer =>
    cases answer with
    | error error => simp [asked] at unlocked
    | ok passphrase => exact ⟨passphrase, rfl⟩

theorem setupKey_withRSA {keyData : KeyData} {password salt : Bytes} {header : ImageHeader}
    {state : KeyState}
    (built : crypto.setupKey salt ⟨keyData, true, password⟩ ImageHeader.zero = (0, header, state))
    (withRSA : header.flags.useRSA = true) :
    header.rsa = keyData.rsa ∧ header.key = keyData.encryptedKey ∧ state.keyData = keyData := by
  by_cases accepted : crypto.setCipher keyData.key keyData.ivec = 0
  · have sealed : crypto.setupKey salt ⟨keyData, true, password⟩ ImageHeader.zero = _ :=
      setupKey_sealed rfl accepted salt ImageHeader.zero
    rw [sealed] at built
    cases built
    exact ⟨rfl, rfl, rfl⟩
  · simp only [setupKey, accepted, and_false, ↓reduceIte] at built
    split at built
    · rename_i failed
      exact absurd (Prod.mk.inj built).1 failed
    · cases built
      cases withRSA

theorem generateKey_rsa {rsa : RSAData} {random : List Bytes} {keyData : KeyData}
    (sealed : crypto.generateKey (some rsa) random = some keyData) : keyData.rsa = rsa := by
  unfold generateKey at sealed
  split at sealed
  · rename_i file _
    cases file
    split at sealed
    · cases sealed
    · simp only at sealed
      split at sealed
      · cases sealed
      · cases sealed
        rfl
  · cases sealed

/-- A passphrase that is too long for `read_password` never passes the key test again. -/
theorem locked_of_long {passphrase line : Bytes} {numbers : List Nat} {rsa : RSAData}
    (generated : crypto.keygen passphrase numbers = .ok rsa)
    (long : PASS_SIZE ≤ passphrase.length)
    (apart : crypto.TellsApart passphrase (readPasswords line)) (key : EncryptedKey)
    (opened : Bytes × Bytes) :
    crypto.decryptKey rsa key (readPasswords line) ≠ some (.ok opened) := by
  intro unlocked
  obtain ⟨other, asked⟩ := decryptKey_asked unlocked
  obtain ⟨present, passed⟩ := askPassphrase_passed asked
  have differs : other ≠ passphrase := by
    intro same
    have short := length_readPasswords present
    rw [same] at short
    exact Nat.not_lt_of_le long short
  apply apart other present differs
  rw [passed, keyTest_keygen generated]

/-- The key file opens the image for whoever types the line of its passphrase again, if and only
if the passphrase fits in the buffer of `read_password`. -/
theorem typedLine_opens_iff (crypto : Crypto) (streams : crypto.pkCipher.Streams)
    (order : ByteOrder) {numbers : List Nat} (six : numbers.length = 6)
    (pair : crypto.KeyPair numbers) {input passphrase start : Bytes}
    (accepted : keygenPassphrase input = some (passphrase, start)) {rsa : RSAData}
    (generated : crypto.keygen passphrase numbers = .ok rsa) {random : List Bytes}
    {keyData : KeyData}
    (sealed : crypto.generateKey (readKeyFile order (keyFile order rsa)) random = some keyData)
    {password salt : Bytes} {header : ImageHeader} {state : KeyState}
    (built : crypto.setupKey salt ⟨keyData, true, password⟩ ImageHeader.zero = (0, header, state))
    (withRSA : header.flags.useRSA = true)
    (apart : PASS_SIZE ≤ passphrase.length →
      crypto.TellsApart passphrase (readPasswords (typedLine start))) :
    crypto.decryptKey header.rsa header.key (readPasswords (typedLine start)) =
        some (.ok (state.keyData.key, state.keyData.ivec)) ↔
      passphrase.length < PASS_SIZE := by
  rw [readKeyFile_keyFile (keygen_wellFormed streams six generated)] at sealed
  obtain ⟨file, key, kept⟩ := setupKey_withRSA built withRSA
  rw [file, key, kept]
  constructor
  · intro unlocked
    by_contra long
    rw [generateKey_rsa sealed] at unlocked
    exact locked_of_long generated (Nat.le_of_not_lt long) (apart (Nat.le_of_not_lt long)) _ _
      unlocked
  · intro fits
    obtain ⟨later, typed⟩ := readPasswords_fits (keygenPassphrase_spec accepted) fits
    rw [typed]
    exact decryptKey_generateKey streams pair six generated sealed later

/-- A library whose key test depends on the length of the passphrase. -/
def telling : Crypto where
  cipherOpen := 0
  setkey := fun _ => 0
  setiv := fun _ => 0
  pkOpen := 0
  pkSetkey := fun _ => 0
  pkSetiv := fun _ => 0
  pkCipher := ⟨UInt8, fun state src => .ok (src.map (· + state), state),
    fun state coded => .ok (coded.map (· - state), state)⟩
  pkStart := fun key _ => key.headD 0
  pkEncrypt := fun _ message => .ok message
  pkDecrypt := fun _ sealed => .ok sealed
  md5 := fun text => [UInt8.ofNat text.length]

theorem telling_streams : telling.pkCipher.Streams := by
  intro state bytes coded next encrypted
  cases encrypted
  constructor
  · exact List.length_map _
  · have back (byte key : UInt8) : byte + key - key = byte := UInt8.add_sub_cancel byte key
    simp only [telling, List.map_map, Function.comp_def]
    rw [List.map_congr_left fun byte _ => back byte state, List.map_id']

theorem telling_pair : telling.KeyPair toyNumbers := by
  intro message sealed _ encrypted
  exact encrypted.symm

/-- The save with the key file of this passphrase is encrypted under the session key. -/
theorem telling_sealed {passphrase : Bytes}
    (works : (telling.keygen passphrase toyNumbers).isOk = true) :
    ∃ rsa keyData header state, telling.keygen passphrase toyNumbers = .ok rsa ∧
      telling.generateKey (readKeyFile .little (keyFile .little rsa)) [sessionValue] =
        some keyData ∧
      telling.setupKey (List.replicate 8 0) ⟨keyData, true, []⟩ ImageHeader.zero =
        (0, header, state) ∧ header.flags.useRSA = true := by
  cases answer : telling.keygen passphrase toyNumbers with
  | error error => simp [answer, Except.isOk, Except.toBool] at works
  | ok rsa =>
    have wellFormed : rsa.WellFormed := keygen_wellFormed telling_streams rfl answer
    have found : sessionBytes [sessionValue] = some sessionValue := by decide +kernel
    have short : ¬ KEY_DATA_SIZE < (mpiPrint (mpiScan sessionValue)).length := by decide +kernel
    obtain ⟨keyData, sealed⟩ : ∃ keyData,
        telling.generateKey (some rsa) [sessionValue] = some keyData := by
      unfold generateKey
      rw [found]
      simp only [telling, if_neg short]
      exact ⟨_, rfl⟩
    refine ⟨rsa, keyData, _, _, rfl, ?_, setupKey_sealed rfl rfl _ _, rfl⟩
    rw [readKeyFile_keyFile wellFormed]
    exact sealed

/-- The key file of a short passphrase is opened with its line. -/
theorem secret_opens : ∃ rsa keyData header state,
    telling.keygen secret toyNumbers = .ok rsa ∧
      telling.setupKey (List.replicate 8 0) ⟨keyData, true, []⟩ ImageHeader.zero =
        (0, header, state) ∧
      telling.decryptKey header.rsa header.key
        (readPasswords (typedLine (secret ++ 0x0a :: (secret ++ [0x0a])))) =
          some (.ok (state.keyData.key, state.keyData.ivec)) := by
  have works : (telling.keygen secret toyNumbers).isOk = true := by decide +kernel
  have accepted := keygenPassphrase_twice secret (by decide) (by decide) (by decide) (by decide)
  obtain ⟨rsa, keyData, header, state, generated, sealed, built, withRSA⟩ := telling_sealed works
  refine ⟨rsa, keyData, header, state, generated, built, ?_⟩
  have opens := typedLine_opens_iff telling telling_streams .little rfl telling_pair accepted
    generated sealed built withRSA fun long => absurd long (by decide)
  exact opens.mpr (by decide)

/-- A passphrase of 128 bytes. -/
def longPassphrase : Bytes := List.replicate 128 0x61

theorem readPasswords_long : readPasswords (longPassphrase ++ [0x0a]) =
    [List.replicate 127 0x61, [0x61]] := by
  have plain : (0x0a : UInt8) ∉ longPassphrase := by decide +kernel
  have first := reads_eq (by simp) (splitLine_newline plain []) (PASS_SIZE - 2)
  have short : [(0x61 : UInt8)].length ≤ PASS_SIZE - 2 := by decide
  have second := reads_newline (by decide) short []
  have cut : (longPassphrase ++ [0x0a]).take (PASS_SIZE - 2 + 1) = List.replicate 127 0x61 := by
    decide
  have left : (longPassphrase ++ [0x0a]).drop (PASS_SIZE - 2 + 1) ++ [] = [0x61] ++ [0x0a] := by
    decide
  rw [cut, left, second, reads] at first
  rw [readPasswords, first]
  decide +kernel

/-- The key file of this passphrase is not opened with its line. -/
theorem long_passphrase_locked : ∃ rsa keyData header state start,
    keygenPassphrase (longPassphrase ++ 0x0a :: (longPassphrase ++ [0x0a])) =
        some (longPassphrase, start) ∧
      telling.KeyPair toyNumbers ∧ telling.keygen longPassphrase toyNumbers = .ok rsa ∧
      telling.generateKey (readKeyFile .little (keyFile .little rsa)) [sessionValue] =
        some keyData ∧
      telling.setupKey (List.replicate 8 0) ⟨keyData, true, []⟩ ImageHeader.zero =
        (0, header, state) ∧ header.flags.useRSA = true ∧
      telling.decryptKey header.rsa header.key (readPasswords (typedLine start)) ≠
        some (.ok (state.keyData.key, state.keyData.ivec)) := by
  have plain : (0x0a : UInt8) ∉ longPassphrase := by decide +kernel
  have works : (telling.keygen longPassphrase toyNumbers).isOk = true := by decide +kernel
  have accepted :=
    keygenPassphrase_twice longPassphrase plain (by decide +kernel) (by decide +kernel)
    (by decide +kernel)
  obtain ⟨rsa, keyData, header, state, generated, sealed, built, withRSA⟩ := telling_sealed works
  refine ⟨rsa, keyData, header, state, _, accepted, telling_pair, generated, sealed, built,
    withRSA, ?_⟩
  rw [typedLine, splitLine_newline plain]
  have wellFormed : rsa.WellFormed := keygen_wellFormed telling_streams rfl generated
  rw [readKeyFile_keyFile wellFormed] at sealed
  rw [(setupKey_withRSA built withRSA).1, generateKey_rsa sealed]
  apply locked_of_long generated (by decide +kernel)
  rw [readPasswords_long]
  have tested : ∀ other ∈ [List.replicate 127 0x61, [0x61]],
      telling.keyTest other ≠ telling.keyTest longPassphrase := by decide +kernel
  exact fun other present _ => tested other present

end Crypto

end Suspend
