import Suspend.Header
import Suspend.Foundation.CStrings

set_option autoImplicit false

namespace Suspend

open Foundation.CStrings

def ITEMSZ : Nat := 1024

/-- The strings that are compared with the whitelist. -/
structure DmiItems where
  biosVersion : Bytes
  sysVendor : Bytes
  sysProduct : Bytes
  sysVersion : Bytes
deriving DecidableEq

namespace Dmi

section Table

-- The copy of the table. A result is `none` where the code reads outside of it or copies too much.
variable (buf : Bytes)

/-- What `dmi_string` returns: the literal `""`, or a position in the table. -/
inductive Pointer where
  | empty
  | at (bp : Nat)

/-- The loop of `dmi_string` that passes this many strings. -/
def pass : Nat → Nat → Option Nat
  | 0, bp => some bp
  | count + 1, bp => do
      let length ← strlen (buf.drop bp)
      pass count (bp + length + 1)

/-- `dmi_string`. -/
def dmiString (dm : Nat) (s : UInt8) : Option Pointer :=
  if s = 0 then some .empty
  else do
    let length ← buf[dm + 1]?
    let bp ← pass buf (s.toNat - 1) (dm + length.toNat)
    return .at bp

/-- `strcpy` to an array of `ITEMSZ` characters. -/
def strcpy : Pointer → Option Bytes
  | .empty => some []
  | .at bp => do
      let length ← strlen (buf.drop bp)
      if length < ITEMSZ then some ((buf.drop bp).take length) else none

/-- The string that a field of the structure at `data` refers to, copied. -/
def item (data field : Nat) : Option Bytes := do
  let s ← buf[data + field]?
  let pointer ← dmiString buf data s
  strcpy buf pointer

/-- The `switch` of `dmi_table`. The flags of the BIOS are read although nothing is made of them. -/
def decode (type : UInt8) (data : Nat) (items : DmiItems) : Option DmiItems :=
  if type = 0 then do
    let biosVersion ← item buf data 5
    let _ ← [13, 12, 11, 10, 17, 16, 15, 14].mapM fun field => buf[data + field]?
    return { items with biosVersion }
  else if type = 1 then do
    let sysVendor ← item buf data 4
    let sysProduct ← item buf data 5
    let sysVersion ← item buf data 6
    return { items with sysVendor, sysProduct, sysVersion }
  else some items

/-- The loop of `dmi_table`: the structures it visits, and the strings it leaves. -/
def visit : Nat → Nat → DmiItems → Option (List Nat × DmiItems)
  | 0, _, items => some ([], items)
  | num + 1, data, items => do
      let type ← buf[data]?
      let items ← decode buf type data items
      let length ← buf[data + 1]?
      let before ← beforeTwo (buf.drop (data + length.toNat))
      let later ← visit num (data + length.toNat + before + 2) items
      return (data :: later.1, later.2)

end Table

/-- `dmi_table`, where `chunk` is the copy of the table that `mem_chunk` makes, if it can. -/
def dmiTable (chunk : Option Bytes) (num : Nat) (items : DmiItems) : Option (List Nat × DmiItems) :=
  match chunk with
  | none => some ([], items)
  | some buf => visit buf num 0 items

/-- What `dmi_scan` takes from an anchor. -/
structure Anchor where
  num : Nat
  len : Nat
  base : Nat

/-- The anchor at `cur`, if it begins with `"_DMI_"`. -/
def anchor (cur : Bytes) : Option Anchor :=
  if cur.take 5 = [0x5f, 0x44, 0x4d, 0x49, 0x5f] then
    some
      { num := (cur.getD 13 0).toNat <<< 8 ||| (cur.getD 12 0).toNat
        len := (cur.getD 7 0).toNat <<< 8 ||| (cur.getD 6 0).toNat
        base := (cur.getD 11 0).toNat <<< 24 ||| (cur.getD 10 0).toNat <<< 16 |||
          (cur.getD 9 0).toNat <<< 8 ||| (cur.getD 8 0).toNat }
  else none

/-- The anchors in the low memory, one every 16 bytes at most. -/
def anchors (low : Vector UInt8 0x10000) : List Anchor :=
  (List.range 0x1000).filterMap fun paragraph => anchor (low.toList.drop (16 * paragraph))

/-- `dmi_scan`, where `memChunk` makes the copies. -/
def dmiScan (low : Option (Vector UInt8 0x10000))
    (memChunk : (found : Anchor) → Option (Vector UInt8 found.len)) (items : DmiItems) :
    Option DmiItems :=
  match low with
  | none => some items
  | some low =>
      (anchors low).foldlM
        (fun items found =>
          (dmiTable ((memChunk found).map Vector.toList) found.num items).map Prod.snd)
        items

/-- A field refers to no string, or to one of the strings behind the formatted area, which ends
within the table and is short enough. -/
def Refers (rest : Bytes) (length : UInt8) (field : Nat) (text : Bytes) : Prop :=
  ∃ number, rest[field]? = some number ∧
    (number = 0 ∧ text = [] ∨
      number ≠ 0 ∧ ∃ (earlier : List Bytes) (tail : Bytes),
        earlier.length + 1 = number.toNat ∧ (∀ other ∈ earlier, 0 ∉ other) ∧ 0 ∉ text ∧
        text.length < ITEMSZ ∧ rest.drop length.toNat = pack earlier ++ (text ++ 0 :: tail))

/-- The first two NULs in a row. -/
def TwoNuls (bytes : Bytes) (before : Nat) : Prop :=
  (bytes[before]? = some 0 ∧ bytes[before + 1]? = some 0) ∧
    ∀ earlier < before, ¬ (bytes[earlier]? = some 0 ∧ bytes[earlier + 1]? = some 0)

/-- From here on there are this many structures: each with the fields that are read and the strings
they refer to, and with two NULs behind its formatted area, after which the next one begins. -/
def Confined : Nat → Bytes → Prop
  | 0, _ => True
  | num + 1, rest =>
      ∃ type length before, rest[0]? = some type ∧ rest[1]? = some length ∧
        (type = 0 → (∃ text, Refers rest length 5 text) ∧ 18 ≤ rest.length) ∧
        (type = 1 → ∀ field ∈ [4, 5, 6], ∃ text, Refers rest length field text) ∧
        TwoNuls (rest.drop length.toNat) before ∧
        Confined num (rest.drop (length.toNat + before + 2))

section Strings

variable {buf : Bytes}

/-- What the loop of `dmi_string` passes are that many strings. -/
theorem pass_eq_some_iff {count bp found : Nat} :
    pass buf count bp = some found ↔
      ∃ (earlier : List Bytes) (tail : Bytes), earlier.length = count ∧
      (∀ other ∈ earlier, 0 ∉ other) ∧
        buf.drop bp = pack earlier ++ tail ∧ found = bp + (pack earlier).length := by
  induction count generalizing bp with
  | zero =>
      rw [pass, Option.some.injEq]
      constructor
      · rintro rfl
        exact ⟨[], _, rfl, by simp, rfl, rfl⟩
      · rintro ⟨earlier, _, none, _, _, rfl⟩
        rw [List.eq_nil_of_length_eq_zero none]
        rfl
  | succ count ih =>
      simp only [pass, Option.bind_eq_bind, Option.bind_eq_some_iff, ih]
      constructor
      · rintro ⟨_, length, earlier, tail, rfl, free, split, rfl⟩
        obtain ⟨text, rest, first, plain, rfl⟩ := strlen_eq_some length
        have behind : buf.drop (bp + text.length + 1) = rest := by
          rw [Nat.add_assoc, ← List.drop_drop, first, ← List.singleton_append, ← List.append_assoc]
          simp
        rw [behind] at split
        refine ⟨text :: earlier, tail, rfl, by simpa using ⟨plain, free⟩, ?_, ?_⟩
        · rw [first, split, pack_cons, List.append_assoc, List.cons_append]
        · rw [pack_cons, List.length_append, List.length_cons]
          omega
      · rintro ⟨earlier, tail, length, free, split, rfl⟩
        obtain ⟨text, earlier, rfl⟩ := List.exists_cons_of_length_eq_add_one length
        rw [pack_cons, List.append_assoc, List.cons_append] at split
        refine ⟨text.length, ?_, earlier, tail, ?_, ?_, ?_, ?_⟩
        · rw [split]
          exact strlen_append (free text List.mem_cons_self) _
        · simpa using length
        · exact fun other present => free other (List.mem_cons_of_mem text present)
        · rw [Nat.add_assoc, ← List.drop_drop, split, ← List.singleton_append, ← List.append_assoc]
          simp
        · rw [pack_cons, List.length_append, List.length_cons]
          omega

/-- What `strcpy` copies is a short text without a NUL. -/
theorem strcpy_eq_some_iff {bp : Nat} {text : Bytes} :
    strcpy buf (.at bp) = some text ↔
      0 ∉ text ∧ text.length < ITEMSZ ∧ ∃ tail, buf.drop bp = text ++ 0 :: tail := by
  simp only [strcpy, Option.bind_eq_bind, Option.bind_eq_some_iff]
  constructor
  · rintro ⟨_, length, copied⟩
    obtain ⟨found, rest, first, plain, rfl⟩ := strlen_eq_some length
    split at copied
    · next short =>
        rw [first, List.take_left, Option.some.injEq] at copied
        subst copied
        exact ⟨plain, short, rest, first⟩
    · cases copied
  · rintro ⟨plain, short, tail, first⟩
    refine ⟨text.length, ?_, ?_⟩
    · rw [first]
      exact strlen_append plain tail
    · rw [if_pos short, first, List.take_left]

theorem item_eq_some_iff {data field : Nat} {length : UInt8} {text : Bytes}
    (header : buf[data + 1]? = some length) :
    item buf data field = some text ↔ Refers (buf.drop data) length field text := by
  simp only [item, Option.bind_eq_bind, Option.bind_eq_some_iff, Refers, List.getElem?_drop]
  apply exists_congr
  intro number
  apply and_congr_right
  intro _
  by_cases zero : number = 0
  · simp only [dmiString, zero, ↓reduceIte, Option.some.injEq, true_and, exists_eq_left', strcpy]
    simp [eq_comm]
  · simp only [dmiString, zero, ↓reduceIte, false_and, false_or, ne_eq, not_false_eq_true, true_and,
      header, Option.bind_eq_bind, Option.bind_some, Option.bind_eq_some_iff, pure,
      Option.some.injEq, pass_eq_some_iff]
    have positive : number.toNat ≠ 0 := fun none => zero (UInt8.toNat_inj.mp none)
    constructor
    · rintro ⟨_, ⟨_, ⟨earlier, rest, count, free, split, rfl⟩, rfl⟩, copied⟩
      obtain ⟨plain, short, tail, first⟩ := strcpy_eq_some_iff.mp copied
      rw [← List.drop_drop, split, List.drop_left] at first
      refine ⟨earlier, tail, by omega, free, plain, short, ?_⟩
      rw [List.drop_drop, split, first]
    · rintro ⟨earlier, tail, count, free, plain, short, split⟩
      rw [List.drop_drop] at split
      refine ⟨_, ⟨_, ⟨earlier, _, by omega, free, split, rfl⟩, rfl⟩,
        strcpy_eq_some_iff.mpr ⟨plain, short, tail, ?_⟩⟩
      rw [← List.drop_drop, split, List.drop_left]

theorem flags_isSome_iff {data : Nat} :
    ([13, 12, 11, 10, 17, 16, 15, 14].mapM fun field => buf[data + field]?).isSome = true ↔
      data + 18 ≤ buf.length := by
  by_cases inside : data + 18 ≤ buf.length
  · have read : ∀ field < 18, ∃ byte, buf[data + field]? = some byte := fun field below =>
      ⟨_, List.getElem?_eq_getElem (by omega)⟩
    obtain ⟨_, read13⟩ := read 13 (by decide)
    obtain ⟨_, read12⟩ := read 12 (by decide)
    obtain ⟨_, read11⟩ := read 11 (by decide)
    obtain ⟨_, read10⟩ := read 10 (by decide)
    obtain ⟨_, read17⟩ := read 17 (by decide)
    obtain ⟨_, read16⟩ := read 16 (by decide)
    obtain ⟨_, read15⟩ := read 15 (by decide)
    obtain ⟨_, read14⟩ := read 14 (by decide)
    simp [read13, read12, read11, read10, read17, read16, read15, read14, inside]
  · have missing : buf[data + 17]? = none := List.getElem?_eq_none (by omega)
    simp [missing, inside]

theorem decode_isSome_iff {type length : UInt8} {data : Nat} {items : DmiItems}
    (header : buf[data + 1]? = some length) :
    (decode buf type data items).isSome = true ↔
      (type = 0 → (∃ text, Refers (buf.drop data) length 5 text) ∧
        18 ≤ (buf.drop data).length) ∧
      (type = 1 → ∀ field ∈ [4, 5, 6], ∃ text, Refers (buf.drop data) length field text) := by
  have named : ∀ field, (∃ text, Refers (buf.drop data) length field text) ↔
      (item buf data field).isSome = true := by
    intro field
    rw [Option.isSome_iff_exists]
    exact exists_congr fun text => (item_eq_some_iff header).symm
  have within : data + 1 < buf.length := by
    by_contra outside
    rw [List.getElem?_eq_none (by omega)] at header
    cases header
  have long : 18 ≤ (buf.drop data).length ↔
      ([13, 12, 11, 10, 17, 16, 15, 14].mapM fun field => buf[data + field]?).isSome = true := by
    rw [flags_isSome_iff, List.length_drop]
    omega
  simp only [named, long]
  unfold decode
  by_cases bios : type = 0
  · subst bios
    cases item buf data 5 with
    | none => simp
    | some version =>
        cases [13, 12, 11, 10, 17, 16, 15, 14].mapM fun field => buf[data + field]? with
        | none => simp
        | some flags => simp
  · by_cases system : type = 1
    · subst system
      cases vendor : item buf data 4 with
      | none => simp [vendor]
      | some _ =>
          cases product : item buf data 5 with
          | none => simp [product]
          | some _ =>
              cases version : item buf data 6 with
              | none => simp [version]
              | some _ => simp [vendor, product, version]
    · simp [bios, system]

theorem visit_succ_eq_some_iff {num data : Nat} {items : DmiItems} {visited : List Nat × DmiItems} :
    visit buf (num + 1) data items = some visited ↔
      ∃ type length items' before later, buf[data]? = some type ∧ buf[data + 1]? = some length ∧
        decode buf type data items = some items' ∧
        beforeTwo (buf.drop (data + length.toNat)) = some before ∧
        visit buf num (data + length.toNat + before + 2) items' = some later ∧
        visited = (data :: later.1, later.2) := by
  simp only [visit, Option.bind_eq_bind, Option.bind_eq_some_iff, pure, Option.some.injEq]
  constructor
  · rintro ⟨type, first, items', decoded, length, header, before, two, later, rest, rfl⟩
    exact ⟨type, length, items', before, later, first, header, decoded, two, rest, rfl⟩
  · rintro ⟨type, length, items', before, later, first, header, decoded, two, rest, rfl⟩
    exact ⟨type, first, items', decoded, length, header, before, two, later, rest, rfl⟩

/-- The table is kept to if and only if the structures are confined to it. -/
theorem visit_isSome_iff {num data : Nat} {items : DmiItems} :
    (visit buf num data items).isSome = true ↔ Confined num (buf.drop data) := by
  induction num generalizing data items with
  | zero => simp [visit, Confined]
  | succ num ih =>
      simp only [Confined, List.getElem?_drop, Nat.add_zero, List.drop_drop]
      rw [Option.isSome_iff_exists]
      constructor
      · rintro ⟨_, turn⟩
        obtain ⟨type, length, items', before, later, first, header, decoded, two, rest, _⟩ :=
          visit_succ_eq_some_iff.mp turn
        obtain ⟨bios, system⟩ := (decode_isSome_iff header).mp (Option.isSome_of_eq_some decoded)
        have confined := ih.mp (Option.isSome_of_eq_some rest)
        rw [Nat.add_assoc, Nat.add_assoc] at confined
        exact ⟨type, length, before, first, header, bios, system, beforeTwo_eq_some_iff.mp two,
          confined⟩
      · rintro ⟨type, length, before, first, header, bios, system, ends, confined⟩
        obtain ⟨items', decoded⟩ := Option.isSome_iff_exists.mp
          ((@decode_isSome_iff buf type length data items header).mpr ⟨bios, system⟩)
        rw [← Nat.add_assoc, ← Nat.add_assoc] at confined
        obtain ⟨later, rest⟩ := Option.isSome_iff_exists.mp ((@ih _ items').mpr confined)
        exact ⟨_, visit_succ_eq_some_iff.mpr ⟨type, length, items', before, later, first, header,
          decoded, beforeTwo_eq_some_iff.mpr ends, rest, rfl⟩⟩

end Strings

/-- `dmi_table` only reads what it has copied of the table, and only copies strings that fit, if and
only if it could copy nothing or all structures are confined to the copy. -/
theorem dmiTable_isSome_iff (chunk : Option Bytes) (num : Nat) (items : DmiItems) :
    (dmiTable chunk num items).isSome = true ↔ ∀ buf, chunk = some buf → Confined num buf := by
  cases chunk with
  | none => simp [dmiTable]
  | some buf =>
      simp only [dmiTable, Option.some.injEq, forall_eq']
      exact visit_isSome_iff

/-- `dmi_scan` keeps to the tables if and only if this holds of the table of every anchor. -/
theorem dmiScan_isSome_iff (low : Vector UInt8 0x10000)
    (memChunk : (found : Anchor) → Option (Vector UInt8 found.len)) (items : DmiItems) :
    (dmiScan (some low) memChunk items).isSome = true ↔
      ∀ found ∈ anchors low, ∀ buf, memChunk found = some buf → Confined found.num buf.toList := by
  simp only [dmiScan]
  generalize anchors low = found
  induction found generalizing items with
  | nil => simp
  | cons first found ih =>
      have table := dmiTable_isSome_iff ((memChunk first).map Vector.toList) first.num items
      simp only [Option.map_eq_some_iff, forall_exists_index, and_imp, forall_apply_eq_imp_iff₂]
        at table
      rw [List.foldlM_cons, List.forall_mem_cons, ← table]
      cases visited : dmiTable ((memChunk first).map Vector.toList) first.num items with
      | none => simp
      | some result => simpa using ih result.2

/-- Nothing is found out before the table is read. -/
def noItems : DmiItems := ⟨[], [], [], []⟩

/-- A structure without the two NULs, and a system whose vendor is a string that it does not have,
are read past the end of the table. -/
theorem broken_tables_left :
    dmiTable (some [127, 4, 0, 0]) 1 noItems = none ∧
      dmiTable (some [1, 8, 0, 0, 2, 0, 0, 0, 0x41, 0]) 1 noItems = none := by
  decide

end Dmi

end Suspend
