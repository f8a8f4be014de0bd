import Suspend.Dmidecode

set_option autoImplicit false

namespace Suspend

open Foundation.CStrings

namespace Dmi

/-- A structure of a table: the formatted area behind the header, and the set of strings. -/
structure Smbios where
  type : UInt8
  handle : UInt8 × UInt8
  area : Bytes
  strings : List Bytes
  short : 4 + area.length < 256
  bios : type = 0 → 14 ≤ area.length
  system : type = 1 → 4 ≤ area.length
  texts : ∀ text ∈ strings, text ≠ [] ∧ 0 ∉ text ∧ text.length < ITEMSZ
  numbers : ∀ field ∈ (if type = 0 then [5] else if type = 1 then [4, 5, 6] else []),
    (area.getD (field - 4) 0).toNat ≤ strings.length

namespace Smbios

variable (entry : Smbios)

/-- The length byte. -/
def length : UInt8 := UInt8.ofNat (4 + entry.area.length)

/-- The strings and one more NUL, or two NULs without strings. -/
def stringSet : Bytes :=
  if entry.strings = [] then [0, 0] else pack entry.strings ++ [0]

/-- The standard encoding: header, formatted area, and strings. -/
def encode : Bytes :=
  [entry.type, entry.length, entry.handle.1, entry.handle.2] ++ entry.area ++
    entry.stringSet

/-- The string with the number in a field, where 0 is no string. -/
def string (field : Nat) : Bytes :=
  match (entry.area.getD (field - 4) 0).toNat with
  | 0 => []
  | number + 1 => entry.strings.getD number []

end Smbios

/-- A table, and where its structures begin. -/
def encodeTable (structures : List Smbios) : Bytes := structures.flatMap Smbios.encode

def offsets : Nat → List Smbios → List Nat
  | _, [] => []
  | start, first :: rest => start :: offsets (start + first.encode.length) rest

/-- The last structure of a type, if there is one. -/
def lastOf (type : UInt8) (structures : List Smbios) : Option Smbios :=
  (structures.filter (·.type = type)).getLast?

/-- What the structures say about the machine, where `items` is what is known otherwise. -/
def identified (structures : List Smbios) (items : DmiItems) : DmiItems :=
  { biosVersion := (lastOf 0 structures).elim items.biosVersion (·.string 5)
    sysVendor := (lastOf 1 structures).elim items.sysVendor (·.string 4)
    sysProduct := (lastOf 1 structures).elim items.sysProduct (·.string 5)
    sysVersion := (lastOf 1 structures).elim items.sysVersion (·.string 6) }

/-- What one structure says. -/
def Smbios.identify (first : Smbios) (items : DmiItems) : DmiItems :=
  if first.type = 0 then { items with biosVersion := first.string 5 }
  else if first.type = 1 then
    { items with
      sysVendor := first.string 4
      sysProduct := first.string 5
      sysVersion := first.string 6 }
  else items

section Step

variable {buf : Bytes} {data : Nat} {first : Smbios} {rest : Bytes}

theorem Smbios.length_toNat (first : Smbios) : first.length.toNat = 4 + first.area.length :=
  UInt8.toNat_ofNat_of_lt' first.short

theorem Smbios.encode_length (first : Smbios) :
    first.encode.length = 4 + first.area.length + first.stringSet.length := by
  simp [Smbios.encode]
  omega

theorem drop_length (split : buf.drop data = first.encode ++ rest) :
    buf.drop (data + first.length.toNat) = first.stringSet ++ rest := by
  rw [← List.drop_drop, split, first.length_toNat, Smbios.encode, List.append_assoc,
    List.append_assoc, Nat.add_comm, ← List.drop_drop]
  simp

/-- The two NULs behind the formatted area are the last bytes of the structure. -/
theorem beforeTwo_stringSet (split : buf.drop data = first.encode ++ rest) :
    beforeTwo (buf.drop (data + first.length.toNat)) = some (first.stringSet.length - 2) := by
  rw [drop_length split, Smbios.stringSet]
  by_cases none : first.strings = []
  · rw [if_pos none]
    rfl
  · rw [if_neg none, List.append_assoc, List.singleton_append,
      beforeTwo_pack none fun text present =>
        ⟨(first.texts text present).1, (first.texts text present).2.1⟩]
    simp

theorem read_field (split : buf.drop data = first.encode ++ rest) {field : Nat} (behind : 4 ≤ field)
    (within : field - 4 < first.area.length) :
    (buf.drop data)[field]? = some (first.area.getD (field - 4) 0) := by
  obtain ⟨index, rfl⟩ : ∃ index, field = index + 4 := ⟨field - 4, by omega⟩
  rw [split, Smbios.encode]
  simp only [Nat.add_sub_cancel] at within ⊢
  simp [List.getElem?_append, within]

theorem refers_string (split : buf.drop data = first.encode ++ rest) {field : Nat}
    (behind : 4 ≤ field) (within : field - 4 < first.area.length)
    (number : (first.area.getD (field - 4) 0).toNat ≤ first.strings.length) :
    Refers (buf.drop data) first.length field (first.string field) := by
  refine ⟨_, read_field split behind within, ?_⟩
  unfold Smbios.string
  generalize first.area.getD (field - 4) 0 = found at number ⊢
  cases count : found.toNat with
  | zero => exact Or.inl ⟨UInt8.toNat_inj.mp count, rfl⟩
  | succ index =>
      right
      dsimp only
      have inside : index < first.strings.length := by omega
      have nonempty : first.strings ≠ [] := by
        intro none
        simp [none] at inside
      have text : first.strings.getD index [] = first.strings[index] := by
        simp [inside]
      have present := first.texts _ (List.getElem_mem inside)
      have order : first.strings =
          first.strings.take index ++ first.strings[index] :: first.strings.drop (index + 1) := by
        rw [List.getElem_cons_drop, List.take_append_drop]
      refine ⟨?_, first.strings.take index, pack (first.strings.drop (index + 1)) ++ 0 :: rest,
        by simp; omega, ?_, ?_, ?_, ?_⟩
      · rintro rfl
        cases count
      · exact fun other earlier => (first.texts other (List.mem_of_mem_take earlier)).2.1
      · rw [text]
        exact present.2.1
      · rw [text]
        exact present.2.2
      · rw [List.drop_drop, drop_length split, Smbios.stringSet, if_neg nonempty, text]
        conv_lhs => rw [order]
        rw [pack_append, pack_cons]
        simp

theorem read_header (split : buf.drop data = first.encode ++ rest) :
    buf[data]? = some first.type ∧ buf[data + 1]? = some first.length := by
  have header : (buf.drop data)[0]? = some first.type ∧
      (buf.drop data)[1]? = some first.length := by
    rw [split]
    exact ⟨rfl, rfl⟩
  simpa only [List.getElem?_drop, Nat.add_zero] using header

theorem item_string (split : buf.drop data = first.encode ++ rest) {field : Nat}
    (behind : 4 ≤ field) (within : field - 4 < first.area.length)
    (number : (first.area.getD (field - 4) 0).toNat ≤ first.strings.length) :
    item buf data field = some (first.string field) :=
  (item_eq_some_iff (read_header split).2).mpr (refers_string split behind within number)

theorem decode_identify (split : buf.drop data = first.encode ++ rest) (items : DmiItems) :
    decode buf first.type data items = some (first.identify items) := by
  unfold decode Smbios.identify
  have numbers := first.numbers
  by_cases bios : first.type = 0
  · have area := first.bios bios
    have inside : data + 18 ≤ buf.length := by
      have long := congrArg List.length split
      rw [List.length_drop, List.length_append, first.encode_length] at long
      omega
    obtain ⟨flags, read⟩ := Option.isSome_iff_exists.mp (flags_isSome_iff.mpr inside)
    rw [if_pos bios] at numbers
    have version := item_string split (show 4 ≤ 5 by decide) (by omega) (numbers 5 (by simp))
    rw [if_pos bios, if_pos bios, version, read]
    rfl
  · by_cases system : first.type = 1
    · have area := first.system system
      rw [if_neg bios, if_pos system] at numbers
      have vendor := item_string split (show 4 ≤ 4 by decide) (by omega) (numbers 4 (by simp))
      have product := item_string split (show 4 ≤ 5 by decide) (by omega) (numbers 5 (by simp))
      have version := item_string split (show 4 ≤ 6 by decide) (by omega) (numbers 6 (by simp))
      rw [if_neg bios, if_neg bios, if_pos system, if_pos system, vendor, product, version]
      rfl
    · rw [if_neg bios, if_neg bios, if_neg system, if_neg system]

end Step

theorem lastOf_cons (type : UInt8) (first : Smbios) (later : List Smbios) :
    lastOf type (first :: later) =
      if first.type = type then some ((lastOf type later).getD first) else lastOf type later := by
  unfold lastOf
  by_cases same : first.type = type
  · rw [if_pos same, List.filter_cons_of_pos (by simpa using same), List.getLast?_cons]
  · rw [if_neg same, List.filter_cons_of_neg (by simpa using same)]

/-- What the last structure of a type says is what the first one says, if there is no other. -/
theorem elim_lastOf_cons {α : Type} (type : UInt8) (first : Smbios) (later : List Smbios)
    (otherwise : α) (field : Smbios → α) :
    (lastOf type (first :: later)).elim otherwise field =
      (lastOf type later).elim (if first.type = type then field first else otherwise) field := by
  rw [lastOf_cons]
  by_cases same : first.type = type
  · rw [if_pos same, if_pos same]
    cases lastOf type later <;> rfl
  · rw [if_neg same, if_neg same]

/-- The structures one after the other leave what the last ones say. -/
theorem identified_cons (first : Smbios) (later : List Smbios) (items : DmiItems) :
    identified later (first.identify items) = identified (first :: later) items := by
  simp only [identified, elim_lastOf_cons, Smbios.identify]
  by_cases bios : first.type = 0
  · simp [bios]
  · by_cases system : first.type = 1
    · simp [system]
    · simp [bios, system]

theorem visit_encodeTable {buf : Bytes} {data : Nat} {items : DmiItems} (structures : List Smbios)
    (split : buf.drop data = encodeTable structures) :
    visit buf structures.length data items =
      some (offsets data structures, identified structures items) := by
  induction structures generalizing data items with
  | nil => rfl
  | cons first later ih =>
      rw [encodeTable, List.flatMap_cons, ← encodeTable] at split
      have header := read_header split
      have size : 2 ≤ first.stringSet.length := by
        unfold Smbios.stringSet
        by_cases none : first.strings = []
        · rw [if_pos none]
          decide
        · obtain ⟨text, strings, split⟩ := List.exists_cons_of_ne_nil none
          have text_pos := List.length_pos_iff.mpr (first.texts text (by simp [split])).1
          rw [if_neg none, split, pack_cons, List.length_append, List.length_append,
            List.length_cons,
            List.length_singleton]
          omega
      have next : data + first.length.toNat + (first.stringSet.length - 2) + 2 =
          data + first.encode.length := by
        rw [first.encode_length, first.length_toNat]
        omega
      have rest : buf.drop (data + first.encode.length) = encodeTable later := by
        rw [← List.drop_drop, split, List.drop_left]
      rw [List.length_cons, visit_succ_eq_some_iff]
      refine ⟨_, _, _, _,
        (offsets (data + first.encode.length) later, identified later (first.identify items)),
        header.1, header.2, decode_identify split items, beforeTwo_stringSet split, ?_, ?_⟩
      · rw [next]
        exact ih rest
      · rw [← identified_cons]
        rfl

/-- `dmi_table` undoes the standard encoding: it visits the structures of the table, and leaves the
strings of the last structures that have them. -/
theorem dmiTable_encodeTable (structures : List Smbios) (items : DmiItems) :
    dmiTable (some (encodeTable structures)) structures.length items =
      some (offsets 0 structures, identified structures items) :=
  visit_encodeTable structures rfl

/-- A BIOS with a vendor and a version. -/
def biosStructure : Smbios where
  type := 0
  handle := (0, 0)
  area := [1, 2, 0, 0xe0, 0, 0, 0, 0, 0, 0, 0, 0, 0, 0]
  strings := [[0x49, 0x42, 0x4d], [0x31, 0x52]]
  short := by decide
  bios := by decide
  system := by decide
  texts := by decide
  numbers := by decide

/-- A system that names its product and its vendor, in this order, but no version. -/
def systemStructure : Smbios where
  type := 1
  handle := (1, 0)
  area := [2, 1, 0] ++ List.replicate 20 0xff
  strings := [[0x32, 0x33, 0x36, 0x36], [0x49, 0x42, 0x4d]]
  short := by decide
  bios := by decide
  system := by decide
  texts := by decide
  numbers := by decide

/-- The end of a table, which has no strings. -/
def endStructure : Smbios where
  type := 127
  handle := (2, 0)
  area := []
  strings := []
  short := by decide
  bios := by decide
  system := by decide
  texts := by decide
  numbers := by decide

theorem three_structures_read :
    dmiTable (some (encodeTable [biosStructure, systemStructure, endStructure])) 3
      ⟨[], [], [], []⟩ =
        some ([0, 26, 63],
          ⟨[0x31, 0x52], [0x49, 0x42, 0x4d], [0x32, 0x33, 0x36, 0x36], []⟩) :=
  (dmiTable_encodeTable [biosStructure, systemStructure, endStructure] ⟨[], [], [], []⟩).trans
    (by decide)

end Dmi

end Suspend
