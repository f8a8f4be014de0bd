import Suspend.Cursor
import Suspend.SwapReader
import Suspend.SwapWriter

set_option autoImplicit false

namespace Suspend

open Foundation.CachedDisk

variable {Page : Type} {page : PageSize} {doCompress : Bool}

namespace Device

/-- The device as it is found, with the outcomes of the transfers to come. -/
def opened (initial : DiskContent Page) (outcomes : List Bool) : Device Page :=
  ⟨initial, [], outcomes⟩

/-- The offsets at which extents tables were written, in order. -/
def tablesWritten (device : Device Page) : List Int :=
  device.log.filterMap fun
    | .write (.page offset) (.extents _) => some offset
    | _ => none

/-- The offsets at which image data pages were written, in order. -/
def dataWritten (device : Device Page) : List Int :=
  device.log.filterMap fun
    | .write (.page offset) (.data _) => some offset
    | _ => none

theorem append_transfer_content (device : Device Page) (place : Place)
    (value : place.Content Page) :
    (device.transfer.2.append (.write place value)).content =
      Function.update device.content place value := by
  simp only [content, append, transfer_initial, transfer_log, content_append, content_cons,
    content_nil]
  rfl

@[simp] theorem append_content_same (device : Device Page) (offset : Int) (cell : Cell Page) :
    (device.transfer.2.append (.write (.page offset) cell)).content (.page offset) = cell := by
  rw [append_transfer_content]
  exact Function.update_self _ _ _

theorem append_content_other (device : Device Page) {offset other : Int} (cell : Cell Page)
    (different : other ≠ offset) :
    (device.transfer.2.append (.write (.page offset) cell)).content (.page other) =
      device.content (.page other) := by
  rw [append_transfer_content]
  exact Function.update_of_ne (fun same => different (Place.page.inj same)) _ _

@[simp] theorem append_extents_written (device : Device Page) (offset : Int) (table : Table) :
    (device.transfer.2.append (.write (.page offset) (.extents table))).tablesWritten =
        device.tablesWritten ++ [offset] ∧
      (device.transfer.2.append (.write (.page offset) (.extents table))).dataWritten =
        device.dataWritten := by
  simp [tablesWritten, dataWritten, append]

@[simp] theorem append_data_written (device : Device Page) (offset : Int) (src : Page) :
    (device.transfer.2.append (.write (.page offset) (.data src))).tablesWritten =
        device.tablesWritten ∧
      (device.transfer.2.append (.write (.page offset) (.data src))).dataWritten =
        device.dataWritten ++ [offset] := by
  simp [tablesWritten, dataWritten, append]

end Device

/-- A table as the reader needs it: `count` extents and, unless they fill it, an empty slot. -/
structure Readable (page : PageSize) (table : Table) (count : Nat) : Prop where
  sorted : Sorted page table count
  positive : 0 < count
  room : count ≤ page.maxExtents
  ends : count < page.maxExtents → ¬ (table count).start < (table count).stop

/-- Following the tables from `first` on gives `pages` and leads to the place `last`. -/
inductive Chain (page : PageSize) (content : DiskContent Page) :
    Int → List Int → List Int → Int → Prop
  | nil (first : Int) : Chain page content first [] [] first
  | cons {first last : Int} {table : Table} {count : Nat} {tables pages : List Int}
      (nonzero : first ≠ 0) (stored : content (.page first) = .extents table)
      (readable : Readable page table count)
      (rest : Chain page content (table page.maxExtents).start tables pages last) :
      Chain page content first (first :: tables) (tablePages page table count ++ pages) last

namespace Chain

variable {content : DiskContent Page} {first last : Int} {tables pages : List Int}

theorem snoc (chain : Chain page content first tables pages last) {table : Table} {count : Nat}
    (nonzero : last ≠ 0) (stored : content (.page last) = .extents table)
    (readable : Readable page table count) :
    Chain page content first (tables ++ [last]) (pages ++ tablePages page table count)
      (table page.maxExtents).start := by
  induction chain with
  | nil last =>
      simpa using Chain.cons nonzero stored readable (Chain.nil _)
  | cons headNonzero headStored headReadable _ ih =>
      rw [List.cons_append, List.append_assoc]
      exact Chain.cons headNonzero headStored headReadable (ih nonzero stored)

/-- A chain that leads to a stored table starts at one. -/
theorem head (chain : Chain page content first tables pages last) {final : Table}
    (nonzero : last ≠ 0) (stored : content (.page last) = .extents final) :
    first ≠ 0 ∧ ∃ table, content (.page first) = .extents table := by
  cases chain with
  | nil => exact ⟨nonzero, final, stored⟩
  | cons headNonzero headStored => exact ⟨headNonzero, _, headStored⟩

theorem congr (chain : Chain page content first tables pages last)
    (other : DiskContent Page) (same : ∀ offset ∈ tables, other (.page offset) =
      content (.page offset)) :
    Chain page other first tables pages last := by
  induction chain with
  | nil last => exact Chain.nil last
  | cons nonzero stored readable _ ih =>
      refine Chain.cons nonzero ?_ readable (ih fun offset member => same offset (by simp [member]))
      rw [same _ (by simp), stored]

end Chain

namespace SwapReader

variable {other : Reinterpretation Page} {handle : SwapReader Page}

/-- The offsets of the next pages the reader is positioned at, as `load_and_decrypt_page` comes
to them. -/
def visits (page : PageSize) (other : Reinterpretation Page) :
    Nat → SwapReader Page → List Int
  | 0, _ => []
  | count + 1, handle =>
      handle.curOffset :: visits page other count (findNextImagePage page other handle)

variable (page other) in
theorem loadExtentsPage_stored {table : Table}
    (nonzero : handle.nextExtents ≠ 0) (success : handle.fd.transfer.1 = true)
    (stored : handle.fd.content (.page handle.nextExtents) = .extents table) :
    loadExtentsPage page other handle = (0, { handle with
      extents := Function.update table page.maxExtents Extent.zero
      curExtent := 0
      curOffset := (table 0).start
      nextExtents := (table page.maxExtents).start
      fd := handle.fd.transfer.2 }) := by
  have positive := page.maxExtents_pos
  simp only [loadExtentsPage, Device.readPage, nonzero, ↓reduceIte, success, stored,
    Cell.asExtents, ne_eq, not_true_eq_false]
  rw [Function.update_of_ne (by omega)]

variable (page other) in
/-- The cursor does not matter for the next table. -/
theorem loadExtentsPage_cursor {table : Table} (index : Nat) (offset : Int)
    (nonzero : handle.nextExtents ≠ 0) (success : handle.fd.transfer.1 = true)
    (stored : handle.fd.content (.page handle.nextExtents) = .extents table) :
    loadExtentsPage page other { handle with curExtent := index, curOffset := offset } =
      loadExtentsPage page other handle := by
  rw [loadExtentsPage_stored page other nonzero success stored]
  exact @loadExtentsPage_stored _ page other
    { handle with curExtent := index, curOffset := offset } _ nonzero success stored

/-- The reader is at a page of the table it has loaded. -/
structure At (page : PageSize) (table : Table) (count : Nat) (handle : SwapReader Page) :
    Prop where
  sorted : Sorted page table count
  room : count ≤ page.maxExtents
  loaded : handle.extents = Function.update table page.maxExtents Extent.zero
  position : Positioned page table count handle.curExtent handle.curOffset

/-- The pages behind the current one. -/
def rest (page : PageSize) (table : Table) (count : Nat) (handle : SwapReader Page) : List Int :=
  ahead page table count handle.curExtent handle.curOffset

theorem At.extent {table : Table} {count : Nat} (current : At page table count handle) {index : Nat}
    (inside : index < count) : handle.extents index = table index := by
  have room := current.room
  rw [current.loaded, Function.update_of_ne (by omega)]

theorem At.slot_empty {table : Table} {count : Nat} (current : At page table count handle)
    (ends : count < page.maxExtents → ¬ (table count).start < (table count).stop) :
    ¬ (handle.extents count).start < (handle.extents count).stop := by
  rw [current.loaded]
  by_cases full : count = page.maxExtents
  · rw [full, Function.update_self]
    simp [Extent.zero]
  · rw [Function.update_of_ne full]
    have room := current.room
    exact ends (by omega)

variable (other) in
theorem At.next {table : Table} {count : Nat} (current : At page table count handle) {next : Int}
    {later : List Int} (more : rest page table count handle = next :: later) :
    ∃ index, findNextImagePage page other handle =
        { handle with curExtent := index, curOffset := next } ∧
      At page table count { handle with curExtent := index, curOffset := next } ∧
      rest page table count { handle with curExtent := index, curOffset := next } = later := by
  have sorted := current.sorted
  have currentExtent := current.extent current.position.inside
  rcases current.position.step sorted more with ⟨same, rfl, position, tail⟩ |
      ⟨last, inside, rfl, position, tail⟩
  · refine ⟨handle.curExtent, ?_, ⟨current.sorted, current.room, current.loaded, position⟩, tail⟩
    simp only [findNextImagePage, currentExtent, same, ↓reduceIte]
  · refine ⟨handle.curExtent + 1, ?_,
      ⟨current.sorted, current.room, current.loaded, position⟩, tail⟩
    have nextExtent := current.extent inside
    have nonempty := (sorted.whole _ inside).nonempty
    have beyond : ¬ handle.curOffset + page.bytes < (table handle.curExtent).stop := by omega
    simp only [findNextImagePage, currentExtent, nextExtent, beyond, nonempty, ↓reduceIte]

/-- Behind the last page of a table the reader goes on with the first page of the next one. -/
theorem At.next_table {table following : Table} {count : Nat}
    (current : At page table count handle)
    (ends : count < page.maxExtents → ¬ (table count).start < (table count).stop)
    (used : rest page table count handle = [])
    (nonzero : handle.nextExtents ≠ 0) (success : handle.fd.transfer.1 = true)
    (stored : handle.fd.content (.page handle.nextExtents) = .extents following) :
    findNextImagePage page other handle = (loadExtentsPage page other handle).2 := by
  obtain ⟨last, behind⟩ := current.position.exhausted current.sorted used
  have currentExtent := current.extent current.position.inside
  have beyond : ¬ handle.curOffset + page.bytes < (table handle.curExtent).stop := by omega
  have empty := current.slot_empty ends
  rw [← behind] at empty
  have loaded := loadExtentsPage_cursor page other (handle.curExtent + 1)
    (handle.curOffset + page.bytes) nonzero success stored
  simp only [findNextImagePage, currentExtent, beyond, empty, ↓reduceIte, loaded]
  rw [loadExtentsPage_stored page other nonzero success stored]
  rfl

theorem At.visits_within {table : Table} {count : Nat} (current : At page table count handle)
    (steps : Nat) (enough : steps ≤ (rest page table count handle).length + 1) :
    visits page other steps handle =
      (handle.curOffset :: rest page table count handle).take steps := by
  induction steps generalizing handle with
  | zero => rfl
  | succ steps ih =>
      cases pages : rest page table count handle with
      | nil =>
          have once : steps = 0 := by
            rw [pages] at enough
            simpa using enough
          simp [once, visits]
      | cons next later =>
          obtain ⟨index, found, arrived, tail⟩ := current.next other pages
          rw [pages, List.length_cons] at enough
          rw [visits, found, ih arrived (by rw [tail]; omega), tail, List.take_succ_cons]

theorem At.visits_beyond {table following : Table} {count : Nat}
    (current : At page table count handle)
    (ends : count < page.maxExtents → ¬ (table count).start < (table count).stop)
    (steps : Nat) (nonzero : handle.nextExtents ≠ 0)
    (success : handle.fd.transfer.1 = true)
    (stored : handle.fd.content (.page handle.nextExtents) = .extents following) :
    visits page other ((rest page table count handle).length + 1 + steps) handle =
      handle.curOffset :: rest page table count handle ++
        visits page other steps (loadExtentsPage page other handle).2 := by
  induction pages : rest page table count handle generalizing handle with
  | nil =>
      rw [List.length_nil, Nat.zero_add, Nat.add_comm, visits,
        current.next_table ends pages nonzero success stored]
      rfl
  | cons next later ih =>
      obtain ⟨index, found, arrived, tail⟩ := current.next other pages
      have continued := ih arrived nonzero success stored tail
      rw [loadExtentsPage_cursor page other index next nonzero success stored] at continued
      have moved : later.length + 1 + 1 + steps = later.length + 1 + steps + 1 := by omega
      rw [List.length_cons, moved, visits, found, continued]
      rfl

variable (other) in
theorem loadExtentsPage_at {table : Table} {count : Nat} (sorted : Sorted page table count)
    (positive : 0 < count) (room : count ≤ page.maxExtents) (nonzero : handle.nextExtents ≠ 0)
    (success : handle.fd.transfer.1 = true)
    (stored : handle.fd.content (.page handle.nextExtents) = .extents table) :
    At page table count (loadExtentsPage page other handle).2 ∧
      (loadExtentsPage page other handle).2.curOffset ::
        rest page table count (loadExtentsPage page other handle).2 =
          tablePages page table count := by
  rw [loadExtentsPage_stored page other nonzero success stored, sorted.first_page positive]
  exact ⟨⟨sorted, room, rfl, sorted.positioned positive⟩, rfl⟩

variable (other) in
/-- The reader that starts at the head of a chain visits its pages, then those of the last
table. -/
theorem visits_chain {content : DiskContent Page} {first last : Int} {tables pages : List Int}
    (chain : Chain page content first tables pages last) {final : Table} {count : Nat}
    (finalSorted : Sorted page final count) (finalPositive : 0 < count)
    (finalRoom : count ≤ page.maxExtents) (lastNonzero : last ≠ 0)
    (finalStored : content (.page last) = .extents final) (handle : SwapReader Page)
    (start : handle.nextExtents = first) (reads : handle.fd.content = content)
    {unused : List Bool}
    (succeed : handle.fd.outcomes = List.replicate (tables.length + 1) true ++ unused)
    (steps : Nat) (enough : steps ≤ (pages ++ tablePages page final count).length) :
    visits page other steps (loadExtentsPage page other handle).2 =
      (pages ++ tablePages page final count).take steps := by
  induction chain generalizing handle steps with
  | nil last =>
      have success : handle.fd.transfer.1 = true := by
        simp [Device.transfer, succeed, List.replicate_succ]
      subst start
      obtain ⟨arrived, all⟩ := loadExtentsPage_at other finalSorted finalPositive
        finalRoom lastNonzero success (by rw [reads, finalStored])
      rw [List.nil_append] at enough ⊢
      rw [← all] at enough ⊢
      exact arrived.visits_within steps enough
  | @cons first last table headCount tables pages nonzero stored readable restChain ih =>
      have success : handle.fd.transfer.1 = true := by
        simp [Device.transfer, succeed, List.replicate_succ]
      subst start
      have storedHere : handle.fd.content (.page handle.nextExtents) = .extents table := by
        rw [reads, stored]
      obtain ⟨arrived, all⟩ := loadExtentsPage_at other readable.sorted
        readable.positive readable.room nonzero success storedHere
      rw [List.append_assoc, ← all] at enough ⊢
      by_cases within : steps ≤ (rest page table headCount
          (loadExtentsPage page other handle).2).length + 1
      · rw [arrived.visits_within steps within,
          List.take_append_of_le_length (by simpa using within)]
      · have loaded := loadExtentsPage_stored page other nonzero success storedHere
        have link : (loadExtentsPage page other handle).2.nextExtents =
          (table page.maxExtents).start := by rw [loaded]
        have reads' : (loadExtentsPage page other handle).2.fd.content = content := by
          rw [loaded]
          simpa [Device.content] using reads
        have succeed' : (loadExtentsPage page other handle).2.fd.outcomes =
            List.replicate (tables.length + 1) true ++ unused := by
          rw [loaded]
          simp [Device.transfer, succeed, List.replicate_succ]
        have success' : (loadExtentsPage page other handle).2.fd.transfer.1 = true := by
          simp [Device.transfer, succeed', List.replicate_succ]
        obtain ⟨nextNonzero, following, nextStored⟩ := restChain.head lastNonzero finalStored
        rw [← link] at nextNonzero
        rw [← reads', ← link] at nextStored
        obtain ⟨more, rfl⟩ := Nat.exists_eq_add_of_le (Nat.le_of_not_le within)
        have remaining : more ≤ (pages ++ tablePages page final count).length := by
          simp only [List.length_append, List.length_cons] at enough ⊢
          omega
        rw [arrived.visits_beyond readable.ends more nextNonzero success' nextStored,
          ih lastNonzero finalStored _ link reads' succeed' more remaining,
          ← List.length_cons, List.take_length_add_append]

end SwapReader

end Suspend
