import Suspend.ShortStream

set_option autoImplicit false

namespace Suspend

open Foundation.Memory

namespace ReadEnv

variable {env : ReadEnv} {locations : List Int} {front : List (Int × Bytes)}

/-- The pages at the `locations`, as far as they can be decrypted. -/
def stored (env : ReadEnv) (content : DiskContent Bytes) :
    env.cipher.State → List Int → List (Int × Bytes)
  | _, [] => []
  | state, location :: rest =>
      let coded := env.asBytes (content (.page location))
      if env.settings.doDecrypt then
        match env.cipher.decrypt state coded with
        | .error _ => []
        | .ok (src, next) => (location, env.fit src) :: stored env content next rest
      else (location, coded) :: stored env content state rest

/-- The reader has loaded a table and stands at one of its pages; the chain goes on with the
`tables` and their pages `later`. All of these are among the `locations`. -/
structure Along (env : ReadEnv) (content : DiskContent Bytes) (locations : List Int)
    (table : Table) (count : Nat) (tables later : List Int) (reader : SwapReader Bytes) :
    Prop where
  current : SwapReader.At env.page table count reader
  ends : count < env.page.maxExtents → ¬ (table count).start < (table count).stop
  reads : reader.fd.content = content
  chain : Chain env.page content reader.nextExtents tables later 0
  listed : ∀ offset ∈ tablePages env.page table count ++ later, offset ∈ locations

section Walk

variable {content : DiskContent Bytes} {table : Table} {count : Nat} {tables later : List Int}
  {reader : SwapReader Bytes}

theorem transfer_content (fd : Device Bytes) : fd.transfer.2.content = fd.content := by
  unfold Device.content
  rw [Device.transfer_initial, Device.transfer_log]

theorem Along.taken (along : env.Along content locations table count tables later reader)
    (size : Int) :
    env.Along content locations table count tables later
      { reader with fd := reader.fd.transfer.2, totalSize := size } := by
  have current := along.current
  exact ⟨⟨current.sorted, current.room, current.loaded, current.position⟩, along.ends,
    (transfer_content _).trans along.reads, along.chain, along.listed⟩

variable (env) in
/-- The end of `find_next_image_page`. -/
def reload (reader : SwapReader Bytes) : SwapReader Bytes :=
  let loaded := SwapReader.loadExtentsPage env.page env.other reader
  if loaded.1 ≠ 0 then { loaded.2 with curOffset := 0 } else loaded.2

/-- Behind the last page of a table the next one is asked for. -/
theorem Along.leaves (along : env.Along content locations table count tables later reader)
    (used : SwapReader.rest env.page table count reader = []) :
    SwapReader.findNextImagePage env.page env.other reader =
      env.reload { reader with
        curExtent := reader.curExtent + 1
        curOffset := reader.curOffset + env.page.bytes } := by
  have current := along.current
  obtain ⟨last, behind⟩ := current.position.exhausted current.sorted used
  have extent := current.extent current.position.inside
  have beyond : ¬ reader.curOffset + env.page.bytes < (table reader.curExtent).stop := by omega
  have empty := current.slot_empty along.ends
  rw [← behind] at empty
  simp only [SwapReader.findNextImagePage, extent, beyond, empty, ↓reduceIte]
  rfl

/-- A next table at `0` is taken to have been read. -/
theorem reload_end (ended : reader.nextExtents = 0) :
    (env.reload reader).curOffset = (reader.extents 0).start ∧
      (env.reload reader).fd = reader.fd := by
  have positive := env.page.maxExtents_pos
  simp only [reload, SwapReader.loadExtentsPage, Device.readPage, ended, ↓reduceIte,
    Cell.asExtents, ne_eq, not_true_eq_false, and_true]
  rw [Function.update_of_ne (by omega)]

theorem reload_failed (nonzero : reader.nextExtents ≠ 0)
    (failed : reader.fd.transfer.1 = false) : (env.reload reader).curOffset = 0 := by
  simp [reload, SwapReader.loadExtentsPage, Device.readPage, nonzero, failed, EIO]

theorem reload_stored {following : Table} (index : Nat) (offset : Int)
    (nonzero : reader.nextExtents ≠ 0) (read : reader.fd.transfer.1 = true)
    (cell : reader.fd.content (.page reader.nextExtents) = .extents following) :
    env.reload { reader with curExtent := index, curOffset := offset } =
      (SwapReader.loadExtentsPage env.page env.other reader).2 := by
  have same := SwapReader.loadExtentsPage_cursor env.page env.other index offset nonzero read cell
  have loaded := SwapReader.loadExtentsPage_stored env.page env.other nonzero read cell
  unfold reload
  rw [same, loaded]
  exact if_neg (not_not_intro rfl)

theorem Along.wraps (along : env.Along content locations table count tables [] reader)
    (used : SwapReader.rest env.page table count reader = []) :
    (SwapReader.findNextImagePage env.page env.other reader).curOffset = (table 0).start ∧
      (SwapReader.findNextImagePage env.page env.other reader).fd = reader.fd := by
  have ended : reader.nextExtents = 0 := by
    have chain := along.chain
    generalize none : ([] : List Int) = later at chain
    generalize reader.nextExtents = first at chain
    cases chain with
    | nil => rfl
    | cons _ _ readable =>
        obtain ⟨nothing, _⟩ := List.append_eq_nil_iff.mp none.symm
        rw [readable.sorted.first_page readable.positive] at nothing
        cases nothing
  have inside := along.current.position.inside
  have first : reader.extents 0 = table 0 := along.current.extent (by omega)
  have wrapped := @reload_end env { reader with
    curExtent := reader.curExtent + 1
    curOffset := reader.curOffset + env.page.bytes } ended
  rw [along.leaves used, wrapped.1, wrapped.2]
  exact ⟨congrArg Extent.start first, rfl⟩

/-- Behind any other table the reader starts with the next one, unless it cannot be read. -/
theorem Along.continues {next : Int} (along : env.Along content locations table count tables
      (next :: later) reader)
    (used : SwapReader.rest env.page table count reader = []) :
    let after := SwapReader.findNextImagePage env.page env.other reader
    (after.curOffset = 0 ∧ reader.fd.transfer.1 = false) ∨
      ∃ following count' tables' rest, after.fd = reader.fd.transfer.2 ∧
        env.Along content locations following count' tables' rest after ∧ after.curOffset = next ∧
        SwapReader.rest env.page following count' after ++ rest = later := by
  have chain := along.chain
  rw [along.leaves used]
  generalize location : reader.nextExtents = first at chain
  generalize pages : next :: later = all at chain
  cases chain with
  | nil => cases pages
  | @cons _ _ following count' tables' rest nonzero found readable onward =>
      subst location
      cases read : reader.fd.transfer.1 with
      | false => exact .inl ⟨reload_failed nonzero read, rfl⟩
      | true =>
          have cell : reader.fd.content (.page reader.nextExtents) = .extents following := by
            rw [along.reads, found]
          obtain ⟨arrived, entered⟩ := SwapReader.loadExtentsPage_at env.other readable.sorted
            readable.positive readable.room nonzero read cell
          have loaded := SwapReader.loadExtentsPage_stored env.page env.other nonzero read cell
          have listed : ∀ offset ∈ tablePages env.page following count' ++ rest,
              offset ∈ locations := by
            intro offset member
            rw [← pages] at member
            exact along.listed offset (List.mem_append_right _ member)
          rw [← entered, List.cons_append, List.cons.injEq] at pages
          rw [reload_stored _ _ nonzero read cell]
          refine .inr ⟨following, count', tables', rest, ?_,
            ⟨arrived, readable.ends, ?_, ?_, listed⟩, pages.1.symm, pages.2.symm⟩
          · rw [loaded]
          · rw [loaded]
            exact (transfer_content _).trans along.reads
          · rw [loaded]
            exact onward

/-- One page further along the chain, unless a table cannot be read. -/
theorem Along.step {next : Int} {more : List Int}
    (along : env.Along content locations table count tables later reader)
    (ahead : SwapReader.rest env.page table count reader ++ later = next :: more) :
    let after := env.advance { reader with fd := reader.fd.transfer.2 }
    (after.curOffset = 0 ∧ reader.fd.transfer.2.transfer.1 = false) ∨
      ∃ table' count' tables' later',
        (after.fd = reader.fd.transfer.2 ∨ after.fd = reader.fd.transfer.2.transfer.2) ∧
        env.Along content locations table' count' tables' later' after ∧
        after.curOffset = next ∧
        SwapReader.rest env.page table' count' after ++ later' = more := by
  have taken := along.taken (reader.totalSize - env.page.bytes)
  unfold advance
  dsimp only
  cases rest : SwapReader.rest env.page table count reader with
  | nil =>
      rw [rest, List.nil_append] at ahead
      subst ahead
      rcases taken.continues rest with ⟨lost, failed⟩ | ⟨following, count', tables', rest', fd,
        arrived, first, others⟩
      · exact .inl ⟨lost, failed⟩
      · exact .inr ⟨following, count', tables', rest', .inr fd, arrived, first, others⟩
  | cons first others =>
      rw [rest, List.cons_append, List.cons.injEq] at ahead
      obtain ⟨rfl, rfl⟩ := ahead
      obtain ⟨index, found, arrived, tail⟩ := taken.current.next env.other rest
      rw [found]
      exact .inr ⟨table, count, tables, later, .inl rfl,
        ⟨arrived, taken.ends, taken.reads, taken.chain, taken.listed⟩, rfl,
        congrArg (· ++ later) tail⟩

theorem pagesAhead_nil (lost : reader.curOffset = 0) (state : env.cipher.State) :
    env.pagesAhead reader state = [] := by
  rw [pagesAhead]
  split
  · rfl
  · next found =>
    unfold nextPage at found
    rw [if_pos (.inl lost)] at found
    cases found

/-- The page that the reader stands at is the one stored there, if it can be read. -/
theorem pagesAhead_front {more : List Int} (reads : reader.fd.content = content)
    (nonzero : ∀ offset ∈ reader.curOffset :: more, offset ≠ 0) (state : env.cipher.State) :
    env.pagesAhead reader state = [] ∨
      reader.fd.transfer.1 = true ∧
      ∃ src next, env.pagesAhead reader state = (reader.curOffset, src) ::
          env.pagesAhead (env.advance { reader with fd := reader.fd.transfer.2 }) next ∧
        env.stored content state (reader.curOffset :: more) =
          (reader.curOffset, src) :: env.stored content next more := by
  have somewhere := nonzero _ List.mem_cons_self
  rw [pagesAhead, ← reads]
  split
  · exact .inl rfl
  · next found =>
    unfold nextPage at found
    split at found
    · cases found
    · next readable =>
      have read : reader.fd.transfer.1 = true := by simpa using (not_or.mp readable).2
      dsimp only at found
      refine .inr ⟨read, ?_⟩
      by_cases decrypts : env.settings.doDecrypt = true
      · rw [if_pos decrypts] at found
        split at found
        · cases found
        · next answer =>
          cases found
          exact ⟨_, _, rfl, by rw [stored, if_pos decrypts, answer]⟩
      · rw [if_neg decrypts] at found
        cases found
        exact ⟨_, _, rfl, by rw [stored, if_neg decrypts]⟩

/-- The pages ahead are those of the chain, as far as they can be read, and then others. -/
theorem Along.pages {more : List Int}
    (along : env.Along content locations table count tables later reader)
    (nonzero : ∀ offset ∈ reader.curOffset :: more, offset ≠ 0)
    (ahead : SwapReader.rest env.page table count reader ++ later = more)
    (state : env.cipher.State) :
    env.pagesAhead reader state <+: env.stored content state (reader.curOffset :: more) ∨
      env.stored content state (reader.curOffset :: more) <+: env.pagesAhead reader state := by
  induction more generalizing table count tables later reader state with
  | nil =>
      rcases pagesAhead_front along.reads nonzero state with none | ⟨_, src, next, some, same⟩
      · rw [none]
        exact .inl List.nil_prefix
      · rw [some, same]
        exact .inr ⟨_, rfl⟩
  | cons next more ih =>
      rcases pagesAhead_front along.reads nonzero state with none | ⟨_, src, state', some, same⟩
      · rw [none]
        exact .inl List.nil_prefix
      · rw [some, same]
        rcases along.step ahead with ⟨lost, _⟩ | ⟨table', count', tables', later', _, arrived,
          first, others⟩
        · rw [pagesAhead_nil lost]
          exact .inl ((List.prefix_cons_inj _).mpr List.nil_prefix)
        · have rest := ih arrived (by rw [first]; exact (List.forall_mem_cons.mp nonzero).2)
            others state'
          rw [first] at rest
          exact rest.imp (List.prefix_cons_inj _).mpr (List.prefix_cons_inj _).mpr

/-- So many transfers succeed. -/
def Plenty (fd : Device Bytes) (count : Nat) : Prop :=
  count ≤ fd.outcomes.length ∧ ∀ outcome ∈ fd.outcomes, outcome = true

theorem Plenty.transfer {fd : Device Bytes} {count : Nat} (plenty : Plenty fd (count + 1)) :
    fd.transfer.1 = true ∧ Plenty fd.transfer.2 count := by
  obtain ⟨enough, all⟩ := plenty
  unfold Device.transfer
  split
  · next none =>
    rw [none] at enough
    exact absurd enough (Nat.not_succ_le_zero _)
  · next outcome rest some =>
    rw [some] at enough all
    obtain ⟨this, others⟩ := List.forall_mem_cons.mp all
    exact ⟨this, Nat.le_of_succ_le_succ enough, others⟩

theorem Plenty.fewer {fd : Device Bytes} {count fewer : Nat} (plenty : Plenty fd count)
    (less : fewer ≤ count) : Plenty fd fewer :=
  ⟨Nat.le_trans less plenty.1, plenty.2⟩

theorem pagesAhead_some
    (decrypts : ∀ state coded, ∃ answer, env.cipher.decrypt state coded = .ok answer)
    (somewhere : reader.curOffset ≠ 0) (read : reader.fd.transfer.1 = true)
    (state : env.cipher.State) : env.pagesAhead reader state ≠ [] := by
  rw [pagesAhead]
  split
  · next found =>
    unfold nextPage at found
    simp only [somewhere, read, Bool.true_eq_false, or_self, ↓reduceIte] at found
    split at found
    · obtain ⟨answer, decrypted⟩ :=
        decrypts state (env.asBytes (reader.fd.content (.page reader.curOffset)))
      rw [decrypted] at found
      cases found
    · cases found
  · exact List.cons_ne_nil _ _

/-- If everything can be read, a page that the chain has already given follows its last one. -/
theorem Along.pages_again {more : List Int}
    (decrypts : ∀ state coded, ∃ answer, env.cipher.decrypt state coded = .ok answer)
    (along : env.Along content locations table count tables later reader)
    (elsewhere : ∀ offset ∈ locations, offset ≠ 0)
    (nonzero : ∀ offset ∈ reader.curOffset :: more, offset ≠ 0)
    (ahead : SwapReader.rest env.page table count reader ++ later = more)
    (plenty : Plenty reader.fd (2 * more.length + 2)) (state : env.cipher.State) :
    ∃ again ∈ locations, ∃ src tail, env.pagesAhead reader state =
      env.stored content state (reader.curOffset :: more) ++ (again, src) :: tail := by
  induction more generalizing table count tables later reader state with
  | nil =>
      obtain ⟨read, rest⟩ := plenty.transfer
      rcases pagesAhead_front along.reads nonzero state with none | ⟨_, src, next, some, same⟩
      · exact absurd none (pagesAhead_some decrypts (nonzero _ List.mem_cons_self) read state)
      · obtain ⟨used, ended⟩ := List.append_eq_nil_iff.mp ahead
        subst ended
        have taken := along.taken (reader.totalSize - env.page.bytes)
        obtain ⟨wrapped, fd⟩ := taken.wraps used
        have first : (table 0).start ∈ locations := by
          have inside := along.current.position.inside
          apply along.listed
          rw [along.current.sorted.first_page (by omega)]
          exact List.mem_cons_self
        have somewhere := elsewhere _ first
        rw [← wrapped] at first somewhere
        have again := pagesAhead_some decrypts somewhere (by rw [fd]; exact rest.transfer.1) next
        rcases @pagesAhead_front env _ _ [] rfl
            (List.forall_mem_cons.mpr ⟨somewhere, fun _ none => by cases none⟩) next with
          none | ⟨_, src', next', some', _⟩
        · exact absurd none again
        · rw [some, same, advance, some']
          exact ⟨_, first, src', _, rfl⟩
  | cons next more ih =>
      rw [List.length_cons, show 2 * (more.length + 1) + 2 = 2 * more.length + 2 + 1 + 1 by omega]
        at plenty
      obtain ⟨read, rest⟩ := plenty.transfer
      obtain ⟨readNext, restNext⟩ := rest.transfer
      rcases pagesAhead_front along.reads nonzero state with none | ⟨_, src, state', some, same⟩
      · exact absurd none (pagesAhead_some decrypts (nonzero _ List.mem_cons_self) read state)
      · rcases along.step ahead with ⟨_, failed⟩ | ⟨table', count', tables', later', fd, arrived,
          first, others⟩
        · rw [readNext] at failed
          cases failed
        · have left : Plenty (env.advance { reader with fd := reader.fd.transfer.2 }).fd
              (2 * more.length + 2) := by
            rcases fd with same | same
            · rw [same]
              exact rest.fewer (Nat.le_succ _)
            · rw [same]
              exact restNext
          obtain ⟨again, member, src', tail, onward⟩ := ih arrived
            (by rw [first]; exact (List.forall_mem_cons.mp nonzero).2) others left state'
          rw [first] at onward
          exact ⟨again, member, src', tail, by rw [some, same, onward]; rfl⟩

end Walk

/-- An image on the disk: a chain of extents tables that comes to an end, with its pages. -/
structure OnDisk (page : PageSize) (content : DiskContent Bytes) (start : Int)
    (tables locations : List Int) : Prop where
  chain : Chain page content start tables locations 0
  somewhere : start ≠ 0
  distinct : locations.Nodup
  nonzero : ∀ offset ∈ locations, offset ≠ 0

/-- The end of the image is reported, whatever can be read and whatever the kernel takes:
`load_image` fails, and no swap location is consumed twice. -/
def Reports (env : ReadEnv) (content : DiskContent Bytes) (start imageSize : Int)
    (state : env.cipher.State) (pages : Nat) : Prop :=
  ∀ (accepts : Nat → Bool) (outcomes : List Bool) (extents : Table) (buffer : Bytes),
    let reader : ReadEnv := { env with accepts := accepts }
    let loaded := reader.readImage pages (reader.initSwapReader extents buffer state
      (Device.opened content outcomes) start imageSize)
    loaded.1 ≠ 0 ∧ loaded.2.handle.consumed.Nodup

/-- The image ends in time: before `load_image` has passed on the pages that it is asked for, it
fails to load a buffer that lies within the stored pages. Its `nr_pages` is an unsigned int, and
it asks for one page at least. -/
def EndsInTime (env : ReadEnv) (content : DiskContent Bytes) (locations : List Int)
    (imageSize : Int) (state : env.cipher.State) (pages : Nat) : Prop :=
  ∃ count, env.held imageSize ((env.stored content state locations).map Prod.snd) =
    some count ∧ count < max 1 (pages % 2 ^ 32)

theorem held_accepts (env : ReadEnv) (accepts : Nat → Bool) (totalSize : Int)
    (srcs : List Bytes) : ({ env with accepts := accepts } : ReadEnv).held totalSize srcs =
      env.held totalSize srcs := by
  fun_induction held env totalSize srcs with
  | case1 totalSize srcs short =>
      rw [held]
      exact if_pos short
  | case2 totalSize srcs enough some ih =>
      rw [held]
      refine (if_neg enough).trans ((dif_pos some).trans ?_)
      exact congrArg (Option.map _) ih
  | case3 totalSize srcs enough none =>
      rw [held]
      exact (if_neg enough).trans (dif_neg none)

theorem stored_accepts (env : ReadEnv) (accepts : Nat → Bool) (content : DiskContent Bytes)
    (state : env.cipher.State) (locations : List Int) :
    ({ env with accepts := accepts } : ReadEnv).stored content state locations =
      env.stored content state locations := by
  induction locations generalizing state with
  | nil => rfl
  | cons location rest ih =>
      have bytes (cell : Cell Bytes) :
          ({ env with accepts := accepts } : ReadEnv).asBytes cell = env.asBytes cell := by
        cases cell <;> rfl
      unfold stored
      rw [bytes]
      dsimp only
      split
      · split
        · rfl
        · next src next _ => exact congrArg (List.cons _) (ih next)
      · exact congrArg (List.cons _) (ih state)

theorem stored_locations
    (decrypts : ∀ state coded, ∃ answer, env.cipher.decrypt state coded = .ok answer)
    (content : DiskContent Bytes) (state : env.cipher.State) (locations : List Int) :
    (env.stored content state locations).map Prod.fst = locations := by
  induction locations generalizing state with
  | nil => rfl
  | cons location rest ih =>
      unfold stored
      dsimp only
      split
      · obtain ⟨answer, decrypted⟩ := decrypts state (env.asBytes (content (.page location)))
        rw [decrypted]
        exact congrArg _ (ih answer.2)
      · exact congrArg _ (ih state)

theorem initSwapReader_along {content : DiskContent Bytes} {start : Int}
    {tables locations : List Int} (image : OnDisk env.page content start tables locations)
    (extents : Table) (buffer : Bytes) (state : env.cipher.State) (outcomes : List Bool)
    (imageSize : Int) :
    let opened := env.initSwapReader extents buffer state (Device.opened content outcomes) start
      imageSize
    opened.2.consumed = [] ∧ (opened.1 = 0 ↔ (Device.opened content outcomes).transfer.1 = true) ∧
      (opened.1 = 0 → opened.2.state = state ∧ opened.2.totalSize = imageSize ∧
        opened.2.fd = (Device.opened content outcomes).transfer.2 ∧
        ∃ table count tables later more,
          env.Along content locations table count tables later opened.2.toSwapReader ∧
          SwapReader.rest env.page table count opened.2.toSwapReader ++ later = more ∧
          locations = opened.2.curOffset :: more) := by
  obtain ⟨chain, somewhere, _, _⟩ := image
  generalize reader : (⟨extents, 0, 0, start, imageSize, Device.opened content outcomes⟩ :
    SwapReader Bytes) = handle
  have opened : env.initSwapReader extents buffer state (Device.opened content outcomes) start
      imageSize = ((SwapReader.loadExtentsPage env.page env.other handle).1,
        ⟨(SwapReader.loadExtentsPage env.page env.other handle).2, state, buffer, [], [], [], []⟩)
      := by
    rw [← reader]
    exact if_neg somewhere
  rw [opened]
  have fd : handle.fd = Device.opened content outcomes := by rw [← reader]
  have first : handle.nextExtents = start := by rw [← reader]
  have reads : (Device.opened content outcomes).content = content := rfl
  have total : handle.totalSize = imageSize := by rw [← reader]
  dsimp only
  cases chain with
  | nil => exact absurd rfl somewhere
  | @cons _ _ table count others later nonzero found readable onward =>
      cases read : (Device.opened content outcomes).transfer.1 with
      | false =>
          have failed : (SwapReader.loadExtentsPage env.page env.other handle).1 ≠ 0 := by
            simp [SwapReader.loadExtentsPage, Device.readPage, first, fd, somewhere, read, EIO]
          exact ⟨rfl, iff_of_false failed Bool.false_ne_true, fun loaded => absurd loaded failed⟩
      | true =>
          rw [← first] at nonzero found
          rw [← fd] at read reads ⊢
          have cell : handle.fd.content (.page handle.nextExtents) = .extents table := by
            rw [reads, found]
          obtain ⟨arrived, entered⟩ := SwapReader.loadExtentsPage_at env.other readable.sorted
            readable.positive readable.room nonzero read cell
          have loaded := SwapReader.loadExtentsPage_stored env.page env.other nonzero read cell
          refine ⟨rfl, iff_of_true (by rw [loaded]) rfl,
            fun _ => ⟨rfl, ?_, ?_, table, count, others,
            later, _, ⟨arrived, readable.ends, ?_, ?_, fun _ member => member⟩, rfl, ?_⟩⟩
          · rw [loaded]
            exact total
          · rw [loaded]
          · rw [loaded]
            exact (transfer_content _).trans reads
          · rw [loaded]
            exact onward
          · rw [← entered]
            rfl

/-- `load_image` on an image that ends in time. -/
theorem readImage_in_time
    (decrypts : ∀ state coded, ∃ answer, env.cipher.decrypt state coded = .ok answer)
    {content : DiskContent Bytes} {start : Int} {tables locations : List Int}
    (image : OnDisk env.page content start tables locations) {imageSize : Int}
    {state : env.cipher.State} {pages : Nat}
    (ends : env.EndsInTime content locations imageSize state pages) (extents : Table)
    (buffer : Bytes) (outcomes : List Bool) :
    let loaded := env.readImage pages (env.initSwapReader extents buffer state
      (Device.opened content outcomes) start imageSize)
    loaded.1 ≠ 0 ∧ loaded.2.handle.consumed <+: locations := by
  obtain ⟨count, held, few⟩ := ends
  obtain ⟨fresh, _, arrived⟩ :=
    initSwapReader_along image extents buffer state outcomes imageSize
  generalize env.initSwapReader extents buffer state (Device.opened content outcomes) start
    imageSize = opened at *
  unfold readImage
  by_cases failed : opened.1 = 0
  · rw [if_neg (not_not_intro failed)]
    obtain ⟨initial, total, _, table, size, tables', later, more, along, ahead, all⟩ :=
      arrived failed
    have nonzero := image.nonzero
    rw [all] at nonzero
    have within : env.Within locations (env.stored content state locations) opened.2 := by
      refine ⟨?_, ?_⟩
      · rw [all]
        unfold ReadEnv.ahead
        rw [initial]
        exact along.pages nonzero ahead state
      · rw [fresh, stored_locations decrypts]
        rfl
    rw [← total] at held
    apply loadLoop_within _ 0 within held
    rw [show env.waiting ⟨opened.2, 0, 0, []⟩ = 0 from covering_zero env.page.bytes_pos]
    omega
  · rw [if_pos failed]
    dsimp only
    rw [fresh]
    exact ⟨failed, List.nil_prefix⟩

/-- `load_image` on any other image, if everything can be read. -/
theorem readImage_late
    (decrypts : ∀ state coded, ∃ answer, env.cipher.decrypt state coded = .ok answer)
    (accepted : ∀ n, (env.verifyOnly || env.accepts n) = true)
    {content : DiskContent Bytes} {start : Int} {tables locations : List Int}
    (image : OnDisk env.page content start tables locations) {imageSize : Int}
    {state : env.cipher.State} {pages : Nat}
    (late : ¬ env.EndsInTime content locations imageSize state pages) (extents : Table)
    (buffer : Bytes) :
    let loaded := env.readImage pages (env.initSwapReader extents buffer state
      (Device.opened content (List.replicate (2 * locations.length + 1) true)) start imageSize)
    loaded.1 = 0 ∨ ¬ loaded.2.handle.consumed.Nodup := by
  have plenty : Plenty (Device.opened content (List.replicate (2 * locations.length + 1) true))
      (2 * locations.length + 1) :=
    ⟨Nat.le_of_eq List.length_replicate.symm, fun _ member => List.eq_of_mem_replicate member⟩
  obtain ⟨fresh, reads, arrived⟩ := initSwapReader_along image extents buffer state
    (List.replicate (2 * locations.length + 1) true) imageSize
  generalize Device.opened content (List.replicate (2 * locations.length + 1) true) = fd at *
  generalize env.initSwapReader extents buffer state fd start imageSize = opened at *
  have success := reads.mpr plenty.transfer.1
  obtain ⟨initial, total, sameFd, table, size, tables', later, more, along, ahead, all⟩ :=
    arrived success
  have nonzero := image.nonzero
  have enough : Plenty opened.2.fd (2 * more.length + 2) := by
    rw [sameFd]
    apply plenty.transfer.2.fewer
    rw [all, List.length_cons]
    omega
  obtain ⟨again, member, src, tail, pagesAhead⟩ :=
    along.pages_again decrypts nonzero (all ▸ nonzero) ahead enough state
  have beyond : env.Beyond locations again (env.stored content state locations) opened.2 := by
    refine ⟨⟨src, tail, ?_⟩, ?_⟩
    · unfold ReadEnv.ahead
      rw [initial, pagesAhead, ← all]
    · rw [fresh, stored_locations decrypts]
      rfl
  unfold readImage
  rw [if_neg (not_not_intro success)]
  rcases loadLoop_beyond accepted (pages % 2 ^ 32 - 1) 0
      (show env.Beyond locations again _ (Loading.handle ⟨opened.2, 0, 0, []⟩) from beyond) (by
        intro count held
        by_contra few
        rw [show env.waiting ⟨opened.2, 0, 0, []⟩ = 0 from covering_zero env.page.bytes_pos] at few
        dsimp only at held
        rw [total] at held
        exact late ⟨count, held, by omega⟩) with done | past
  · exact .inl done
  · right
    intro distinct
    have both := List.Nodup.sublist past.sublist distinct
    rw [List.nodup_append] at both
    exact both.2.2 again member again List.mem_cons_self rfl

/-- The end of an image is reported if and only if it ends in time. -/
theorem short_image_reported_iff (env : ReadEnv)
    (decrypts : ∀ state coded, ∃ answer, env.cipher.decrypt state coded = .ok answer)
    (content : DiskContent Bytes) (start : Int) (tables locations : List Int)
    (image : OnDisk env.page content start tables locations) (imageSize : Int)
    (state : env.cipher.State) (pages : Nat) :
    env.Reports content start imageSize state pages ↔
      env.EndsInTime content locations imageSize state pages := by
  constructor
  · intro reports
    by_contra late
    obtain ⟨failed, distinct⟩ := reports (fun _ => true)
      (List.replicate (2 * locations.length + 1) true) Table.zero []
    have same : ¬ ({ env with accepts := fun _ => true } : ReadEnv).EndsInTime content locations
        imageSize state pages := by
      unfold EndsInTime at late ⊢
      rwa [held_accepts, stored_accepts]
    rcases @readImage_late { env with accepts := fun _ => true } decrypts
      (fun _ => Bool.or_true _) content start tables locations image imageSize state pages same
      Table.zero [] with done | twice
    · exact failed done
    · exact twice distinct
  · intro ends accepts outcomes extents buffer
    have same : ({ env with accepts := accepts } : ReadEnv).EndsInTime content locations
        imageSize state pages := by
      unfold EndsInTime at ends ⊢
      rwa [held_accepts, stored_accepts]
    obtain ⟨failed, front⟩ := @readImage_in_time { env with accepts := accepts } decrypts content
      start tables locations image imageSize state pages same extents buffer outcomes
    exact ⟨failed, List.Nodup.sublist front.sublist image.distinct⟩

/-- Reading an image that is neither compressed nor encrypted, with pages of 32 bytes. -/
def plainReader : ReadEnv where
  page := PageSize.thirtyTwoBytes
  settings := ⟨false, false, false⟩
  lzo := ⟨id, some⟩
  cipher := ⟨Unit, fun _ src => .ok (src, ()), fun _ src => .ok (src, ())⟩
  verifyOnly := false
  accepts := fun _ => true
  other := ⟨fun _ => Table.zero, fun _ => Table.zero⟩
  tableBytes := fun _ => []
  headerBytes := fun _ => []

/-- A swap area with two pages of an image. -/
def twoStored : DiskContent Bytes
  | .page 64 => .extents (Function.update Table.zero 0 ⟨128, 192⟩)
  | .page _ => .data (List.replicate 32 1)
  | .record => ⟨0, SWAPSPACE2, SWSUSP_SIG⟩

theorem twoStored_onDisk : OnDisk plainReader.page twoStored 64 [64] [128, 160] := by
  refine ⟨?_, by decide, by decide, by decide⟩
  have readable : Readable plainReader.page (Function.update Table.zero 0 ⟨128, 192⟩) 1 := by
    refine ⟨⟨?_, by omega⟩, by decide, by decide, by decide⟩
    intro index below
    have first : index = 0 := by omega
    subst first
    exact ⟨by decide, by decide, by decide⟩
  exact Chain.cons (by decide) rfl readable (Chain.nil 0)

/-- The header asks for three pages, and its `image_data_size` is that of the two pages. -/
theorem short_image_reported_two : plainReader.Reports twoStored 64 64 () 3 := by
  apply (short_image_reported_iff plainReader (fun _ coded => ⟨(coded, ()), rfl⟩) twoStored 64
    [64] [128, 160] twoStored_onDisk 64 () 3).mpr
  exact ⟨2, by rw [held_plain rfl _ _ (by decide)]; decide, by decide⟩

/-- Behind the second page the first one is loaded again, and passed on as the third. -/
theorem short_image_padded : OnDisk plainReader.page twoStored 64 [64] [128, 160] ∧
    let loaded := plainReader.readImage 3 (plainReader.initSwapReader Table.zero [] ()
      (Device.opened twoStored (List.replicate 4 true)) 64 96)
    loaded.1 = 0 ∧ loaded.2.delivered.length = 3 ∧
      loaded.2.handle.consumed = [128, 160, 128] := by
  refine ⟨twoStored_onDisk, ?_⟩
  decide +kernel

end ReadEnv

end Suspend
