import Suspend.Resume
import Suspend.SaveLayout
import Suspend.ShortImage

set_option autoImplicit false

namespace Suspend

open Foundation.CachedDisk

variable {Page : Type} {page : PageSize} {doCompress : Bool}

namespace Device

theorem transfer_content (device : Device Page) : device.transfer.2.content = device.content := by
  unfold content
  rw [transfer_initial, transfer_log]

theorem fsync_content (device : Device Page) : device.fsync.content = device.content := by
  unfold content fsync append
  rw [content_append]
  rfl

theorem writePage_content_other (device : Device Page) (cell : Cell Page) {offset other : Int}
    (different : other ≠ offset) :
    (device.writePage cell offset).2.content (.page other) = device.content (.page other) := by
  unfold writePage
  split
  · rfl
  · split
    · exact append_content_other device cell different
    · rw [transfer_content]

end Device

namespace SwapWriter

/-- Each page is at the place that was handed out for it. -/
def Holds (content : DiskContent Page) (offsets : List Int) (srcs : List Page) : Prop :=
  List.Forall₂ (fun offset src => content (.page offset) = .data src) offsets srcs

theorem Holds.congr {content other : DiskContent Page} {offsets : List Int} {srcs : List Page}
    (holds : Holds content offsets srcs)
    (same : ∀ offset ∈ offsets, other (.page offset) = content (.page offset)) :
    Holds other offsets srcs := by
  induction holds with
  | nil => exact .nil
  | cons here _ ih =>
      apply List.Forall₂.cons
      · rw [same _ List.mem_cons_self, here]
      · exact ih fun offset member => same offset (List.mem_cons_of_mem _ member)

theorem Holds.snoc {content : DiskContent Page} {offsets : List Int} {srcs : List Page}
    (holds : Holds content offsets srcs) {offset : Int} {src : Page}
    (here : content (.page offset) = .data src) :
    Holds content (offsets ++ [offset]) (srcs ++ [src]) :=
  List.rel_append holds (.cons here .nil)

theorem Holds.map {content : DiskContent Page} {offsets : List Int} {srcs : List Page}
    (holds : Holds content offsets srcs) :
    offsets.map (fun offset => content (.page offset)) = srcs.map Cell.data := by
  induction holds with
  | nil => rfl
  | cons here _ ih => rw [List.map_cons, List.map_cons, here, ih]

variable {handle : SwapWriter Page}

theorem saveExtents_content (finish : Bool) {other : Int} (different : other ≠ handle.extentsSpc) :
    (handle.saveExtents page finish).2.fd.content (.page other) =
      handle.fd.content (.page other) := by
  unfold saveExtents
  split
  · exact Device.writePage_content_other _ _ different
  · dsimp only
    split
    · rfl
    · exact Device.writePage_content_other _ _ different

theorem saveExtents_written (finish : Bool) :
    (handle.saveExtents page finish).2.writtenData = handle.writtenData := by
  unfold saveExtents
  split
  · rfl
  · dsimp only
    split <;> rfl

theorem preallocateSwap_written (handle : SwapWriter Page) :
    (preallocateSwap page doCompress handle).2.writtenData = handle.writtenData := by
  unfold preallocateSwap
  split
  · rfl
  · dsimp only
    split <;> rfl

/-- Looking for the next page leaves all pages alone but the one of the table, and the count. -/
theorem nextSwapPage_keeps (handle : SwapWriter Page) :
    (∀ other ≠ handle.extentsSpc, (nextSwapPage page doCompress handle).2.fd.content (.page other) =
        handle.fd.content (.page other)) ∧
      (nextSwapPage page doCompress handle).2.writtenData = handle.writtenData := by
  have table (left : SwapWriter Page) (place : left.extentsSpc = handle.extentsSpc)
      (fd : left.fd = handle.fd) (written : left.writtenData = handle.writtenData)
      (fresh : Table) :
      (∀ other ≠ handle.extentsSpc, (if (left.saveExtents page false).1 ≠ 0 then
          (0, (left.saveExtents page false).2)
        else preallocateSwap page doCompress { (left.saveExtents page false).2 with
          extents := fresh }).2.fd.content (.page other) = handle.fd.content (.page other)) ∧
        (if (left.saveExtents page false).1 ≠ 0 then (0, (left.saveExtents page false).2)
          else preallocateSwap page doCompress { (left.saveExtents page false).2 with
            extents := fresh }).2.writtenData = handle.writtenData := by
    have saved := @saveExtents_content _ page left false
    rw [place, fd] at saved
    split
    · exact ⟨fun other different => saved different, by rw [saveExtents_written, written]⟩
    · rw [preallocateSwap_fd, preallocateSwap_written]
      exact ⟨fun other different => saved different, by rw [saveExtents_written, written]⟩
  unfold nextSwapPage
  dsimp only
  split
  · exact ⟨fun _ _ => rfl, rfl⟩
  · split
    · exact ⟨fun _ _ => rfl, rfl⟩
    · unfold nextTable
      dsimp only
      split
      · exact table _ (by rfl) (by rfl) (by rfl) _
      · exact table _ (by rfl) (by rfl) (by rfl) _

theorem savePages_written {srcs : List Page}
    (success : (savePages page doCompress handle srcs).1 = 0) :
    (savePages page doCompress handle srcs).2.2.writtenData =
      handle.writtenData + page.bytes * srcs.length := by
  induction srcs generalizing handle with
  | nil => simp [savePages]
  | cons src rest ih =>
      by_cases saved : (savePage page doCompress handle src).1 = 0
      · simp only [savePages, saved, ne_eq, not_true_eq_false, ↓reduceIte] at success ⊢
        rw [ih success, (savePage_success saved).2]
        dsimp only
        rw [(nextSwapPage_keeps handle).2, List.length_cons]
        push_cast
        rw [Int.mul_add]
        omega
      · simp [savePages, saved] at success

namespace Laid

variable {grants : Grants} {start first : Int} {tables pages done : List Int} {before : List Page}

theorem fresh (laid : Laid page grants start first tables pages done handle)
    (distinct : grants.Nodup) : handle.extentsSpc ∉ done := by
  have parts := List.nodup_append.mp (laid.offsets_nodup distinct)
  intro member
  exact parts.2.2 handle.extentsSpc (by simp) handle.extentsSpc member rfl

/-- The pages saved so far stay where they are, and the new ones join them. -/
theorem holds (laid : Laid page grants start first tables pages done handle)
    (aligned : ∀ offset ∈ grants, 0 ≤ offset ∧ (page.bytes : Int) ∣ offset)
    (distinct : grants.Nodup) (srcs : List Page)
    (clean : handle.NeverLeftover page doCompress srcs)
    (success : (savePages page doCompress handle srcs).1 = 0)
    (held : Holds handle.fd.content done before) :
    Holds (savePages page doCompress handle srcs).2.2.fd.content
      (done ++ (savePages page doCompress handle srcs).2.1) (before ++ srcs) := by
  induction srcs generalizing handle tables pages done before with
  | nil => simpa [savePages] using held
  | cons src rest ih =>
      obtain ⟨cleanHere, cleanLater⟩ := clean
      by_cases saved : (savePage page doCompress handle src).1 = 0
      · simp only [savePages, saved, ne_eq, not_true_eq_false, ↓reduceIte] at success ⊢
        obtain ⟨tables', pages', advanced⟩ := laid.save aligned distinct cleanHere saved
        have away := laid.fresh distinct
        have new : (nextSwapPage page doCompress handle).1 ∉ done := by
          have whole := (List.nodup_append.mp (advanced.offsets_nodup distinct)).2.1
          intro member
          exact (List.nodup_append.mp whole).2.2 _ member _ List.mem_cons_self rfl
        have later : Holds (savePage page doCompress handle src).2.fd.content
            (done ++ [(nextSwapPage page doCompress handle).1]) (before ++ [src]) := by
          rw [(savePage_success saved).2]
          dsimp only
          apply Holds.snoc
          · apply held.congr
            intro offset member
            rw [Device.append_content_other]
            · exact (nextSwapPage_keeps handle).1 offset fun same => away (same ▸ member)
            · exact fun same => new (same ▸ member)
          · exact Device.append_content_same _ _ _
        have all := ih advanced cleanLater success later
        rwa [List.append_assoc, List.append_assoc] at all
      · simp [savePages, saved] at success

end Laid

end SwapWriter

namespace SwapReader

open ReadEnv (Plenty)

/-- Readers at the same place of the same pages. -/
structure Alike (one other : SwapReader Bytes) : Prop where
  extents : one.extents = other.extents
  curExtent : one.curExtent = other.curExtent
  curOffset : one.curOffset = other.curOffset
  nextExtents : one.nextExtents = other.nextExtents
  pages : ∀ offset, one.fd.content (.page offset) = other.fd.content (.page offset)

variable {page : PageSize} {tables : Reinterpretation Bytes} {one other : SwapReader Bytes}
  {few more : Nat}

/-- The next table is read with one transfer at most. -/
theorem Alike.load (alike : Alike one other) (plenty : Plenty one.fd (more + 1))
    (enough : Plenty other.fd (few + 1)) :
    Alike (loadExtentsPage page tables one).2 (loadExtentsPage page tables other).2 ∧
      (loadExtentsPage page tables one).1 = 0 ∧ (loadExtentsPage page tables other).1 = 0 ∧
      Plenty (loadExtentsPage page tables one).2.fd more ∧
      Plenty (loadExtentsPage page tables other).2.fd few := by
  obtain ⟨extents, curExtent, curOffset, nextExtents, pages⟩ := alike
  obtain ⟨reads, plentyLeft⟩ := plenty.transfer
  obtain ⟨readsToo, enoughLeft⟩ := enough.transfer
  unfold loadExtentsPage Device.readPage
  rw [nextExtents, extents]
  by_cases nowhere : other.nextExtents = 0
  · simp only [nowhere, ↓reduceIte, ne_eq, not_true_eq_false, true_and]
    exact ⟨⟨rfl, rfl, rfl, rfl, pages⟩, plenty.fewer (Nat.le_succ _), enough.fewer (Nat.le_succ _)⟩
  · simp only [nowhere, reads, readsToo, ↓reduceIte, ne_eq, not_true_eq_false, true_and, pages]
    refine ⟨⟨rfl, rfl, rfl, rfl, fun offset => ?_⟩, plentyLeft, enoughLeft⟩
    dsimp only
    rw [Device.transfer_content, Device.transfer_content]
    exact pages offset

theorem Alike.next (alike : Alike one other) (plenty : Plenty one.fd (more + 1))
    (enough : Plenty other.fd (few + 1)) :
    Alike (findNextImagePage page tables one) (findNextImagePage page tables other) ∧
      Plenty (findNextImagePage page tables one).fd more ∧
      Plenty (findNextImagePage page tables other).fd few := by
  obtain ⟨extents, index, offset, nextExtents, total, fd⟩ := one
  obtain ⟨extents', index', offset', nextExtents', total', fd'⟩ := other
  obtain ⟨sameExtents, sameIndex, sameOffset, sameNext, pages⟩ := alike
  dsimp only at sameExtents sameIndex sameOffset sameNext pages plenty enough
  subst sameExtents sameIndex sameOffset sameNext
  unfold findNextImagePage
  dsimp only
  split
  · exact ⟨⟨rfl, rfl, rfl, rfl, pages⟩, plenty.fewer (Nat.le_succ _), enough.fewer (Nat.le_succ _)⟩
  · split
    · exact ⟨⟨rfl, rfl, rfl, rfl, pages⟩, plenty.fewer (Nat.le_succ _),
        enough.fewer (Nat.le_succ _)⟩
    · obtain ⟨loaded, first, second, left, leftToo⟩ :=
        @Alike.load page tables ⟨extents, index + 1, offset + page.bytes, nextExtents, total, fd⟩
          ⟨extents, index + 1, offset + page.bytes, nextExtents, total', fd'⟩ few more
          ⟨rfl, rfl, rfl, rfl, pages⟩ plenty enough
      rw [if_neg (not_not_intro first), if_neg (not_not_intro second)]
      exact ⟨loaded, left, leftToo⟩

theorem loadExtentsPage_content (reader : SwapReader Bytes) :
    (loadExtentsPage page tables reader).2.fd.content = reader.fd.content := by
  have read (buffer : Cell Bytes) :
      (reader.fd.readPage buffer reader.nextExtents).2.2.content = reader.fd.content := by
    unfold Device.readPage
    split
    · rfl
    · split <;> exact Device.transfer_content _
  unfold loadExtentsPage
  dsimp only
  split <;> exact read _

theorem findNextImagePage_content (reader : SwapReader Bytes) :
    (findNextImagePage page tables reader).fd.content = reader.fd.content := by
  unfold findNextImagePage
  dsimp only
  split
  · rfl
  · split
    · rfl
    · split <;> exact loadExtentsPage_content _

end SwapReader

namespace ResumeEnv

open ReadEnv (Plenty)

variable {env : ResumeEnv}

theorem queue_visits (count : Nat) {reads : Nat} {reader visitor : SwapReader Bytes}
    (alike : SwapReader.Alike reader visitor) (plenty : Plenty reader.fd (2 * count))
    (enough : Plenty visitor.fd count) (many : count ≤ reads)
    (somewhere : ∀ offset ∈ visitor.visits env.page env.tables count, offset ≠ 0) :
    ∃ extra, env.queue reads reader = (visitor.visits env.page env.tables count).map
      (fun offset => env.bytes (reader.fd.content (.page offset))) ++ extra := by
  induction count generalizing reads reader visitor with
  | zero => exact ⟨_, rfl⟩
  | succ count ih =>
      obtain ⟨left, rfl⟩ : ∃ left, reads = left + 1 := ⟨reads - 1, by omega⟩
      rw [SwapReader.visits] at somewhere ⊢
      obtain ⟨here, later⟩ := List.forall_mem_cons.mp somewhere
      obtain ⟨read, plentyLeft⟩ := (show Plenty reader.fd (2 * count + 1 + 1) from plenty).transfer
      have taken : SwapReader.Alike { reader with fd := reader.fd.transfer.2 } visitor :=
        ⟨alike.extents, alike.curExtent, alike.curOffset, alike.nextExtents, fun offset => by
          rw [Device.transfer_content]
          exact alike.pages offset⟩
      obtain ⟨moved, plentyNext, enoughNext⟩ :=
        @SwapReader.Alike.next env.page env.tables _ _ _ _ taken plentyLeft enough
      obtain ⟨extra, rest⟩ := ih moved plentyNext enoughNext (Nat.le_of_succ_le_succ many) later
      refine ⟨extra, ?_⟩
      rw [← alike.curOffset] at here ⊢
      rw [queue, if_neg here, Device.readPage, if_neg here, if_pos read]
      dsimp only
      rw [if_neg (not_not_intro rfl), rest, List.map_cons, List.cons_append]
      rw [SwapReader.findNextImagePage_content]
      dsimp only
      rw [Device.transfer_content]

/-- `init_swap_reader` on what the writer has left: the saved pages are ahead, and maybe others
behind them. -/
theorem initSwapReader_saved {grants : Grants} {start first : Int} {tables pages done : List Int}
    {handle : SwapWriter Bytes} {srcs : List Bytes}
    (laid : SwapWriter.Laid env.page grants start first tables pages done handle)
    (distinct : grants.Nodup) (held : SwapWriter.Holds handle.fd.content done srcs)
    (somewhere : ∀ offset ∈ done, offset ≠ 0)
    (finished : (handle.saveExtents env.page true).1 = 0) {header : ImageHeader}
    (begins : header.mapStart = first) {fd : Device Bytes}
    (same : ∀ offset ∈ tables ++ [handle.extentsSpc] ++ done, fd.content (.page offset) =
      (handle.saveExtents env.page true).2.fd.content (.page offset))
    (plenty : Plenty fd (2 * done.length + 1)) :
    ∃ extra, env.initSwapReader header fd =
      .ok (srcs.map (fun src => env.bytes (.data src)) ++ extra) := by
  have begun : first ≠ 0 := by
    have chain := laid.chain
    cases chain with
    | nil => exact laid.nonzero
    | cons nonzero => exact nonzero
  -- the offsets are visited with as many transfers as there are tables
  generalize visits : (⟨Table.zero, 0, 0, first, header.imageDataSize,
    { fd with outcomes := List.replicate (tables.length + 1) true ++
      List.replicate done.length true }⟩ : SwapReader Bytes) = visitor
  have enough : Plenty visitor.fd (done.length + 1) := by
    rw [← visits]
    constructor
    · simp only [List.length_append, List.length_replicate]
      omega
    · intro outcome member
      rcases List.mem_append.mp member with early | late
      · exact List.eq_of_mem_replicate early
      · exact List.eq_of_mem_replicate late
  have visited : SwapReader.visits env.page env.tables done.length
      (SwapReader.loadExtentsPage env.page env.tables visitor).2 = done :=
    laid.visits distinct finished visitor (by rw [← visits]) (fun offset member => by
      rw [← visits]
      exact same offset (List.mem_append_left _ member)) (by rw [← visits])
  have alike : SwapReader.Alike
      ⟨Table.zero, 0, 0, header.mapStart, header.imageDataSize, fd⟩ visitor := by
    rw [← visits, begins]
    exact ⟨rfl, rfl, rfl, rfl, fun _ => rfl⟩
  obtain ⟨loaded, success, _, left, enoughLeft⟩ :=
    @SwapReader.Alike.load env.page env.tables _ _ _ _ alike plenty enough
  obtain ⟨extra, ahead⟩ := queue_visits done.length loaded left enoughLeft
    (show done.length ≤ fd.outcomes.length from by
      have many := plenty.1
      omega) (by rwa [visited])
  refine ⟨extra, ?_⟩
  unfold initSwapReader
  rw [begins, if_neg begun, ← begins]
  dsimp only
  rw [if_neg (not_not_intro success), ahead, visited, SwapReader.loadExtentsPage_content]
  have pages : done.map (fun offset => env.bytes (fd.content (.page offset))) =
      srcs.map fun src => env.bytes (.data src) := by
    have away := laid.fresh distinct
    have there : SwapWriter.Holds fd.content done srcs := by
      apply held.congr
      intro offset member
      rw [same offset (List.mem_append_right _ member)]
      exact SwapWriter.saveExtents_content true fun place => away (place ▸ member)
    have cells := congrArg (List.map env.bytes) there.map
    rwa [List.map_map, List.map_map] at cells
  rw [pages]

end ResumeEnv

end Suspend
