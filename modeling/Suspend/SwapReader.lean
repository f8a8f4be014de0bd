import Suspend.Device

set_option autoImplicit false

namespace Suspend

/-- `struct swap_reader`, the fields that deal with swap. `cur_extent` is
`extents + curExtent`. -/
structure SwapReader (Page : Type) where
  extents : Table
  curExtent : Nat
  curOffset : Int
  nextExtents : Int
  totalSize : Int
  fd : Device Page

/-- What the bytes of other pages amount to when they are read as an extents table. -/
structure Reinterpretation (Page : Type) where
  data : Page → Table
  header : ImageHeader → Table

def Cell.asExtents {Page : Type} (other : Reinterpretation Page) : Cell Page → Table
  | .data page => other.data page
  | .extents table => table
  | .header info => other.header info

namespace SwapReader

variable {Page : Type} (page : PageSize) (other : Reinterpretation Page)

/-- `load_extents_page`. -/
def loadExtentsPage (handle : SwapReader Page) : Int × SwapReader Page :=
  let read := handle.fd.readPage (.extents handle.extents) handle.nextExtents
  let handle := { handle with fd := read.2.2 }
  if read.1 ≠ 0 then (read.1, handle)
  else
    let loaded := read.2.1.asExtents other
    let table := Function.update loaded page.maxExtents Extent.zero
    (0, { handle with
      extents := table
      nextExtents := (loaded page.maxExtents).start
      curExtent := 0
      curOffset := (table 0).start })

/-- `find_next_image_page`. -/
def findNextImagePage (handle : SwapReader Page) : SwapReader Page :=
  let offset := handle.curOffset + page.bytes
  if offset < (handle.extents handle.curExtent).stop then { handle with curOffset := offset }
  else
    let index := handle.curExtent + 1
    let handle := { handle with curExtent := index, curOffset := offset }
    if (handle.extents index).start < (handle.extents index).stop then
      { handle with curOffset := (handle.extents index).start }
    else
      let loaded := loadExtentsPage page other handle
      if loaded.1 ≠ 0 then { loaded.2 with curOffset := 0 } else loaded.2

end SwapReader

end Suspend
