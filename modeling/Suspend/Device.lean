import Suspend.AllocLoop
import Suspend.Foundation.CachedDisk
import Suspend.Header

set_option autoImplicit false

namespace Suspend

open Foundation.CachedDisk

/-- What a swap page holds. A page remembers what it was written as. -/
inductive Cell (Page : Type) where
  | data (page : Page)
  | extents (table : Table)
  | header (header : ImageHeader)

/-- Where the tools write. The record is the end of the swap header page, which the kernel
never grants, so it is a place of its own. -/
inductive Place where
  | page (offset : Int)
  | record
deriving DecidableEq

abbrev Place.Content (Page : Type) : Place → Type
  | .page _ => Cell Page
  | .record => SwsuspHeader

abbrev DiskOp (Page : Type) := Op (Place.Content Page)

abbrev DiskContent (Page : Type) := (place : Place) → place.Content Page

/-- An open file descriptor of the resume device. `outcomes` tells for each of the following
lseek-and-transfer pairs whether it succeeds; running out of outcomes is a failure. -/
structure Device (Page : Type) where
  initial : DiskContent Page
  log : List (DiskOp Page)
  outcomes : List Bool

namespace Device

variable {Page : Type}

/-- What reads see. -/
def content (device : Device Page) : DiskContent Page :=
  Foundation.CachedDisk.content device.initial device.log

/-- The outcome of the next transfer. -/
def transfer (device : Device Page) : Bool × Device Page :=
  match device.outcomes with
  | [] => (false, device)
  | outcome :: rest => (outcome, { device with outcomes := rest })

@[simp] theorem transfer_log (device : Device Page) : device.transfer.2.log = device.log := by
  unfold transfer
  split <;> rfl

@[simp] theorem transfer_initial (device : Device Page) :
    device.transfer.2.initial = device.initial := by
  unfold transfer
  split <;> rfl

/-- A write that the log records. -/
def append (device : Device Page) (op : DiskOp Page) : Device Page :=
  { device with log := device.log ++ [op] }

/-- `fsync`. -/
def fsync (device : Device Page) : Device Page := device.append .sync

/-- `write_page`: its return value, `0` on success. A failed write leaves the disk alone. -/
def writePage (device : Device Page) (cell : Cell Page) (offset : Int) : Int × Device Page :=
  if offset = 0 then (-EINVAL, device)
  else if device.transfer.1 then (0, device.transfer.2.append (.write (.page offset) cell))
  else (- EIO, device.transfer.2)

theorem writePage_success {device : Device Page} {cell : Cell Page} {offset : Int}
    (success : (device.writePage cell offset).1 = 0) :
    offset ≠ 0 ∧ (device.writePage cell offset).2 =
      device.transfer.2.append (.write (.page offset) cell) := by
  unfold writePage at success ⊢
  by_cases none : offset = 0
  · simp [none, EINVAL] at success
  · by_cases written : device.transfer.1 = true
    · simp [none, written]
    · simp [none, written, EIO] at success

/-- `read_page` of `load.c`: its return value and what is in the buffer afterwards. Reading at
offset `0` succeeds without reading anything. -/
def readPage (device : Device Page) (buffer : Cell Page) (offset : Int) :
    Int × Cell Page × Device Page :=
  if offset = 0 then (0, buffer, device)
  else if device.transfer.1 then (0, device.content (.page offset), device.transfer.2)
  else (- EIO, buffer, device.transfer.2)

end Device

end Suspend
