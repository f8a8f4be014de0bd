import Suspend.Foundation.ByteDisk
import Suspend.Foundation.FixedWidth
import Suspend.Signature

set_option autoImplicit false

namespace Suspend

open Foundation.ByteDisk Foundation.FixedWidth

def ENOMEDIUM : Int := 123

/-- `sizeof(struct swsusp_header)`. -/
def recordSize : Nat := 28

/-- The signed 64 bits of an `loff_t`. -/
def loff (value : Int) : Int := value.bmod (2 ^ 64)

theorem loff_emod (value : Int) : loff (value % 2 ^ 64) = loff value := by
  have width : (2 ^ 64 : Int) = ((2 ^ 64 : Nat) : Int) := by decide
  rw [loff, loff, width, Int.emod_bmod]

theorem loff_toInt (value : BitVec 64) : loff value.toInt = value.toInt :=
  value.toInt_bmod_cancel

namespace SwsuspHeader

/-- The packed record. -/
def bytes (order : ByteOrder) (header : SwsuspHeader) : Bytes :=
  order.arrange (toBytes 8 (header.image % 2 ^ 64).toNat) ++ header.origSig.toList ++
    header.sig.toList

def ofBytes (order : ByteOrder) (bytes : Bytes) : SwsuspHeader where
  image := loff (fromBytes (order.arrange (bytes.take 8)))
  origSig := Vector.ofFn fun index => bytes.getD (8 + index) 0
  sig := Vector.ofFn fun index => bytes.getD (18 + index) 0

/-- `memset(&swsusp_header, 0, size)`. -/
def zero : SwsuspHeader := ⟨0, Vector.replicate 10 0, Vector.replicate 10 0⟩

variable (order : ByteOrder) (header : SwsuspHeader)

@[simp] theorem bytes_length : (header.bytes order).length = recordSize := by
  simp [bytes, recordSize]

theorem ofBytes_sig_getElem (bytes : Bytes) {index : Nat} (inside : index < 10) :
    (ofBytes order bytes).sig[index] = bytes.getD (18 + index) 0 :=
  Vector.getElem_ofFn inside

theorem ofBytes_origSig_getElem (bytes : Bytes) {index : Nat} (inside : index < 10) :
    (ofBytes order bytes).origSig[index] = bytes.getD (8 + index) 0 :=
  Vector.getElem_ofFn inside

theorem bytes_getD_sig {index : Nat} (inside : index < 10) :
    (header.bytes order).getD (18 + index) 0 = header.sig[index] := by
  rw [bytes, List.getD_eq_getElem?_getD, List.getElem?_append_right (by simp)]
  simp [inside]

@[simp] theorem ofBytes_bytes_sig : (ofBytes order (header.bytes order)).sig = header.sig := by
  apply Vector.ext
  intro index inside
  rw [ofBytes_sig_getElem, bytes_getD_sig order header inside]

@[simp] theorem ofBytes_bytes_origSig :
    (ofBytes order (header.bytes order)).origSig = header.origSig := by
  apply Vector.ext
  intro index inside
  rw [ofBytes_origSig_getElem, bytes, List.getD_eq_getElem?_getD,
    List.getElem?_append_left (by simp; omega), List.getElem?_append_right (by simp)]
  simp [inside]

theorem ofBytes_bytes_image :
    (ofBytes order (header.bytes order)).image = loff header.image := by
  have front : (header.bytes order).take 8 =
      order.arrange (toBytes 8 (header.image % 2 ^ 64).toNat) := by
    rw [bytes, List.append_assoc, List.take_left' (by simp)]
  have positive : 0 ≤ header.image % 2 ^ 64 := Int.emod_nonneg _ (by decide)
  have below : header.image % 2 ^ 64 < 2 ^ 64 := Int.emod_lt_of_pos _ (by decide)
  have kept : fromBytes (toBytes 8 (header.image % 2 ^ 64).toNat) =
      (header.image % 2 ^ 64).toNat := by
    rw [fromBytes_toBytes]
    exact Nat.mod_eq_of_lt (by omega)
  rw [ofBytes, front, ByteOrder.arrange_arrange, kept, Int.toNat_of_nonneg positive, loff_emod]

end SwsuspHeader

abbrev Disk := Int → UInt8

/-- How a `read` or a `write` of the record ends. A write that does not end in full leaves the
disk as it was. -/
inductive Transfer where
  | full
  | short (count : Fin 28)
  | failed

/-- What the call returns. -/
def Transfer.count : Transfer → Int
  | .full => recordSize
  | .short count => count
  | .failed => -1

/-- How the system calls of one routine go. `opened` is the descriptor, or minus `errno`. -/
structure Fate where
  opened : Int
  sought : Bool
  read : Transfer
  soughtAgain : Bool
  write : Transfer

/-- What both tools are run with. `wide` says that an `ssize_t` is wider than an `unsigned int`,
which decides how the two compare. -/
structure Tools where
  pageSize : Nat
  resumeOffset : Int
  order : ByteOrder
  wide : Bool

/-- The disk, and the static `swsusp_header` of the running `s2disk`. -/
structure SwapArea where
  disk : Disk
  header : SwsuspHeader

namespace Tools

variable (tools : Tools)

/-- `shift`, as each of the routines computes it. -/
def shift : Int := loff ((tools.resumeOffset + 1) * tools.pageSize - recordSize)

/-- `lseek64(fd, shift, SEEK_SET) == shift`. -/
def reaches (sought : Bool) : Bool := sought && decide (0 ≤ tools.shift)

/-- `read(fd, &swsusp_header, size) < size` with an unsigned `size`, and the same of `write`. -/
def tooFew (transfer : Transfer) : Bool :=
  if tools.wide then decide (transfer.count < recordSize)
  else decide (transfer.count % 2 ^ 32 < recordSize)

/-- The record that is on the disk. -/
def record (disk : Disk) : SwsuspHeader :=
  .ofBytes tools.order (readAt disk tools.shift recordSize)

/-- What `read` makes of the copy in memory. -/
def readInto (disk : Disk) (copy : SwsuspHeader) : Transfer → SwsuspHeader
  | .full => tools.record disk
  | .short count =>
    .ofBytes tools.order
      ((readAt disk tools.shift recordSize).take count ++ (copy.bytes tools.order).drop count)
  | .failed => copy

/-- What `write` makes of the disk. -/
def writeFrom (disk : Disk) (copy : SwsuspHeader) : Transfer → Disk
  | .full => writeAt disk tools.shift (copy.bytes tools.order)
  | .short _ => disk
  | .failed => disk

/-- `mark_swap`. -/
def markSwap (start : BitVec 64) (fate : Fate) (area : SwapArea) : Ending × SwapArea :=
  if tools.reaches fate.sought then
    let copy := tools.readInto area.disk area.header fate.read
    if tools.tooFew fate.read then (.returned (- EIO), { area with header := copy })
    else if IsSwap copy.sig then
      let marked : SwsuspHeader :=
        { image := start.toInt, origSig := copy.sig, sig := SWSUSP_SIG }
      if tools.reaches fate.soughtAgain then
        (.returned (if tools.tooFew fate.write then - EIO else 0),
          { disk := tools.writeFrom area.disk marked fate.write, header := marked })
      else (.returned (- EIO), { area with header := marked })
    else (.returned (-ENODEV), { area with header := copy })
  else (.returned (- EIO), area)

/-- `reset_signature` of `suspend.c`. A process that halts makes no more calls: what comes after
it is a new one, its static data zero. -/
def resetSignature (fate : Fate) (area : SwapArea) : Ending × SwapArea :=
  if tools.reaches fate.sought then
    let copy := tools.readInto area.disk .zero fate.read
    if fate.read.count = recordSize ∧ copy.sig = SWSUSP_SIG then
      let restored := { copy with sig := copy.origSig }
      if tools.reaches fate.soughtAgain then
        let disk := tools.writeFrom area.disk restored fate.write
        if fate.write.count = recordSize then (.returned 0, { disk := disk, header := restored })
        else (.halted, { disk := disk, header := .zero })
      else (.halted, { area with header := .zero })
    else (.halted, { area with header := .zero })
  else (.returned (- EIO), area)

/-- `open_resume_dev`: the header that it has read, or its error. -/
def openResumeDev (fate : Fate) (disk : Disk) : Except Int SwsuspHeader :=
  if fate.opened < 0 then .error fate.opened
  else if tools.reaches fate.sought then
    let copy := tools.readInto disk .zero fate.read
    if fate.read.count = recordSize then
      if copy.sig = SWSUSP_SIG then .ok copy else .error (-ENOMEDIUM)
    else .error (if fate.read.count < 0 then fate.read.count else - EIO)
  else .error (- EIO)

/-- `reset_signature` of `resume.c`. -/
def restoreSignature (fate : Fate) (copy : SwsuspHeader) (disk : Disk) : Int × Disk :=
  let restored := { copy with sig := copy.origSig }
  if tools.reaches fate.soughtAgain then
    (if fate.write.count = recordSize then 0 else - EIO, tools.writeFrom disk restored fate.write)
  else (- EIO, disk)

/-- `resume` opens the device, and resets the signature if that has worked. -/
def resume (fate : Fate) (area : SwapArea) : Ending × SwapArea :=
  match tools.openResumeDev fate area.disk with
  | .error error => (.returned error, area)
  | .ok copy =>
    let reset := tools.restoreSignature fate copy area.disk
    (.returned reset.1, { area with disk := reset.2 })

end Tools

/-- What is done to the swap area: a new `s2disk` starts, or one of the routines is called. -/
inductive Call where
  | start
  | markSwap (start : BitVec 64) (fate : Fate)
  | resetSignature (fate : Fate)
  | resume (fate : Fate)

namespace Tools

variable (tools : Tools)

def step (area : SwapArea) : Call → Ending × SwapArea
  | .start => (.returned 0, { area with header := .zero })
  | .markSwap start fate => tools.markSwap start fate area
  | .resetSignature fate => tools.resetSignature fate area
  | .resume fate => tools.resume fate area

def run (area : SwapArea) (calls : List Call) : SwapArea :=
  calls.foldl (fun area call => (tools.step area call).2) area

/-- The start that a call has marked the swap area with, by what it returned. -/
def succeeded : Call → Ending → Option (BitVec 64)
  | .markSwap start _, .returned 0 => some start
  | _, _ => none

/-- The starts of the successful marks of a run, in order. -/
def marks (area : SwapArea) : List Call → List (BitVec 64)
  | [] => []
  | call :: rest =>
    let made := tools.step area call
    (succeeded call made.1).toList ++ marks made.2 rest

theorem writeFrom_outside {place : Int} (disk : Disk) (copy : SwsuspHeader) (transfer : Transfer)
    (outside : place < tools.shift ∨ tools.shift + recordSize ≤ place) :
    tools.writeFrom disk copy transfer place = disk place := by
  cases transfer with
  | full =>
    apply writeAt_outside
    rwa [SwsuspHeader.bytes_length]
  | short count => rfl
  | failed => rfl

theorem record_written (disk : Disk) (copy : SwsuspHeader) :
    tools.record (writeAt disk tools.shift (copy.bytes tools.order)) =
      .ofBytes tools.order (copy.bytes tools.order) := by
  have back := readAt_writeAt disk tools.shift (copy.bytes tools.order)
  rw [SwsuspHeader.bytes_length] at back
  rw [record, back]

theorem record_sig_getElem (disk : Disk) {index : Nat} (inside : index < 10) :
    (tools.record disk).sig[index] =
      (readAt disk tools.shift recordSize).getD (18 + index) 0 :=
  SwsuspHeader.ofBytes_sig_getElem tools.order _ inside

theorem readInto_short_getD (disk : Disk) (copy : SwsuspHeader) (count : Fin 28) (place : Nat) :
    ((readAt disk tools.shift recordSize).take count ++
        (copy.bytes tools.order).drop count).getD place 0 =
      if place < count then (readAt disk tools.shift recordSize).getD place 0
      else (copy.bytes tools.order).getD place 0 := by
  have taken : ((readAt disk tools.shift recordSize).take count).length = (count : Nat) := by
    simp [recordSize]
  simp only [List.getD_eq_getElem?_getD]
  split
  · rename_i early
    rw [List.getElem?_append_left (by omega), List.getElem?_take_of_lt early]
  · rename_i late
    have position : (count : Nat) + (place - count) = place := by omega
    rw [List.getElem?_append_right (by omega), List.getElem?_drop, taken, position]

/-- Each byte of a signature that has been read is the one on the disk or the one before. -/
theorem readInto_sig_getElem (disk : Disk) (copy : SwsuspHeader) (transfer : Transfer)
    {index : Nat} (inside : index < 10) :
    (tools.readInto disk copy transfer).sig[index] = (tools.record disk).sig[index] ∨
      (tools.readInto disk copy transfer).sig[index] = copy.sig[index] := by
  cases transfer with
  | full => exact Or.inl rfl
  | short count =>
    simp only [readInto, record_sig_getElem, SwsuspHeader.ofBytes_sig_getElem,
      readInto_short_getD, copy.bytes_getD_sig tools.order inside]
    split
    · exact Or.inl rfl
    · exact Or.inr rfl
  | failed => exact Or.inr rfl

/-- A copy that is not read in full keeps the last byte of its signature. -/
theorem readInto_sig_last (disk : Disk) (copy : SwsuspHeader) {transfer : Transfer}
    (cut : transfer.count ≠ recordSize) :
    (tools.readInto disk copy transfer).sig[9] = copy.sig[9] := by
  cases transfer with
  | full => exact absurd rfl cut
  | short count =>
    simp only [readInto, SwsuspHeader.ofBytes_sig_getElem, readInto_short_getD]
    rw [if_neg (by omega), copy.bytes_getD_sig tools.order (by decide)]
  | failed => rfl

/-- A copy in memory passes for a swap header only while the disk holds one, and the same one. -/
def Trusted (original : Signature) (disk : Disk) (copy : SwsuspHeader) : Prop :=
  copy.sig[9] = 0 ∨ copy.sig = original ∧ (tools.record disk).sig = original

/-- The record at any moment of a run that began with `original` on the disk `before`. -/
structure Cycle (before : Disk) (original : Signature) (last : Option (BitVec 64))
    (area : SwapArea) : Prop where
  sig : (tools.record area.disk).sig = original ∨
    (tools.record area.disk).sig = SWSUSP_SIG
  kept : (tools.record area.disk).sig = SWSUSP_SIG →
    (tools.record area.disk).origSig = original
  image : (tools.record area.disk).sig = SWSUSP_SIG →
    ∃ start, last = some start ∧ (tools.record area.disk).image = start.toInt
  copy : tools.Trusted original area.disk area.header
  outside : ∀ place, place < tools.shift ∨ tools.shift + recordSize ≤ place →
    area.disk place = before place

theorem sig_last_of_isSwap {sig : Signature} (swap : IsSwap sig) : sig[9] ≠ 0 := by
  cases swap with
  | inl space => rw [space]; decide
  | inr space => rw [space]; decide

variable {tools}
variable {before : Disk} {original : Signature} {last : Option (BitVec 64)} {area : SwapArea}

/-- Reading keeps a copy trusted, whatever the read delivers. -/
theorem Trusted.read {copy : SwsuspHeader} {disk : Disk}
    (trusted : tools.Trusted original disk copy)
    (sig : (tools.record disk).sig = original ∨ (tools.record disk).sig = SWSUSP_SIG)
    (transfer : Transfer) :
    tools.Trusted original disk (tools.readInto disk copy transfer) := by
  by_cases full : transfer = .full
  · rw [full]
    cases sig with
    | inl same => exact Or.inr ⟨same, same⟩
    | inr marked =>
      left
      have read : tools.readInto disk copy .full = tools.record disk := rfl
      rw [read, marked]
      rfl
  · have cut : transfer.count ≠ recordSize := by
      cases transfer with
      | full => exact absurd rfl full
      | short count => simp only [Transfer.count, recordSize]; omega
      | failed => decide
    cases trusted with
    | inl ended =>
      left
      rw [tools.readInto_sig_last disk copy cut, ended]
    | inr held =>
      right
      apply And.intro _ held.2
      apply Vector.ext
      intro index inside
      cases tools.readInto_sig_getElem disk copy transfer inside with
      | inl onDisk => rw [onDisk, held.2]
      | inr earlier => rw [earlier, held.1]

/-- A trusted copy with the signature of a swap area has the one on the disk. -/
theorem Trusted.genuine {copy : SwsuspHeader} {disk : Disk}
    (trusted : tools.Trusted original disk copy) (swap : IsSwap copy.sig) :
    copy.sig = original ∧ (tools.record disk).sig = original := by
  cases trusted with
  | inl ended => exact absurd ended (sig_last_of_isSwap swap)
  | inr held => exact held

theorem trusted_zero (disk : Disk) : tools.Trusted original disk .zero := Or.inl rfl

theorem trusted_marked (disk : Disk) (image : Int) (origSig : Signature) :
    tools.Trusted original disk ⟨image, origSig, SWSUSP_SIG⟩ := Or.inl rfl

/-- What the copy in memory is does not matter to the rest. -/
theorem Cycle.withCopy (cycle : tools.Cycle before original last area) {copy : SwsuspHeader}
    (trusted : tools.Trusted original area.disk copy) :
    tools.Cycle before original last { area with header := copy } :=
  { cycle with copy := trusted }

/-- The record of a disk that has the original signature need not be looked at further. -/
theorem Cycle.relast (cycle : tools.Cycle before original last area)
    (swap : (tools.record area.disk).sig ≠ SWSUSP_SIG) (later : Option (BitVec 64)) :
    tools.Cycle before original later area :=
  { cycle with image := fun marked => absurd marked swap }

theorem Cycle.write (cycle : tools.Cycle before original last area) {copy : SwsuspHeader}
    (sig : copy.sig = original ∨ copy.sig = SWSUSP_SIG)
    (kept : copy.sig = SWSUSP_SIG → copy.origSig = original)
    (image : copy.sig = SWSUSP_SIG → ∃ start : BitVec 64, last = some start ∧
      copy.image = start.toInt)
    {header : SwsuspHeader}
    (trusted : header.sig[9] = 0 ∨ header.sig = original ∧ copy.sig = original) :
    tools.Cycle before original last
      ⟨writeAt area.disk tools.shift (copy.bytes tools.order), header⟩ where
  sig := by
    rw [record_written, SwsuspHeader.ofBytes_bytes_sig]
    exact sig
  kept := by
    rw [record_written, SwsuspHeader.ofBytes_bytes_sig, SwsuspHeader.ofBytes_bytes_origSig]
    exact kept
  image := by
    rw [record_written, SwsuspHeader.ofBytes_bytes_sig, SwsuspHeader.ofBytes_bytes_image]
    intro marked
    obtain ⟨start, latest, same⟩ := image marked
    exact ⟨start, latest, by rw [same, loff_toInt]⟩
  copy := by
    rw [Trusted, record_written, SwsuspHeader.ofBytes_bytes_sig]
    exact trusted
  outside := by
    intro place outside
    rw [← cycle.outside place outside]
    exact tools.writeFrom_outside area.disk copy .full outside

theorem succeeded_error (start : BitVec 64) (fate : Fate) {error : Int} (failed : error ≠ 0) :
    succeeded (.markSwap start fate) (.returned error) = none := by
  unfold succeeded
  split
  · rename_i same
    cases same
    exact absurd rfl failed
  · rfl

theorem Cycle.markSwap (cycle : tools.Cycle before original last area)
    (swap : IsSwap original) (start : BitVec 64) (fate : Fate) :
    tools.Cycle before original
      ((succeeded (.markSwap start fate) (tools.markSwap start fate area).1).or last)
      (tools.markSwap start fate area).2 := by
  have failed : ∀ error : Int, error ≠ 0 →
      (succeeded (.markSwap start fate) (.returned error)).or last = last := by
    intro error nonzero
    rw [succeeded_error start fate nonzero, Option.none_or]
  have read := cycle.copy.read cycle.sig fate.read
  unfold Tools.markSwap
  by_cases sought : tools.reaches fate.sought = true
  · rw [if_pos sought]
    by_cases few : tools.tooFew fate.read = true
    · simp only [few, ↓reduceIte]
      rw [failed _ (by decide)]
      exact cycle.withCopy read
    · by_cases free : IsSwap (tools.readInto area.disk area.header fate.read).sig
      · obtain ⟨genuine, onDisk⟩ := read.genuine free
        have unmarked : (tools.record area.disk).sig ≠ SWSUSP_SIG := by
          rw [onDisk]
          exact swap.unmarked
        by_cases again : tools.reaches fate.soughtAgain = true
        · simp only [few, free, again, ↓reduceIte, Bool.false_eq_true]
          cases written : fate.write with
          | full =>
            have enough : tools.tooFew .full = false := by
              unfold tooFew
              split <;> decide
            have latest : succeeded (.markSwap start fate) (.returned 0) = some start := rfl
            simp only [enough, latest, Bool.false_eq_true, ↓reduceIte, Option.some_or]
            have now := cycle.relast unmarked (some start)
            apply now.write (Or.inr rfl) (fun _ => genuine) (fun _ => ⟨start, rfl, rfl⟩)
            exact Or.inl rfl
          | short count => exact (cycle.withCopy (trusted_marked _ _ _)).relast unmarked _
          | failed => exact (cycle.withCopy (trusted_marked _ _ _)).relast unmarked _
        · simp only [few, free, again, ↓reduceIte, Bool.false_eq_true]
          rw [failed _ (by decide)]
          exact cycle.withCopy (trusted_marked _ _ _)
      · simp only [few, free, ↓reduceIte, Bool.false_eq_true]
        rw [failed _ (by decide)]
        exact cycle.withCopy read
  · rw [if_neg sought, failed _ (by decide)]
    exact cycle

theorem eq_full {transfer : Transfer} (whole : transfer.count = recordSize) : transfer = .full := by
  cases transfer with
  | full => rfl
  | short count => simp only [Transfer.count, recordSize] at whole; omega
  | failed => exact absurd whole (by decide)

/-- A record that has been restored is written back, or the disk stays as it is. -/
theorem Cycle.restore (cycle : tools.Cycle before original last area) (swap : IsSwap original)
    {copy : SwsuspHeader} (genuine : copy.origSig = original) (transfer : Transfer) :
    tools.Cycle before original last
        { area with
          disk := tools.writeFrom area.disk { copy with sig := copy.origSig } transfer
          header := .zero } ∧
      (transfer.count = recordSize → (tools.record (tools.writeFrom area.disk
        { copy with sig := copy.origSig } transfer)).sig = original) := by
  have unmarked : copy.origSig ≠ SWSUSP_SIG := by
    rw [genuine]
    exact swap.unmarked
  cases transfer with
  | full =>
    constructor
    · exact cycle.write (Or.inl genuine) (fun marked => absurd marked unmarked)
        (fun marked => absurd marked unmarked) (Or.inl rfl)
    · intro _
      rw [writeFrom, record_written, SwsuspHeader.ofBytes_bytes_sig]
      exact genuine
  | short count =>
    apply And.intro (cycle.withCopy (trusted_zero _))
    intro whole
    cases eq_full whole
  | failed =>
    apply And.intro (cycle.withCopy (trusted_zero _))
    intro whole
    cases eq_full whole

theorem Cycle.resetSignature (cycle : tools.Cycle before original last area)
    (swap : IsSwap original) (fate : Fate) :
    tools.Cycle before original last (tools.resetSignature fate area).2 ∧
      ((tools.resetSignature fate area).1 = .returned 0 →
        (tools.record (tools.resetSignature fate area).2.disk).sig = original) := by
  have zeroed := cycle.withCopy (trusted_zero area.disk)
  unfold Tools.resetSignature
  by_cases sought : tools.reaches fate.sought = true
  · rw [if_pos sought]
    by_cases read : fate.read.count = recordSize ∧
        (tools.readInto area.disk .zero fate.read).sig = SWSUSP_SIG
    · have whole : tools.readInto area.disk .zero fate.read = tools.record area.disk := by
        rw [eq_full read.1]
        rfl
      have genuine : (tools.record area.disk).origSig = original := by
        apply cycle.kept
        rw [← whole]
        exact read.2
      obtain ⟨after, back⟩ := cycle.restore swap genuine fate.write
      simp only [read, ↓reduceIte, and_self]
      rw [whole]
      by_cases again : tools.reaches fate.soughtAgain = true
      · by_cases written : fate.write.count = recordSize
        · simp only [again, written, ↓reduceIte]
          exact ⟨after.withCopy (Or.inr ⟨genuine, back written⟩), fun _ => back written⟩
        · simp only [again, written, ↓reduceIte]
          exact ⟨after, fun returned => by cases returned⟩
      · simp only [again, ↓reduceIte, Bool.false_eq_true]
        exact ⟨zeroed, fun returned => by cases returned⟩
    · simp only [read, ↓reduceIte]
      exact ⟨zeroed, fun returned => by cases returned⟩
  · rw [if_neg sought]
    exact ⟨cycle, fun returned => by cases returned⟩

/-- The header that `resume` goes on with is the record on the disk, and it is marked. -/
theorem openResumeDev_ok {fate : Fate} {disk : Disk} {copy : SwsuspHeader}
    (opened : tools.openResumeDev fate disk = .ok copy) :
    copy = tools.record disk ∧ copy.sig = SWSUSP_SIG := by
  unfold openResumeDev at opened
  split at opened
  · cases opened
  · split at opened
    · simp only at opened
      split at opened
      · rename_i whole
        split at opened
        · rename_i marked
          cases opened
          apply And.intro _ marked
          rw [eq_full whole]
          rfl
        · cases opened
      · cases opened
    · cases opened

theorem openResumeDev_error {fate : Fate} {disk : Disk} {error : Int}
    (failed : tools.openResumeDev fate disk = .error error) : error < 0 := by
  unfold openResumeDev at failed
  split at failed
  · cases failed
    assumption
  · split at failed
    · simp only at failed
      split at failed
      · split at failed
        · cases failed
        · cases failed
          decide
      · cases failed
        split
        · assumption
        · decide
    · cases failed
      decide

theorem Cycle.resume (cycle : tools.Cycle before original last area) (swap : IsSwap original)
    (fate : Fate) :
    tools.Cycle before original last (tools.resume fate area).2 ∧
      ((tools.resume fate area).1 = .returned 0 →
        (tools.record (tools.resume fate area).2.disk).sig = original) := by
  unfold Tools.resume
  cases opened : tools.openResumeDev fate area.disk with
  | error error =>
    apply And.intro cycle
    intro returned
    cases returned
    exact absurd (openResumeDev_error opened) (by decide)
  | ok copy =>
    obtain ⟨same, marked⟩ := openResumeDev_ok opened
    rw [same] at marked
    have genuine : copy.origSig = original := by
      rw [same]
      exact cycle.kept marked
    have distrusted : area.header.sig[9] = 0 := by
      cases cycle.copy with
      | inl ended => exact ended
      | inr held => exact absurd (held.2.symm.trans marked) swap.unmarked
    obtain ⟨after, back⟩ := cycle.restore swap genuine fate.write
    simp only [restoreSignature]
    by_cases again : tools.reaches fate.soughtAgain = true
    · by_cases written : fate.write.count = recordSize
      · simp only [again, written, ↓reduceIte]
        exact ⟨after.withCopy (Or.inl distrusted), fun _ => back written⟩
      · simp only [again, written, ↓reduceIte]
        exact ⟨after.withCopy (Or.inl distrusted), fun returned => by cases returned⟩
    · simp only [again, ↓reduceIte, Bool.false_eq_true]
      exact ⟨cycle, fun returned => by cases returned⟩

/-- Every call keeps the life of the signature. -/
theorem Cycle.step (cycle : tools.Cycle before original last area) (swap : IsSwap original)
    (call : Call) :
    tools.Cycle before original ((succeeded call (tools.step area call).1).or last)
      (tools.step area call).2 := by
  cases call with
  | start => exact cycle.withCopy (trusted_zero _)
  | markSwap start fate => exact cycle.markSwap swap start fate
  | resetSignature fate => exact (cycle.resetSignature swap fate).1
  | resume fate => exact (cycle.resume swap fate).1

theorem Cycle.run (cycle : tools.Cycle before original last area) (swap : IsSwap original)
    (calls : List Call) :
    tools.Cycle before original ((tools.marks area calls).getLast?.or last)
      (tools.run area calls) := by
  induction calls generalizing area last with
  | nil => exact cycle
  | cons call rest ih =>
    have later := ih (cycle.step swap call)
    have latest : (succeeded call (tools.step area call).1).toList.getLast? =
        succeeded call (tools.step area call).1 := by
      cases succeeded call (tools.step area call).1 <;> rfl
    rw [marks, List.getLast?_append, Option.or_assoc, latest]
    exact later

theorem Cycle.refused (cycle : tools.Cycle before original last area) (swap : IsSwap original)
    (marked : (tools.record area.disk).sig = SWSUSP_SIG) (start : BitVec 64) (fate : Fate) :
    (tools.markSwap start fate area).1 ≠ .returned 0 ∧
      (tools.markSwap start fate area).2.disk = area.disk := by
  have taken : ¬ IsSwap (tools.readInto area.disk area.header fate.read).sig := by
    intro free
    have genuine := ((cycle.copy.read cycle.sig fate.read).genuine free).2
    exact swap.unmarked (genuine.symm.trans marked)
  have error : ∀ code : Int, code ≠ 0 → Ending.returned code ≠ .returned 0 := by
    intro code nonzero same
    cases same
    exact nonzero rfl
  unfold Tools.markSwap
  split
  · simp only [taken, ↓reduceIte]
    split
    · exact ⟨error _ (by decide), rfl⟩
    · exact ⟨error _ (by decide), rfl⟩
  · exact ⟨error _ (by decide), rfl⟩

theorem cycle_start {disk : Disk} (swap : IsSwap (tools.record disk).sig) :
    tools.Cycle disk (tools.record disk).sig none ⟨disk, .zero⟩ where
  sig := Or.inl rfl
  kept := fun marked => absurd marked swap.unmarked
  image := fun marked => absurd marked swap.unmarked
  copy := trusted_zero disk
  outside := fun _ _ => rfl

/-- Whatever the tools do to a swap area, and however their calls fail, its signature is the
original one or kept beside the mark, with the start of the last successful mark. -/
theorem signature_kept (tools : Tools) (disk : Disk) (swap : IsSwap (tools.record disk).sig)
    (calls : List Call) :
    let original := (tools.record disk).sig
    let area := tools.run ⟨disk, .zero⟩ calls
    let record := tools.record area.disk
    (record.sig = original ∨ record.sig = SWSUSP_SIG) ∧
      (record.sig = SWSUSP_SIG → record.origSig = original ∧
        ∃ start, (tools.marks ⟨disk, .zero⟩ calls).getLast? = some start ∧
          record.image = start.toInt) ∧
      (∀ fate, (tools.resetSignature fate area).1 = .returned 0 →
        (tools.record (tools.resetSignature fate area).2.disk).sig = original) ∧
      (∀ fate, (tools.resume fate area).1 = .returned 0 →
        (tools.record (tools.resume fate area).2.disk).sig = original) ∧
      (record.sig = SWSUSP_SIG → ∀ start fate,
        (tools.markSwap start fate area).1 ≠ .returned 0 ∧
          (tools.markSwap start fate area).2.disk = area.disk) ∧
      ∀ place, place < tools.shift ∨ tools.shift + recordSize ≤ place →
        area.disk place = disk place := by
  intro original area record
  have cycle := (cycle_start swap).run swap calls
  rw [Option.or_none] at cycle
  refine ⟨cycle.sig, ?_, ?_, ?_, ?_, cycle.outside⟩
  · intro marked
    exact ⟨cycle.kept marked, cycle.image marked⟩
  · intro fate
    exact (cycle.resetSignature swap fate).2
  · intro fate
    exact (cycle.resume swap fate).2
  · intro marked start fate
    exact cycle.refused swap marked start fate

/-- The calls of a routine that meets no failure. -/
def allWell : Fate := ⟨3, true, .full, true, .full⟩

/-- A page of zeros that ends in `"SWAPSPACE2"`. -/
def swapHeaderPage : Disk := fun place =>
  if place < 4086 then 0 else SWAPSPACE2.toList.getD (place - 4086).toNat 0

/-- A mark of that page, with the record at its end, and a second one, which is refused. -/
def markedTwice : List Call := [.markSwap 0x5000 allWell, .markSwap 0x6000 allWell]

/-- The second mark changes nothing, and either tool takes the first one back. -/
theorem page_marked :
    let tools : Tools := ⟨4096, 0, .little, true⟩
    let once := tools.run ⟨swapHeaderPage, .zero⟩ [.markSwap 0x5000 allWell]
    let twice := tools.run ⟨swapHeaderPage, .zero⟩ markedTwice
    (tools.markSwap 0x6000 allWell once).1 ≠ .returned 0 ∧
      (tools.record twice.disk).origSig = SWAPSPACE2 ∧ (tools.record twice.disk).image = 0x5000 ∧
      (tools.record (tools.resetSignature allWell twice).2.disk).sig = SWAPSPACE2 ∧
      (tools.record (tools.resume allWell twice).2.disk).sig = SWAPSPACE2 := by
  intro tools once twice
  have swap : (tools.record swapHeaderPage).sig = SWAPSPACE2 := by decide
  have set : (tools.record once.disk).sig = SWSUSP_SIG := by decide
  have still : (tools.record twice.disk).sig = SWSUSP_SIG := by decide
  have only : (tools.marks ⟨swapHeaderPage, .zero⟩ markedTwice).getLast? = some 0x5000 := by decide
  have reset : (tools.resetSignature allWell twice).1 = .returned 0 := by decide
  have resumed : (tools.resume allWell twice).1 = .returned 0 := by decide
  obtain ⟨-, -, -, -, refused, -⟩ :=
    signature_kept tools swapHeaderPage (Or.inr swap) [.markSwap 0x5000 allWell]
  obtain ⟨-, marked, resets, resumes, -, -⟩ :=
    signature_kept tools swapHeaderPage (Or.inr swap) markedTwice
  obtain ⟨kept, start, latest, image⟩ := marked still
  obtain rfl : 0x5000 = start := Option.some.inj (only.symm.trans latest)
  have same : tools.run ⟨swapHeaderPage, .zero⟩ markedTwice = twice := rfl
  rw [swap, same] at kept resets resumes
  exact ⟨(refused set 0x6000 allWell).1, kept, image, resets allWell reset,
    resumes allWell resumed⟩

end Tools

end Suspend
