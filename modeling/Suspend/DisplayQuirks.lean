import Suspend.SuspendReturn
import Mathlib.Data.List.Basic

set_option autoImplicit false

namespace Suspend

/-- What the quirks do, in its order. -/
inductive Act where
  | videoMode (acpiVideoFlags : BitVec 64)
  | saveState
  | getMode
  | light (on : Bool)
  | savePci
  | fbcon (name : Bytes) (suspended : Bool)
  | restorePci
  | doPost
  | restoreState
  | setMode (mode : Int)
deriving DecidableEq

/-- The steps of the quirks that a library may end the process in: `vbetool_init` calls `exit` when
LRMI cannot be initialized, and so does the PCI library when it gives up. -/
inductive LibraryStep where
  | saveState
  | getMode
  | mapRadeon
  | savePci
  | restorePci
  | doPost
  | restoreState
  | setMode
deriving DecidableEq

/-- What has been done, and whether the process has ended over it. -/
structure Course where
  acts : List Act
  ended : Bool

namespace Course

def nothing : Course := ⟨[], false⟩

def of (acts : List Act) : Course := ⟨acts, false⟩

/-- The rest follows unless the process has ended. -/
def andThen (first rest : Course) : Course :=
  if first.ended then first else ⟨first.acts ++ rest.acts, rest.ended⟩

end Course

/-- An entry of `/sys/class/graphics`: whether its `state` may be written, and is opened. -/
structure GraphicsEntry where
  name : Bytes
  access : Bool
  opened : Bool

def S3_BIOS : BitVec 32 := 0x01
def S3_MODE : BitVec 32 := 0x02
def VBE_SAVE : BitVec 32 := 0x04
def VBE_POST : BitVec 32 := 0x08
def RADEON_OFF : BitVec 32 := 0x10
def VBE_MODE : BitVec 32 := 0x80
def PCI_SAVE : BitVec 32 := 0x100

def S2RAM_FAIL : Int := 1

/-- The flags, and what the I/O of the quirks answers: the old ACPI video flags, whether the control
memory of the radeon is mapped, whether there is a VGA device, the two walks through
`/sys/class/graphics`, and where a library ends the process. -/
structure Quirks where
  flags : BitVec 32
  fbNosuspend : Bool
  acpiVideoFlags : Option (BitVec 64)
  acpiVideoWritable : Bool
  saved : Bool
  mode : Int
  radeonMapped : Bool
  vga : Bool
  suspendGraphics : Option (List GraphicsEntry)
  resumeGraphics : Option (List GraphicsEntry)
  exits : LibraryStep → Bool

/-- The consoles that a walk through `/sys/class/graphics` writes to. -/
def consoles (graphics : Option (List GraphicsEntry)) : List Bytes :=
  match graphics with
  | none => []
  | some entries =>
      (entries.filter fun entry =>
        entry.name.head? ≠ some 0x2e && entry.access && entry.opened).map GraphicsEntry.name

/-- `fbcon_state`. -/
def fbconState (graphics : Option (List GraphicsEntry)) (state : Bool) : List Act :=
  (consoles graphics).map (Act.fbcon · state)

namespace Quirks

variable (quirks : Quirks)

def has (flag : BitVec 32) : Prop := quirks.flags &&& flag ≠ 0

instance (flag : BitVec 32) : Decidable (quirks.has flag) :=
  inferInstanceAs (Decidable (_ ≠ _))

/-- `set_acpi_video_mode`. -/
def setAcpiVideoMode (mode : BitVec 32) : Int × List Act :=
  match quirks.acpiVideoFlags with
  | none => (S2RAM_FAIL, [])
  | some acpiVideoFlags =>
      if quirks.acpiVideoWritable then
        (0, [.videoMode
          ((acpiVideoFlags &&& ~~~((S3_BIOS ||| S3_MODE).setWidth 64)) ||| mode.setWidth 64)])
      else (S2RAM_FAIL, [])

/-- `radeon_cmd_light`, which does nothing without the control memory. -/
def radeonCmdLight (on : Bool) : List Act := if quirks.radeonMapped then [.light on] else []

/-- A step that is taken if it is wanted, and ends the process if the library does. -/
def call (wanted : Prop) [Decidable wanted] (step : LibraryStep) (acts : List Act) : Course :=
  if wanted then if quirks.exits step then ⟨[], true⟩ else ⟨acts, false⟩ else .nothing

/-- `s2ram_hacks` up to `find_vga`, once the video mode is set. -/
def hacksBefore (video : List Act) : Course :=
  (((Course.of video).andThen
    (quirks.call (quirks.has VBE_SAVE) .saveState [.saveState])).andThen
    (quirks.call (quirks.has VBE_MODE) .getMode [.getMode])).andThen
    (quirks.call (quirks.has RADEON_OFF) .mapRadeon (quirks.radeonCmdLight false))

/-- `s2ram_hacks`. What it returns does not matter when the process has ended. -/
def s2ramHacks : Int × Course :=
  let video := quirks.setAcpiVideoMode (quirks.flags &&& (S3_BIOS ||| S3_MODE))
  if video.1 ≠ 0 then (video.1, .of video.2)
  else
    let saved := (quirks.hacksBefore video.2).andThen
      (quirks.call (quirks.has PCI_SAVE) .savePci (if quirks.vga then [.savePci] else []))
    if quirks.has PCI_SAVE ∧ ¬ quirks.vga then (1, saved)
    else
      (0, saved.andThen
        (.of (if quirks.fbNosuspend then [] else fbconState quirks.suspendGraphics true)))

/-- `s2ram_resume` up to `resume_fbcon`. The buffer and the mode are those that `s2ram_hacks` has
saved. -/
def resumeBefore : Course :=
  (((quirks.call (quirks.has PCI_SAVE) .restorePci [.restorePci]).andThen
    (quirks.call (quirks.has VBE_POST) .doPost [.doPost])).andThen
    (quirks.call (quirks.has VBE_SAVE ∧ quirks.saved) .restoreState [.restoreState])).andThen
    (quirks.call (quirks.has VBE_MODE ∧ 0 ≤ quirks.mode) .setMode [.setMode quirks.mode])

/-- `s2ram_resume`. -/
def s2ramResume : Course :=
  quirks.resumeBefore.andThen
    (.of ((if quirks.fbNosuspend then [] else fbconState quirks.resumeGraphics false) ++
      if quirks.has RADEON_OFF then quirks.radeonCmdLight true else []))

end Quirks

/-- What `main` of `s2ram` finds before it comes to the quirks. -/
structure S2ram where
  noKmsFlag : Bool
  checkKms : Int
  config : Int
  isSupported : Int
  quirks : Quirks

/-- `main` of `s2ram`: what it does to the display until it ends, be it in a library. -/
def S2ram.main (env : S2ram) : List Act :=
  if env.noKmsFlag = false ∧ env.checkKms = 0 then []
  else if env.config ≠ 0 ∧ env.isSupported ≠ 0 then []
  else if env.quirks.s2ramHacks.1 ≠ 0 then env.quirks.s2ramHacks.2.acts
  else (env.quirks.s2ramHacks.2.andThen env.quirks.s2ramResume).acts

namespace SystemEnv

variable {Page : Type} (env : SystemEnv Page)

/-- What the attempts that are left do to the display, where `resume` undoes the quirks. -/
def attemptsActs (resume : Course) : Nat → Machine Page → Course
  | 0, _ => .nothing
  | left + 1, machine =>
      if (env.attempt left).setImageSize ≠ 0 then .nothing
      else
        match (env.attempt left).snapshot with
        | .failed _ => .nothing
        | .resumed _ => .nothing
        | .created =>
            if (env.image left machine).1 ≠ 0 then
              if -(env.image left machine).1 ≠ ENOSPC then .nothing
              else
                attemptsActs resume left
                  ((env.image left machine).2.freeSnapshot (env.attempt left).freed)
            else if env.toRam ∧ (env.attempt left).suspendToRam = 0 then
              match (env.image left machine).2.fd.resetSignature.1 with
              | .halted => .nothing
              | .returned _ => resume
            else .nothing

/-- What `suspend_system` does to the display. -/
def suspendActs (resume : Course) (machine : Machine Page) : Course :=
  if env.availSwap = 0 then .nothing
  else if env.freeze ≠ 0 then .nothing
  else
    match env.test with
    | some _ => .nothing
    | none => env.attemptsActs resume 2 machine

end SystemEnv

/-- What `main` of `s2both` finds before it comes to the quirks, and what `suspend_system` is
answered. -/
structure S2both (Page : Type) where
  checkKms : Int
  isSupported : Int
  quirks : Quirks
  system : SystemEnv Page

namespace S2both

variable {Page : Type} (env : S2both Page)

/-- `s2ram_kms`. -/
def s2ramKms : Prop := env.checkKms = 0

instance : Decidable env.s2ramKms := inferInstanceAs (Decidable (_ = _))

/-- `s2ram` as `get_config` leaves it. -/
def s2ram : Prop := ¬ env.s2ramKms ∧ env.isSupported = 0

instance : Decidable env.s2ram := inferInstanceAs (Decidable (_ ∧ _))

/-- The environment that `suspend_system` runs in. -/
def suspending : SystemEnv Page :=
  { env.system with
    toRam := decide (env.s2ramKms ∨ env.s2ram ∧ env.quirks.s2ramHacks.1 = 0) }

/-- The quirks as `s2ram_resume` finds them: `main` has set `RLIMIT_NOFILE` to 0 before
`suspend_system`, so that `opendir` fails. Whether a library can do without opening anything is up
to `exits`. -/
def limited : Quirks := { env.quirks with resumeGraphics := none }

/-- `main` of `s2both` from the quirks on: what is done to the display, and whether the process ends
over it. -/
def course (machine : Machine Page) : Course :=
  (if env.s2ram then env.quirks.s2ramHacks.2 else .nothing).andThen
    (env.suspending.suspendActs
      (if env.s2ramKms then .nothing else env.limited.s2ramResume) machine)

/-- How `suspend_system` ends, unless the process ends in a library, and what is done to the
display. -/
def main (machine : Machine Page) : Option Exit × List Act :=
  (if (env.course machine).ended then none else some (env.suspending.suspendSystem machine).1,
    (env.course machine).acts)

end S2both

/-- Whether a console is suspended after these acts. -/
def fbconAfter (name : Bytes) (acts : List Act) (suspended : Bool) : Bool :=
  acts.foldl
    (fun state act =>
      match act with
      | .fbcon other suspended => if other = name then suspended else state
      | _ => state)
    suspended

/-- Whether the backlight is on after these acts. -/
def lightAfter (acts : List Act) (on : Bool) : Bool :=
  acts.foldl
    (fun state act =>
      match act with
      | .light on => on
      | _ => state)
    on

/-- No console is left suspended, and the backlight is not left off. -/
def Undone (acts : List Act) : Prop :=
  (∀ name, fbconAfter name acts false = false) ∧ lightAfter acts true = true

@[simp] theorem fbconAfter_nil (name : Bytes) (suspended : Bool) :
    fbconAfter name [] suspended = suspended := rfl

@[simp] theorem lightAfter_nil (on : Bool) : lightAfter [] on = on := rfl

@[simp] theorem fbconAfter_cons (name : Bytes) (act : Act) (rest : List Act) (suspended : Bool) :
    fbconAfter name (act :: rest) suspended =
      fbconAfter name rest
        (match act with
        | .fbcon other suspended' => if other = name then suspended' else suspended
        | _ => suspended) := rfl

@[simp] theorem lightAfter_cons (act : Act) (rest : List Act) (on : Bool) :
    lightAfter (act :: rest) on =
      lightAfter rest
        (match act with
        | .light on' => on'
        | _ => on) := rfl

@[simp] theorem fbconAfter_append (name : Bytes) (first second : List Act) (suspended : Bool) :
    fbconAfter name (first ++ second) suspended =
      fbconAfter name second (fbconAfter name first suspended) :=
  List.foldl_append

@[simp] theorem lightAfter_append (first second : List Act) (on : Bool) :
    lightAfter (first ++ second) on = lightAfter second (lightAfter first on) :=
  List.foldl_append

@[simp] theorem fbconAfter_ite (name : Bytes) (taken : Prop) [Decidable taken]
    (acts : List Act) (suspended : Bool) :
    fbconAfter name (if taken then acts else []) suspended =
      if taken then fbconAfter name acts suspended else suspended :=
  apply_ite (fbconAfter name · suspended) taken acts []

@[simp] theorem lightAfter_ite (taken : Prop) [Decidable taken] (acts : List Act) (on : Bool) :
    lightAfter (if taken then acts else []) on = if taken then lightAfter acts on else on :=
  apply_ite (lightAfter · on) taken acts []

/-- A walk through `/sys/class/graphics` sets the consoles that it writes to. -/
theorem fbconAfter_fbconState (name : Bytes) (graphics : Option (List GraphicsEntry))
    (state suspended : Bool) :
    fbconAfter name (fbconState graphics state) suspended =
      if name ∈ consoles graphics then state else suspended := by
  unfold fbconState
  generalize consoles graphics = names
  induction names generalizing suspended with
  | nil => rfl
  | cons head rest ih =>
      rw [List.map_cons, fbconAfter, List.foldl_cons, ← fbconAfter, ih]
      by_cases here : head = name
      · simp [here]
      · simp [here, Ne.symm here]

@[simp] theorem lightAfter_fbconState (graphics : Option (List GraphicsEntry)) (state on : Bool) :
    lightAfter (fbconState graphics state) on = on := by
  unfold fbconState
  generalize consoles graphics = names
  induction names with
  | nil => rfl
  | cons head rest ih => exact ih

namespace Course

variable (first rest : Course)

@[simp] theorem nothing_andThen : nothing.andThen rest = rest := rfl

@[simp] theorem ended_of (acts : List Act) : (of acts).ended = false := rfl

@[simp] theorem acts_of (acts : List Act) : (of acts).acts = acts := rfl

@[simp] theorem ended_andThen : (first.andThen rest).ended = (first.ended || rest.ended) := by
  unfold andThen
  cases ended : first.ended <;> simp [ended]

@[simp] theorem fbconAfter_andThen (name : Bytes) (suspended : Bool) :
    fbconAfter name (first.andThen rest).acts suspended =
      if first.ended then fbconAfter name first.acts suspended
      else fbconAfter name rest.acts (fbconAfter name first.acts suspended) := by
  unfold andThen
  split
  · rfl
  · exact fbconAfter_append name _ _ suspended

@[simp] theorem lightAfter_andThen (on : Bool) :
    lightAfter (first.andThen rest).acts on =
      if first.ended then lightAfter first.acts on
      else lightAfter rest.acts (lightAfter first.acts on) := by
  unfold andThen
  split
  · rfl
  · exact lightAfter_append _ _ on

end Course

namespace Quirks

variable (quirks : Quirks)

@[simp] theorem ended_call (wanted : Prop) [Decidable wanted] (step : LibraryStep)
    (acts : List Act) :
    (quirks.call wanted step acts).ended = decide (wanted ∧ quirks.exits step = true) := by
  unfold call
  by_cases here : wanted <;> cases exits : quirks.exits step <;> simp [here, Course.nothing]

@[simp] theorem fbconAfter_call (wanted : Prop) [Decidable wanted] (step : LibraryStep)
    (acts : List Act) (name : Bytes) (suspended : Bool) :
    fbconAfter name (quirks.call wanted step acts).acts suspended =
      if wanted ∧ quirks.exits step = false then fbconAfter name acts suspended
      else suspended := by
  unfold call
  by_cases here : wanted <;> cases exits : quirks.exits step <;> simp [here, Course.nothing]

@[simp] theorem lightAfter_call (wanted : Prop) [Decidable wanted] (step : LibraryStep)
    (acts : List Act) (on : Bool) :
    lightAfter (quirks.call wanted step acts).acts on =
      if wanted ∧ quirks.exits step = false then lightAfter acts on else on := by
  unfold call
  by_cases here : wanted <;> cases exits : quirks.exits step <;> simp [here, Course.nothing]

@[simp] theorem fbconAfter_radeonCmdLight (name : Bytes) (on suspended : Bool) :
    fbconAfter name (quirks.radeonCmdLight on) suspended = suspended := by
  unfold radeonCmdLight
  split <;> rfl

@[simp] theorem lightAfter_radeonCmdLight (light on : Bool) :
    lightAfter (quirks.radeonCmdLight light) on = if quirks.radeonMapped then light else on := by
  unfold radeonCmdLight
  split <;> rfl

@[simp] theorem fbconAfter_walk (name : Bytes) (graphics : Option (List GraphicsEntry))
    (state suspended : Bool) :
    fbconAfter name (if quirks.fbNosuspend then [] else fbconState graphics state) suspended =
      if quirks.fbNosuspend = false ∧ name ∈ consoles graphics then state else suspended := by
  cases quirks.fbNosuspend <;> simp [fbconAfter_fbconState]

@[simp] theorem lightAfter_walk (graphics : Option (List GraphicsEntry)) (state on : Bool) :
    lightAfter (if quirks.fbNosuspend then [] else fbconState graphics state) on = on := by
  split
  · rfl
  · exact lightAfter_fbconState graphics state on

/-- `set_acpi_video_mode` succeeds. -/
def VideoSet : Prop := quirks.acpiVideoFlags.isSome = true ∧ quirks.acpiVideoWritable = true

/-- `s2ram_hacks` turns the backlight off. -/
def TurnsOff : Prop :=
  quirks.VideoSet ∧ (quirks.has VBE_SAVE → quirks.exits .saveState = false) ∧
    (quirks.has VBE_MODE → quirks.exits .getMode = false) ∧
    quirks.has RADEON_OFF ∧ quirks.exits .mapRadeon = false ∧ quirks.radeonMapped = true

/-- `s2ram_hacks` does not give up, nor does a library in it. -/
structure Completes : Prop where
  video : quirks.VideoSet
  saveState : quirks.has VBE_SAVE → quirks.exits .saveState = false
  getMode : quirks.has VBE_MODE → quirks.exits .getMode = false
  mapRadeon : quirks.has RADEON_OFF → quirks.exits .mapRadeon = false
  savePci : quirks.has PCI_SAVE → quirks.exits .savePci = false ∧ quirks.vga = true

/-- `s2ram_hacks` suspends the console. -/
def Suspends (name : Bytes) : Prop :=
  quirks.Completes ∧ quirks.fbNosuspend = false ∧ name ∈ consoles quirks.suspendGraphics

/-- No library ends the process in `s2ram_resume`. -/
structure Returns : Prop where
  restorePci : quirks.has PCI_SAVE → quirks.exits .restorePci = false
  doPost : quirks.has VBE_POST → quirks.exits .doPost = false
  restoreState : quirks.has VBE_SAVE → quirks.saved = true → quirks.exits .restoreState = false
  setMode : quirks.has VBE_MODE → 0 ≤ quirks.mode → quirks.exits .setMode = false

/-- The backlight is not turned off by quirks that give up or cannot be taken back, and the walk
that resumes the consoles is come to and writes to those that were suspended. -/
def Reversible : Prop :=
  (quirks.TurnsOff → quirks.Completes ∧ quirks.Returns) ∧
    ∀ name, quirks.Suspends name → quirks.Returns ∧ name ∈ consoles quirks.resumeGraphics

/-- The quirks change nothing. -/
def Untouched : Prop := ¬ quirks.TurnsOff ∧ ∀ name, ¬ quirks.Suspends name

theorem s2ramHacks_unset (unset : ¬ quirks.VideoSet) :
    quirks.s2ramHacks = (S2RAM_FAIL, .nothing) := by
  unfold VideoSet at unset
  unfold s2ramHacks setAcpiVideoMode
  cases found : quirks.acpiVideoFlags with
  | none => rfl
  | some old =>
      have locked : quirks.acpiVideoWritable = false := by simpa [found] using unset
      simp [locked, S2RAM_FAIL]
      rfl

theorem s2ramHacks_set (set : quirks.VideoSet) :
    ∃ mode, quirks.s2ramHacks =
      let saved := (quirks.hacksBefore [.videoMode mode]).andThen
        (quirks.call (quirks.has PCI_SAVE) .savePci (if quirks.vga then [.savePci] else []))
      if quirks.has PCI_SAVE ∧ ¬ quirks.vga then (1, saved)
      else
        (0, saved.andThen
          (.of (if quirks.fbNosuspend then [] else fbconState quirks.suspendGraphics true))) := by
  obtain ⟨found, writable⟩ := set
  obtain ⟨old, flags⟩ := Option.isSome_iff_exists.mp found
  refine ⟨(old &&& ~~~((S3_BIOS ||| S3_MODE).setWidth 64)) |||
    (quirks.flags &&& (S3_BIOS ||| S3_MODE)).setWidth 64, ?_⟩
  simp only [s2ramHacks, setAcpiVideoMode, flags, writable, ↓reduceIte, ne_eq, not_true_eq_false]

theorem hacksBefore_ended (mode : BitVec 64) :
    (quirks.hacksBefore [.videoMode mode]).ended = false ↔
      (quirks.has VBE_SAVE → quirks.exits .saveState = false) ∧
        (quirks.has VBE_MODE → quirks.exits .getMode = false) ∧
        (quirks.has RADEON_OFF → quirks.exits .mapRadeon = false) := by
  simp [hacksBefore, and_assoc]

theorem hacksBefore_fbcon (mode : BitVec 64) (name : Bytes) (suspended : Bool) :
    fbconAfter name (quirks.hacksBefore [.videoMode mode]).acts suspended = suspended := by
  simp [hacksBefore]

theorem hacksBefore_light (mode : BitVec 64) :
    lightAfter (quirks.hacksBefore [.videoMode mode]).acts true = false ↔
      (quirks.has VBE_SAVE → quirks.exits .saveState = false) ∧
        (quirks.has VBE_MODE → quirks.exits .getMode = false) ∧
        quirks.has RADEON_OFF ∧ quirks.exits .mapRadeon = false ∧ quirks.radeonMapped = true := by
  simp only [hacksBefore, Course.lightAfter_andThen, Course.ended_andThen, Course.ended_of,
    ended_call, Course.acts_of, lightAfter_cons, lightAfter_nil, lightAfter_call,
    lightAfter_radeonCmdLight, ite_self]
  grind

theorem s2ramHacks_completes :
    quirks.s2ramHacks.1 = 0 ∧ quirks.s2ramHacks.2.ended = false ↔ quirks.Completes := by
  by_cases set : quirks.VideoSet
  · obtain ⟨mode, hacks⟩ := quirks.s2ramHacks_set set
    have before := quirks.hacksBefore_ended mode
    have completes : quirks.Completes ↔ (quirks.hacksBefore [.videoMode mode]).ended = false ∧
        (quirks.has PCI_SAVE → quirks.exits .savePci = false ∧ quirks.vga = true) := by
      rw [before]
      exact ⟨fun done => ⟨⟨done.saveState, done.getMode, done.mapRadeon⟩, done.savePci⟩,
        fun ⟨⟨save, mode, radeon⟩, pci⟩ => ⟨set, save, mode, radeon, pci⟩⟩
    rw [hacks, completes]
    by_cases missing : quirks.has PCI_SAVE ∧ ¬ quirks.vga = true
    · rw [if_pos missing]
      simp [missing]
    · rw [if_neg missing]
      simp only [Course.ended_andThen, ended_call, Course.ended_of, true_and]
      grind
  · rw [quirks.s2ramHacks_unset set]
    exact iff_of_false (fun done => absurd done.1 (by decide)) fun done => set done.video

theorem s2ramHacks_fbcon (name : Bytes) :
    fbconAfter name quirks.s2ramHacks.2.acts false = true ↔ quirks.Suspends name := by
  have completes := quirks.s2ramHacks_completes
  by_cases set : quirks.VideoSet
  · obtain ⟨mode, hacks⟩ := quirks.s2ramHacks_set set
    have before := quirks.hacksBefore_fbcon mode name false
    rw [Suspends, ← completes, hacks]
    by_cases missing : quirks.has PCI_SAVE ∧ ¬ quirks.vga = true
    · rw [if_pos missing]
      simp [before]
    · rw [if_neg missing]
      simp only [Course.fbconAfter_andThen, Course.ended_andThen, ended_call, before,
        fbconAfter_call, fbconAfter_ite, fbconAfter_cons, fbconAfter_nil, ite_self, Course.acts_of,
        fbconAfter_walk, Course.ended_of, true_and]
      grind
  · rw [quirks.s2ramHacks_unset set]
    exact iff_of_false Bool.false_ne_true fun suspends => set suspends.1.video

theorem s2ramHacks_light :
    lightAfter quirks.s2ramHacks.2.acts true = false ↔ quirks.TurnsOff := by
  by_cases set : quirks.VideoSet
  · obtain ⟨mode, hacks⟩ := quirks.s2ramHacks_set set
    rw [hacks, TurnsOff, and_iff_right set, ← quirks.hacksBefore_light mode]
    by_cases missing : quirks.has PCI_SAVE ∧ ¬ quirks.vga = true
    · rw [if_pos missing]
      simp
    · rw [if_neg missing]
      simp
  · rw [quirks.s2ramHacks_unset set, TurnsOff]
    simp [set, Course.nothing]

theorem resumeBefore_ended : quirks.resumeBefore.ended = false ↔ quirks.Returns := by
  have returns : quirks.Returns ↔ (quirks.has PCI_SAVE → quirks.exits .restorePci = false) ∧
      (quirks.has VBE_POST → quirks.exits .doPost = false) ∧
      (quirks.has VBE_SAVE → quirks.saved = true → quirks.exits .restoreState = false) ∧
      (quirks.has VBE_MODE → 0 ≤ quirks.mode → quirks.exits .setMode = false) :=
    ⟨fun done => ⟨done.restorePci, done.doPost, done.restoreState, done.setMode⟩,
      fun ⟨pci, post, state, mode⟩ => ⟨pci, post, state, mode⟩⟩
  rw [returns]
  simp [resumeBefore, and_assoc]

theorem resumeBefore_fbcon (name : Bytes) (suspended : Bool) :
    fbconAfter name quirks.resumeBefore.acts suspended = suspended := by
  simp [resumeBefore]

theorem resumeBefore_light (on : Bool) : lightAfter quirks.resumeBefore.acts on = on := by
  simp [resumeBefore]

theorem s2ramResume_fbcon (name : Bytes) (suspended : Bool) :
    fbconAfter name quirks.s2ramResume.acts suspended = true ↔
      suspended = true ∧ ¬ (quirks.Returns ∧ quirks.fbNosuspend = false ∧
        name ∈ consoles quirks.resumeGraphics) := by
  rw [← quirks.resumeBefore_ended]
  simp only [s2ramResume, Course.fbconAfter_andThen, resumeBefore_fbcon, Course.acts_of,
    fbconAfter_append, fbconAfter_walk, fbconAfter_ite, fbconAfter_radeonCmdLight, ite_self]
  grind

theorem s2ramResume_light (on : Bool) :
    lightAfter quirks.s2ramResume.acts on = false ↔
      on = false ∧ ¬ (quirks.Returns ∧ quirks.has RADEON_OFF ∧ quirks.radeonMapped = true) := by
  rw [← quirks.resumeBefore_ended]
  simp only [s2ramResume, Course.lightAfter_andThen, resumeBefore_light, Course.acts_of,
    lightAfter_append, lightAfter_walk, lightAfter_ite, lightAfter_radeonCmdLight]
  grind

theorem undone_hacks : Undone quirks.s2ramHacks.2.acts ↔ quirks.Untouched := by
  have light := quirks.s2ramHacks_light
  rw [Undone, Untouched, ← light, and_comm]
  simp only [← quirks.s2ramHacks_fbcon, Bool.not_eq_true, Bool.not_eq_false]

theorem Untouched.reversible {quirks : Quirks} (untouched : quirks.Untouched) :
    quirks.Reversible :=
  ⟨fun off => absurd off untouched.1, fun name suspends => absurd suspends (untouched.2 name)⟩

/-- Quirks that are not through cannot be taken back. -/
theorem reversible_unfinished (unfinished : ¬ quirks.Completes) :
    quirks.Reversible ↔ quirks.Untouched :=
  ⟨fun back => ⟨fun off => unfinished (back.1 off).1, fun _ suspends => unfinished suspends.1⟩,
    Untouched.reversible⟩

/-- `s2ram_resume` undoes the quirks if and only if it gets to the consoles and the backlight, and
its walk writes to every console that was suspended. -/
theorem undone_resume (success : quirks.s2ramHacks.1 = 0) :
    Undone (quirks.s2ramHacks.2.andThen quirks.s2ramResume).acts ↔ quirks.Reversible := by
  cases ended : quirks.s2ramHacks.2.ended with
  | true =>
      have unfinished : ¬ quirks.Completes := fun done => by
        have through := (quirks.s2ramHacks_completes.mpr done).2
        rw [ended] at through
        cases through
      rw [Course.andThen, if_pos ended, undone_hacks, reversible_unfinished quirks unfinished]
  | false =>
      have done := quirks.s2ramHacks_completes.mp ⟨success, ended⟩
      have consoles (name : Bytes) :
          fbconAfter name (quirks.s2ramHacks.2.andThen quirks.s2ramResume).acts false = false ↔
            (quirks.Suspends name → quirks.Returns ∧ name ∈ consoles quirks.resumeGraphics) := by
        rw [Course.fbconAfter_andThen, ended, if_neg Bool.false_ne_true, ← Bool.not_eq_true,
          s2ramResume_fbcon, s2ramHacks_fbcon]
        constructor
        · intro back suspends
          by_contra missed
          exact back ⟨suspends, fun resumed => missed ⟨resumed.1, resumed.2.2⟩⟩
        · rintro resumed ⟨suspends, missed⟩
          have back := resumed suspends
          exact missed ⟨back.1, suspends.2.1, back.2⟩
      have backlight :
          lightAfter (quirks.s2ramHacks.2.andThen quirks.s2ramResume).acts true = true ↔
            (quirks.TurnsOff → quirks.Returns) := by
        rw [Course.lightAfter_andThen, ended, if_neg Bool.false_ne_true, ← Bool.not_eq_false,
          s2ramResume_light, s2ramHacks_light]
        constructor
        · intro back off
          by_contra missed
          exact back ⟨off, fun resumed => missed resumed.1⟩
        · rintro returns ⟨off, missed⟩
          exact missed ⟨returns off, off.2.2.2.1, off.2.2.2.2.2⟩
      rw [Undone, Reversible, backlight, and_comm]
      simp only [consoles, and_iff_right done]

end Quirks

namespace SystemEnv

variable {Page : Type} (env : SystemEnv Page)

/-- With these attempts left the system suspends to RAM, wakes up, and takes back its signature. -/
inductive WakesUp : Nat → Machine Page → Prop where
  | woken {left : Nat} {machine : Machine Page}
      (sized : (env.attempt left).setImageSize = 0)
      (answer : (env.attempt left).snapshot = .created)
      (saved : (env.image left machine).1 = 0)
      (toRam : env.toRam = true)
      (slept : (env.attempt left).suspendToRam = 0)
      (reset : (env.image left machine).2.fd.resetSignature.1 ≠ .halted) :
      WakesUp (left + 1) machine
  | again {left : Nat} {machine : Machine Page}
      (sized : (env.attempt left).setImageSize = 0)
      (answer : (env.attempt left).snapshot = .created)
      (full : (env.image left machine).1 = -ENOSPC)
      (later : WakesUp left ((env.image left machine).2.freeSnapshot (env.attempt left).freed)) :
      WakesUp (left + 1) machine

/-- `suspend_system` comes back from suspending to RAM. -/
def Wakes (machine : Machine Page) : Prop :=
  env.availSwap ≠ 0 ∧ env.freeze = 0 ∧ env.test = none ∧ env.WakesUp 2 machine

variable {env}

theorem attemptsActs_created {resume : Course} {left : Nat} {machine : Machine Page}
    (sized : (env.attempt left).setImageSize = 0)
    (answer : (env.attempt left).snapshot = .created) :
    env.attemptsActs resume (left + 1) machine =
      if (env.image left machine).1 ≠ 0 then
        if -(env.image left machine).1 ≠ ENOSPC then .nothing
        else
          env.attemptsActs resume left
            ((env.image left machine).2.freeSnapshot (env.attempt left).freed)
      else if env.toRam ∧ (env.attempt left).suspendToRam = 0 then
        match (env.image left machine).2.fd.resetSignature.1 with
        | .halted => .nothing
        | .returned _ => resume
      else .nothing := by
  simp only [attemptsActs, sized, answer, ne_eq, not_true_eq_false, ↓reduceIte]

theorem attemptsActs_awake {resume : Course} {left : Nat} {machine : Machine Page}
    (awake : env.WakesUp left machine) : env.attemptsActs resume left machine = resume := by
  induction awake with
  | woken sized answer saved toRam slept reset =>
      rw [attemptsActs_created sized answer, if_neg (not_not.mpr saved), if_pos ⟨toRam, slept⟩]
      split
      · contradiction
      · rfl
  | again sized answer full later ih =>
      have unsaved : ¬ -(-ENOSPC) ≠ ENOSPC := by decide
      rw [attemptsActs_created sized answer, full, if_pos (by decide), if_neg unsaved]
      exact ih

theorem attemptsActs_asleep {resume : Course} {left : Nat} {machine : Machine Page}
    (asleep : ¬ env.WakesUp left machine) : env.attemptsActs resume left machine = .nothing := by
  induction left generalizing machine with
  | zero => rfl
  | succ left ih =>
      by_cases sized : (env.attempt left).setImageSize = 0
      · cases answer : (env.attempt left).snapshot with
        | failed errno =>
            simp only [attemptsActs, sized, answer, ne_eq, not_true_eq_false, ↓reduceIte]
        | resumed found =>
            simp only [attemptsActs, sized, answer, ne_eq, not_true_eq_false, ↓reduceIte]
        | created =>
            rw [attemptsActs_created sized answer]
            by_cases saved : (env.image left machine).1 = 0
            · rw [if_neg (not_not.mpr saved)]
              by_cases both : env.toRam = true ∧ (env.attempt left).suspendToRam = 0
              · rw [if_pos both]
                split
                · rfl
                · next reset =>
                    exact absurd (.woken sized answer saved both.1 both.2 (by simp [reset])) asleep
              · rw [if_neg both]
            · rw [if_pos saved]
              by_cases full : (env.image left machine).1 = -ENOSPC
              · have retried : ¬ -(env.image left machine).1 ≠ ENOSPC := by omega
                rw [if_neg retried]
                exact ih fun later => asleep (.again sized answer full later)
              · have given : -(env.image left machine).1 ≠ ENOSPC := by omega
                rw [if_pos given]
      · simp only [attemptsActs, sized, ne_eq, not_false_eq_true, ↓reduceIte]

theorem suspendActs_awake {resume : Course} {machine : Machine Page}
    (awake : env.Wakes machine) : env.suspendActs resume machine = resume := by
  obtain ⟨avail, frozen, test, awake⟩ := awake
  rw [suspendActs, if_neg avail, if_neg (not_not.mpr frozen), test]
  exact attemptsActs_awake awake

theorem suspendActs_asleep {resume : Course} {machine : Machine Page}
    (asleep : ¬ env.Wakes machine) : env.suspendActs resume machine = .nothing := by
  unfold suspendActs
  by_cases avail : env.availSwap = 0
  · rw [if_pos avail]
  · by_cases frozen : env.freeze = 0
    · rw [if_neg avail, if_neg (not_not.mpr frozen)]
      cases test : env.test with
      | some write => rfl
      | none => exact attemptsActs_asleep fun awake => asleep ⟨avail, frozen, test, awake⟩
    · rw [if_neg avail, if_pos frozen]

/-- Only a run that may suspend to RAM comes back from it. -/
theorem WakesUp.toRam {left : Nat} {machine : Machine Page} (awake : env.WakesUp left machine) :
    env.toRam = true := by
  induction awake with
  | woken _ _ _ toRam => exact toRam
  | again _ _ _ _ ih => exact ih

end SystemEnv

/-- `main` comes to the quirks. -/
def S2ram.Applies (env : S2ram) : Prop :=
  (env.noKmsFlag = true ∨ env.checkKms ≠ 0) ∧ (env.config = 0 ∨ env.isSupported = 0)

/-- Whenever `s2both` returns, the quirks are undone. -/
def S2both.Restores {Page : Type} (env : S2both Page) (machine : Machine Page) : Prop :=
  (env.main machine).1 ≠ some .loop → Undone (env.main machine).2

theorem undone_nil : Undone [] := ⟨fun _ => rfl, rfl⟩

/-- `s2ram` undoes its quirks if and only if they do not give up after turning the backlight off,
and the consoles can be resumed. -/
theorem S2ram.undone_iff (env : S2ram) :
    Undone env.main ↔ (env.Applies → env.quirks.Reversible) := by
  unfold S2ram.main S2ram.Applies
  by_cases kms : env.noKmsFlag = false ∧ env.checkKms = 0
  · rw [if_pos kms]
    exact iff_of_true undone_nil fun applies => by simp [kms] at applies
  · rw [if_neg kms]
    by_cases unsupported : env.config ≠ 0 ∧ env.isSupported ≠ 0
    · rw [if_pos unsupported]
      exact iff_of_true undone_nil fun applies => by simp [unsupported] at applies
    · rw [if_neg unsupported]
      have applies : (env.noKmsFlag = true ∨ env.checkKms ≠ 0) ∧
          (env.config = 0 ∨ env.isSupported = 0) := by
        rw [← Bool.not_eq_true] at kms
        tauto
      rw [forall_prop_of_true applies]
      by_cases completes : env.quirks.s2ramHacks.1 = 0
      · rw [if_neg (not_not.mpr completes), Quirks.undone_resume _ completes]
      · have failed : ¬ env.quirks.Completes := fun done =>
          completes (env.quirks.s2ramHacks_completes.mpr done).1
        rw [if_pos completes, Quirks.undone_hacks, Quirks.reversible_unfinished _ failed]

namespace S2both

variable {Page : Type} (env : S2both Page) (machine : Machine Page)

theorem main_idle (idle : ¬ env.s2ram) : (env.main machine).2 = [] := by
  simp only [main, course, if_neg idle, Course.nothing_andThen]
  by_cases kms : env.s2ramKms
  · rw [if_pos kms]
    by_cases awake : env.suspending.Wakes machine
    · rw [SystemEnv.suspendActs_awake awake]
      rfl
    · rw [SystemEnv.suspendActs_asleep awake]
      rfl
  · rw [if_neg kms, SystemEnv.suspendActs_asleep]
    · rfl
    · intro awake
      have toRam := awake.2.2.2.toRam
      simp [suspending, kms, idle] at toRam

/-- The display of `s2both` is given back as it was if and only if nothing was changed, or the
system comes back from suspending to RAM and the quirks can be taken back without opening
anything. -/
theorem undone_iff (applies : env.s2ram) :
    Undone (env.main machine).2 ↔
      env.quirks.Untouched ∨ env.suspending.Wakes machine ∧ env.limited.Reversible := by
  simp only [main, course, if_pos applies, if_neg applies.1]
  by_cases awake : env.suspending.Wakes machine
  · have toRam := awake.2.2.2.toRam
    have hacks : env.quirks.s2ramHacks.1 = 0 := by
      simpa [suspending, applies, applies.1] using toRam
    -- `s2ram_hacks` does not depend on the walk of `s2ram_resume`
    have same : env.limited.Untouched ↔ env.quirks.Untouched :=
      env.limited.undone_hacks.symm.trans env.quirks.undone_hacks
    rw [SystemEnv.suspendActs_awake awake, and_iff_right awake, ← same,
      or_iff_right_of_imp Quirks.Untouched.reversible]
    exact env.limited.undone_resume hacks
  · have kept : (env.quirks.s2ramHacks.2.andThen .nothing).acts = env.quirks.s2ramHacks.2.acts := by
      unfold Course.andThen
      split
      · rfl
      · exact List.append_nil _
    rw [SystemEnv.suspendActs_asleep awake, kept, Quirks.undone_hacks]
    simp [awake]

end S2both

/-- The quirks are undone in `s2ram` if and only if they do not give up after turning the backlight
off and can be taken back, and in `s2both` if and only if they change nothing, or the system comes
back from suspending to RAM and they can be taken back without opening anything. -/
theorem quirks_undone_iff {Page : Type} (s2ram : S2ram) (s2both : S2both Page)
    (machine : Machine Page) :
    (Undone s2ram.main ↔ (s2ram.Applies → s2ram.quirks.Reversible)) ∧
      (s2both.Restores machine ↔
        ((s2both.main machine).1 ≠ some .loop → s2both.s2ram →
          s2both.quirks.Untouched ∨
            s2both.suspending.Wakes machine ∧ s2both.limited.Reversible)) := by
  refine ⟨s2ram.undone_iff, ?_⟩
  unfold S2both.Restores
  apply imp_congr_right
  intro _
  by_cases applies : s2both.s2ram
  · rw [forall_prop_of_true applies]
    exact s2both.undone_iff machine applies
  · rw [s2both.main_idle machine applies]
    exact iff_of_true undone_nil fun wanted => absurd wanted applies

/-- A machine with a framebuffer console and a radeon that needs its backlight turned off. -/
def radeon (flags : BitVec 32) (vga : Bool) (exits : LibraryStep → Bool) : Quirks where
  flags := RADEON_OFF ||| flags
  fbNosuspend := false
  acpiVideoFlags := some 0
  acpiVideoWritable := true
  saved := false
  mode := -1
  radeonMapped := true
  vga := vga
  suspendGraphics := some [⟨[0x66, 0x62, 0x30], true, true⟩]
  resumeGraphics := some [⟨[0x66, 0x62, 0x30], true, true⟩]
  exits := exits

/-- A run of `s2ram` that finds no VGA device. -/
def withoutVga : S2ram := ⟨true, 0, 0, 0, radeon PCI_SAVE false fun _ => false⟩

/-- A run of `s2ram` in which LRMI cannot be initialized for posting the card. -/
def withoutLrmi : S2ram := ⟨true, 0, 0, 0, radeon VBE_POST true (· == .doPost)⟩

/-- A run of `s2both` that is resumed from the disk. -/
def fromDisk : S2both Bytes :=
  ⟨2, 0, radeon 0 true fun _ => false,
    SystemEnv.answered (.resumed (WriteEnv.freshSwap [])) .created⟩

/-- A run of `s2both` that comes back from suspending to RAM. -/
def fromRam : S2both Bytes :=
  ⟨2, 0, radeon 0 true fun _ => false,
    { SystemEnv.answered .created .created with
      attempt := fun _ => ⟨0, .created, WriteEnv.onePage, true, 0⟩ }⟩

/-- `s2ram` leaves the backlight off when there is no VGA device to save, or when it ends in
`vbetool_init`. `s2both` leaves everything as it is when it is resumed from the disk, and the
console suspended when it comes back from suspending to RAM. -/
theorem quirks_left :
    ¬ Undone withoutVga.main ∧ ¬ Undone withoutLrmi.main ∧
      ¬ fromDisk.Restores (SystemEnv.working 8) ∧ ¬ fromRam.Restores (SystemEnv.working 20) := by
  have vga : withoutVga.main = [.videoMode 0, .light false] := by decide +kernel
  have lrmi : withoutLrmi.main =
      [.videoMode 0, .light false, .fbcon [0x66, 0x62, 0x30] true] := by decide +kernel
  have disk : fromDisk.main (SystemEnv.working 8) = (some (.unfreeze 0),
      [.videoMode 0, .light false, .fbcon [0x66, 0x62, 0x30] true]) := by decide +kernel
  have ram : fromRam.main (SystemEnv.working 20) = (some (.unfreeze 0),
      [.videoMode 0, .light false, .fbcon [0x66, 0x62, 0x30] true, .light true]) := by
    decide +kernel
  refine ⟨?_, ?_, ?_, ?_⟩
  · rintro ⟨_, on⟩
    rw [vga] at on
    cases on
  · rintro ⟨_, on⟩
    rw [lrmi] at on
    cases on
  · intro restores
    obtain ⟨_, on⟩ := restores (by rw [disk]; decide)
    rw [disk] at on
    cases on
  · intro restores
    obtain ⟨awake, _⟩ := restores (by rw [ram]; decide)
    have console := awake [0x66, 0x62, 0x30]
    rw [ram] at console
    exact absurd console (by decide)

end Suspend
