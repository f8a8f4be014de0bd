import Suspend.ConfigGrammar
import Suspend.DisplayQuirks
import Suspend.Dmidecode
import Mathlib.Data.List.Infix

set_option autoImplicit false

namespace Suspend

def UNSURE : BitVec 32 := 0x20
def NOFB : BitVec 32 := 0x40

def S2RAM_OK : Int := 0
def S2RAM_NOFB : Int := 126
def S2RAM_UNKNOWN : Int := 127

def ENOENT : Int := 2

/-- What `getopt_long` returns for an option, and `optarg`. -/
structure Opt where
  opt : Nat
  arg : Bytes

/-- The variables of `s2ram-x86.c` that the options set. -/
structure Hacks where
  flags : BitVec 32
  force : Bool
  fbNosuspend : Bool
  noKmsFlag : Bool

def Hacks.initial : Hacks := ⟨0, false, false, false⟩

def atoi (str : Bytes) : Int :=
  match readInteger str with
  | none => 0
  | some read => storeInt read.1 read.2

/-- What the cases of `s2ram_add_flag` are for. -/
inductive Hack where
  | force
  | vbeSave
  | vbePost
  | vbeMode
  | radeontool
  | pciSave
  | acpiSleep
  | nofbsuspend
  | noKms
deriving DecidableEq

/-- The labels of the cases. The characters are the deprecated short options. -/
def Opt.hack (option : Opt) : Option Hack :=
  if option.opt = 1 ∨ option.opt = 'f'.toNat then some .force
  else if option.opt = 2 ∨ option.opt = 's'.toNat then some .vbeSave
  else if option.opt = 3 ∨ option.opt = 'p'.toNat then some .vbePost
  else if option.opt = 4 ∨ option.opt = 'm'.toNat then some .vbeMode
  else if option.opt = 5 ∨ option.opt = 'r'.toNat then some .radeontool
  else if option.opt = 6 ∨ option.opt = 'v'.toNat then some .pciSave
  else if option.opt = 7 ∨ option.opt = 'a'.toNat then some .acpiSleep
  else if option.opt = 8 then some .nofbsuspend
  else if option.opt = 9 ∨ option.opt = 'k'.toNat then some .noKms
  else none

/-- `s2ram_add_flag`. -/
def Hacks.s2ramAddFlag (hacks : Hacks) (option : Opt) : Hacks :=
  match option.hack with
  | some .force => { hacks with force := true }
  | some .vbeSave => { hacks with flags := hacks.flags ||| VBE_SAVE }
  | some .vbePost => { hacks with flags := hacks.flags ||| VBE_POST }
  | some .vbeMode => { hacks with flags := hacks.flags ||| VBE_MODE }
  | some .radeontool => { hacks with flags := hacks.flags ||| RADEON_OFF }
  | some .pciSave => { hacks with flags := hacks.flags ||| PCI_SAVE }
  | some .acpiSleep =>
      { hacks with
        flags := hacks.flags ||| (BitVec.ofInt 32 (atoi option.arg) &&& (S3_BIOS ||| S3_MODE)) }
  | some .nofbsuspend => { hacks with fbNosuspend := true }
  | some .noKms => { hacks with noKmsFlag := true }
  | none => hacks

/-- A file as `stat` and `fopen` find it. -/
inductive ConfigFile where
  | missing
  | unopened (errno : { errno : Int // errno ≠ 0 })
  | text (bytes : Bytes)

/-- `tolower` in the C locale. -/
def tolower (byte : UInt8) : UInt8 := if 0x41 ≤ byte ∧ byte ≤ 0x5a then byte + 0x20 else byte

/-- What `s2ram_add_quirks` looks for. -/
def quirkNames : List (Bytes × BitVec 32) :=
  [(ascii "vbe_post", VBE_POST), (ascii "vbe_save", VBE_SAVE), (ascii "vbe_mode", VBE_MODE),
    (ascii "radeon_off", RADEON_OFF), (ascii "pci_save", PCI_SAVE), (ascii "s3_bios", S3_BIOS),
    (ascii "s3_mode", S3_MODE)]

/-- `s2ram_add_quirks`. -/
def Hacks.s2ramAddQuirks (hacks : Hacks) (quirks : Bytes) : Hacks :=
  let quirks := quirks.map tolower
  { hacks with
    flags := quirkNames.foldl
      (fun flags named => if named.1 <:+: quirks then flags ||| named.2 else flags) hacks.flags
    fbNosuspend := hacks.fbNosuspend || decide (ascii "fb_nosuspend" <:+: quirks) }

/-- `get_s2ram_config`. -/
def getS2ramConfig (file : ConfigFile) (hacks : Hacks) : Int × Hacks :=
  match file with
  | .missing => (-ENOENT, hacks)
  | .unopened errno => (-errno.val, hacks)
  | .text bytes =>
      let parsed := parse S2ramVar.parameters bytes S2ramVar.initial
      if parsed.1 ≠ 0 then (parsed.1, hacks)
      else if parsed.2 .s2ramForce = .letter 'y'.toUInt8 then
        let hacks := { hacks with force := true }
        match parsed.2 .s2ramQuirks with
        | .text quirks => (0, if quirks ≠ [] then hacks.s2ramAddQuirks quirks else hacks)
        | _ => (0, hacks)
      else (-1, hacks)

/-- `struct machine_entry`. -/
structure MachineEntry where
  sysVendor : Bytes
  sysProduct : Bytes
  sysVersion : Bytes
  biosVersion : Bytes
  flags : BitVec 32
deriving DecidableEq

/-- `match`. -/
def matchText (t s : Bytes) : Bool :=
  if s = [] then true
  else if s.getLast? = some '*'.toUInt8 then s.dropLast.isPrefixOf t
  else t == s

/-- What `s2ram` finds: the whitelist it is built with, what `dmi_scan` leaves, whether there is a
framebuffer, what `s2ram_check_kms` returns, and the configuration file. `answers` are those of the
I/O of the quirks. -/
structure S2ramRun where
  whitelist : List MachineEntry
  items : DmiItems
  framebuffer : Bool
  checkKms : Int
  config : ConfigFile
  answers : Quirks

namespace S2ramRun

variable (env : S2ramRun)

/-- `machine_match`. -/
def machineMatch : Option Nat :=
  env.whitelist.findIdx? fun entry =>
    matchText env.items.sysVendor entry.sysVendor &&
      matchText env.items.sysProduct entry.sysProduct &&
      matchText env.items.sysVersion entry.sysVersion &&
      matchText env.items.biosVersion entry.biosVersion

/-- `s2ram_check`. -/
def s2ramCheck (id : Option Nat) (hacks : Hacks) : Int × Hacks :=
  match id.bind (env.whitelist[·]?) with
  | none => (S2RAM_UNKNOWN, hacks)
  | some entry =>
      (if entry.flags &&& NOFB ≠ 0 ∧ env.framebuffer = true then S2RAM_NOFB else S2RAM_OK,
        { hacks with flags := entry.flags })

/-- `machine_known`. -/
def machineKnown (hacks : Hacks) : Int :=
  match env.machineMatch with
  | none => 1
  | some id => ((env.s2ramCheck (some id) hacks).2.flags &&& UNSURE).toInt

/-- `s2ram_is_supported`. -/
def s2ramIsSupported (hacks : Hacks) : Int × Hacks :=
  if hacks.force then (0, hacks)
  else if hacks.flags ≠ 0 then (EINVAL, hacks)
  else env.s2ramCheck env.machineMatch hacks

/-- The loop of `main` over the options: the variables it leaves, or the exit code. -/
def options : List Opt → Hacks → Except Int Hacks
  | [], hacks => .ok hacks
  | option :: rest, hacks =>
      if option.opt = 'h'.toNat ∨ option.opt = 'V'.toNat ∨ option.opt = 'i'.toNat then .error 0
      else if option.opt = 'n'.toNat then .error (env.machineKnown hacks)
      else if option.opt = 'K'.toNat then .error env.checkKms
      else if option.opt = '?'.toNat then .error 1
      else options rest (hacks.s2ramAddFlag option)

/-- `main` of `s2ram` between the options and the quirks. -/
def found (hacks : Hacks) : S2ram :=
  let config := getS2ramConfig env.config hacks
  let supported := env.s2ramIsSupported config.2
  let after := if config.1 ≠ 0 then supported.2 else config.2
  { noKmsFlag := hacks.noKmsFlag
    checkKms := env.checkKms
    config := config.1
    isSupported := supported.1
    quirks := { env.answers with flags := after.flags, fbNosuspend := after.fbNosuspend } }

/-- `main` of `s2ram` up to the quirks, or its exit code. -/
def start (opts : List Opt) : Except Int S2ram := (env.options opts Hacks.initial).map env.found

end S2ramRun

/-- A text fits a pattern: an empty one, one that ends in an asterisk behind the beginning of the
text, or else the text itself. -/
inductive FitsPattern (text : Bytes) : Bytes → Prop where
  | any : FitsPattern text []
  | beginning {stem : Bytes} : stem <+: text → FitsPattern text (stem ++ ['*'.toUInt8])
  | same : text.getLast? ≠ some '*'.toUInt8 → FitsPattern text text

/-- An entry describes a machine. -/
structure MachineEntry.Describes (entry : MachineEntry) (items : DmiItems) : Prop where
  sysVendor : FitsPattern items.sysVendor entry.sysVendor
  sysProduct : FitsPattern items.sysProduct entry.sysProduct
  sysVersion : FitsPattern items.sysVersion entry.sysVersion
  biosVersion : FitsPattern items.biosVersion entry.biosVersion

/-- One of the bits of `quirk` is set. -/
def Sets (flags quirk : BitVec 32) : Prop := flags &&& quirk ≠ 0

/-- The flags that a case of `s2ram_add_flag` sets. -/
def Hack.quirk (arg : Bytes) : Hack → BitVec 32
  | vbeSave => VBE_SAVE
  | vbePost => VBE_POST
  | vbeMode => VBE_MODE
  | radeontool => RADEON_OFF
  | pciSave => PCI_SAVE
  | acpiSleep => BitVec.ofInt 32 (atoi arg) &&& (S3_BIOS ||| S3_MODE)
  | force | nofbsuspend | noKms => 0

namespace S2ramRun

variable (env : S2ramRun)

/-- The first entry that describes the machine. -/
def Chosen (entry : MachineEntry) : Prop :=
  ∃ before after, env.whitelist = before ++ entry :: after ∧ entry.Describes env.items ∧
    ∀ other ∈ before, ¬ other.Describes env.items

/-- The configuration file can be read, and it says that its quirks are to be used. -/
def Configured : Prop :=
  ∃ bytes, env.config = .text bytes ∧
    (parse S2ramVar.parameters bytes S2ramVar.initial).1 = 0 ∧
    (parse S2ramVar.parameters bytes S2ramVar.initial).2 .s2ramForce = .letter 'y'.toUInt8

/-- A name is among the quirks in the configuration file, whatever the case of its letters. -/
def Names (name : Bytes) : Prop :=
  ∃ bytes quirks, env.config = .text bytes ∧
    (parse S2ramVar.parameters bytes S2ramVar.initial).2 .s2ramQuirks = .text quirks ∧
    name <:+: quirks.map tolower

/-- The quirks in the configuration file include this one. -/
def Named (quirk : BitVec 32) : Prop :=
  ∃ named ∈ quirkNames, env.Names named.1 ∧ Sets named.2 quirk

end S2ramRun

namespace Opt

variable (opts : List Opt)

def Has (hack : Hack) : Prop := ∃ option ∈ opts, option.hack = some hack

/-- The options ask for a quirk. -/
def Asks (quirk : BitVec 32) : Prop :=
  ∃ option ∈ opts, ∃ hack, option.hack = some hack ∧ Sets (hack.quirk option.arg) quirk

end Opt

@[simp] theorem not_sets_zero (quirk : BitVec 32) : ¬ Sets 0#32 quirk := by
  simp [Sets]

@[simp] theorem sets_or (left right quirk : BitVec 32) :
    Sets (left ||| right) quirk ↔ Sets left quirk ∨ Sets right quirk := by
  unfold Sets
  rw [BitVec.and_or_distrib_right, ← not_and_or]
  exact BitVec.or_eq_zero_iff.not

namespace Hacks

/-- The variables tell of these options what they are to tell. -/
structure Tells (hacks : Hacks) (opts : List Opt) : Prop where
  flags : ∀ quirk, Sets hacks.flags quirk ↔ Opt.Asks opts quirk
  force : hacks.force = true ↔ Opt.Has opts .force
  fbNosuspend : hacks.fbNosuspend = true ↔ Opt.Has opts .nofbsuspend
  noKmsFlag : hacks.noKmsFlag = true ↔ Opt.Has opts .noKms

theorem tells_initial : initial.Tells [] := by
  constructor <;> simp [initial, Opt.Asks, Opt.Has]

theorem Tells.add {hacks : Hacks} {opts : List Opt} (tells : hacks.Tells opts) (option : Opt) :
    (hacks.s2ramAddFlag option).Tells (opts ++ [option]) := by
  obtain ⟨flags, force, fbNosuspend, noKmsFlag⟩ := tells
  have has : ∀ hack, Opt.Has (opts ++ [option]) hack ↔
      Opt.Has opts hack ∨ option.hack = some hack := by
    simp [Opt.Has, or_and_right, exists_or]
  have asks : ∀ quirk, Opt.Asks (opts ++ [option]) quirk ↔ Opt.Asks opts quirk ∨
      ∃ hack, option.hack = some hack ∧ Sets (hack.quirk option.arg) quirk := by
    simp [Opt.Asks, or_and_right, exists_or]
  unfold s2ramAddFlag
  cases found : option.hack with
  | none => constructor <;> simp [has, asks, found, flags, force, fbNosuspend, noKmsFlag]
  | some hack =>
      cases hack <;> constructor <;>
        simp [has, asks, found, Hack.quirk, flags, force, fbNosuspend, noKmsFlag]

theorem Tells.unset {hacks : Hacks} {opts : List Opt} (tells : hacks.Tells opts) :
    hacks.flags = 0 ↔ ∀ quirk, ¬ Opt.Asks opts quirk := by
  simp only [← tells.flags]
  constructor
  · intro zero quirk
    rw [zero]
    exact not_sets_zero quirk
  · intro unset
    have own := unset hacks.flags
    rwa [Sets, BitVec.and_self, not_not] at own

theorem sets_named (names : List (Bytes × BitVec 32)) (text : Bytes) (flags quirk : BitVec 32) :
    Sets (names.foldl
        (fun flags named => if named.1 <:+: text then flags ||| named.2 else flags) flags) quirk ↔
      Sets flags quirk ∨ ∃ named ∈ names, named.1 <:+: text ∧ Sets named.2 quirk := by
  induction names generalizing flags with
  | nil => simp
  | cons named rest ih =>
      rw [List.foldl_cons, ih]
      by_cases present : named.1 <:+: text
      · simp [present, or_assoc]
      · simp [present]

end Hacks

namespace S2ramRun

variable {env : S2ramRun}

theorem options_tells {opts earlier : List Opt} {hacks after : Hacks} (tells : hacks.Tells earlier)
    (left : env.options opts hacks = .ok after) : after.Tells (earlier ++ opts) := by
  induction opts generalizing earlier hacks with
  | nil =>
      cases left
      rwa [List.append_nil]
  | cons option rest ih =>
      unfold options at left
      split_ifs at left
      have on := ih (tells.add option) left
      rwa [List.append_assoc] at on

theorem matchText_iff (t s : Bytes) : matchText t s = true ↔ FitsPattern t s := by
  unfold matchText
  constructor
  · intro matches'
    split_ifs at matches' with empty asterisk
    · rw [empty]
      exact .any
    · have whole := List.dropLast_append_getLast? _ asterisk
      rw [← whole]
      exact .beginning (List.isPrefixOf_iff_prefix.mp matches')
    · cases beq_iff_eq.mp matches'
      exact .same asterisk
  · intro fits
    cases fits with
    | any => rw [if_pos rfl]
    | beginning stem =>
        rw [if_neg (by simp), if_pos (by simp), List.dropLast_concat]
        exact List.isPrefixOf_iff_prefix.mpr stem
    | same plain =>
        rw [if_neg plain]
        split_ifs
        · rfl
        · exact beq_self_eq_true t

theorem chosen_iff (entry : MachineEntry) :
    env.machineMatch.bind (env.whitelist[·]?) = some entry ↔ env.Chosen entry := by
  unfold machineMatch Chosen
  rw [← List.find?_eq_bind_findIdx?_getElem?, List.find?_eq_some_iff_append]
  have describes : ∀ entry : MachineEntry, (matchText env.items.sysVendor entry.sysVendor &&
      matchText env.items.sysProduct entry.sysProduct &&
      matchText env.items.sysVersion entry.sysVersion &&
      matchText env.items.biosVersion entry.biosVersion) = true ↔ entry.Describes env.items := by
    intro entry
    simp only [Bool.and_eq_true, matchText_iff]
    constructor
    · rintro ⟨⟨⟨vendor, product⟩, version⟩, bios⟩
      exact ⟨vendor, product, version, bios⟩
    · rintro ⟨vendor, product, version, bios⟩
      exact ⟨⟨⟨vendor, product⟩, version⟩, bios⟩
  simp only [Bool.not_eq_true', ← Bool.not_eq_true, describes]
  constructor
  · rintro ⟨fits, before, after, split, others⟩
    exact ⟨before, after, split, fits, others⟩
  · rintro ⟨before, after, split, fits, others⟩
    exact ⟨fits, before, after, split, others⟩

/-- What `get_s2ram_config` adds to the variables. -/
structure Adds (env : S2ramRun) (hacks after : Hacks) : Prop where
  flags : ∀ quirk, Sets after.flags quirk ↔ Sets hacks.flags quirk ∨ env.Named quirk
  fbNosuspend : after.fbNosuspend = true ↔
    hacks.fbNosuspend = true ∨ env.Names (ascii "fb_nosuspend")
  noKmsFlag : after.noKmsFlag = hacks.noKmsFlag

theorem names_text {bytes quirks : Bytes} (file : env.config = .text bytes)
    (value : (parse S2ramVar.parameters bytes S2ramVar.initial).2 .s2ramQuirks = .text quirks)
    (name : Bytes) : env.Names name ↔ name <:+: quirks.map tolower := by
  constructor
  · rintro ⟨bytes', quirks', file', value', named⟩
    cases file.symm.trans file'
    cases value.symm.trans value'
    exact named
  · intro named
    exact ⟨bytes, quirks, file, value, named⟩

theorem not_names_other {bytes : Bytes} (file : env.config = .text bytes)
    (other : ∀ quirks, (parse S2ramVar.parameters bytes S2ramVar.initial).2 .s2ramQuirks ≠
      .text quirks) (name : Bytes) : ¬ env.Names name := by
  rintro ⟨bytes', quirks, file', value, -⟩
  cases file.symm.trans file'
  exact other quirks value

theorem not_names_empty {name : Bytes} (some : name ≠ []) :
    ¬ name <:+: ([] : Bytes).map tolower := by
  rw [List.map_nil, List.infix_nil]
  exact some

theorem quirkNames_nonempty : ∀ named ∈ quirkNames, named.1 ≠ [] := by
  decide

/-- `s2ram_add_quirks`, of what the configuration file says. -/
theorem Adds.named {hacks : Hacks} {quirks : Bytes}
    (names : ∀ name, env.Names name ↔ name <:+: quirks.map tolower) :
    env.Adds hacks (hacks.s2ramAddQuirks quirks) where
  flags := by
    intro quirk
    rw [Hacks.s2ramAddQuirks, Hacks.sets_named]
    simp only [Named, names]
  fbNosuspend := by simp [Hacks.s2ramAddQuirks, names]
  noKmsFlag := rfl

/-- The configuration file does not name any quirks. -/
theorem Adds.unnamed {hacks : Hacks} (names : ∀ name ≠ [], ¬ env.Names name) :
    env.Adds hacks hacks where
  flags := by
    intro quirk
    have unnamed : ¬ env.Named quirk := by
      rintro ⟨named, listed, present, -⟩
      exact names named.1 (quirkNames_nonempty named listed) present
    simp [unnamed]
  fbNosuspend := by
    have unnamed := names (ascii "fb_nosuspend") (by decide)
    simp [unnamed]
  noKmsFlag := rfl

theorem Adds.forced {hacks after : Hacks}
    (adds : env.Adds { hacks with force := true } after) : env.Adds hacks after :=
  ⟨adds.flags, adds.fbNosuspend, adds.noKmsFlag⟩

theorem getS2ramConfig_cases (env : S2ramRun) (hacks : Hacks) :
    (¬ env.Configured ∧ (getS2ramConfig env.config hacks).1 ≠ 0 ∧
      (getS2ramConfig env.config hacks).2 = hacks) ∨
    (env.Configured ∧ (getS2ramConfig env.config hacks).1 = 0 ∧
      env.Adds hacks (getS2ramConfig env.config hacks).2) := by
  cases file : env.config with
  | missing => exact .inl ⟨by simp [Configured, file], by simp [getS2ramConfig, ENOENT], rfl⟩
  | unopened errno =>
      exact .inl ⟨by simp [Configured, file], by simp [getS2ramConfig, errno.property], rfl⟩
  | text bytes =>
      have configured : env.Configured ↔
          (parse S2ramVar.parameters bytes S2ramVar.initial).1 = 0 ∧
          (parse S2ramVar.parameters bytes S2ramVar.initial).2 .s2ramForce =
            .letter 'y'.toUInt8 := by
        simp [Configured, file]
      have names := @names_text env bytes
      have none := @not_names_other env bytes file
      unfold getS2ramConfig
      dsimp only
      generalize parse S2ramVar.parameters bytes S2ramVar.initial = parsed at configured names none
      by_cases failed : parsed.1 ≠ 0
      · rw [if_pos failed]
        exact .inl ⟨by simp [configured, failed], failed, rfl⟩
      rw [if_neg failed]
      by_cases forced : parsed.2 .s2ramForce = .letter 'y'.toUInt8
      swap
      · rw [if_neg forced]
        exact .inl ⟨by simp [configured, forced], (by decide : (-1 : Int) ≠ 0), rfl⟩
      rw [if_pos forced]
      cases value : parsed.2 .s2ramQuirks with
      | text quirks =>
          refine .inr ⟨configured.mpr ⟨not_not.mp failed, forced⟩, rfl, ?_⟩
          apply Adds.forced
          dsimp only
          by_cases empty : quirks ≠ []
          · rw [if_pos empty]
            exact .named (names file value)
          · rw [if_neg empty]
            apply Adds.unnamed
            intro name some
            rw [names file value, not_not.mp empty]
            exact not_names_empty some
      | letter byte =>
          refine .inr ⟨configured.mpr ⟨not_not.mp failed, forced⟩, rfl, ?_⟩
          exact (Adds.unnamed fun name _ => none (by simp [value]) name).forced
      | number number =>
          refine .inr ⟨configured.mpr ⟨not_not.mp failed, forced⟩, rfl, ?_⟩
          exact (Adds.unnamed fun name _ => none (by simp [value]) name).forced

/-- The whitelist is asked when there are no flags and no `--force`. -/
theorem s2ramIsSupported_supported {hacks : Hacks} :
    (env.s2ramIsSupported hacks).1 = 0 ↔ hacks.force = true ∨
      hacks.flags = 0 ∧ ∃ entry, env.Chosen entry ∧
        ¬ (Sets entry.flags NOFB ∧ env.framebuffer = true) := by
  unfold s2ramIsSupported
  by_cases force : hacks.force = true
  · rw [if_pos force]
    exact iff_of_true rfl (.inl force)
  rw [if_neg force]
  by_cases flags : hacks.flags ≠ 0
  · rw [if_pos flags]
    refine iff_of_false (by decide : EINVAL ≠ 0) ?_
    rintro (forced | ⟨none, -⟩)
    · exact force forced
    · exact flags none
  rw [if_neg flags, s2ramCheck, or_iff_right force, and_iff_right (not_not.mp flags)]
  simp only [← chosen_iff]
  cases env.machineMatch.bind (env.whitelist[·]?) with
  | none => simp [S2RAM_UNKNOWN]
  | some entry =>
      simp only [Option.some.injEq, exists_eq_left']
      by_cases blocked : entry.flags &&& NOFB ≠ 0 ∧ env.framebuffer = true
      · rw [if_pos blocked]
        exact iff_of_false (by decide : S2RAM_NOFB ≠ 0) (not_not.mpr blocked)
      · rw [if_neg blocked]
        exact iff_of_true rfl blocked

theorem s2ramIsSupported_flags {hacks : Hacks} (supported : (env.s2ramIsSupported hacks).1 = 0)
    (quirk : BitVec 32) : Sets (env.s2ramIsSupported hacks).2.flags quirk ↔
      hacks.force = true ∧ Sets hacks.flags quirk ∨
        hacks.force = false ∧ ∃ entry, env.Chosen entry ∧ Sets entry.flags quirk := by
  revert supported
  unfold s2ramIsSupported
  by_cases force : hacks.force = true
  · rw [if_pos force]
    simp [force]
  rw [if_neg force]
  by_cases flags : hacks.flags ≠ 0
  · rw [if_pos flags]
    simp [EINVAL]
  rw [if_neg flags, s2ramCheck]
  simp only [← chosen_iff]
  cases env.machineMatch.bind (env.whitelist[·]?) with
  | none => simp [S2RAM_UNKNOWN]
  | some entry => simp [force]

/-- Flags without `--force` are an error. -/
theorem s2ramIsSupported_refused (env : S2ramRun) (hacks : Hacks) :
    (env.s2ramIsSupported hacks).1 = EINVAL ↔ ¬ (hacks.force = true ∨ hacks.flags = 0) := by
  unfold s2ramIsSupported
  by_cases force : hacks.force = true
  · simp [force, EINVAL]
  rw [if_neg force, or_iff_right force]
  by_cases flags : hacks.flags ≠ 0
  · rw [if_pos flags]
    exact iff_of_true rfl flags
  rw [if_neg flags]
  refine iff_of_false ?_ (not_not.mpr (not_not.mp flags))
  unfold s2ramCheck
  cases env.machineMatch.bind (env.whitelist[·]?) with
  | none => exact (by decide : S2RAM_UNKNOWN ≠ EINVAL)
  | some entry =>
      dsimp only
      split_ifs <;> decide

theorem s2ramIsSupported_fbNosuspend (hacks : Hacks) :
    (env.s2ramIsSupported hacks).2.fbNosuspend = hacks.fbNosuspend := by
  unfold s2ramIsSupported s2ramCheck
  split_ifs
  · rfl
  · rfl
  · cases env.machineMatch.bind (env.whitelist[·]?) <;> rfl

theorem found_applies (env : S2ramRun) (hacks : Hacks) :
    (env.found hacks).Applies ↔ (hacks.noKmsFlag = true ∨ env.checkKms ≠ 0) ∧
      (env.Configured ∨ hacks.force = true ∨ hacks.flags = 0 ∧
        ∃ entry, env.Chosen entry ∧ ¬ (Sets entry.flags NOFB ∧ env.framebuffer = true)) := by
  unfold S2ram.Applies found
  apply and_congr_right
  intro _
  dsimp only
  rcases env.getS2ramConfig_cases hacks with ⟨unconfigured, refused, same⟩ |
    ⟨configured, accepted, -⟩
  · rw [same, or_iff_right refused, or_iff_right unconfigured]
    exact s2ramIsSupported_supported
  · exact iff_of_true (.inl accepted) (.inl configured)

theorem found_flags {hacks : Hacks} (applies : (env.found hacks).Applies) (quirk : BitVec 32) :
    (env.found hacks).quirks.has quirk ↔
      env.Configured ∧ (Sets hacks.flags quirk ∨ env.Named quirk) ∨
      ¬ env.Configured ∧ (hacks.force = true ∧ Sets hacks.flags quirk ∨
        hacks.force = false ∧ ∃ entry, env.Chosen entry ∧ Sets entry.flags quirk) := by
  have comes := applies.2
  unfold found at comes ⊢
  dsimp only [Quirks.has] at comes ⊢
  rcases env.getS2ramConfig_cases hacks with ⟨unconfigured, refused, same⟩ |
    ⟨configured, accepted, adds⟩
  · rw [if_pos refused, same]
    rw [same, or_iff_right refused] at comes
    rw [and_iff_right unconfigured, or_iff_right (fun both => unconfigured both.1)]
    exact s2ramIsSupported_flags comes quirk
  · rw [if_neg (not_not.mpr accepted), and_iff_right configured,
      or_iff_left (fun both => both.1 configured)]
    exact adds.flags quirk

theorem found_fbNosuspend (env : S2ramRun) (hacks : Hacks) :
    (env.found hacks).quirks.fbNosuspend = true ↔ hacks.fbNosuspend = true ∨
      env.Configured ∧ env.Names (ascii "fb_nosuspend") := by
  unfold found
  dsimp only
  rcases env.getS2ramConfig_cases hacks with ⟨unconfigured, refused, same⟩ |
    ⟨configured, accepted, adds⟩
  · rw [if_pos refused, same, s2ramIsSupported_fbNosuspend]
    exact (or_iff_left fun both => unconfigured both.1).symm
  · rw [if_neg (not_not.mpr accepted), and_iff_right configured]
    exact adds.fbNosuspend

/-- Which quirks `s2ram` applies, if no option makes it exit before: with a configuration file that
says so those of the command line and of the file, else with `--force` those of the command line,
and else those of the first entry of the whitelist that describes the machine, if the command line
does not ask for any. -/
theorem quirks_applied {opts : List Opt} {s2ram : S2ram} (starts : env.start opts = .ok s2ram) :
    (s2ram.Applies ↔ (Opt.Has opts .noKms ∨ env.checkKms ≠ 0) ∧
      (env.Configured ∨ Opt.Has opts .force ∨ (∀ quirk, ¬ Opt.Asks opts quirk) ∧
        ∃ entry, env.Chosen entry ∧ ¬ (Sets entry.flags NOFB ∧ env.framebuffer = true))) ∧
    (s2ram.Applies → ∀ quirk, s2ram.quirks.has quirk ↔
      env.Configured ∧ (Opt.Asks opts quirk ∨ env.Named quirk) ∨
      ¬ env.Configured ∧ (Opt.Has opts .force ∧ Opt.Asks opts quirk ∨
        ¬ Opt.Has opts .force ∧ ∃ entry, env.Chosen entry ∧ Sets entry.flags quirk)) ∧
    (s2ram.quirks.fbNosuspend = true ↔
      Opt.Has opts .nofbsuspend ∨ env.Configured ∧ env.Names (ascii "fb_nosuspend")) := by
  obtain ⟨hacks, left, rfl⟩ : ∃ hacks, env.options opts Hacks.initial = .ok hacks ∧
      env.found hacks = s2ram := by
    unfold start at starts
    cases left : env.options opts Hacks.initial with
    | error code =>
        rw [left] at starts
        cases starts
    | ok hacks =>
        rw [left] at starts
        exact ⟨hacks, rfl, Except.ok.inj starts⟩
  have tells := options_tells Hacks.tells_initial left
  rw [List.nil_append] at tells
  refine ⟨?_, ?_, ?_⟩
  · rw [env.found_applies, tells.noKmsFlag, tells.force, tells.unset]
  · intro applies quirk
    rw [found_flags applies, tells.flags, ← Bool.not_eq_true, tells.force]
  · rw [env.found_fbNosuspend, tells.fbNosuspend]

/-- A machine that is found by the beginning of its vendor. -/
def thinkPad : S2ramRun where
  whitelist := [⟨ascii "IBM", ascii "1234", [], [], VBE_MODE⟩,
    ⟨ascii "IB*", [], [], [], S3_BIOS ||| VBE_POST⟩, ⟨[], [], [], [], RADEON_OFF⟩]
  items := ⟨[], ascii "IBM", ascii "2366", []⟩
  framebuffer := true
  checkKms := -ENOENT
  config := .missing
  answers := radeon 0 false fun _ => false

theorem thinkPad_applied : ∃ s2ram, thinkPad.start [⟨8, []⟩] = .ok s2ram ∧ s2ram.Applies ∧
    s2ram.quirks.has VBE_POST ∧ s2ram.quirks.fbNosuspend = true := by
  have starts : ∃ s2ram, thinkPad.start [⟨8, []⟩] = .ok s2ram := ⟨_, rfl⟩
  obtain ⟨s2ram, starts⟩ := starts
  obtain ⟨applies, has, fbNosuspend⟩ := quirks_applied starts
  have unconfigured : ¬ thinkPad.Configured := by
    rintro ⟨bytes, missing, -⟩
    cases missing
  have unforced : ¬ Opt.Has [⟨8, []⟩] .force := by simp [Opt.Has, Opt.hack]
  have quiet : ∀ quirk, ¬ Opt.Asks [⟨8, []⟩] quirk := by
    simp [Opt.Asks, Opt.hack, Hack.quirk]
  have chosen : thinkPad.Chosen ⟨ascii "IB*", [], [], [], S3_BIOS ||| VBE_POST⟩ := by
    rw [← chosen_iff]
    decide +kernel
  have comes := applies.mpr
    ⟨.inr (by decide), .inr (.inr ⟨quiet, _, chosen, by simp [Sets]; decide⟩)⟩
  refine ⟨s2ram, starts, comes, ?_, fbNosuspend.mpr (.inl ?_)⟩
  · exact (has comes VBE_POST).mpr (.inr ⟨unconfigured, .inr ⟨unforced, _, chosen, by
      unfold Sets; decide⟩⟩)
  · exact ⟨_, List.mem_singleton_self _, rfl⟩

end S2ramRun

end Suspend
