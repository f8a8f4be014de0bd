import Mathlib.Data.List.Perm.Basic
import Suspend.ConfigParser

set_option autoImplicit false

namespace Suspend

/-- What `configure` switches on or off. -/
structure Features where
  compress : Bool
  encrypt : Bool
  fbsplash : Bool
  threads : Bool

/-- The variables that `suspend.c` keeps its parameters in. -/
inductive SuspendVar where
  | snapshotDevName
  | resumeDevName
  | resumeOffset
  | prefImageSize
  | suspendLoglevel
  | computeChecksum
  | doCompress
  | doEncrypt
  | keyName
  | earlyWriteout
  | splashParam
  | shutdownMethodValue
  | fbsplashTheme
  | resumePause
  | testFileName
  | verifyImage
  | useThreads
deriving DecidableEq, Repr

namespace SuspendVar

def SHUTDOWN_LEN : Nat := 16

/-- `parameters`. -/
def parameters (features : Features) : List (ConfigPar SuspendVar) :=
  [⟨ascii "snapshot device", .s, some snapshotDevName, MAX_STR_LEN⟩,
    ⟨ascii "resume device", .s, some resumeDevName, MAX_STR_LEN⟩,
    ⟨ascii "resume offset", .llu, some resumeOffset, 0⟩,
    ⟨ascii "image size", .lu, some prefImageSize, 0⟩,
    ⟨ascii "suspend loglevel", .d, some suspendLoglevel, 0⟩,
    ⟨ascii "max loglevel", .d, none, 0⟩,
    ⟨ascii "compute checksum", .c, some computeChecksum, 0⟩] ++
  (if features.compress then [⟨ascii "compress", .c, some doCompress, 0⟩] else []) ++
  (if features.encrypt then
    [⟨ascii "encrypt", .c, some doEncrypt, 0⟩,
      ⟨ascii "RSA key file", .s, some keyName, MAX_STR_LEN⟩] else []) ++
  [⟨ascii "early writeout", .c, some earlyWriteout, 0⟩,
    ⟨ascii "splash", .c, some splashParam, 0⟩,
    ⟨ascii "shutdown method", .s, some shutdownMethodValue, SHUTDOWN_LEN⟩] ++
  (if features.fbsplash then
    [⟨ascii "fbsplash theme", .s, some fbsplashTheme, MAX_STR_LEN⟩] else []) ++
  [⟨ascii "resume pause", .d, some resumePause, 0⟩,
    ⟨ascii "debug test file", .s, some testFileName, MAX_STR_LEN⟩,
    ⟨ascii "debug verify image", .c, some verifyImage, 0⟩] ++
  (if features.threads then [⟨ascii "threads", .c, some useThreads, 0⟩] else [])

/-- The values the variables start with. -/
def initial : Store SuspendVar
  | snapshotDevName => .text (ascii "/dev/snapshot")
  | resumeDevName => .text []
  | resumeOffset => .number 0
  | prefImageSize => .number (500 * 1024 * 1024)
  | suspendLoglevel => .number 1
  | computeChecksum => .letter 0
  | doCompress => .letter 0
  | doEncrypt => .letter 0
  | keyName => .text (ascii "/etc/suspend.key")
  | earlyWriteout => .letter 0
  | splashParam => .letter 0
  | shutdownMethodValue => .text []
  | fbsplashTheme => .text []
  | resumePause => .number 0
  | testFileName => .text []
  | verifyImage => .letter 0
  | useThreads => .letter 0

end SuspendVar

/-- The variables that `resume.c` keeps its parameters in. -/
inductive ResumeVar where
  | snapshotDevName
  | resumeDevName
  | resumeOffset
  | suspendLoglevel
  | maxLoglevel
  | splashParam
  | fbsplashTheme
deriving DecidableEq, Repr

namespace ResumeVar

/-- `parameters`. The entry for the threads is there twice. -/
def parameters (features : Features) : List (ConfigPar ResumeVar) :=
  [⟨ascii "snapshot device", .s, some snapshotDevName, MAX_STR_LEN⟩,
    ⟨ascii "resume device", .s, some resumeDevName, MAX_STR_LEN⟩,
    ⟨ascii "resume offset", .llu, some resumeOffset, 0⟩,
    ⟨ascii "suspend loglevel", .d, some suspendLoglevel, 0⟩,
    ⟨ascii "max loglevel", .d, some maxLoglevel, 0⟩,
    ⟨ascii "image size", .lu, none, 0⟩,
    ⟨ascii "compute checksum", .c, none, 0⟩] ++
  (if features.compress then [⟨ascii "compress", .c, none, 0⟩] else []) ++
  (if features.encrypt then
    [⟨ascii "encrypt", .c, none, 0⟩, ⟨ascii "RSA key file", .s, none, 0⟩] else []) ++
  [⟨ascii "early writeout", .c, none, 0⟩,
    ⟨ascii "splash", .c, some splashParam, 0⟩,
    ⟨ascii "shutdown method", .s, none, 0⟩] ++
  (if features.fbsplash then
    [⟨ascii "fbsplash theme", .s, some fbsplashTheme, MAX_STR_LEN⟩] else []) ++
  [⟨ascii "resume pause", .d, none, 0⟩] ++
  (if features.threads then [⟨ascii "threads", .c, none, 0⟩] else []) ++
  [⟨ascii "debug test file", .s, none, 0⟩,
    ⟨ascii "debug verify image", .c, none, 0⟩] ++
  (if features.threads then [⟨ascii "threads", .c, none, 0⟩] else [])

/-- The values the variables start with. -/
def initial : Store ResumeVar
  | snapshotDevName => .text (ascii "/dev/snapshot")
  | resumeDevName => .text []
  | resumeOffset => .number 0
  | suspendLoglevel => .number 1
  | maxLoglevel => .number 8
  | splashParam => .letter 0
  | fbsplashTheme => .text []

end ResumeVar

/-- A setting that has to be the same for saving and for loading. -/
inductive Shared where
  | snapshotDevice
  | resumeDevice
  | resumeOffset
deriving DecidableEq

def SuspendVar.shared : SuspendVar → Option Shared
  | snapshotDevName => some .snapshotDevice
  | resumeDevName => some .resumeDevice
  | resumeOffset => some .resumeOffset
  | _ => none

def ResumeVar.shared : ResumeVar → Option Shared
  | snapshotDevName => some .snapshotDevice
  | resumeDevName => some .resumeDevice
  | resumeOffset => some .resumeOffset
  | _ => none

def Shared.suspendVar : Shared → SuspendVar
  | snapshotDevice => .snapshotDevName
  | resumeDevice => .resumeDevName
  | resumeOffset => .resumeOffset

def Shared.resumeVar : Shared → ResumeVar
  | snapshotDevice => .snapshotDevName
  | resumeDevice => .resumeDevName
  | resumeOffset => .resumeOffset

theorem SuspendVar.shared_eq (var : SuspendVar) (shared : Shared) :
    var.shared = some shared ↔ var = shared.suspendVar := by
  cases var <;> cases shared <;> decide

theorem ResumeVar.shared_eq (var : ResumeVar) (shared : Shared) :
    var.shared = some shared ↔ var = shared.resumeVar := by
  cases var <;> cases shared <;> decide

/-- Both programs have the same values of the shared settings. -/
def Agree (saving : Store SuspendVar) (loading : Store ResumeVar) : Prop :=
  ∀ shared : Shared, saving shared.suspendVar = loading shared.resumeVar

theorem agree_initial : Agree SuspendVar.initial ResumeVar.initial := by
  intro shared
  cases shared <;> rfl

/-- The entries of the two tables under one name: what `resume` reads, `s2disk` reads the same way,
the one exception being `max loglevel`. -/
structure Corresponds (mine : ConfigPar SuspendVar) (other : ConfigPar ResumeVar) : Prop where
  name : mine.name = other.name
  fmt : mine.fmt = other.fmt
  skipped : mine.ptr = none ↔ mine.name = ascii "max loglevel"
  only : mine.ptr = none → other.ptr ≠ none ∧ other.fmt = .d
  len : mine.ptr ≠ none → other.ptr ≠ none → mine.len = other.len
  shared : mine.ptr.bind SuspendVar.shared = other.ptr.bind ResumeVar.shared

instance (mine : ConfigPar SuspendVar) (other : ConfigPar ResumeVar) :
    Decidable (Corresponds mine other) :=
  decidable_of_iff (mine.name = other.name ∧ mine.fmt = other.fmt ∧
    (mine.ptr = none ↔ mine.name = ascii "max loglevel") ∧
    (mine.ptr = none → other.ptr ≠ none ∧ other.fmt = .d) ∧
    (mine.ptr ≠ none → other.ptr ≠ none → mine.len = other.len) ∧
    mine.ptr.bind SuspendVar.shared = other.ptr.bind ResumeVar.shared)
    ⟨fun ⟨name, fmt, skipped, only, len, shared⟩ => ⟨name, fmt, skipped, only, len, shared⟩,
      fun ⟨name, fmt, skipped, only, len, shared⟩ => ⟨name, fmt, skipped, only, len, shared⟩⟩

def Features.all : Features := ⟨true, true, true, true⟩

theorem SuspendVar.parameters_all {features : Features} {par : ConfigPar SuspendVar}
    (member : par ∈ parameters features) : par ∈ parameters .all := by
  simp only [parameters, Features.all, List.mem_append, List.mem_ite_nil_right, ↓reduceIte]
    at member ⊢
  grind -ring -linarith

theorem ResumeVar.parameters_all {features : Features} {par : ConfigPar ResumeVar}
    (member : par ∈ parameters features) : par ∈ parameters .all := by
  simp only [parameters, Features.all, List.mem_append, List.mem_ite_nil_right, ↓reduceIte]
    at member ⊢
  grind -ring -linarith

theorem SuspendVar.named {features : Features} :
    ∀ par ∈ parameters features, par.name ≠ [] := by
  have all : ∀ par ∈ parameters .all, par.name ≠ [] := by decide +kernel
  exact fun par member => all par (parameters_all member)

theorem ResumeVar.named {features : Features} :
    ∀ par ∈ parameters features, par.name ≠ [] := by
  have all : ∀ par ∈ parameters .all, par.name ≠ [] := by decide +kernel
  exact fun par member => all par (parameters_all member)

theorem names_same (features : Features) (name : Bytes) :
    name ∈ (SuspendVar.parameters features).map ConfigPar.name ↔
      name ∈ (ResumeVar.parameters features).map ConfigPar.name := by
  simp only [SuspendVar.parameters, ResumeVar.parameters, List.map_append, List.map_cons,
    List.map_nil, apply_ite (List.map _), List.mem_append, List.mem_cons, List.mem_ite_nil_right,
    List.not_mem_nil, or_false]
  grind -ring -linarith

/-- No name is the beginning of another one, and entries under the same name correspond. -/
theorem names_apart : ∀ mine ∈ SuspendVar.parameters .all, ∀ other ∈ ResumeVar.parameters .all,
    mine.name <+: other.name ∨ other.name <+: mine.name → Corresponds mine other := by
  decide +kernel

/-- A line is about corresponding entries of the two tables, or about none. -/
theorem find_corresponds (features : Features) (str : Bytes) :
    ((SuspendVar.parameters features).find? (fun par => par.name.isPrefixOf str) = none ∧
      (ResumeVar.parameters features).find? (fun par => par.name.isPrefixOf str) = none) ∨
    ∃ mine other, (SuspendVar.parameters features).find? (fun par => par.name.isPrefixOf str) =
        some mine ∧ mine.name <+: str ∧ mine ∈ SuspendVar.parameters features ∧
      (ResumeVar.parameters features).find? (fun par => par.name.isPrefixOf str) = some other ∧
      Corresponds mine other := by
  cases found : (SuspendVar.parameters features).find? (fun par => par.name.isPrefixOf str) with
  | none =>
      refine Or.inl ⟨rfl, ?_⟩
      rw [List.find?_eq_none] at found ⊢
      intro other member starts
      obtain ⟨mine, inside, same⟩ := List.mem_map.mp
        ((names_same features other.name).mpr (List.mem_map_of_mem member))
      apply found mine inside
      rwa [same]
  | some mine =>
      have matched := List.find?_some found
      have starts : mine.name <+: str := List.isPrefixOf_iff_prefix.mp matched
      have inside := List.mem_of_find?_eq_some found
      cases found' : (ResumeVar.parameters features).find? (fun par => par.name.isPrefixOf str) with
      | none =>
          rw [List.find?_eq_none] at found'
          obtain ⟨other, member, same⟩ := List.mem_map.mp
            ((names_same features mine.name).mp (List.mem_map_of_mem inside))
          apply absurd _ (found' other member)
          rwa [same]
      | some other =>
          have matched' := List.find?_some found'
          have starts' : other.name <+: str := List.isPrefixOf_iff_prefix.mp matched'
          have inside' := List.mem_of_find?_eq_some found'
          exact Or.inr ⟨mine, other, rfl, starts, inside, rfl,
            names_apart mine (SuspendVar.parameters_all inside) other
              (ResumeVar.parameters_all inside') (List.prefix_or_prefix_of_prefix starts starts')⟩

/-- What `resume` demands of a line that sets `max loglevel`, at which `s2disk` does not look. -/
def maxLoglevelReadable (line : Bytes) : Bool :=
  let name := ascii "max loglevel"
  let str := line.dropWhile isSpace
  !name.isPrefixOf str || match (str.drop name.length).dropWhile isBlank with
    | [] => false
    | separator :: str => (separator == 0x3a || separator == 0x3d) &&
        (settingOf str == [] || (readInteger (settingOf str)).isSome)

theorem readable_other {line : Bytes} (other : ¬ ascii "max loglevel" <+: line.dropWhile isSpace) :
    maxLoglevelReadable line = true := by
  have different : (ascii "max loglevel").isPrefixOf (line.dropWhile isSpace) = false := by
    rw [Bool.eq_false_iff, ne_eq, List.isPrefixOf_iff_prefix]
    exact other
  simp only [maxLoglevelReadable, different, Bool.not_false, Bool.true_or]

theorem readable_iff {line : Bytes} {par : ConfigPar ResumeVar}
    (name : par.name = ascii "max loglevel") (fmt : par.fmt = .d)
    (starts : par.name <+: line.dropWhile isSpace) :
    maxLoglevelReadable line = true ↔ par.value (line.dropWhile isSpace) ≠ none := by
  have same : (ascii "max loglevel").isPrefixOf (line.dropWhile isSpace) = true := by
    rw [← name]
    exact List.isPrefixOf_iff_prefix.mpr starts
  simp only [maxLoglevelReadable, same, Bool.not_true, Bool.false_or, ConfigPar.value, name, fmt]
  cases ((line.dropWhile isSpace).drop (ascii "max loglevel").length).dropWhile isBlank with
  | nil => simp
  | cons separator str =>
      by_cases colon : separator = 0x3a <;> by_cases equals : separator = 0x3d <;>
        by_cases empty : settingOf str = [] <;>
        simp [colon, equals, empty, sscanf, Option.isSome_iff_ne_none]

theorem Agree.update {saving : Store SuspendVar} {loading : Store ResumeVar}
    (agree : Agree saving loading) {mine : SuspendVar} {other : ResumeVar}
    (same : mine.shared = other.shared) (value : Setting) :
    Agree (Function.update saving mine value) (Function.update loading other value) := by
  intro shared
  have together : shared.suspendVar = mine ↔ shared.resumeVar = other := by
    rw [eq_comm, ← SuspendVar.shared_eq, same, ResumeVar.shared_eq, eq_comm]
  by_cases hit : shared.suspendVar = mine
  · rw [hit, together.mp hit, Function.update_self, Function.update_self]
  · rw [Function.update_of_ne hit, Function.update_of_ne (together.not.mp hit)]
    exact agree shared

theorem Agree.update_mine {saving : Store SuspendVar} {loading : Store ResumeVar}
    (agree : Agree saving loading) {mine : SuspendVar} (own : mine.shared = none)
    (value : Setting) : Agree (Function.update saving mine value) loading := by
  intro shared
  rw [Function.update_of_ne]
  · exact agree shared
  · rintro rfl
    cases shared <;> cases own

theorem Agree.update_other {saving : Store SuspendVar} {loading : Store ResumeVar}
    (agree : Agree saving loading) {other : ResumeVar} (own : other.shared = none)
    (value : Setting) : Agree saving (Function.update loading other value) := by
  intro shared
  rw [Function.update_of_ne]
  · exact agree shared
  · rintro rfl
    cases shared <;> cases own

/-- Where `s2disk` accepts a line, `resume` does unless it is a bad `max loglevel`, and the shared
settings stay the same. -/
structure LineAgrees (line : Bytes) (saving : Int × Store SuspendVar)
    (loading : Int × Store ResumeVar) : Prop where
  accepts : loading.1 = 0 ↔ maxLoglevelReadable line = true
  agree : loading.1 = 0 → Agree saving.2 loading.2

/-- `resume` has no variable for the entry. -/
theorem assign_ignored {mine : ConfigPar SuspendVar} {other : ConfigPar ResumeVar}
    {var : SuspendVar} {str : Bytes} {saving : Store SuspendVar} {loading : Store ResumeVar}
    (agree : Agree saving loading) (corresponds : Corresponds mine other)
    (reads : mine.ptr = some var) (ignores : other.ptr = none) :
    Agree (mine.assign str saving).2 (other.assign str loading).2 := by
  have own : var.shared = none := by
    have shared := corresponds.shared
    rwa [reads, ignores] at shared
  unfold ConfigPar.assign
  rw [reads, ignores]
  dsimp only
  split
  · exact agree
  · exact agree
  · exact agree.update_mine own _

theorem assign_agrees {mine : ConfigPar SuspendVar} {other : ConfigPar ResumeVar} {line : Bytes}
    {saving : Store SuspendVar} {loading : Store ResumeVar} (agree : Agree saving loading)
    (corresponds : Corresponds mine other) (starts : mine.name <+: line.dropWhile isSpace)
    (other' : mine.ptr ≠ none → ¬ ascii "max loglevel" <+: line.dropWhile isSpace)
    (accepted : (mine.assign (line.dropWhile isSpace) saving).1 = 0) :
    LineAgrees line (mine.assign (line.dropWhile isSpace) saving)
      (other.assign (line.dropWhile isSpace) loading) := by
  cases reads : mine.ptr with
  | none =>
      obtain ⟨kept, fmt⟩ := corresponds.only reads
      have name := corresponds.name.symm.trans (corresponds.skipped.mp reads)
      have readable := readable_iff name fmt (corresponds.name ▸ starts)
      obtain ⟨var, keeps⟩ := Option.ne_none_iff_exists'.mp kept
      have own : var.shared = none := by
        have shared := corresponds.shared
        rw [reads, keeps] at shared
        exact shared.symm
      unfold ConfigPar.assign
      rw [reads, keeps]
      dsimp only
      cases value : other.value (line.dropWhile isSpace) with
      | none =>
          rw [value] at readable
          refine ⟨by simp [readable, EINVAL], fun failed => ?_⟩
          exact absurd (show -EINVAL = 0 from failed) (by decide)
      | some setting =>
          rw [value] at readable
          cases setting with
          | none => exact ⟨by simp [readable], fun _ => agree⟩
          | some setting => exact ⟨by simp [readable], fun _ => agree.update_other own setting⟩
  | some var =>
      have readable := readable_other (other' (by simp [reads]))
      cases keeps : other.ptr with
      | none =>
          constructor
          · simp [ConfigPar.assign, keeps, readable]
          · exact fun _ => assign_ignored agree corresponds reads keeps
      | some var' =>
          have same : var.shared = var'.shared := by
            have shared := corresponds.shared
            rwa [reads, keeps] at shared
          have value : mine.value (line.dropWhile isSpace) =
              other.value (line.dropWhile isSpace) := by
            unfold ConfigPar.value
            rw [corresponds.name, corresponds.fmt,
              corresponds.len (by simp [reads]) (by simp [keeps])]
          unfold ConfigPar.assign at accepted ⊢
          rw [reads, value] at accepted ⊢
          rw [keeps]
          dsimp only at accepted ⊢
          cases found : other.value (line.dropWhile isSpace) with
          | none =>
              rw [found] at accepted
              cases accepted
          | some setting =>
              cases setting with
              | none => exact ⟨by simp [readable], fun _ => agree⟩
              | some setting => exact ⟨by simp [readable], fun _ => agree.update same setting⟩

theorem parseLine_agrees (features : Features) (line : Bytes) {saving : Store SuspendVar}
    {loading : Store ResumeVar} (agree : Agree saving loading)
    (accepted : (parseLine (SuspendVar.parameters features) line saving).1 = 0) :
    LineAgrees line (parseLine (SuspendVar.parameters features) line saving)
      (parseLine (ResumeVar.parameters features) line loading) := by
  have max : ∃ par ∈ ResumeVar.parameters features, par.name = ascii "max loglevel" :=
    ⟨⟨ascii "max loglevel", .d, some .maxLoglevel, 0⟩, by simp [ResumeVar.parameters], rfl⟩
  unfold parseLine at accepted ⊢
  dsimp only at accepted ⊢
  by_cases blank : line.dropWhile isSpace = []
  · rw [if_pos blank, if_pos blank]
    have readable := @readable_other line (by rw [blank]; decide)
    exact ⟨by simp [readable], fun _ => agree⟩
  · rw [if_neg blank] at accepted ⊢
    rw [if_neg blank]
    by_cases comment : (line.dropWhile isSpace).head? = some 0x23
    · rw [if_pos comment, if_pos comment]
      have readable := @readable_other line (by
        rintro ⟨rest, start⟩
        have letter : ascii "max loglevel" = 0x6d :: ascii "ax loglevel" := by decide +kernel
        rw [← start, letter] at comment
        cases comment)
      exact ⟨by simp [readable], fun _ => agree⟩
    · rw [if_neg comment] at accepted ⊢
      rw [if_neg comment]
      rw [parseNames_find SuspendVar.named] at accepted ⊢
      rw [parseNames_find ResumeVar.named]
      obtain ⟨par, member, name⟩ := max
      rcases find_corresponds features (line.dropWhile isSpace) with
        ⟨unknown, unknown'⟩ | ⟨mine, other, found, starts, inside, found', corresponds⟩
      · rw [unknown, unknown']
        have readable := @readable_other line (by
          intro start
          rw [List.find?_eq_none] at unknown'
          apply unknown' par member
          rw [name]
          exact List.isPrefixOf_iff_prefix.mpr start)
        exact ⟨by simp [readable], fun _ => agree⟩
      · rw [found] at accepted ⊢
        rw [found']
        apply assign_agrees agree corresponds starts _ accepted
        intro reads start
        have pair := names_apart mine (SuspendVar.parameters_all inside) par
          (ResumeVar.parameters_all member)
          (List.prefix_or_prefix_of_prefix starts (name ▸ start))
        exact reads (pair.skipped.mpr (pair.name.trans name))

theorem parseLines_agree (features : Features) (lines : List Bytes) {saving : Store SuspendVar}
    {loading : Store ResumeVar} (agree : Agree saving loading)
    (accepted : (parseLines (SuspendVar.parameters features) lines saving).1 = 0) :
    ((parseLines (ResumeVar.parameters features) lines loading).1 = 0 ↔
      ∀ line ∈ lines, maxLoglevelReadable line = true) ∧
    ((parseLines (ResumeVar.parameters features) lines loading).1 = 0 →
      Agree (parseLines (SuspendVar.parameters features) lines saving).2
        (parseLines (ResumeVar.parameters features) lines loading).2) := by
  induction lines generalizing saving loading with
  | nil => exact ⟨by simp [parseLines], fun _ => agree⟩
  | cons line rest ih =>
      unfold parseLines at accepted ⊢
      dsimp only at accepted ⊢
      by_cases failed : (parseLine (SuspendVar.parameters features) line saving).1 ≠ 0
      · rw [if_pos failed] at accepted
        exact absurd accepted failed
      · rw [if_neg failed] at accepted ⊢
        obtain ⟨accepts, keeps⟩ := parseLine_agrees features line agree (not_not.mp failed)
        by_cases read : (parseLine (ResumeVar.parameters features) line loading).1 = 0
        · rw [if_neg (not_not_intro read)]
          obtain ⟨all, agrees⟩ := ih (keeps read) accepted
          refine ⟨?_, agrees⟩
          rw [all, List.forall_mem_cons]
          exact ⟨fun later => ⟨accepts.mp read, later⟩, And.right⟩
        · rw [if_pos read]
          constructor
          · rw [List.forall_mem_cons]
            exact ⟨fun success => absurd success read, fun both => absurd (accepts.mpr both.1) read⟩
          · exact fun success => absurd success read

/-- `s2disk` and `resume` on one configuration file. Once `s2disk` has accepted it, `resume` accepts
it if and only if it can read every piece of the file that is about `max loglevel`, and then both
have the same snapshot device, resume device and resume offset. -/
theorem config_agrees (features : Features) (file : Bytes)
    (accepted : (parse (SuspendVar.parameters features) file SuspendVar.initial).1 = 0) :
    let saving := parse (SuspendVar.parameters features) file SuspendVar.initial
    let loading := parse (ResumeVar.parameters features) file ResumeVar.initial
    (loading.1 = 0 ↔ ∀ line ∈ filePieces file, maxLoglevelReadable line = true) ∧
      (loading.1 = 0 → saving.2 .snapshotDevName = loading.2 .snapshotDevName ∧
        saving.2 .resumeDevName = loading.2 .resumeDevName ∧
        saving.2 .resumeOffset = loading.2 .resumeOffset) := by
  obtain ⟨accepts, agrees⟩ := parseLines_agree features (filePieces file) agree_initial accepted
  refine ⟨accepts, fun read => ?_⟩
  have agree := agrees read
  exact ⟨agree .snapshotDevice, agree .resumeDevice, agree .resumeOffset⟩

/-- A configuration file as for both programs. -/
def sharedFile : Bytes :=
  ascii "resume device = /dev/sda2\nresume offset = 7\nmax loglevel = 3\nimage size = 1\n"

theorem config_agrees_shared :
    (parse (SuspendVar.parameters .all) sharedFile SuspendVar.initial).1 = 0 ∧
      (parse (ResumeVar.parameters .all) sharedFile ResumeVar.initial).2 .resumeOffset =
        .number 7 := by
  have accepted : (parse (SuspendVar.parameters .all) sharedFile SuspendVar.initial).1 = 0 := by
    decide +kernel
  obtain ⟨accepts, same⟩ := config_agrees .all sharedFile accepted
  have values := same (accepts.mpr (by decide +kernel))
  refine ⟨accepted, ?_⟩
  rw [← values.2.2]
  decide +kernel

/-- A word for the console log level: `s2disk` skips the line, `resume` fails on it. -/
theorem config_differs :
    let file := ascii "max loglevel = high\n"
    (parse (SuspendVar.parameters .all) file SuspendVar.initial).1 = 0 ∧
      (parse (ResumeVar.parameters .all) file ResumeVar.initial).1 = -EINVAL :=
  ⟨by decide +kernel, by decide +kernel⟩

end Suspend
