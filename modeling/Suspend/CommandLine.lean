import Suspend.Foundation.Getopt
import Suspend.Foundation.LastWord
import Suspend.Whitelist

set_option autoImplicit false

namespace Suspend

open Foundation.LastWord

/-- What tells the three programs apart. `resume` has no option for the size of the image, and
`both` is what `s2both` finds, which knows the options of `s2ram`. -/
structure Program (Var : Type) where
  parameters : List (ConfigPar Var)
  options : Foundation.Getopt.Options
  resumeDevName : Var
  resumeOffset : Var
  prefImageSize : Option Var
  both : Option S2ramRun
  sized : both.isSome = true → prefImageSize.isSome = true

/-- What `getopt_long` returns, with `optarg`. -/
def Opt.returned : Foundation.Getopt.Returned → Opt
  | none => ⟨'?'.toNat, []⟩
  | some (val, arg) => ⟨val, arg⟩

/-- What `getopt_long` returns in one pass, and the arguments from `optind` on. -/
structure CommandLine where
  opts : List Opt
  operands : List Bytes

def CommandLine.ofScan (scan : Foundation.Getopt.Scan) : CommandLine :=
  ⟨scan.all.map Opt.returned, scan.operands⟩

def CONFIG_FILE : Bytes := ascii "/etc/suspend.conf"

/-- `atoll`, which is `strtoll`. -/
def atoll (str : Bytes) : Int :=
  match readInteger str with
  | none => 0
  | some (negative, magnitude) =>
      if negative then max (-2 ^ 63) (-magnitude) else min (2 ^ 63 - 1) magnitude

/-- The first pass: the configuration file that the options name, unless the program exits. -/
def confName : List Opt → Option Bytes → Option (Option Bytes)
  | [], name => some name
  | option :: rest, name =>
      if option.opt = 'h'.toNat ∨ option.opt = 'V'.toNat then none
      else if option.opt = 'f'.toNat then confName rest (some option.arg)
      else confName rest name

namespace Program

variable {Var : Type} [DecidableEq Var] (program : Program Var)

/-- What the first pass goes through. -/
def firstPass (argv : List Bytes) : CommandLine := .ofScan (program.options.scan none argv)

/-- What the second pass goes through, which begins again with `optind` at 0 and the arguments as
the first one has left them. -/
def secondPass (argv : List Bytes) : CommandLine :=
  .ofScan (program.options.scan none (program.options.scan none argv).permuted)

/-- Between the two passes. Only a file that has been asked for has to be there. -/
def readFile (files : Bytes → ConfigFile) (name : Option Bytes) (store : Store Var) :
    Int × Store Var :=
  match files (name.getD CONFIG_FILE) with
  | .missing => if name.isSome then (-ENOENT, store) else (0, store)
  | .unopened errno => (-errno.val, store)
  | .text bytes => parse program.parameters bytes store

/-- The `switch` of the second pass. -/
def takeOption (option : Opt) (store : Store Var) (hacks : Hacks) : Int × Store Var × Hacks :=
  if option.opt = 'f'.toNat then (0, store, hacks)
  else if option.opt = 's'.toNat ∧ program.prefImageSize.isSome = true then
    (0, program.prefImageSize.elim store fun var =>
      Function.update store var (.number (atoll option.arg)), hacks)
  else if option.opt = 'o'.toNat then
    (0, Function.update store program.resumeOffset (.number (atoll option.arg)), hacks)
  else if option.opt = 'r'.toNat then
    (0, Function.update store program.resumeDevName (.text (option.arg.take (MAX_STR_LEN - 1))),
      hacks)
  else if option.opt = 'P'.toNat then
    let parsed := parseLine program.parameters option.arg store
    (parsed.1, parsed.2, hacks)
  else if program.both.isSome then (0, store, hacks.s2ramAddFlag option)
  else (-EINVAL, store, hacks)

/-- The second pass. -/
def takeOptions : List Opt → Store Var → Hacks → Int × Store Var × Hacks
  | [], store, hacks => (0, store, hacks)
  | option :: rest, store, hacks =>
      let taken := program.takeOption option store hacks
      if taken.1 ≠ 0 then taken else takeOptions rest taken.2.1 taken.2.2

/-- The argument behind the options. -/
def takeOperand (operands : List Bytes) (store : Store Var) : Store Var :=
  match operands with
  | [] => store
  | name :: _ =>
      Function.update store program.resumeDevName (.text (name.take (MAX_STR_LEN - 1)))

/-- The end of `get_config` in `s2both`. -/
def checkHacks (hacks : Hacks) : Int × Hacks :=
  match program.both with
  | none => (0, hacks)
  | some env =>
      if env.checkKms = 0 then (0, hacks)
      else
        let supported := env.s2ramIsSupported hacks
        (if supported.1 = EINVAL then -EINVAL else 0, supported.2)

/-- `get_config`, unless the program exits. -/
def getConfig (files : Bytes → ConfigFile) (argv : List Bytes) (store : Store Var) :
    Option (Int × Store Var × Hacks) :=
  (confName (program.firstPass argv).opts none).map fun name =>
    let file := program.readFile files name store
    if file.1 ≠ 0 then (file.1, file.2, Hacks.initial)
    else
      let taken := program.takeOptions (program.secondPass argv).opts file.2 Hacks.initial
      if taken.1 ≠ 0 then taken
      else
        let checked := program.checkHacks taken.2.2
        (checked.1, program.takeOperand (program.secondPass argv).operands taken.2.1, checked.2)

end Program

section Said

variable {Var : Type} [DecidableEq Var]

/-- What a line says of the parameters. -/
def said (parv : List (ConfigPar Var)) (line : Bytes) : Word Var Setting :=
  let str := line.dropWhile isSpace
  if str = [] ∨ str.head? = some 0x23 then some none
  else
    match parv.find? fun par => par.name.isPrefixOf str with
    | none => some none
    | some par =>
        match par.ptr with
        | none => some none
        | some var => (par.value str).map (·.map (Prod.mk var))

/-- What is left of the variables if all is accepted. -/
def accepted (result : Int × Store Var) : Option (Store Var) :=
  if result.1 = 0 then some result.2 else none

theorem parseLine_said {parv : List (ConfigPar Var)} (named : ∀ par ∈ parv, par.name ≠ [])
    (line : Bytes) (store : Store Var) :
    accepted (parseLine parv line store) = run [said parv line] store := by
  unfold parseLine said
  dsimp only
  by_cases blank : line.dropWhile isSpace = []
  · rw [if_pos blank, if_pos (.inl blank)]
    rfl
  rw [if_neg blank]
  by_cases comment : (line.dropWhile isSpace).head? = some 0x23
  · rw [if_pos comment, if_pos (.inr comment)]
    rfl
  rw [if_neg comment, if_neg (by simp [blank, comment]), parseNames_find named]
  cases parv.find? fun par => par.name.isPrefixOf (line.dropWhile isSpace) with
  | none => rfl
  | some par =>
      dsimp only [ConfigPar.assign]
      cases par.ptr with
      | none => rfl
      | some var =>
          dsimp only
          cases par.value (line.dropWhile isSpace) with
          | none => rfl
          | some value => cases value <;> rfl

theorem parseLines_said {parv : List (ConfigPar Var)} (named : ∀ par ∈ parv, par.name ≠ [])
    (lines : List Bytes) (store : Store Var) :
    accepted (parseLines parv lines store) = run (lines.map (said parv)) store := by
  induction lines generalizing store with
  | nil => rfl
  | cons line rest ih =>
      have front := run_append [said parv line] (rest.map (said parv)) store
      rw [List.singleton_append, ← parseLine_said named line store] at front
      rw [List.map_cons, front, parseLines]
      unfold accepted
      by_cases failed : (parseLine parv line store).1 ≠ 0
      · rw [if_pos failed, if_neg failed]
        rfl
      · rw [if_neg failed, if_pos (not_not.mp failed)]
        exact ih (parseLine parv line store).2

end Said

namespace Program

variable {Var : Type} (program : Program Var)

/-- The options that `s2both` leaves to `s2ram_add_flag`. -/
def ForS2ram (option : Opt) : Prop :=
  option.opt ∉ ['f'.toNat, 's'.toNat, 'o'.toNat, 'r'.toNat, 'P'.toNat]

instance (option : Opt) : Decidable (ForS2ram option) := inferInstanceAs (Decidable (_ ∉ _))

/-- What an option says. -/
def optionSaid (option : Opt) : Word Var Setting :=
  if option.opt = 'f'.toNat then some none
  else if option.opt = 's'.toNat then
    program.prefImageSize.map fun var => some (var, .number (atoll option.arg))
  else if option.opt = 'o'.toNat then
    some (some (program.resumeOffset, .number (atoll option.arg)))
  else if option.opt = 'r'.toNat then
    some (some (program.resumeDevName, .text (option.arg.take (MAX_STR_LEN - 1))))
  else if option.opt = 'P'.toNat then said program.parameters option.arg
  else if program.both.isSome then some none
  else none

/-- What the configuration file says. -/
def fileSaid : ConfigFile → List (Word Var Setting)
  | .missing => []
  | .unopened _ => [none]
  | .text bytes => (filePieces bytes).map (said program.parameters)

/-- What is said, in the order in which it counts. -/
def allSaid (files : Bytes → ConfigFile) (line : CommandLine) (name : Option Bytes) :
    List (Word Var Setting) :=
  program.fileSaid (files (name.getD CONFIG_FILE)) ++ line.opts.map program.optionSaid ++
    (line.operands.take 1).map fun operand =>
      some (some (program.resumeDevName, .text (operand.take (MAX_STR_LEN - 1))))

/-- The configuration file that is asked for last. -/
def lastName (opts : List Opt) : Option Bytes :=
  (opts.filter (·.opt = 'f'.toNat)).getLast?.map Opt.arg

theorem lastName_cons (option : Opt) (rest : List Opt) :
    lastName (option :: rest) =
      (lastName rest).or (if option.opt = 'f'.toNat then some option.arg else none) := by
  unfold lastName
  by_cases config : option.opt = 'f'.toNat
  · rw [List.filter_cons_of_pos (by simpa using config), List.getLast?_cons, if_pos config]
    cases (rest.filter (·.opt = 'f'.toNat)).getLast? <;> rfl
  · rw [List.filter_cons_of_neg (by simpa using config), if_neg config, Option.or_none]

/-- The usage or the version is asked for. -/
def Exits (opts : List Opt) : Prop := ∃ option ∈ opts, option.opt ∈ ['h'.toNat, 'V'.toNat]

theorem confName_exits {opts : List Opt} (exits : Exits opts) (name : Option Bytes) :
    confName opts name = none := by
  induction opts generalizing name with
  | nil => simp [Exits] at exits
  | cons option rest ih =>
      unfold confName
      by_cases now : option.opt = 'h'.toNat ∨ option.opt = 'V'.toNat
      · rw [if_pos now]
      · have later : Exits rest :=
          ((List.exists_mem_cons_iff _ _ _).mp exits).resolve_left (by simpa using now)
        rw [if_neg now, ih later, ih later, ite_self]

/-- Otherwise the file that is asked for last is the one. -/
theorem confName_name {opts : List Opt} (stays : ¬ Exits opts) (name : Option Bytes) :
    confName opts name = some ((lastName opts).or name) := by
  induction opts generalizing name with
  | nil => rfl
  | cons option rest ih =>
      unfold confName
      obtain ⟨now, later⟩ := not_or.mp ((List.exists_mem_cons_iff _ _ _).not.mp stays)
      rw [if_neg (by simpa using now), ih later, ih later, lastName_cons]
      by_cases config : option.opt = 'f'.toNat
      · rw [if_pos config, if_pos config, Option.or_assoc]
        rfl
      · rw [if_neg config, if_neg config, Option.or_none]

variable [DecidableEq Var] {program}

theorem readFile_said (named : ∀ par ∈ program.parameters, par.name ≠ [])
    (files : Bytes → ConfigFile) (name : Option Bytes) (store : Store Var)
    (there : name.isSome = true → files (name.getD CONFIG_FILE) ≠ .missing) :
    accepted (program.readFile files name store) =
      run (program.fileSaid (files (name.getD CONFIG_FILE))) store := by
  unfold readFile fileSaid
  cases found : files (name.getD CONFIG_FILE) with
  | missing =>
      rw [if_neg (fun some => there some found)]
      rfl
  | unopened errno => simp [accepted, run, errno.property]
  | text bytes => exact parseLines_said named (filePieces bytes) store

theorem takeOption_said (named : ∀ par ∈ program.parameters, par.name ≠ []) (option : Opt)
    (store : Store Var) (hacks : Hacks) :
    accepted ((program.takeOption option store hacks).1,
      (program.takeOption option store hacks).2.1) = run [program.optionSaid option] store := by
  unfold takeOption optionSaid
  by_cases config : option.opt = 'f'.toNat
  · rw [if_pos config, if_pos config]
    rfl
  rw [if_neg config, if_neg config]
  by_cases size : option.opt = 's'.toNat
  · cases place : program.prefImageSize with
    | none =>
        have alone : program.both.isSome ≠ true := by
          intro both
          have sized := program.sized both
          rw [place] at sized
          cases sized
        simp [size, alone, accepted, run, EINVAL]
    | some var =>
        rw [if_pos ⟨size, rfl⟩, if_pos size]
        rfl
  rw [if_neg size, if_neg (fun both => size both.1)]
  by_cases offset : option.opt = 'o'.toNat
  · rw [if_pos offset, if_pos offset]
    rfl
  rw [if_neg offset, if_neg offset]
  by_cases device : option.opt = 'r'.toNat
  · rw [if_pos device, if_pos device]
    rfl
  rw [if_neg device, if_neg device]
  by_cases parameter : option.opt = 'P'.toNat
  · rw [if_pos parameter, if_pos parameter]
    exact parseLine_said named option.arg store
  rw [if_neg parameter, if_neg parameter]
  by_cases both : program.both.isSome = true
  · rw [if_pos both, if_pos both]
    rfl
  · rw [if_neg both, if_neg both]
    rfl

theorem takeOptions_said (named : ∀ par ∈ program.parameters, par.name ≠ []) (opts : List Opt)
    (store : Store Var) (hacks : Hacks) :
    accepted ((program.takeOptions opts store hacks).1,
      (program.takeOptions opts store hacks).2.1) = run (opts.map program.optionSaid) store := by
  induction opts generalizing store hacks with
  | nil => rfl
  | cons option rest ih =>
      have front := run_append [program.optionSaid option] (rest.map program.optionSaid) store
      rw [List.singleton_append, ← takeOption_said named option store hacks] at front
      rw [List.map_cons, front, takeOptions]
      unfold accepted
      by_cases failed : (program.takeOption option store hacks).1 ≠ 0
      · rw [if_pos failed, if_neg failed]
        rfl
      · rw [if_neg failed, if_pos (not_not.mp failed)]
        exact ih _ _

theorem takeOption_hacks {env : S2ramRun} (both : program.both = some env) (option : Opt)
    (store : Store Var) (hacks : Hacks) : (program.takeOption option store hacks).2.2 =
      if ForS2ram option then hacks.s2ramAddFlag option else hacks := by
  have sized := program.sized (by rw [both]; rfl)
  unfold takeOption
  simp only [ForS2ram, List.mem_cons, List.not_mem_nil, or_false, not_or, sized, both,
    and_true, Option.isSome_some, if_true]
  grind -ring -linarith

/-- The variables of `s2ram` tell of the options that are left to it. -/
theorem takeOptions_tells {env : S2ramRun} (both : program.both = some env)
    {opts earlier : List Opt} {store : Store Var} {hacks : Hacks} (tells : hacks.Tells earlier)
    (success : (program.takeOptions opts store hacks).1 = 0) :
    (program.takeOptions opts store hacks).2.2.Tells (earlier ++ opts.filter ForS2ram) := by
  induction opts generalizing earlier store hacks with
  | nil => simpa [takeOptions] using tells
  | cons option rest ih =>
      unfold takeOptions at success ⊢
      by_cases failed : (program.takeOption option store hacks).1 ≠ 0
      · rw [if_pos failed] at success
        exact absurd success failed
      rw [if_neg failed] at success ⊢
      have same := takeOption_hacks both option store hacks
      by_cases left : ForS2ram option
      · have more := tells.add option
        rw [if_pos left] at same
        rw [← same] at more
        have later := ih more success
        rw [List.filter_cons_of_pos (by simpa using left)]
        rwa [List.append_assoc, List.singleton_append] at later
      · rw [if_neg left] at same
        rw [← same] at tells
        rw [List.filter_cons_of_neg (by simpa using left)]
        exact ih tells success

theorem takeOperand_said (operands : List Bytes) (store : Store Var) :
    some (program.takeOperand operands store) = run ((operands.take 1).map fun operand =>
      some (some (program.resumeDevName, .text (operand.take (MAX_STR_LEN - 1))))) store := by
  cases operands <;> rfl

omit [DecidableEq Var] in
theorem checkHacks_iff (hacks : Hacks) : (program.checkHacks hacks).1 = 0 ↔
    ∀ env, program.both = some env → env.checkKms = 0 ∨ hacks.force = true ∨ hacks.flags = 0 := by
  unfold checkHacks
  cases both : program.both with
  | none => simp
  | some env =>
      simp only [Option.some.injEq, forall_eq']
      by_cases kms : env.checkKms = 0
      · simp [kms]
      rw [if_neg kms, or_iff_right kms]
      have refused := env.s2ramIsSupported_refused hacks
      by_cases supported : (env.s2ramIsSupported hacks).1 = EINVAL
      · rw [if_pos supported]
        exact iff_of_false (by decide : -EINVAL ≠ 0) (refused.mp supported)
      · rw [if_neg supported]
        exact iff_of_true rfl (not_not.mp (refused.not.mp supported))

/-- `s2both` is not given flags that it has no use for. -/
def HacksAllowed (program : Program Var) (opts : List Opt) : Prop :=
  ∀ env, program.both = some env → env.checkKms = 0 ∨ Opt.Has (opts.filter ForS2ram) .force ∨
    ∀ quirk, ¬ Opt.Asks (opts.filter ForS2ram) quirk

theorem checkHacks_allowed {opts : List Opt} {store : Store Var}
    (success : (program.takeOptions opts store Hacks.initial).1 = 0) :
    (program.checkHacks (program.takeOptions opts store Hacks.initial).2.2).1 = 0 ↔
      program.HacksAllowed opts := by
  rw [checkHacks_iff]
  apply forall_congr'
  intro env
  apply forall_congr'
  intro both
  have tells := takeOptions_tells both Hacks.tells_initial success
  rw [List.nil_append] at tells
  rw [tells.force, tells.unset]

/-- `get_config` succeeds where each of its steps does. -/
theorem getConfig_steps (program : Program Var) (files : Bytes → ConfigFile) (argv : List Bytes)
    (store after : Store Var) :
    (∃ hacks, program.getConfig files argv store = some (0, after, hacks)) ↔
      let first := program.firstPass argv
      let second := program.secondPass argv
      let file := program.readFile files (lastName first.opts) store
      let taken := program.takeOptions second.opts file.2 Hacks.initial
      ¬ Exits first.opts ∧ file.1 = 0 ∧ taken.1 = 0 ∧ program.HacksAllowed second.opts ∧
        program.takeOperand second.operands taken.2.1 = after := by
  unfold getConfig
  dsimp only
  generalize program.firstPass argv = first, program.secondPass argv = second
  by_cases exits : Exits first.opts
  · rw [confName_exits exits]
    simp [exits]
  rw [confName_name exits, Option.or_none, and_iff_right exits, Option.map_some]
  by_cases failed : (program.readFile files (lastName first.opts) store).1 ≠ 0
  · rw [if_pos failed]
    simp [failed]
  rw [if_neg failed, and_iff_right (not_not.mp failed)]
  by_cases failed' : (program.takeOptions second.opts
    (program.readFile files (lastName first.opts) store).2 Hacks.initial).1 ≠ 0
  · rw [if_pos failed']
    refine iff_of_false ?_ fun both => failed' both.1
    rintro ⟨hacks, returned⟩
    exact failed' (congrArg Prod.fst (Option.some.inj returned))
  rw [if_neg failed', and_iff_right (not_not.mp failed'),
    ← checkHacks_allowed (not_not.mp failed')]
  simp

/-- When `get_config` succeeds, and what it leaves in the variables: the last word on each of them
counts, first those of the configuration file that is asked for last, then the options in their
order, and then the argument behind them. -/
theorem getConfig_iff (named : ∀ par ∈ program.parameters, par.name ≠ [])
    (files : Bytes → ConfigFile) (argv : List Bytes) (store after : Store Var) :
    (∃ hacks, program.getConfig files argv store = some (0, after, hacks)) ↔
      let first := program.firstPass argv
      let second := program.secondPass argv
      let name := lastName first.opts
      ¬ Exits first.opts ∧
      (name.isSome = true → files (name.getD CONFIG_FILE) ≠ .missing) ∧
      program.HacksAllowed second.opts ∧
      none ∉ program.allSaid files second name ∧
      ∀ var, Effective (program.allSaid files second name) store var (after var) := by
  rw [getConfig_steps]
  dsimp only
  generalize program.firstPass argv = first, program.secondPass argv = line
  rw [← run_eq_some_iff]
  apply and_congr_right
  intro _
  generalize lastName first.opts = name
  by_cases there : name.isSome = true → files (name.getD CONFIG_FILE) ≠ .missing
  swap
  · obtain ⟨some, missing⟩ := Classical.not_imp.mp there
    refine iff_of_false ?_ fun both => there both.1
    simp [readFile, not_not.mp missing, some, ENOENT]
  rw [and_iff_right there]
  have file := readFile_said named files name store there
  unfold allSaid
  rw [run_append, run_append, ← file]
  by_cases failed : (program.readFile files name store).1 ≠ 0
  · rw [accepted, if_neg failed]
    simp [failed]
  rw [accepted, if_pos (not_not.mp failed), and_iff_right (not_not.mp failed), Option.bind_some,
    ← takeOptions_said named line.opts _ Hacks.initial]
  by_cases failed' : (program.takeOptions line.opts
    (program.readFile files name store).2 Hacks.initial).1 ≠ 0
  · rw [accepted, if_neg failed']
    exact iff_of_false (fun both => failed' both.1) (by simp)
  rw [accepted, if_pos (not_not.mp failed'), and_iff_right (not_not.mp failed'), Option.bind_some,
    ← takeOperand_said, Option.some.injEq]

/-- `HACKS_LONG_OPTS`, with the values that `s2ram_add_flag` knows. -/
def hacksLongOpts : List Foundation.Getopt.LongOption :=
  [⟨ascii "nofbsuspend", false, 8⟩, ⟨ascii "force", false, 1⟩, ⟨ascii "vbe_save", false, 2⟩,
    ⟨ascii "vbe_post", false, 3⟩, ⟨ascii "vbe_mode", false, 4⟩, ⟨ascii "radeontool", false, 5⟩,
    ⟨ascii "pci_save", false, 6⟩, ⟨ascii "acpi_sleep", true, 7⟩, ⟨ascii "no_kms", true, 9⟩]

/-- The options of `suspend.c`. -/
def suspendOptions (both : Bool) : Foundation.Getopt.Options where
  optstring := ascii "hVf:s:o:r:P:"
  long :=
    [⟨ascii "help", false, 'h'.toNat⟩, ⟨ascii "version", false, 'V'.toNat⟩,
      ⟨ascii "config", true, 'f'.toNat⟩, ⟨ascii "resume_device", true, 'r'.toNat⟩,
      ⟨ascii "resume_offset", true, 'o'.toNat⟩, ⟨ascii "image_size", true, 's'.toNat⟩,
      ⟨ascii "parameter", true, 'P'.toNat⟩] ++ if both then hacksLongOpts else []

/-- The options of `resume.c`. -/
def resumeOptions : Foundation.Getopt.Options where
  optstring := ascii "hVf:o:r:P:"
  long :=
    [⟨ascii "help", false, 'h'.toNat⟩, ⟨ascii "version", false, 'V'.toNat⟩,
      ⟨ascii "config", true, 'f'.toNat⟩, ⟨ascii "resume_device", true, 'r'.toNat⟩,
      ⟨ascii "resume_offset", true, 'o'.toNat⟩, ⟨ascii "parameter", true, 'P'.toNat⟩]

/-- `s2disk`, or `s2both`. -/
def suspend (features : Features) (both : Option S2ramRun) : Program SuspendVar where
  parameters := SuspendVar.parameters features
  options := suspendOptions both.isSome
  resumeDevName := .resumeDevName
  resumeOffset := .resumeOffset
  prefImageSize := some .prefImageSize
  both := both
  sized := fun _ => rfl

def resume (features : Features) : Program ResumeVar where
  parameters := ResumeVar.parameters features
  options := resumeOptions
  resumeDevName := .resumeDevName
  resumeOffset := .resumeOffset
  prefImageSize := none
  both := none
  sized := fun none => none

/-- An argument for `resume` and two options, the second of them abbreviated. -/
def overriding : List Bytes :=
  [ascii "/dev/sda3", ascii "-P", ascii "resume offset = 7", ascii "--resume_o=5"]

theorem overriding_effective : ∃ after hacks,
    (resume .all).getConfig (fun _ => .missing) overriding ResumeVar.initial =
      some (0, after, hacks) ∧
    Effective ((resume .all).allSaid (fun _ => .missing) ((resume .all).secondPass overriding) none)
      ResumeVar.initial .resumeOffset (after .resumeOffset) ∧
    after .resumeOffset = .number 5 := by
  have returns : ∃ after hacks,
      (resume .all).getConfig (fun _ => .missing) overriding ResumeVar.initial =
        some (0, after, hacks) ∧ after .resumeOffset = .number 5 := ⟨_, _, rfl, rfl⟩
  obtain ⟨after, hacks, returns, offset⟩ := returns
  have effective := (getConfig_iff ResumeVar.named _ _ _ _).mp ⟨hacks, returns⟩
  exact ⟨after, hacks, returns, effective.2.2.2.2 .resumeOffset, offset⟩

/-- `resume` knows the option, and can read what it says of `max loglevel`. -/
def Reads (option : Opt) : Prop :=
  option.opt ∈ ['f'.toNat, 'o'.toNat, 'r'.toNat, 'P'.toNat] ∧
    (option.opt = 'P'.toNat → maxLoglevelReadable option.arg = true)

theorem takeOption_agrees (features : Features) (both : Option S2ramRun) (option : Opt)
    {saving : Store SuspendVar} {loading : Store ResumeVar} (agree : Agree saving loading)
    (hacks hacks' : Hacks)
    (accepted : ((suspend features both).takeOption option saving hacks).1 = 0) :
    (((resume features).takeOption option loading hacks').1 = 0 ↔ Reads option) ∧
    (((resume features).takeOption option loading hacks').1 = 0 →
      Agree ((suspend features both).takeOption option saving hacks).2.1
        ((resume features).takeOption option loading hacks').2.1) := by
  unfold takeOption at accepted ⊢
  by_cases config : option.opt = 'f'.toNat
  · rw [if_pos config, if_pos config]
    exact ⟨iff_of_true rfl (by simp [Reads, config]), fun _ => agree⟩
  rw [if_neg config] at accepted ⊢
  rw [if_neg config]
  by_cases size : option.opt = 's'.toNat
  · have unknown : ¬ Reads option := by simp [Reads, size]
    simp [size, unknown, resume, EINVAL]
  have mine : ¬ (option.opt = 's'.toNat ∧ (suspend features both).prefImageSize.isSome = true) :=
    fun sized => size sized.1
  have other : ¬ (option.opt = 's'.toNat ∧ (resume features).prefImageSize.isSome = true) :=
    fun sized => size sized.1
  rw [if_neg mine] at accepted ⊢
  rw [if_neg other]
  by_cases offset : option.opt = 'o'.toNat
  · rw [if_pos offset, if_pos offset]
    exact ⟨iff_of_true rfl (by simp [Reads, offset]), fun _ => agree.update rfl _⟩
  rw [if_neg offset] at accepted ⊢
  rw [if_neg offset]
  by_cases device : option.opt = 'r'.toNat
  · rw [if_pos device, if_pos device]
    exact ⟨iff_of_true rfl (by simp [Reads, device]), fun _ => agree.update rfl _⟩
  rw [if_neg device] at accepted ⊢
  rw [if_neg device]
  by_cases parameter : option.opt = 'P'.toNat
  · rw [if_pos parameter] at accepted ⊢
    rw [if_pos parameter]
    obtain ⟨accepts, agrees⟩ := parseLine_agrees features option.arg agree accepted
    have reads : Reads option ↔ maxLoglevelReadable option.arg = true := by
      simp [Reads, parameter]
    exact ⟨accepts.trans reads.symm, agrees⟩
  · have unknown : ¬ Reads option := by
      simp only [Reads, List.mem_cons, List.not_mem_nil, config, offset, device, parameter, or_self,
        false_and, not_false_eq_true]
    rw [if_neg parameter] at accepted ⊢
    rw [if_neg parameter]
    simp [unknown, resume, EINVAL]

theorem takeOptions_agree (features : Features) (both : Option S2ramRun) (opts : List Opt)
    {saving : Store SuspendVar} {loading : Store ResumeVar} (agree : Agree saving loading)
    (hacks hacks' : Hacks)
    (accepted : ((suspend features both).takeOptions opts saving hacks).1 = 0) :
    (((resume features).takeOptions opts loading hacks').1 = 0 ↔ ∀ option ∈ opts, Reads option) ∧
    (((resume features).takeOptions opts loading hacks').1 = 0 →
      Agree ((suspend features both).takeOptions opts saving hacks).2.1
        ((resume features).takeOptions opts loading hacks').2.1) := by
  induction opts generalizing saving loading hacks hacks' with
  | nil => exact ⟨by simp [takeOptions], fun _ => agree⟩
  | cons option rest ih =>
      unfold takeOptions at accepted ⊢
      dsimp only at accepted ⊢
      by_cases failed : ((suspend features both).takeOption option saving hacks).1 ≠ 0
      · rw [if_pos failed] at accepted
        exact absurd accepted failed
      rw [if_neg failed] at accepted ⊢
      obtain ⟨accepts, agrees⟩ :=
        takeOption_agrees features both option agree hacks hacks' (not_not.mp failed)
      rw [List.forall_mem_cons]
      by_cases read : ((resume features).takeOption option loading hacks').1 = 0
      · rw [if_neg (not_not_intro read), and_iff_right (accepts.mp read)]
        exact ih (agrees read) _ _ accepted
      · rw [if_pos read]
        refine ⟨iff_of_false read fun both => read (accepts.mpr both.1), fun success => ?_⟩
        exact absurd success read

/-- What `resume` finds in the file that `s2disk` has read. -/
theorem readFile_agrees (features : Features) (both : Option S2ramRun)
    (files : Bytes → ConfigFile) (name : Option Bytes)
    (accepted : ((suspend features both).readFile files name SuspendVar.initial).1 = 0) :
    (((resume features).readFile files name ResumeVar.initial).1 = 0 ↔
      ∀ bytes, files (name.getD CONFIG_FILE) = .text bytes →
        ∀ line ∈ filePieces bytes, maxLoglevelReadable line = true) ∧
    (((resume features).readFile files name ResumeVar.initial).1 = 0 →
      Agree ((suspend features both).readFile files name SuspendVar.initial).2
        ((resume features).readFile files name ResumeVar.initial).2) := by
  unfold readFile at accepted ⊢
  cases found : files (name.getD CONFIG_FILE) with
  | missing =>
      rw [found] at accepted
      dsimp only at accepted ⊢
      by_cases asked : name.isSome = true
      · rw [if_pos asked] at accepted
        exact absurd accepted (by decide : -ENOENT ≠ 0)
      rw [if_neg asked, if_neg asked]
      exact ⟨by simp, fun _ => agree_initial⟩
  | unopened errno =>
      rw [found] at accepted
      simp [errno.property] at accepted
  | text bytes =>
      rw [found] at accepted
      simp only [ConfigFile.text.injEq, forall_eq']
      exact parseLines_agree features (filePieces bytes) agree_initial accepted

theorem resume_allowed (features : Features) (opts : List Opt) :
    (resume features).HacksAllowed opts := by
  intro env both
  cases both

theorem takeOperand_agrees (features : Features) (both : Option S2ramRun) (operands : List Bytes)
    {saving : Store SuspendVar} {loading : Store ResumeVar} (agree : Agree saving loading) :
    Agree ((suspend features both).takeOperand operands saving)
      ((resume features).takeOperand operands loading) := by
  cases operands with
  | nil => exact agree
  | cons name rest => exact agree.update rfl _

theorem resume_within (both : Bool) : resumeOptions.Within (suspendOptions both) where
  short := by decide +kernel +revert
  letters := by decide +kernel +revert
  long := by decide +kernel +revert
  unique := by decide +kernel +revert
  names := by decide +kernel +revert
  vals := by decide +kernel +revert

/-- `s2both` cannot tell what `--p` abbreviates, where `resume` takes it for `--parameter`. -/
example :
    ((suspendOptions true).scan none [ascii "--p", ascii "resume offset=7"]).returned = [none] ∧
    (resumeOptions.scan none [ascii "--p", ascii "resume offset=7"]).returned =
      [some ('P'.toNat, ascii "resume offset=7")] := by
  decide +kernel

theorem Reads.knows {option : Opt} (reads : Reads option) : resumeOptions.Knows option.opt := by
  have known : ∀ val ∈ ['f'.toNat, 'o'.toNat, 'r'.toNat, 'P'.toNat], resumeOptions.Knows val := by
    decide +kernel
  exact known _ reads.1

theorem not_reads_returned : ¬ Reads (Opt.returned none) := by
  unfold Reads
  decide

/-- `s2disk` and `resume` refuse what `getopt_long` does. -/
theorem takeOptions_known {Var : Type} [DecidableEq Var] {program : Program Var}
    (named : ∀ par ∈ program.parameters, par.name ≠ []) (alone : program.both = none)
    {opts : List Opt} {store : Store Var} {hacks : Hacks}
    (success : (program.takeOptions opts store hacks).1 = 0) : Opt.returned none ∉ opts := by
  intro refused
  have said := takeOptions_said named opts store hacks
  rw [accepted, if_pos success, eq_comm, run_eq_some_iff] at said
  apply said.1
  have unknown : program.optionSaid (Opt.returned none) = none := by
    simp [optionSaid, Opt.returned, alone]
  exact unknown ▸ List.mem_map_of_mem refused

/-- Unless an option is refused, both programs find the same in their two passes, or `resume`
refuses an option that it does not know. -/
theorem passes_agree (features : Features) (both : Option S2ramRun) {argv : List Bytes}
    (known : none ∉ ((suspend features both).options.scan none argv).returned) :
    ((resume features).firstPass argv = (suspend features both).firstPass argv ∧
      (resume features).secondPass argv = (suspend features both).secondPass argv) ∨
    Opt.returned none ∈ ((resume features).secondPass argv).opts ∧
      ∃ option ∈ ((suspend features both).secondPass argv).opts, ¬ Reads option := by
  unfold firstPass secondPass
  rw [Foundation.Getopt.Options.scan_permuted, Foundation.Getopt.Options.scan_permuted]
  rcases (resume_within both.isSome).scan known with same | ⟨refused, val, met, unknown⟩
  · change resumeOptions.scan none argv = (suspend features both).options.scan none argv at same
    left
    change CommandLine.ofScan (resumeOptions.scan none argv) = _ ∧
      CommandLine.ofScan (resumeOptions.scan none argv).again = _
    rw [same]
    exact ⟨rfl, rfl⟩
  · refine .inr ⟨List.mem_map_of_mem (Foundation.Getopt.Scan.again_returned _ refused), ?_⟩
    rcases Foundation.Getopt.Scan.again_meets met with ⟨arg, returned⟩ | missing
    · exact ⟨⟨val, arg⟩, List.mem_map_of_mem returned, fun reads => unknown reads.knows⟩
    · exact ⟨Opt.returned none, List.mem_map_of_mem missing, not_reads_returned⟩

/-- `s2disk` or `s2both`, and `resume`, on one command line, of which `s2both` knows all options,
and the same files. Once the first has accepted them, `resume` accepts them if and only if it knows
the options, and can read what the configuration file and the options say of `max loglevel`. Then
both have the same snapshot device, resume device and resume offset. -/
theorem command_lines_agree (features : Features) (both : Option S2ramRun)
    (files : Bytes → ConfigFile) (argv : List Bytes) {saving : Store SuspendVar} {hacks : Hacks}
    (known : both.isSome = true →
      none ∉ ((suspend features both).options.scan none argv).returned)
    (accepted : (suspend features both).getConfig files argv SuspendVar.initial =
      some (0, saving, hacks)) :
    ((∃ loading hacks, (resume features).getConfig files argv ResumeVar.initial =
        some (0, loading, hacks)) ↔
      (∀ option ∈ ((suspend features both).secondPass argv).opts, Reads option) ∧
        ∀ bytes, files ((lastName ((suspend features both).firstPass argv).opts).getD CONFIG_FILE) =
            .text bytes →
          ∀ piece ∈ filePieces bytes, maxLoglevelReadable piece = true) ∧
    ∀ loading hacks, (resume features).getConfig files argv ResumeVar.initial =
        some (0, loading, hacks) → Agree saving loading := by
  obtain ⟨stays, read, taken, -, left⟩ :=
    ((suspend features both).getConfig_steps files argv _ _).mp ⟨hacks, accepted⟩
  have succeeds := fun loading =>
    (resume features).getConfig_steps files argv ResumeVar.initial loading
  have heard : none ∉ ((suspend features both).options.scan none argv).returned := by
    cases alone : both with
    | some env => simpa [alone] using known (by rw [alone]; rfl)
    | none =>
        subst alone
        intro refused
        have again : Opt.returned none ∈ ((suspend features none).secondPass argv).opts := by
          unfold secondPass
          rw [Foundation.Getopt.Options.scan_permuted]
          exact List.mem_map_of_mem (Foundation.Getopt.Scan.again_returned _ refused)
        exact takeOptions_known SuspendVar.named rfl taken again
  rcases passes_agree features both heard with
    ⟨sameFirst, sameSecond⟩ | ⟨refused, option, met, lost⟩
  · rw [sameFirst, sameSecond] at succeeds
    obtain ⟨reads, agrees⟩ := readFile_agrees features both files _ read
    have options := fun read' => takeOptions_agree features both
      ((suspend features both).secondPass argv).opts (agrees read') Hacks.initial Hacks.initial
      taken
    constructor
    · rw [exists_congr succeeds]
      constructor
      · rintro ⟨loading, -, read', taken', -⟩
        exact ⟨(options read').1.mp taken', reads.mp read'⟩
      · rintro ⟨known, readable⟩
        have read' := reads.mpr readable
        exact ⟨_, stays, read', (options read').1.mpr known, resume_allowed features _, rfl⟩
    · intro loading hacks' returns
      obtain ⟨-, read', taken', -, left'⟩ := (succeeds loading).mp ⟨hacks', returns⟩
      rw [← left, ← left']
      exact takeOperand_agrees features both _ ((options read').2 taken')
  · have refuses : ∀ loading hacks, (resume features).getConfig files argv ResumeVar.initial ≠
        some (0, loading, hacks) := by
      intro loading hacks' returns
      obtain ⟨-, -, taken', -⟩ := (succeeds loading).mp ⟨hacks', returns⟩
      exact takeOptions_known ResumeVar.named rfl taken' refused
    refine ⟨iff_of_false ?_ fun both => lost (both.1 option met), ?_⟩
    · rintro ⟨loading, hacks', returns⟩
      exact refuses loading hacks' returns
    · intro loading hacks' returns
      exact absurd returns (refuses loading hacks')

theorem overriding_agrees : ∃ saving loading hacks hacks',
    (suspend .all none).getConfig (fun _ => .missing) overriding SuspendVar.initial =
      some (0, saving, hacks) ∧
    (resume .all).getConfig (fun _ => .missing) overriding ResumeVar.initial =
      some (0, loading, hacks') ∧
    saving .resumeOffset = .number 5 ∧ saving .resumeDevName = loading .resumeDevName := by
  have saves : ∃ saving hacks,
      (suspend .all none).getConfig (fun _ => .missing) overriding SuspendVar.initial =
        some (0, saving, hacks) ∧ saving .resumeOffset = .number 5 := ⟨_, _, rfl, rfl⟩
  obtain ⟨saving, hacks, saves, offset⟩ := saves
  obtain ⟨accepts, agrees⟩ := command_lines_agree .all none (fun _ => .missing) overriding
    (fun both => absurd both Bool.false_ne_true) saves
  obtain ⟨loading, hacks', loads⟩ := accepts.mpr ⟨by unfold Reads; decide +kernel, by simp⟩
  exact ⟨saving, loading, hacks, hacks', saves, loads, offset,
    agrees loading hacks' loads .resumeDevice⟩

end Program

end Suspend
