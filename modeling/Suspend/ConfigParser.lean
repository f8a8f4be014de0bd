import Mathlib.Data.List.DropRight
import Mathlib.Logic.Function.Basic
import Suspend.AllocSwap
import Suspend.Foundation.Memory
import Suspend.Header

set_option autoImplicit false

namespace Suspend

open Foundation.Memory

/-- The bytes of a C string literal. -/
def ascii (text : String) : Bytes := text.toUTF8.data.toList

def MAX_STR_LEN : Nat := 256

/-- `isspace` in the C locale. -/
def isSpace (byte : UInt8) : Bool := byte = 0x20 ∨ 0x09 ≤ byte ∧ byte ≤ 0x0d

/-- `isblank` in the C locale. -/
def isBlank (byte : UInt8) : Bool := byte = 0x20 ∨ byte = 0x09

def isDigit (byte : UInt8) : Bool := 0x30 ≤ byte ∧ byte ≤ 0x39

/-- The conversions that the tables use. -/
inductive Format where
  /-- `"%s"`. -/
  | s
  /-- `"%c"`. -/
  | c
  /-- `"%d"`. -/
  | d
  /-- `"%lu"`. -/
  | lu
  /-- `"%llu"`. -/
  | llu
deriving DecidableEq, Repr

/-- What a variable that a parameter is stored in holds. -/
inductive Setting where
  | text (bytes : Bytes)
  | letter (byte : UInt8)
  | number (value : Int)
deriving DecidableEq, Repr

def decimal (digits : Bytes) : Nat :=
  digits.foldl (fun value digit => value * 10 + (digit.toNat - 0x30)) 0

/-- The sign and the magnitude of the integer that a string starts with. -/
def readInteger (str : Bytes) : Option (Bool × Nat) :=
  let str := str.dropWhile isSpace
  let negative := str.head? = some 0x2d
  let str := if str.head? = some 0x2d ∨ str.head? = some 0x2b then str.tail else str
  match str.takeWhile isDigit with
  | [] => none
  | digits => some (negative, decimal digits)

/-- `strtol`, stored in an `int`. -/
def storeInt (negative : Bool) (magnitude : Nat) : Int :=
  toSigned 32 (if negative then max (-2 ^ 63) (-magnitude) else min (2 ^ 63 - 1) magnitude)

/-- `strtoul`, stored in a `loff_t`. -/
def storeLong (negative : Bool) (magnitude : Nat) : Int :=
  toSigned 64 (if 2 ^ 64 ≤ magnitude then 2 ^ 64 - 1
    else if negative then -magnitude else magnitude)

/-- `sscanf` with one conversion: what it stores, or `none` where it returns `0` or `EOF`. -/
def sscanf (fmt : Format) (str : Bytes) : Option Setting :=
  match fmt with
  | .s => some (.text ((str.dropWhile isSpace).takeWhile fun byte => !isSpace byte))
  | .c => str.head?.map .letter
  | .d => (readInteger str).map fun read => .number (storeInt read.1 read.2)
  | .lu | .llu => (readInteger str).map fun read => .number (storeLong read.1 read.2)

/-- `struct config_par`. The pointer tells the variable of the program. -/
structure ConfigPar (Var : Type) where
  name : Bytes
  fmt : Format
  ptr : Option Var
  len : Nat

/-- The variables of a program. -/
abbrev Store (Var : Type) := Var → Setting

section Parser

variable {Var : Type} [DecidableEq Var]

/-- The value behind the separator, without the white space around it. -/
def settingOf (str : Bytes) : Bytes := (str.dropWhile isBlank).rdropWhile isSpace

/-- The comparison with the parameter names. An empty value does not leave the loop. -/
def parseNames : List (ConfigPar Var) → Bytes → Store Var → Int × Store Var
  | [], _, store => (0, store)
  | par :: rest, str, store =>
      if par.name.isPrefixOf str then
        match par.ptr with
        | none => (0, store)
        | some var =>
            match (str.drop par.name.length).dropWhile isBlank with
            | [] => (-EINVAL, store)
            | separator :: str =>
                if separator ≠ 0x3a ∧ separator ≠ 0x3d then (-EINVAL, store)
                else if settingOf str = [] then parseNames rest [] store
                else if par.fmt = .s then
                  -- `strncpy` into a buffer whose last byte stays zero
                  (0, Function.update store var (.text ((settingOf str).take (par.len - 1))))
                else
                  match sscanf par.fmt (settingOf str) with
                  | none => (-EINVAL, store)
                  | some value => (0, Function.update store var value)
      else parseNames rest str store

/-- `parse_line`, on a string without its terminating zero. -/
def parseLine (parv : List (ConfigPar Var)) (str : Bytes) (store : Store Var) : Int × Store Var :=
  let str := str.dropWhile isSpace
  if str = [] then (0, store)
  else if str.head? = some 0x23 then (0, store)
  else parseNames parv str store

/-- `fgets` with room for `size` bytes: what it reads, and the rest of the file. -/
def fgets : Nat → Bytes → Bytes × Bytes
  | 0, file => ([], file)
  | _, [] => ([], [])
  | size + 1, byte :: rest =>
      if byte = 0x0a then ([byte], rest)
      else (byte :: (fgets size rest).1, (fgets size rest).2)

omit [DecidableEq Var] in
theorem fgets_shorter (size : Nat) (file : Bytes) : (fgets size file).2.length ≤ file.length := by
  induction size generalizing file with
  | zero => exact Nat.le_refl _
  | succ size ih =>
      cases file with
      | nil => exact Nat.le_refl _
      | cons byte rest =>
          rw [fgets]
          split
          · exact Nat.le_succ _
          · exact Nat.le_succ_of_le (ih rest)

/-- The strings that the calls of `fgets` leave in the buffer. -/
def filePieces : Bytes → List Bytes
  | [] => []
  | byte :: rest =>
      (fgets (MAX_STR_LEN - 1) (byte :: rest)).1.takeWhile (· ≠ 0) ::
        filePieces (fgets (MAX_STR_LEN - 1) (byte :: rest)).2
termination_by file => file.length
decreasing_by
  rw [show MAX_STR_LEN - 1 = 254 + 1 from rfl, fgets]
  split
  · exact Nat.lt_succ_self _
  · exact Nat.lt_succ_of_le (fgets_shorter 254 rest)

/-- The loop of `parse`. -/
def parseLines (parv : List (ConfigPar Var)) : List Bytes → Store Var → Int × Store Var
  | [], store => (0, store)
  | str :: rest, store =>
      let parsed := parseLine parv str store
      if parsed.1 ≠ 0 then parsed else parseLines parv rest parsed.2

/-- `parse`, of a file that can be opened. -/
def parse (parv : List (ConfigPar Var)) (file : Bytes) (store : Store Var) : Int × Store Var :=
  parseLines parv (filePieces file) store

/-- What a line that starts with the name of an entry says: `none` if it is malformed, and
`some none` if the value is empty. -/
def ConfigPar.value (par : ConfigPar Var) (str : Bytes) : Option (Option Setting) :=
  match (str.drop par.name.length).dropWhile isBlank with
  | [] => none
  | separator :: str =>
      if separator ≠ 0x3a ∧ separator ≠ 0x3d then none
      else if settingOf str = [] then some none
      else if par.fmt = .s then some (some (.text ((settingOf str).take (par.len - 1))))
      else (sscanf par.fmt (settingOf str)).map some

/-- What `parse_line` makes of such a line. -/
def ConfigPar.assign (par : ConfigPar Var) (str : Bytes) (store : Store Var) : Int × Store Var :=
  match par.ptr with
  | none => (0, store)
  | some var =>
      match par.value str with
      | none => (-EINVAL, store)
      | some none => (0, store)
      | some (some value) => (0, Function.update store var value)

theorem parseNames_empty {parv : List (ConfigPar Var)} (named : ∀ par ∈ parv, par.name ≠ [])
    (store : Store Var) : parseNames parv [] store = (0, store) := by
  induction parv with
  | nil => rfl
  | cons par rest ih =>
      have different : par.name.isPrefixOf ([] : Bytes) = false := by
        have some := named par List.mem_cons_self
        cases name : par.name with
        | nil => exact absurd name some
        | cons first others => rfl
      rw [parseNames, different, if_neg Bool.false_ne_true]
      exact ih fun other member => named other (List.mem_cons_of_mem _ member)

/-- The loop stops at the first entry whose name the line starts with. -/
theorem parseNames_find {parv : List (ConfigPar Var)} (named : ∀ par ∈ parv, par.name ≠ [])
    (str : Bytes) (store : Store Var) :
    parseNames parv str store = match parv.find? fun par => par.name.isPrefixOf str with
      | none => (0, store)
      | some par => par.assign str store := by
  induction parv with
  | nil => rfl
  | cons par rest ih =>
      have later : ∀ other ∈ rest, other.name ≠ [] :=
        fun other member => named other (List.mem_cons_of_mem _ member)
      rw [parseNames, List.find?_cons]
      cases matches' : par.name.isPrefixOf str with
      | false =>
          rw [if_neg Bool.false_ne_true]
          exact ih later
      | true =>
          rw [if_pos rfl]
          dsimp only [ConfigPar.assign]
          cases par.ptr with
          | none => rfl
          | some var =>
              dsimp only [ConfigPar.value]
              cases (str.drop par.name.length).dropWhile isBlank with
              | nil => rfl
              | cons separator str =>
                  dsimp only
                  split
                  · rfl
                  · split
                    · exact parseNames_empty later store
                    · split
                      · rfl
                      · cases sscanf par.fmt (settingOf str) <;> rfl

end Parser

end Suspend
