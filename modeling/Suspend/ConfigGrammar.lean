import Suspend.ConfigLines
import Suspend.Foundation.CStrings
import Suspend.SharedConfig

set_option autoImplicit false

namespace Suspend

open Foundation.CStrings

/-- What the memory of a variable holds. -/
inductive Content where
  | array (bytes : Bytes)
  | letter (byte : UInt8)
  | number (value : Int)
deriving DecidableEq, Repr

/-- The memory that the entries of a table point to. -/
abbrev Variables (Var : Type) := Var → Content

namespace Content

/-- What a program reads from a variable. -/
def setting : Content → Setting
  | array bytes => .text (string bytes)
  | letter byte => .letter byte
  | number value => .number value

/-- `strncpy` to an array. -/
def strncpy (src : Bytes) (count : Nat) : Content → Content
  | array dst => .array (Foundation.CStrings.strncpy dst src count)
  | letter byte => .letter byte
  | number value => .number value

end Content

/-- What `sscanf` stores. -/
def Setting.content : Setting → Content
  | text bytes => .array (bytes ++ [0])
  | letter byte => .letter byte
  | number value => .number value

namespace Variables

variable {Var : Type} [DecidableEq Var]

/-- The variables as a program reads them. -/
def settings (memory : Variables Var) : Store Var := fun var => (memory var).setting

/-- The assignment of a value that is not empty. -/
def assign (par : ConfigPar Var) (var : Var) (str : Bytes) (memory : Variables Var) :
    Int × Variables Var :=
  if par.fmt = .s then
    (0, Function.update memory var ((memory var).strncpy str (par.len - 1)))
  else
    match sscanf par.fmt str with
    | none => (-EINVAL, memory)
    | some value => (0, Function.update memory var value.content)

/-- The comparison with the parameter names, on the arrays themselves. -/
def parseNames : List (ConfigPar Var) → Bytes → Variables Var → Int × Variables Var
  | [], _, memory => (0, memory)
  | par :: rest, str, memory =>
      if par.name.isPrefixOf str then
        match par.ptr with
        | none => (0, memory)
        | some var =>
            match (str.drop par.name.length).dropWhile isBlank with
            | [] => (-EINVAL, memory)
            | separator :: str =>
                if separator ≠ 0x3a ∧ separator ≠ 0x3d then (-EINVAL, memory)
                else if settingOf str = [] then parseNames rest [] memory
                else assign par var (settingOf str) memory
      else parseNames rest str memory

/-- `parse_line`, on the arrays themselves. -/
def parseLine (parv : List (ConfigPar Var)) (str : Bytes) (memory : Variables Var) :
    Int × Variables Var :=
  let str := str.dropWhile isSpace
  if str = [] then (0, memory)
  else if str.head? = some 0x23 then (0, memory)
  else parseNames parv str memory

/-- The loop of `parse`, on the arrays themselves. -/
def parseLines (parv : List (ConfigPar Var)) :
    List Bytes → Variables Var → Int × Variables Var
  | [], memory => (0, memory)
  | str :: rest, memory =>
      let parsed := parseLine parv str memory
      if parsed.1 ≠ 0 then parsed else parseLines parv rest parsed.2

/-- The variables are what the table says: arrays of `len` bytes, the last of them a NUL, for the
strings, and no arrays for the other formats. -/
structure Fits (parv : List (ConfigPar Var)) (memory : Variables Var) : Prop where
  arrays : ∀ par ∈ parv, ∀ var, par.ptr = some var → par.fmt = .s →
    ∃ bytes, memory var = .array bytes ∧ bytes.length = par.len ∧ bytes.getLast? = some 0
  others : ∀ par ∈ parv, ∀ var, par.ptr = some var → par.fmt ≠ .s →
    ∀ bytes, memory var ≠ .array bytes

end Variables

/-- What a line is good for. -/
inductive Verdict (Var : Type) where
  | ignored
  | refused
  | sets (var : Var) (value : Setting)

/-- A line has something to say, and it is about an entry: the first one of its name. -/
structure About {Var : Type} (parv : List (ConfigPar Var)) (str : Bytes) (par : ConfigPar Var) :
    Prop where
  present : str ≠ []
  comment : str.head? ≠ some 0x23
  first : parv.find? (fun other => other.name = par.name) = some par
  named : par.name <+: str

/-- A name, blanks, a separator and what stands behind it. -/
def Behind (name str rest : Bytes) : Prop :=
  ∃ blanks separator, (∀ byte ∈ blanks, isBlank byte) ∧ (separator = 0x3a ∨ separator = 0x3d) ∧
    str = name ++ blanks ++ separator :: rest

/-- What a line, without the white space at its start, says. The value is made of what stands behind
the separator. -/
inductive Means {Var : Type} (value : Bytes → Bytes) (parv : List (ConfigPar Var)) (str : Bytes) :
    Verdict Var → Prop where
  | blank : str = [] → Means value parv str .ignored
  | comment : str.head? = some 0x23 → Means value parv str .ignored
  | unnamed : (∀ par ∈ parv, ¬ par.name <+: str) → Means value parv str .ignored
  | skipped {par : ConfigPar Var} : About parv str par → par.ptr = none →
      Means value parv str .ignored
  | malformed {par : ConfigPar Var} {var : Var} : About parv str par → par.ptr = some var →
      (∀ rest, ¬ Behind par.name str rest) → Means value parv str .refused
  | empty {par : ConfigPar Var} {var : Var} {rest : Bytes} : About parv str par →
      par.ptr = some var → Behind par.name str rest → value rest = [] →
      Means value parv str .ignored
  | text {par : ConfigPar Var} {var : Var} {rest : Bytes} : About parv str par →
      par.ptr = some var → Behind par.name str rest → value rest ≠ [] → par.fmt = .s →
      Means value parv str (.sets var (.text ((value rest).take (par.len - 1))))
  | unreadable {par : ConfigPar Var} {var : Var} {rest : Bytes} : About parv str par →
      par.ptr = some var → Behind par.name str rest → value rest ≠ [] → par.fmt ≠ .s →
      sscanf par.fmt (value rest) = none → Means value parv str .refused
  | scanned {par : ConfigPar Var} {var : Var} {rest : Bytes} {setting : Setting} :
      About parv str par → par.ptr = some var → Behind par.name str rest → value rest ≠ [] →
      par.fmt ≠ .s → sscanf par.fmt (value rest) = some setting →
      Means value parv str (.sets var setting)

/-- What `parse_line` is to make of a line. -/
def Verdict.Meets {Var : Type} (memory : Variables Var) (result : Int × Variables Var) :
    Verdict Var → Prop
  | ignored => result = (0, memory)
  | refused => result = (-EINVAL, memory)
  | sets var value => result.1 = 0 ∧ (result.2 var).setting = value ∧
      ∀ other ≠ var, result.2 other = memory other

/-- No name is the beginning of another one. -/
def Apart {Var : Type} (parv : List (ConfigPar Var)) : Prop :=
  ∀ one ∈ parv, ∀ other ∈ parv, one.name <+: other.name → one.name = other.name

namespace Variables

variable {Var : Type} [DecidableEq Var] {parv : List (ConfigPar Var)} {memory : Variables Var}

omit [DecidableEq Var] in
theorem Fits.tail {par : ConfigPar Var} (fits : Fits (par :: parv) memory) :
    Fits parv memory where
  arrays := fun other member => fits.arrays other (List.mem_cons_of_mem par member)
  others := fun other member => fits.others other (List.mem_cons_of_mem par member)

theorem array_positive {bytes : Bytes} (closed : bytes.getLast? = some 0) : 0 < bytes.length := by
  apply List.length_pos_iff.mpr
  rintro rfl
  cases closed

omit [DecidableEq Var] in
theorem setting_strncpy {par : ConfigPar Var} {var : Var} (fits : Fits parv memory)
    (member : par ∈ parv) (points : par.ptr = some var) (fmt : par.fmt = .s) {str : Bytes}
    (free : 0 ∉ str) :
    ((memory var).strncpy str (par.len - 1)).setting = .text (str.take (par.len - 1)) := by
  obtain ⟨bytes, array, size, closed⟩ := fits.arrays par member var points fmt
  have positive := array_positive closed
  rw [array]
  exact congrArg Setting.text (string_strncpy free (by omega) closed)

theorem sscanf_content {fmt : Format} (other : fmt ≠ .s) {str : Bytes} {value : Setting}
    (scanned : sscanf fmt str = some value) :
    value.content.setting = value ∧ ∀ bytes, value.content ≠ .array bytes := by
  have text : ∀ bytes, value ≠ .text bytes := by
    rintro bytes rfl
    cases fmt <;> simp [sscanf] at scanned other
  cases value with
  | text bytes => exact absurd rfl (text bytes)
  | letter byte => exact ⟨rfl, fun bytes => Content.noConfusion⟩
  | number value => exact ⟨rfl, fun bytes => Content.noConfusion⟩

/-- A variable may hold what all entries that point to it are about. -/
theorem Fits.update {var : Var} {content : Content} (fits : Fits parv memory)
    (arrays : ∀ par ∈ parv, par.ptr = some var → par.fmt = .s →
      ∃ bytes, content = .array bytes ∧ bytes.length = par.len ∧ bytes.getLast? = some 0)
    (others : ∀ par ∈ parv, par.ptr = some var → par.fmt ≠ .s →
      ∀ bytes, content ≠ .array bytes) : Fits parv (Function.update memory var content) := by
  constructor
  · intro par member place points fmt
    by_cases same : place = var
    · rw [same, Function.update_self]
      exact arrays par member (same ▸ points) fmt
    · rw [Function.update_of_ne same]
      exact fits.arrays par member place points fmt
  · intro par member place points fmt
    by_cases same : place = var
    · rw [same, Function.update_self]
      exact others par member (same ▸ points) fmt
    · rw [Function.update_of_ne same]
      exact fits.others par member place points fmt

theorem assign_fits {par : ConfigPar Var} {var : Var} (fits : Fits parv memory)
    (member : par ∈ parv) (points : par.ptr = some var) (str : Bytes) :
    Fits parv (assign par var str memory).2 := by
  unfold assign
  split
  · next fmt =>
      obtain ⟨bytes, array, size, closed⟩ := fits.arrays par member var points fmt
      have positive := array_positive closed
      rw [array]
      apply fits.update
      · intro other inside points' fmt'
        obtain ⟨_, array', size', _⟩ := fits.arrays other inside var points' fmt'
        rw [array] at array'
        cases array'
        refine ⟨Foundation.CStrings.strncpy bytes str (par.len - 1), rfl, ?_, ?_⟩
        · rw [length_strncpy str (by omega), size']
        · rw [getLast_strncpy str (by omega), closed]
      · intro other inside points' fmt'
        exact absurd array (fits.others other inside var points' fmt' bytes)
  · next fmt =>
      cases scanned : sscanf par.fmt str with
      | none => exact fits
      | some value =>
          apply fits.update
          · intro other inside points' fmt'
            obtain ⟨bytes, array, _⟩ := fits.arrays other inside var points' fmt'
            exact absurd array (fits.others par member var points fmt bytes)
          · intro other inside points' fmt'
            exact (sscanf_content fmt scanned).2

/-- The loop over some of the entries keeps what holds of all of them. -/
theorem parseNames_fits {some : List (ConfigPar Var)} (inside : some ⊆ parv)
    (fits : Fits parv memory) (str : Bytes) : Fits parv (parseNames some str memory).2 := by
  induction some generalizing str with
  | nil => exact fits
  | cons par rest ih =>
      have later := ih (List.subset_of_cons_subset inside)
      unfold parseNames
      split
      · cases points : par.ptr with
        | none => exact fits
        | some var =>
            cases (str.drop par.name.length).dropWhile isBlank with
            | nil => exact fits
            | cons separator value =>
                dsimp only
                split
                · exact fits
                · split
                  · exact later []
                  · exact assign_fits fits (inside List.mem_cons_self) points (settingOf value)
      · exact later str

theorem parseLine_fits (fits : Fits parv memory) (line : Bytes) :
    Fits parv (parseLine parv line memory).2 := by
  unfold parseLine
  dsimp only
  split
  · exact fits
  · split
    · exact fits
    · exact parseNames_fits (List.Subset.refl parv) fits _

theorem settingOf_free {str : Bytes} (free : 0 ∉ str) : 0 ∉ settingOf str := by
  intro present
  apply free
  exact (List.dropWhile_sublist isBlank).subset ((List.rdropWhile_prefix isSpace _).subset present)

theorem settings_update (var : Var) (content : Content) :
    settings (Function.update memory var content) =
      Function.update memory.settings var content.setting := by
  funext other
  by_cases same : other = var
  · rw [same, settings, Function.update_self, Function.update_self]
  · rw [settings, Function.update_of_ne same, Function.update_of_ne same, settings]

theorem parseNames_settings (fits : Fits parv memory) {str : Bytes} (free : 0 ∉ str) :
    Suspend.parseNames parv str memory.settings =
      ((parseNames parv str memory).1, (parseNames parv str memory).2.settings) := by
  induction parv generalizing str with
  | nil => rfl
  | cons par rest ih =>
      unfold parseNames Suspend.parseNames
      split
      · cases points : par.ptr with
        | none => rfl
        | some var =>
            cases behind : (str.drop par.name.length).dropWhile isBlank with
            | nil => rfl
            | cons separator value =>
                have free' : 0 ∉ value := by
                  intro present
                  apply free
                  apply List.mem_of_mem_drop
                  apply (List.dropWhile_sublist isBlank).subset
                  rw [behind]
                  exact List.mem_cons_of_mem separator present
                dsimp only
                split
                · rfl
                · split
                  · exact ih fits.tail List.not_mem_nil
                  · unfold assign
                    split
                    · next fmt =>
                        rw [settings_update, setting_strncpy fits List.mem_cons_self points fmt
                          (settingOf_free free')]
                    · next fmt =>
                        cases scanned : sscanf par.fmt (settingOf value) with
                        | none => rfl
                        | some value => rw [settings_update, (sscanf_content fmt scanned).1]
      · exact ih fits.tail free

theorem parseLine_settings (fits : Fits parv memory) {line : Bytes} (free : 0 ∉ line) :
    Suspend.parseLine parv line memory.settings =
      ((parseLine parv line memory).1, (parseLine parv line memory).2.settings) := by
  unfold parseLine Suspend.parseLine
  dsimp only
  split
  · rfl
  · split
    · rfl
    · exact parseNames_settings fits
        fun present => free ((List.dropWhile_sublist isSpace).subset present)

/-- After any lines the arrays are what the table says, and they hold what the model of the whole
file says. -/
theorem parseLines_settings {strs : List Bytes} (free : ∀ str ∈ strs, 0 ∉ str)
    (fits : Fits parv memory) :
    Fits parv (parseLines parv strs memory).2 ∧
      Suspend.parseLines parv strs memory.settings =
        ((parseLines parv strs memory).1, (parseLines parv strs memory).2.settings) := by
  induction strs generalizing memory with
  | nil => exact ⟨fits, rfl⟩
  | cons str strs ih =>
      have first := parseLine_settings fits (free str List.mem_cons_self)
      have kept := parseLine_fits fits str
      have rest := ih (fun other member => free other (List.mem_cons_of_mem str member)) kept
      rw [parseLines, Suspend.parseLines, first]
      dsimp only
      split
      · exact ⟨kept, rfl⟩
      · exact rest

end Variables

section Grammar

variable {Var : Type} {parv : List (ConfigPar Var)} {str : Bytes} {par : ConfigPar Var}

/-- In front of the entry that a line is about there is no other name that the line starts with. -/
theorem About.split (apart : Apart parv) (about : About parv str par) :
    ∃ front back, parv = front ++ par :: back ∧ ∀ other ∈ front, ¬ other.name <+: str := by
  obtain ⟨_, front, back, split, different⟩ := List.find?_eq_some_iff_append.mp about.first
  refine ⟨front, back, split, fun other inside starts => ?_⟩
  have mine : par ∈ parv := by simp [split]
  have present : other ∈ parv := by simp [split, inside]
  have same : other.name = par.name := by
    rcases List.prefix_or_prefix_of_prefix starts about.named with shorter | longer
    · exact apart other present par mine shorter
    · exact (apart par mine other present longer).symm
  simpa [same] using different other inside

/-- An entry whose name the line starts with, or a namesake in front of it, is what the line is
about. -/
theorem about_of_mem (present : str ≠ []) (comment : str.head? ≠ some 0x23) (member : par ∈ parv)
    (named : par.name <+: str) : ∃ first, About parv str first := by
  cases found : parv.find? fun other => other.name = par.name with
  | none =>
      rw [List.find?_eq_none] at found
      exact absurd (decide_eq_true rfl) (found par member)
  | some first =>
      have same : first.name = par.name := by simpa using List.find?_some found
      exact ⟨first, present, comment, by rw [same, found], by rw [same]; exact named⟩

/-- Where the name ends, the rest of the loop finds a separator or none. -/
theorem behind_iff {name rest : Bytes} (named : name <+: str) :
    Behind name str rest ↔ ∃ separator, (separator = 0x3a ∨ separator = 0x3d) ∧
      (str.drop name.length).dropWhile isBlank = separator :: rest := by
  obtain ⟨tail, rfl⟩ := named
  rw [List.drop_left]
  constructor
  · rintro ⟨blanks, separator, blank, allowed, same⟩
    rw [List.append_assoc, List.append_cancel_left_eq] at same
    have visible : isBlank separator = false := by
      rcases allowed with rfl | rfl <;> rfl
    refine ⟨separator, allowed, ?_⟩
    rw [same, List.dropWhile_append_of_pos blank, List.dropWhile_cons_of_neg (by simp [visible])]
  · rintro ⟨separator, allowed, behind⟩
    refine ⟨tail.takeWhile isBlank, separator, fun byte => List.mem_takeWhile_imp, allowed, ?_⟩
    rw [← behind, List.append_assoc, List.takeWhile_append_dropWhile]

/-- The cases of the grammar leave no line out. -/
theorem means_some (value : Bytes → Bytes) (parv : List (ConfigPar Var)) (str : Bytes) :
    ∃ verdict, Means value parv str verdict := by
  by_cases present : str = []
  · exact ⟨_, .blank present⟩
  by_cases comment : str.head? = some 0x23
  · exact ⟨_, .comment comment⟩
  by_cases unnamed : ∀ par ∈ parv, ¬ par.name <+: str
  · exact ⟨_, .unnamed unnamed⟩
  push Not at unnamed
  obtain ⟨_, member, named⟩ := unnamed
  obtain ⟨par, about⟩ := about_of_mem present comment member named
  cases points : par.ptr with
  | none => exact ⟨_, .skipped about points⟩
  | some var =>
      by_cases malformed : ∀ rest, ¬ Behind par.name str rest
      · exact ⟨_, .malformed about points malformed⟩
      push Not at malformed
      obtain ⟨rest, behind⟩ := malformed
      by_cases empty : value rest = []
      · exact ⟨_, .empty about points behind empty⟩
      by_cases fmt : par.fmt = .s
      · exact ⟨_, .text about points behind empty fmt⟩
      cases scanned : sscanf par.fmt (value rest) with
      | none => exact ⟨_, .unreadable about points behind empty fmt scanned⟩
      | some setting => exact ⟨_, .scanned about points behind empty fmt scanned⟩

end Grammar

namespace Variables

variable {Var : Type} [DecidableEq Var] {parv : List (ConfigPar Var)} {memory : Variables Var}

theorem parseNames_append {front : List (ConfigPar Var)} {str : Bytes}
    (passed : ∀ other ∈ front, ¬ other.name <+: str) (back : List (ConfigPar Var)) :
    parseNames (front ++ back) str memory = parseNames back str memory := by
  induction front with
  | nil => rfl
  | cons par front ih =>
      have other : ¬ par.name.isPrefixOf str = true := by
        rw [List.isPrefixOf_iff_prefix]
        exact passed par List.mem_cons_self
      rw [List.cons_append, parseNames, if_neg other]
      exact ih fun later inside => passed later (List.mem_cons_of_mem par inside)

theorem parseNames_unnamed {str : Bytes} (unnamed : ∀ par ∈ parv, ¬ par.name <+: str) :
    parseNames parv str memory = (0, memory) := by
  rw [← List.append_nil parv, parseNames_append unnamed]
  rfl

/-- What the loop does at an entry whose name the line starts with. -/
theorem parseNames_cons {par : ConfigPar Var} {str : Bytes} (named : par.name <+: str)
    (back : List (ConfigPar Var)) :
    (par.ptr = none → parseNames (par :: back) str memory = (0, memory)) ∧
    ∀ var, par.ptr = some var →
      ((∀ rest, ¬ Behind par.name str rest) →
        parseNames (par :: back) str memory = (-EINVAL, memory)) ∧
      ∀ rest, Behind par.name str rest → parseNames (par :: back) str memory =
        if settingOf rest = [] then parseNames back [] memory
        else assign par var (settingOf rest) memory := by
  have starts : par.name.isPrefixOf str = true := List.isPrefixOf_iff_prefix.mpr named
  rw [parseNames, if_pos starts]
  refine ⟨fun points => by rw [points], fun var points => ?_⟩
  rw [points]
  constructor
  · intro malformed
    cases found : (str.drop par.name.length).dropWhile isBlank with
    | nil => rfl
    | cons separator value =>
        have wrong : separator ≠ 0x3a ∧ separator ≠ 0x3d := by
          rw [← not_or]
          intro allowed
          exact malformed value ((behind_iff named).mpr ⟨separator, allowed, found⟩)
        exact if_pos wrong
  · intro rest behind
    obtain ⟨separator, allowed, found⟩ := (behind_iff named).mp behind
    have right : ¬ (separator ≠ 0x3a ∧ separator ≠ 0x3d) := by
      rw [← not_or, not_not]
      exact allowed
    rw [found]
    exact if_neg right

theorem parseNames_empty {back : List (ConfigPar Var)} (named : ∀ par ∈ back, par.name ≠ []) :
    parseNames back [] memory = (0, memory) := by
  apply parseNames_unnamed
  intro par inside starts
  exact named par inside (List.prefix_nil.mp starts)

theorem parseLine_about (apart : Apart parv) (named : ∀ par ∈ parv.tail, par.name ≠ [])
    {line : Bytes} {par : ConfigPar Var} (about : About parv (line.dropWhile isSpace) par) :
    ∃ back, parseNames back [] memory = (0, memory) ∧
      parseLine parv line memory =
        parseNames (par :: back) (line.dropWhile isSpace) memory := by
  obtain ⟨front, back, split, passed⟩ := about.split apart
  have behind : ∀ other ∈ back, other ∈ parv.tail := by
    intro other inside
    rw [split]
    cases front <;> simp [inside]
  refine ⟨back, parseNames_empty fun other inside => named other (behind other inside), ?_⟩
  rw [parseLine, if_neg about.present, if_neg about.comment]
  conv_lhs => rw [split]
  exact parseNames_append passed _

theorem assign_text {par : ConfigPar Var} {var : Var} {str : Bytes} (fits : Fits parv memory)
    (member : par ∈ parv) (points : par.ptr = some var) (fmt : par.fmt = .s) (free : 0 ∉ str) :
    (Verdict.sets var (.text (str.take (par.len - 1)))).Meets memory
      (assign par var str memory) := by
  rw [assign, if_pos fmt]
  refine ⟨rfl, ?_, fun other apart => Function.update_of_ne apart _ _⟩
  exact (congrArg Content.setting (Function.update_self ..)).trans
    (setting_strncpy fits member points fmt free)

theorem parseLine_meets (apart : Apart parv) (named : ∀ par ∈ parv.tail, par.name ≠ [])
    (fits : Fits parv memory) {line : Bytes} (free : 0 ∉ line) {verdict : Verdict Var}
    (meaning : Means settingOf parv (line.dropWhile isSpace) verdict) :
    verdict.Meets memory (parseLine parv line memory) := by
  cases meaning with
  | blank empty => exact if_pos empty
  | comment comment =>
      have present : line.dropWhile isSpace ≠ [] := by
        intro none
        rw [none] at comment
        cases comment
      rw [Verdict.Meets, parseLine]
      exact (if_neg present).trans (if_pos comment)
  | unnamed unnamed =>
      rw [Verdict.Meets, parseLine]
      split
      · rfl
      · split
        · rfl
        · exact parseNames_unnamed unnamed
  | skipped about points =>
      obtain ⟨back, _, reached⟩ := parseLine_about apart named about
      rw [reached]
      exact (parseNames_cons about.named back).1 points
  | malformed about points malformed =>
      obtain ⟨back, _, reached⟩ := parseLine_about apart named about
      rw [reached]
      exact ((parseNames_cons about.named back).2 _ points).1 malformed
  | empty about points behind empty =>
      obtain ⟨back, nothing, reached⟩ := parseLine_about apart named about
      rw [reached, ((parseNames_cons about.named back).2 _ points).2 _ behind, if_pos empty]
      exact nothing
  | @text par var rest about points behind present fmt =>
      obtain ⟨back, _, reached⟩ := parseLine_about apart named about
      rw [reached, ((parseNames_cons about.named back).2 _ points).2 _ behind, if_neg present]
      have free' : 0 ∉ rest := by
        obtain ⟨blanks, separator, _, _, same⟩ := behind
        intro zero
        apply free
        apply (List.dropWhile_sublist isSpace).subset
        simp [same, zero]
      exact assign_text fits (List.mem_of_find?_eq_some about.first) points fmt
        (settingOf_free free')
  | unreadable about points behind present fmt scanned =>
      obtain ⟨back, _, reached⟩ := parseLine_about apart named about
      rw [reached, ((parseNames_cons about.named back).2 _ points).2 _ behind, if_neg present,
        assign, if_neg fmt, scanned]
      rfl
  | @scanned par var rest setting about points behind present fmt scanned =>
      obtain ⟨back, _, reached⟩ := parseLine_about apart named about
      rw [reached, ((parseNames_cons about.named back).2 _ points).2 _ behind, if_neg present,
        assign, if_neg fmt, scanned]
      refine ⟨rfl, ?_, fun other apart => Function.update_of_ne apart _ _⟩
      exact (congrArg Content.setting (Function.update_self ..)).trans
        (sscanf_content fmt scanned).1

/-- Every line has a meaning under the grammar in which only blanks are left out in front of a
value, and `parse_line` does what it means and leaves the arrays as the table describes them. -/
theorem parseLine_grammar (apart : Apart parv) (named : ∀ par ∈ parv.tail, par.name ≠ [])
    (fits : Fits parv memory) {line : Bytes} (free : 0 ∉ line) :
    (∃ verdict, Means settingOf parv (line.dropWhile isSpace) verdict) ∧
      (∀ verdict, Means settingOf parv (line.dropWhile isSpace) verdict →
        verdict.Meets memory (parseLine parv line memory)) ∧
      Fits parv (parseLine parv line memory).2 :=
  ⟨means_some settingOf parv _, fun _ meaning => parseLine_meets apart named fits free meaning,
    parseLine_fits fits line⟩

end Variables

/-- The variables as they are declared, with the strings they are initialized with. -/
def declared {Var : Type} (sizes : Var → Nat) (initial : Store Var) : Variables Var := fun var =>
  match initial var with
  | .text bytes => .array (bytes ++ List.replicate (sizes var - bytes.length) 0)
  | .letter byte => .letter byte
  | .number value => .number value

/-- The variables of `s2ram.c`. -/
inductive S2ramVar where
  | s2ramForce
  | s2ramQuirks
deriving DecidableEq, Repr

namespace S2ramVar

/-- `s2ram_parameters`. -/
def parameters : List (ConfigPar S2ramVar) :=
  [⟨ascii "s2ram_force", .c, some s2ramForce, 0⟩,
    ⟨ascii "s2ram_quirks", .s, some s2ramQuirks, MAX_STR_LEN⟩]

/-- The values the variables start with. -/
def initial : Store S2ramVar
  | s2ramForce => .letter 0
  | s2ramQuirks => .text []

def memory : Variables S2ramVar := declared (fun _ => MAX_STR_LEN) initial

end S2ramVar

def SuspendVar.memory : Variables SuspendVar :=
  declared (fun var => if var = shutdownMethodValue then SHUTDOWN_LEN else MAX_STR_LEN) initial

def ResumeVar.memory : Variables ResumeVar := declared (fun _ => MAX_STR_LEN) initial

/-- An array of the size that an entry is about. -/
def Content.sized (len : Nat) : Content → Bool
  | array bytes => bytes.length = len ∧ bytes.getLast? = some 0
  | _ => false

def Content.isArray : Content → Bool
  | array _ => true
  | _ => false

theorem fits_of_sized {Var : Type} {parv : List (ConfigPar Var)} {memory : Variables Var}
    (sized : ∀ par ∈ parv, ∀ var ∈ par.ptr,
      if par.fmt = .s then (memory var).sized par.len else !(memory var).isArray) :
    memory.Fits parv := by
  constructor
  · intro par member var points fmt
    have holds := sized par member var points
    rw [if_pos fmt] at holds
    cases content : memory var with
    | array bytes =>
        rw [content] at holds
        exact ⟨bytes, rfl, by simpa [Content.sized] using holds⟩
    | letter byte =>
        rw [content] at holds
        cases holds
    | number value =>
        rw [content] at holds
        cases holds
  · intro par member var points fmt bytes array
    have holds := sized par member var points
    rw [if_neg fmt, array] at holds
    cases holds

/-- What the grammar asks of a table and of the variables. -/
structure Shipped {Var : Type} (parv : List (ConfigPar Var)) (memory : Variables Var) : Prop where
  apart : Apart parv
  named : ∀ par ∈ parv, par.name ≠ []
  fits : memory.Fits parv

theorem SuspendVar.shipped (features : Features) :
    Shipped (parameters features) memory where
  apart := by
    have all : Apart (parameters .all) := by
      unfold Apart
      decide +kernel
    exact fun one mine other yours => all one (parameters_all mine) other (parameters_all yours)
  named := named
  fits := by
    have all : memory.Fits (parameters .all) := fits_of_sized (by decide +kernel)
    exact ⟨fun par member => all.arrays par (parameters_all member),
      fun par member => all.others par (parameters_all member)⟩

theorem ResumeVar.shipped (features : Features) :
    Shipped (parameters features) memory where
  apart := by
    have all : Apart (parameters .all) := by
      unfold Apart
      decide +kernel
    exact fun one mine other yours => all one (parameters_all mine) other (parameters_all yours)
  named := named
  fits := by
    have all : memory.Fits (parameters .all) := fits_of_sized (by decide +kernel)
    exact ⟨fun par member => all.arrays par (parameters_all member),
      fun par member => all.others par (parameters_all member)⟩

theorem S2ramVar.shipped : Shipped parameters memory where
  apart := by
    unfold Apart
    decide +kernel
  named := by decide +kernel
  fits := fits_of_sized (by decide +kernel)

theorem filePieces_free (file : Bytes) : ∀ str ∈ filePieces file, 0 ∉ str := by
  fun_induction filePieces file with
  | case1 => simp
  | case2 byte rest ih =>
      rw [List.forall_mem_cons]
      refine ⟨fun present => ?_, ih⟩
      simpa using List.mem_takeWhile_imp present

/-- Whatever file a program has read with its table, the next line has its meaning. -/
theorem Shipped.later {Var : Type} [DecidableEq Var] {parv : List (ConfigPar Var)}
    {memory : Variables Var} (shipped : Shipped parv memory) (file : Bytes) :
    Shipped parv (Variables.parseLines parv (filePieces file) memory).2 where
  apart := shipped.apart
  named := shipped.named
  fits := (Variables.parseLines_settings (filePieces_free file) shipped.fits).1

/-- The variables of `s2ram` behind a line that forces it. -/
def forced : Variables S2ramVar :=
  (Variables.parseLines S2ramVar.parameters (filePieces (ascii "s2ram_force = y\n"))
    S2ramVar.memory).2

theorem quirks_stored :
    (∃ verdict, Means settingOf S2ramVar.parameters
        ((ascii " s2ram_quirks = vbe \n").dropWhile isSpace) verdict) ∧
      (∀ verdict, Means settingOf S2ramVar.parameters
          ((ascii " s2ram_quirks = vbe \n").dropWhile isSpace) verdict →
        verdict.Meets forced (Variables.parseLine S2ramVar.parameters
          (ascii " s2ram_quirks = vbe \n") forced)) ∧
      Variables.Fits S2ramVar.parameters (Variables.parseLine S2ramVar.parameters
        (ascii " s2ram_quirks = vbe \n") forced).2 :=
  Variables.parseLine_grammar S2ramVar.shipped.apart
    (fun par member => S2ramVar.shipped.named par (List.mem_of_mem_tail member))
    (S2ramVar.shipped.later (ascii "s2ram_force = y\n")).fits (by decide +kernel)

/-- A value without the white space on both sides. -/
def trimmed (str : Bytes) : Bytes := (str.dropWhile isSpace).rdropWhile isSpace

/-- A form feed behind the separator. -/
def formFeed : Bytes := ascii "s2ram_quirks=" ++ 0x0c :: ascii "vbe"

/-- Two entries without names. -/
def nameless : List (ConfigPar Unit) := [⟨[], .c, some (), 0⟩, ⟨[], .c, some (), 0⟩]

/-- White space that is no blank stays in front of a value, and behind an empty value the loop still
compares the empty line with the other names. -/
theorem form_feed_stored :
    (Shipped S2ramVar.parameters S2ramVar.memory ∧
      Means trimmed S2ramVar.parameters formFeed (.sets .s2ramQuirks (.text (ascii "vbe"))) ∧
      ¬ (Verdict.sets .s2ramQuirks (.text (ascii "vbe"))).Meets S2ramVar.memory
        (Variables.parseLine S2ramVar.parameters formFeed S2ramVar.memory)) ∧
    (Apart nameless ∧ Means trimmed nameless (ascii ":") .ignored ∧
      (Variables.parseLine nameless (ascii ":") fun _ => .letter 0).1 = -EINVAL) := by
  refine ⟨⟨S2ramVar.shipped, ?_, ?_⟩, ?_, ?_, by decide +kernel⟩
  · have other : ascii "s2ram_force" ≠ ascii "s2ram_quirks" := by decide +kernel
    have about : About S2ramVar.parameters formFeed
        ⟨ascii "s2ram_quirks", .s, some .s2ramQuirks, MAX_STR_LEN⟩ :=
      ⟨by decide +kernel, by decide +kernel, by simp [S2ramVar.parameters, other],
        by decide +kernel⟩
    have behind : Behind (ascii "s2ram_quirks") formFeed (0x0c :: ascii "vbe") :=
      ⟨[], 0x3d, by simp, Or.inr rfl, by decide +kernel⟩
    exact .text about rfl behind (by decide +kernel) rfl
  · rintro ⟨-, stored, -⟩
    revert stored
    decide +kernel
  · unfold Apart
    decide +kernel
  · have about : About nameless (ascii ":") ⟨[], .c, some (), 0⟩ :=
      ⟨by decide +kernel, by decide +kernel, by simp [nameless], by decide +kernel⟩
    have behind : Behind [] (ascii ":") [] := ⟨[], 0x3a, by simp, Or.inl rfl, by decide +kernel⟩
    exact .empty about rfl behind rfl

end Suspend
