import RecencyCache.Proofs.Json.Numerals
import RecencyCache.Config
import RecencyCache.Report
import Mathlib.Data.List.Induction
import Mathlib.Data.Nat.Digits.Defs

/-!
# Settings from the environment

A setting heeds one variable: it is what the text of this variable denotes between its blanks, and
the default if the variable is unset, is no text, or denotes nothing in range. What a natural number
and a truth value look like is said below without the reader. Hence settings that are written into
an environment, with blanks around them, are read back from it.
-/

namespace RecencyCache

/-! ## Blanks -/

namespace Text

/-- `core` is `text` without the blanks at its ends. -/
structure Trims (text core : List Char) : Prop where
  around : ∃ before after, text = before ++ core ++ after ∧
    (∀ c ∈ before, isBlank c = true) ∧ ∀ c ∈ after, isBlank c = true
  starts : ∀ c ∈ core.head?, isBlank c = false
  ends : ∀ c ∈ core.getLast?, isBlank c = false

/-- Blanks are dropped up to what is no blank. -/
theorem dropWhile_isBlank_append {blanks rest : List Char}
    (blank : ∀ c ∈ blanks, isBlank c = true) (starts : ∀ c ∈ rest.head?, isBlank c = false) :
    (blanks ++ rest).dropWhile isBlank = rest := by
  rw [List.dropWhile_append_of_pos blank]
  cases rest with
  | nil => rfl
  | cons c rest => rw [List.dropWhile_cons_of_neg (by simp [starts c rfl])]

/-- What is left of a text without the blanks at its start does not start with a blank. -/
theorem isBlank_of_mem_head?_dropWhile (text : List Char) :
    ∀ c ∈ (text.dropWhile isBlank).head?, isBlank c = false := by
  intro c member
  have stopped := List.head?_dropWhile_not isBlank text
  rw [Option.mem_def.mp member] at stopped
  exact stopped

theorem trims_trimmed (text : List Char) : Trims text (trimmed text) := by
  let trailing := ((text.dropWhile isBlank).reverse.takeWhile isBlank).reverse
  have back : trimmed text ++ trailing = text.dropWhile isBlank := by
    rw [trimmed, ← List.reverse_append, List.takeWhile_append_dropWhile, List.reverse_reverse]
  constructor
  · refine ⟨text.takeWhile isBlank, trailing, ?_, List.all_eq_true.mp List.all_takeWhile, ?_⟩
    · rw [List.append_assoc, back, List.takeWhile_append_dropWhile]
    · intro c member
      exact List.all_eq_true.mp List.all_takeWhile c (List.mem_reverse.mp member)
  · intro c member
    apply isBlank_of_mem_head?_dropWhile text
    rw [← back, List.head?_append, Option.mem_def.mp member]
    rfl
  · rw [trimmed, List.getLast?_reverse]
    exact isBlank_of_mem_head?_dropWhile _

theorem Trims.trimmed_eq {text core : List Char} (trims : Trims text core) :
    trimmed text = core := by
  obtain ⟨before, after, rfl, beforeBlank, afterBlank⟩ := trims.around
  cases core with
  | nil =>
      have blank : ∀ c ∈ before ++ after, isBlank c = true :=
        List.forall_mem_append.mpr ⟨beforeBlank, afterBlank⟩
      have gone : (before ++ after ++ []).dropWhile isBlank = [] :=
        dropWhile_isBlank_append blank (by simp)
      rw [List.append_nil] at gone
      rw [List.append_nil, trimmed, gone]
      rfl
  | cons c rest =>
      have front : (before ++ (c :: rest ++ after)).dropWhile isBlank = c :: rest ++ after :=
        dropWhile_isBlank_append beforeBlank trims.starts
      have back : (after.reverse ++ (c :: rest).reverse).dropWhile isBlank =
          (c :: rest).reverse := by
        apply dropWhile_isBlank_append (by simpa using afterBlank)
        rw [List.head?_reverse]
        exact trims.ends
      rw [List.append_assoc, trimmed, front, List.reverse_append, back, List.reverse_reverse]

/-- There is one text between the blanks. -/
theorem trimmed_eq_iff {text core : List Char} : trimmed text = core ↔ Trims text core :=
  ⟨fun same => same ▸ trims_trimmed text, Trims.trimmed_eq⟩

end Text

/-! ## What settings look like -/

/-- An optional plus sign and one or more decimal digits, of which any number of zeros may lead. The
last digit counts ones, the one before it tens, and so on. -/
inductive DenotesNatural : List Char → Nat → Prop where
  | unsigned {digits : List Char} : Json.IsDigits digits →
      DenotesNatural digits (Nat.ofDigits 10 (digits.reverse.map fun digit => digit.toNat - 48))
  | plus {digits : List Char} : Json.IsDigits digits →
      DenotesNatural ('+' :: digits)
        (Nat.ofDigits 10 (digits.reverse.map fun digit => digit.toNat - 48))

theorem digitsValue_eq (digits : List Char) :
    Decimal.digitsValue digits =
      Nat.ofDigits 10 (digits.reverse.map fun digit => digit.toNat - 48) := by
  induction digits using List.reverseRecOn with
  | nil => rfl
  | append_singleton digits digit ih =>
      rw [List.reverse_concat, List.map_cons, Nat.ofDigits_cons, ← ih, Decimal.digitsValue,
        List.foldl_append, Nat.add_comm]
      rfl

/-- What follows the plus sign, if there is one. -/
def unsigned (text : List Char) : List Char :=
  match text with
  | '+' :: rest => rest
  | _ => text

/-- A plus sign is no digit. -/
theorem unsigned_eq_self {digits : List Char} (isDigits : Json.IsDigits digits) :
    unsigned digits = digits := by
  rw [unsigned.eq_def]
  split
  · exact absurd (isDigits.run '+' (by simp)) (by decide)
  · rfl

theorem denotesNatural_iff {text : List Char} {number : Nat} :
    DenotesNatural text number ↔
      Json.IsDigits (unsigned text) ∧ Decimal.digitsValue (unsigned text) = number := by
  constructor
  · intro denotes
    cases denotes with
    | unsigned isDigits =>
        rw [unsigned_eq_self isDigits]
        exact ⟨isDigits, digitsValue_eq text⟩
    | plus isDigits => exact ⟨isDigits, digitsValue_eq _⟩
  · rintro ⟨isDigits, rfl⟩
    rw [digitsValue_eq]
    rw [unsigned.eq_def] at isDigits ⊢
    split at isDigits
    · exact .plus isDigits
    · exact .unsigned isDigits

/-- A natural number is read from what denotes one in range, and from nothing else. -/
theorem readNatural_eq_some_iff {limit number : Nat} {text : List Char} :
    readNatural limit text = some number ↔ DenotesNatural text number ∧ number ≤ limit := by
  have read : readNatural limit text =
      if unsigned text ≠ [] ∧ (unsigned text).all Char.isDigit = true ∧
        Decimal.digitsValue (unsigned text) ≤ limit then some (Decimal.digitsValue (unsigned text))
      else none := rfl
  rw [read, Option.ite_none_right_eq_some, denotesNatural_iff, Option.some.injEq]
  constructor
  · rintro ⟨⟨filled, run, fits⟩, rfl⟩
    exact ⟨⟨⟨filled, List.all_eq_true.mp run⟩, rfl⟩, fits⟩
  · rintro ⟨⟨isDigits, rfl⟩, fits⟩
    exact ⟨⟨isDigits.filled, List.all_eq_true.mpr isDigits.run, fits⟩, rfl⟩

/-- A truth value is read from its text, and from nothing else. -/
theorem readTruth_eq_some_iff {truth : Bool} {text : List Char} :
    readTruth text = some truth ↔ text = (truthText truth).toList := by
  constructor
  · intro read
    rw [readTruth] at read
    split at read
    · cases read
      assumption
    · obtain ⟨same, found⟩ := Option.ite_none_right_eq_some.mp read
      cases found
      exact same
  · rintro rfl
    cases truth <;> rfl

/-! ## Reading a variable -/

namespace Environment

variable {α : Type} {environment other : Environment} {name : String}
variable {Denotes : List Char → α → Prop}

/-- The text of a variable denotes a value between its blanks. -/
def States (environment : Environment) (name : String) (Denotes : List Char → α → Prop)
    (value : α) : Prop :=
  ∃ text core, environment.bindings.lookup name = some (String.ofList text).toUTF8 ∧
    Text.Trims text core ∧ Denotes core value

/-- A setting is what a variable states, and its default if the variable states nothing. -/
structure Decides (environment : Environment) (name : String) (Denotes : List Char → α → Prop)
    (default setting : α) : Prop where
  of_stated : ∀ value, environment.States name Denotes value → setting = value
  of_silent : (∀ value, ¬environment.States name Denotes value) → setting = default

/-- A variable holds a text with blanks around it. -/
def Holds (environment : Environment) (name : String) (core : List Char) : Prop :=
  ∃ before after,
    environment.bindings.lookup name = some (String.ofList (before ++ core ++ after)).toUTF8 ∧
    (∀ c ∈ before, Text.isBlank c = true) ∧ ∀ c ∈ after, Text.isBlank c = true

/-- What is read from a variable. -/
def read? (environment : Environment) (name : String) (read : List Char → Option α) : Option α :=
  ((environment.text? name).map Text.trimmed).bind read

/-- A variable is text if its bytes encode it. -/
theorem text?_eq_some_iff {text : List Char} :
    environment.text? name = some text ↔
      environment.bindings.lookup name = some (String.ofList text).toUTF8 := by
  simp only [text?, Option.bind_eq_some_iff, Option.map_eq_some_iff, String.toUTF8_eq_toByteArray]
  constructor
  · rintro ⟨bytes, bound, text, decoded, rfl⟩
    rw [String.fromUTF8?] at decoded
    split at decoded
    · cases decoded
      rw [bound, String.ofList_toList]
      rfl
    · cases decoded
  · intro bound
    refine ⟨_, bound, String.ofList text, ?_, String.toList_ofList⟩
    rw [String.fromUTF8?, dif_pos (String.ofList text).isValidUTF8]
    rfl

/-- What is read is what the variable states. -/
theorem read?_eq_some_iff {read : List Char → Option α}
    (reads : ∀ text value, read text = some value ↔ Denotes text value) {value : α} :
    environment.read? name read = some value ↔ environment.States name Denotes value := by
  simp only [read?, States, Option.bind_eq_some_iff, Option.map_eq_some_iff, reads,
    ← text?_eq_some_iff, ← Text.trimmed_eq_iff]
  constructor
  · rintro ⟨core, ⟨text, bound, trimmed⟩, denotes⟩
    exact ⟨text, core, bound, trimmed, denotes⟩
  · rintro ⟨text, core, bound, trimmed, denotes⟩
    exact ⟨core, ⟨text, bound, trimmed⟩, denotes⟩

/-- A setting that is read from a variable, or else the default, is decided by the variable. -/
theorem decides_read? {read : List Char → Option α}
    (reads : ∀ text value, read text = some value ↔ Denotes text value) (default : α) :
    environment.Decides name Denotes default ((environment.read? name read).getD default) := by
  constructor
  · intro value stated
    rw [(read?_eq_some_iff reads).mpr stated]
    rfl
  · intro silent
    have unread : environment.read? name read = none := by
      rw [Option.eq_none_iff_forall_ne_some]
      exact fun value found => silent value ((read?_eq_some_iff reads).mp found)
    rw [unread]
    rfl

/-- A variable that holds a text without blanks states what the text denotes. -/
theorem Holds.states {core : List Char} {value : α} (holds : environment.Holds name core)
    (unblank : ∀ c ∈ core, Text.isBlank c = false) (denotes : Denotes core value) :
    environment.States name Denotes value := by
  obtain ⟨before, after, bound, beforeBlank, afterBlank⟩ := holds
  refine ⟨_, core, bound, ?_, denotes⟩
  constructor
  · exact ⟨before, after, rfl, beforeBlank, afterBlank⟩
  · exact fun c member => unblank c (List.mem_of_mem_head? member)
  · exact fun c member => unblank c (List.mem_of_getLast? member)

end Environment

/-- The digits of a natural number denote it. -/
theorem denotesNatural_toDigits (number : Nat) :
    DenotesNatural (Nat.toDigits 10 number) number := by
  have isDigits := (Json.isWhole_toDigits number).toIsDigits
  rw [denotesNatural_iff, unsigned_eq_self isDigits]
  exact ⟨isDigits, Json.digitsValue_toDigits number⟩

theorem isBlank_toDigits (number : Nat) : ∀ c ∈ Nat.toDigits 10 number, Text.isBlank c = false := by
  intro c member
  obtain ⟨value, small, rfl⟩ := Json.exists_digitChar_eq (Json.isDigit_toDigits number c member)
  have table : ∀ value < 10, Text.isBlank (Nat.digitChar value) = false := by decide
  exact table value small

theorem isBlank_truthText (truth : Bool) :
    ∀ c ∈ (truthText truth).toList, Text.isBlank c = false := by
  have none : (truthText truth).toList.all (!Text.isBlank ·) = true := by cases truth <;> decide
  intro c member
  simpa using List.all_eq_true.mp none c member

/-! ## Settings -/

namespace Config

/-- The text is a number in range. -/
def DenotesUpTo (limit : Nat) (text : List Char) (number : Nat) : Prop :=
  DenotesNatural text number ∧ number ≤ limit

/-- The text is one of the two words for a truth value. -/
def DenotesTruth (text : List Char) (truth : Bool) : Prop := text = (truthText truth).toList

/-- Each setting is decided by a variable of its own. -/
structure DecidedBy (config : Config) (environment : Environment) : Prop where
  capacity : environment.Decides "CACHE_CAPACITY" (DenotesUpTo largestWord) 1000 config.capacity
  refreshOnHit : environment.Decides "UPDATE_TIME_ON_HIT" DenotesTruth true config.refreshOnHit
  intervalMillis :
    environment.Decides "SWEEP_INTERVAL_MS" (DenotesUpTo largestWord) 1000 config.intervalMillis
  surviveMillis :
    environment.Decides "SURVIVE_TIME_MS" (DenotesUpTo largestWord) 300000 config.surviveMillis
  serverPort : environment.Decides "SERVER_PORT" (DenotesUpTo 65535) 3000 config.serverPort

/-- A setting is the same in two environments if its variable is. -/
structure Shared (config shared : Config) (environment other : Environment) : Prop where
  capacity : environment.bindings.lookup "CACHE_CAPACITY" = other.bindings.lookup "CACHE_CAPACITY" →
    config.capacity = shared.capacity
  refreshOnHit :
    environment.bindings.lookup "UPDATE_TIME_ON_HIT" = other.bindings.lookup "UPDATE_TIME_ON_HIT" →
      config.refreshOnHit = shared.refreshOnHit
  intervalMillis :
    environment.bindings.lookup "SWEEP_INTERVAL_MS" = other.bindings.lookup "SWEEP_INTERVAL_MS" →
      config.intervalMillis = shared.intervalMillis
  surviveMillis :
    environment.bindings.lookup "SURVIVE_TIME_MS" = other.bindings.lookup "SURVIVE_TIME_MS" →
      config.surviveMillis = shared.surviveMillis
  serverPort : environment.bindings.lookup "SERVER_PORT" = other.bindings.lookup "SERVER_PORT" →
    config.serverPort = shared.serverPort

/-- Every setting is in the range of its words. -/
structure Fits (config : Config) : Prop where
  capacity : config.capacity ≤ largestWord
  intervalMillis : config.intervalMillis ≤ largestWord
  surviveMillis : config.surviveMillis ≤ largestWord
  serverPort : config.serverPort ≤ 65535

/-- The settings are written into the environment, numbers in decimal, with blanks around them. -/
structure WrittenIn (config : Config) (environment : Environment) : Prop where
  capacity : environment.Holds "CACHE_CAPACITY" (Nat.toDigits 10 config.capacity)
  refreshOnHit : environment.Holds "UPDATE_TIME_ON_HIT" (truthText config.refreshOnHit).toList
  intervalMillis : environment.Holds "SWEEP_INTERVAL_MS" (Nat.toDigits 10 config.intervalMillis)
  surviveMillis : environment.Holds "SURVIVE_TIME_MS" (Nat.toDigits 10 config.surviveMillis)
  serverPort : environment.Holds "SERVER_PORT" (Nat.toDigits 10 config.serverPort)

theorem decidedBy_ofEnvironment (environment : Environment) :
    (ofEnvironment environment).DecidedBy environment where
  capacity := environment.decides_read? (fun _ _ => readNatural_eq_some_iff) 1000
  refreshOnHit := environment.decides_read? (fun _ _ => readTruth_eq_some_iff) true
  intervalMillis := environment.decides_read? (fun _ _ => readNatural_eq_some_iff) 1000
  surviveMillis := environment.decides_read? (fun _ _ => readNatural_eq_some_iff) 300000
  serverPort := environment.decides_read? (fun _ _ => readNatural_eq_some_iff) 3000

theorem shared_ofEnvironment (environment other : Environment) :
    (ofEnvironment environment).Shared (ofEnvironment other) environment other where
  capacity same := by simp only [ofEnvironment, Environment.text?, same]
  refreshOnHit same := by simp only [ofEnvironment, Environment.text?, same]
  intervalMillis same := by simp only [ofEnvironment, Environment.text?, same]
  surviveMillis same := by simp only [ofEnvironment, Environment.text?, same]
  serverPort same := by simp only [ofEnvironment, Environment.text?, same]

section Numbers

variable {environment : Environment} {name : String} {limit default setting value : Nat}

/-- A number that is decided by a variable is in range if its default is. -/
theorem le_of_decides (decides : environment.Decides name (DenotesUpTo limit) default setting)
    (fits : default ≤ limit) : setting ≤ limit := by
  by_cases silent : ∀ value, ¬environment.States name (DenotesUpTo limit) value
  · rw [decides.of_silent silent]
    exact fits
  · simp only [not_forall, not_not] at silent
    obtain ⟨value, stated⟩ := silent
    obtain ⟨text, core, -, -, -, inRange⟩ := id stated
    rw [decides.of_stated value stated]
    exact inRange

/-- A number that is decided by a variable is the one that is written into it. -/
theorem eq_of_holds_toDigits
    (decides : environment.Decides name (DenotesUpTo limit) default setting)
    (holds : environment.Holds name (Nat.toDigits 10 value)) (fits : value ≤ limit) :
    setting = value :=
  decides.of_stated value
    (holds.states (isBlank_toDigits value) ⟨denotesNatural_toDigits value, fits⟩)

end Numbers

variable {config : Config} {environment : Environment}

/-- What is decided by an environment is in range. -/
theorem DecidedBy.fits (decided : config.DecidedBy environment) : config.Fits where
  capacity := le_of_decides decided.capacity (by decide)
  intervalMillis := le_of_decides decided.intervalMillis (by decide)
  surviveMillis := le_of_decides decided.surviveMillis (by decide)
  serverPort := le_of_decides decided.serverPort (by decide)

/-- What is decided by an environment is what is written into it. -/
theorem DecidedBy.eq_of_writtenIn (decided : config.DecidedBy environment) {written : Config}
    (fits : written.Fits) (inside : written.WrittenIn environment) : config = written := by
  have refreshOnHit : config.refreshOnHit = written.refreshOnHit :=
    decided.refreshOnHit.of_stated _
      (inside.refreshOnHit.states (isBlank_truthText written.refreshOnHit) rfl)
  cases config
  cases written
  rw [Config.mk.injEq]
  exact ⟨eq_of_holds_toDigits decided.capacity inside.capacity fits.capacity, refreshOnHit,
    eq_of_holds_toDigits decided.intervalMillis inside.intervalMillis fits.intervalMillis,
    eq_of_holds_toDigits decided.surviveMillis inside.surviveMillis fits.surviveMillis,
    eq_of_holds_toDigits decided.serverPort inside.serverPort fits.serverPort⟩

/-- Whatever the variables hold, each setting is decided by its own variable, is in range, and does
not depend on the others. Settings that are in range and written into an environment are read back
from it. -/
theorem settings_of_environment (environment : Environment) :
    (ofEnvironment environment).DecidedBy environment ∧ (ofEnvironment environment).Fits ∧
      (∀ other, (ofEnvironment environment).Shared (ofEnvironment other) environment other) ∧
      ∀ config : Config, config.Fits → config.WrittenIn environment →
        ofEnvironment environment = config := by
  have decided := decidedBy_ofEnvironment environment
  exact ⟨decided, decided.fits, shared_ofEnvironment environment,
    fun config fits written => decided.eq_of_writtenIn fits written⟩

/-- Zeros and a plus sign may lead; a number out of range and another spelling of a truth value
leave the default. -/
example :
    ofEnvironment
      { bindings :=
          [("CACHE_CAPACITY", "+0042".toUTF8), ("SERVER_PORT", "65536".toUTF8),
            ("UPDATE_TIME_ON_HIT", "FALSE".toUTF8)] } =
      { capacity := 42 } := by decide +kernel

/-- The largest words are read back from between blanks of several kinds. -/
theorem settings_of_environment_largest :
    let environment : Environment :=
      { bindings :=
          [("SERVER_PORT", "\t65535".toUTF8),
            ("CACHE_CAPACITY", "18446744073709551615\u3000".toUTF8),
            ("UPDATE_TIME_ON_HIT", "\u0085false\n".toUTF8), ("SWEEP_INTERVAL_MS", "0".toUTF8),
            ("SURVIVE_TIME_MS", " \u2003 18446744073709551615 ".toUTF8)] }
    let config : Config :=
      { capacity := 18446744073709551615, refreshOnHit := false, intervalMillis := 0
        surviveMillis := 18446744073709551615, serverPort := 65535 }
    config.Fits ∧ config.WrittenIn environment ∧ ofEnvironment environment = config := by
  intro environment config
  have fits : config.Fits := ⟨by decide, by decide, by decide, by decide⟩
  have blank (around : List Char) (all : around.all Text.isBlank = true) :
      ∀ c ∈ around, Text.isBlank c = true := List.all_eq_true.mp all
  have written : config.WrittenIn environment :=
    { capacity := ⟨[], ['\u3000'], by decide +kernel, blank _ rfl, blank _ (by decide)⟩
      refreshOnHit :=
        ⟨['\u0085'], ['\n'], by decide +kernel, blank _ (by decide), blank _ (by decide)⟩
      intervalMillis := ⟨[], [], by decide +kernel, blank _ rfl, blank _ rfl⟩
      surviveMillis :=
        ⟨[' ', '\u2003', ' '], [' '], by decide +kernel, blank _ (by decide), blank _ (by decide)⟩
      serverPort := ⟨['\t'], [], by decide +kernel, blank _ (by decide), blank _ rfl⟩ }
  exact ⟨fits, written, (settings_of_environment environment).2.2.2 config fits written⟩

end Config

end RecencyCache
