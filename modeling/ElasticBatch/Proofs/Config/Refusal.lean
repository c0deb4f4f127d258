import ElasticBatch.Proofs.Config.Wording

/-! Why parameters are refused, and what is said of it. The first setting that cannot be read is
told, with its text and the key that gave it; where both can be read, it is told what is out of
range. A number that is too large shows in the digits that its text opens with, whatever follows. -/
namespace ElasticBatch

namespace Numeral

variable {bound : Nat} {s : List Char}

/-- What stands behind the plus sign, if there is one. -/
def unsigned : List Char → List Char
  | '+' :: rest => rest
  | s => s

/-- The longest run of digits at the start, a plus sign aside. -/
def opening (s : List Char) : List Char := (unsigned s).takeWhile Char.isDigit

/-- What stands behind the run. -/
def remainder (s : List Char) : List Char := (unsigned s).dropWhile Char.isDigit

/-- What is said of a text that is not read. A number that is too large is told whatever stands
behind its digits. -/
inductive Flaw (bound : Nat) (s : List Char) : String → Prop
  | empty (nothing : s = []) : Flaw bound s "cannot parse integer from empty string"
  | tooLarge (large : bound ≤ Nat.ofDigitChars 10 (opening s) 0) :
      Flaw bound s "number too large to fit in target type"
  | invalidDigit (something : s ≠ []) (small : Nat.ofDigitChars 10 (opening s) 0 < bound)
      (other : opening s = [] ∨ remainder s ≠ []) : Flaw bound s "invalid digit found in string"

theorem unsigned_eq_self (h : ∀ rest, s ≠ '+' :: rest) : unsigned s = s := by
  unfold unsigned
  split
  · next rest => exact absurd rfl (h rest)
  · rfl

/-- The loop in closed form. The induction is on the text: the bound is passed at one of the digits
that are still to come, or at none of them. -/
theorem readFrom_eq {value : Nat} (start : value < bound) (s : List Char) :
    readFrom bound value s =
      if bound ≤ Nat.ofDigitChars 10 (s.takeWhile Char.isDigit) value then .error .tooLarge
      else if s.dropWhile Char.isDigit = [] then
        .ok (Nat.ofDigitChars 10 (s.takeWhile Char.isDigit) value)
      else .error .invalidDigit := by
  induction s generalizing value with
  | nil => exact (if_neg (Nat.not_le.mpr start)).symm
  | cons c rest ih =>
      rw [readFrom]
      by_cases decimal : c.isDigit = true
      · rw [digit?_of_isDigit decimal, List.takeWhile_cons_of_pos decimal,
          List.dropWhile_cons_of_pos decimal, Nat.ofDigitChars_cons]
        by_cases small : 10 * value + (c.toNat - '0'.toNat) < bound
        · simp only [if_pos small, ih small]
        · have large := Nat.le_trans (Nat.not_lt.mp small)
            (le_ofDigitChars _ (rest.takeWhile Char.isDigit))
          simp only [if_neg small, if_pos large]
      · rw [digit?_of_not_isDigit decimal, List.takeWhile_cons_of_neg decimal,
          List.dropWhile_cons_of_neg decimal, Nat.ofDigitChars_nil,
          if_neg (Nat.not_le.mpr start), if_neg (List.cons_ne_nil c rest)]

/-- A text without digits at its start has something else there, unless it has nothing. -/
theorem readFrom_zero (positive : 0 < bound) (something : s ≠ []) :
    readFrom bound 0 s =
      if bound ≤ Nat.ofDigitChars 10 (s.takeWhile Char.isDigit) 0 then .error .tooLarge
      else if s.takeWhile Char.isDigit = [] ∨ s.dropWhile Char.isDigit ≠ [] then
        .error .invalidDigit
      else .ok (Nat.ofDigitChars 10 (s.takeWhile Char.isDigit) 0) := by
  rw [readFrom_eq positive]
  by_cases ended : s.dropWhile Char.isDigit = []
  · have digits : s.takeWhile Char.isDigit ≠ [] := by
      intro none
      have parts := List.takeWhile_append_dropWhile (p := Char.isDigit) (l := s)
      rw [none, ended] at parts
      exact something parts.symm
    simp only [ended, digits, if_true, ne_eq, not_true, or_self, if_false]
  · simp only [ended, if_false, ne_eq, not_false_eq_true, or_true, if_true]

/-- The reader in closed form. -/
theorem read_eq (positive : 0 < bound) (s : List Char) :
    read bound s =
      if s = [] then .error .empty
      else if bound ≤ Nat.ofDigitChars 10 (opening s) 0 then .error .tooLarge
      else if opening s = [] ∨ remainder s ≠ [] then .error .invalidDigit
      else .ok (Nat.ofDigitChars 10 (opening s) 0) := by
  unfold opening remainder
  fun_cases read bound s with
  | case1 => rfl
  | case2 => exact (if_neg (Nat.not_le.mpr positive)).symm
  | case3 digits something =>
      rw [if_neg (List.cons_ne_nil '+' digits)]
      exact readFrom_zero positive something
  | case4 s something _ unsigned =>
      rw [if_neg something, unsigned_eq_self unsigned]
      exact readFrom_zero positive something

/-- What is said tells which of the texts that are not read this is. -/
theorem flaw_iff (positive : 0 < bound) (s : List Char) (text : String) :
    (∃ cause, read bound s = .error cause ∧ cause.message = text) ↔ Flaw bound s text := by
  rw [read_eq positive]
  constructor
  · rintro ⟨cause, refused, rfl⟩
    split at refused
    · next nothing =>
        cases refused
        exact .empty nothing
    · next something =>
        split at refused
        · next large =>
            cases refused
            exact .tooLarge large
        · next small =>
            split at refused
            · next other =>
                cases refused
                exact .invalidDigit something (Nat.not_le.mp small) other
            · cases refused
  · intro flaw
    cases flaw with
    | empty nothing => exact ⟨.empty, if_pos nothing, rfl⟩
    | tooLarge large =>
        have something : s ≠ [] := by
          rintro rfl
          exact absurd large (Nat.not_le.mpr positive)
        exact ⟨.tooLarge, by rw [if_neg something, if_pos large], rfl⟩
    | invalidDigit something small other =>
        refine ⟨.invalidDigit, ?_, rfl⟩
        rw [if_neg something, if_neg (Nat.not_le.mpr small), if_pos other]

end Numeral

namespace Config

variable {p : Parameters} {c : Config} {bound default : Nat} {connector sink key raw : String}
  {fault : Fault} {text : String} {tell : Wording}

/-- The text that counts for a setting, and its key. -/
inductive Given (p : Parameters) (connector sink : String) : String → String → Prop
  | first {raw : String} (present : p connector = some raw) : Given p connector sink connector raw
  | second {raw : String} (absent : p connector = none) (present : p sink = some raw) :
      Given p connector sink sink raw

/-- A setting has a text that is not read. The text is repeated as it was given, blanks included. -/
def Unread (p : Parameters) (connector sink : String) (bound : Nat) (text : String) : Prop :=
  ∃ key raw cause, Given p connector sink key raw ∧
    Numeral.Flaw bound (Text.trim raw.toList) cause ∧
    text = "invalid value '" ++ raw ++ "' for " ++ key ++ ": " ++ cause

/-- What is said of parameters that are refused. The size is looked at only where the delay is read,
and the ranges only where both are; then what is said names the fields that are out of range. -/
inductive Refused (tell : Wording) (p : Parameters) : String → Prop
  | delay {text : String}
      (unread : Unread p "connector.batch.max-delay-seconds" "sink.batch.max-delay-seconds"
        (2 ^ 32) text) : Refused tell p text
  | size {seconds : Nat} {text : String}
      (delay : Sets p "connector.batch.max-delay-seconds" "sink.batch.max-delay-seconds" 1
        seconds ∧ seconds < 2 ^ 32)
      (unread : Unread p "connector.batch.size-bytes" "sink.batch.size-bytes" (2 ^ 64) text) :
      Refused tell p text
  | range {seconds bytes : Nat} {text : String}
      (delay : Sets p "connector.batch.max-delay-seconds" "sink.batch.max-delay-seconds" 1
        seconds ∧ seconds < 2 ^ 32)
      (size : Sets p "connector.batch.size-bytes" "sink.batch.size-bytes" 16777216 bytes ∧
        bytes < 2 ^ 64)
      (outside : 86400 < seconds ∨ bytes = 0) (told : text = tell (outOfRange seconds bytes))
      (namesDelay : Mentions text "max_delay_seconds" ↔ 86400 < seconds)
      (namesSize : Mentions text "max_batch_size_bytes" ↔ bytes = 0) : Refused tell p text

theorem chosen_eq_some_iff :
    chosen p [connector, sink] = some (key, raw) ↔ Given p connector sink key raw := by
  rw [chosen_pair]
  constructor
  · intro found
    cases one : p connector with
    | some raw =>
        rw [one] at found
        cases found
        exact .first one
    | none =>
        rw [one] at found
        obtain ⟨raw, two, same⟩ := Option.map_eq_some_iff.mp found
        cases same
        exact .second one two
  · rintro (one | ⟨one, two⟩)
    · rw [one]
    · rw [one, two]
      rfl

theorem readSetting_eq_error_iff :
    readSetting p [connector, sink] bound default = .error fault ↔
      ∃ key raw cause, Given p connector sink key raw ∧
        Numeral.read bound (Text.trim raw.toList) = .error cause ∧
        fault = .unreadable raw key cause := by
  rw [readSetting]
  constructor
  · intro refused
    cases found : chosen p [connector, sink] with
    | none =>
        rw [found] at refused
        cases refused
    | some choice =>
        obtain ⟨key, raw⟩ := choice
        simp only [found] at refused
        split at refused
        · cases refused
        · next cause unread =>
            cases refused
            exact ⟨key, raw, cause, chosen_eq_some_iff.mp found, unread, rfl⟩
  · rintro ⟨key, raw, cause, given, unread, rfl⟩
    simp only [chosen_eq_some_iff.mpr given, unread]

theorem unread_iff (positive : 0 < bound) :
    (∃ fault, readSetting p [connector, sink] bound default = .error fault ∧
      fault.message tell = text) ↔ Unread p connector sink bound text := by
  simp only [readSetting_eq_error_iff, Unread, ← Numeral.flaw_iff positive]
  constructor
  · rintro ⟨_, ⟨key, raw, cause, given, refused, rfl⟩, rfl⟩
    exact ⟨key, raw, cause.message, given, ⟨cause, refused, rfl⟩, rfl⟩
  · rintro ⟨key, raw, _, given, ⟨cause, refused, rfl⟩, rfl⟩
    exact ⟨_, ⟨key, raw, cause, given, refused, rfl⟩, rfl⟩

theorem check_eq_error_iff :
    c.check = .error fault ↔ ¬ c.Valid ∧ fault = .outOfRange c.violations := by
  unfold check
  split
  · next valid => simp [valid]
  · next invalid => simp [invalid, eq_comm]

/-- The first fault on the way: of the delay, of the size, of the ranges. -/
theorem ofParameters_eq_error_iff :
    ofParameters p = .error fault ↔
      readSetting p delayKeys UInt32.size defaultDelay.toNat = .error fault ∨
        ∃ seconds, readSetting p delayKeys UInt32.size defaultDelay.toNat = .ok seconds ∧
          (readSetting p sizeKeys UInt64.size defaultSize.toNat = .error fault ∨
            ∃ bytes, readSetting p sizeKeys UInt64.size defaultSize.toNat = .ok bytes ∧
              check ⟨UInt32.ofNat seconds, UInt64.ofNat bytes⟩ = .error fault) := by
  rw [ofParameters]
  cases delay : readSetting p delayKeys UInt32.size defaultDelay.toNat with
  | error other => simp
  | ok seconds =>
      cases size : readSetting p sizeKeys UInt64.size defaultSize.toNat with
      | error other => simp
      | ok bytes => simp

/-- What is read fits into the fields, so that the words are for the numbers that were read. -/
theorem check_told_iff {seconds bytes : Nat} (short : seconds < 2 ^ 32) (small : bytes < 2 ^ 64) :
    (∃ fault, check ⟨UInt32.ofNat seconds, UInt64.ofNat bytes⟩ = .error fault ∧
      fault.message tell = text) ↔
      (86400 < seconds ∨ bytes = 0) ∧ text = tell (outOfRange seconds bytes) := by
  have invalid := not_valid_iff (c := ⟨UInt32.ofNat seconds, UInt64.ofNat bytes⟩)
  have violated := violations_eq ⟨UInt32.ofNat seconds, UInt64.ofNat bytes⟩
  rw [UInt32.toNat_ofNat_of_lt' short, UInt64.toNat_ofNat_of_lt' small] at invalid violated
  simp only [check_eq_error_iff, invalid, violated]
  constructor
  · rintro ⟨_, ⟨outside, rfl⟩, rfl⟩
    exact ⟨outside, rfl⟩
  · rintro ⟨outside, rfl⟩
    exact ⟨_, ⟨outside, rfl⟩, rfl⟩

/-- The words for what was read name the fields that are out of range. -/
theorem Wording.Names.outOfRange (names : tell.Names) {seconds bytes : Nat}
    (short : seconds < 2 ^ 32) (small : bytes < 2 ^ 64) (outside : 86400 < seconds ∨ bytes = 0) :
    (Mentions (tell (outOfRange seconds bytes)) "max_delay_seconds" ↔ 86400 < seconds) ∧
      (Mentions (tell (outOfRange seconds bytes)) "max_batch_size_bytes" ↔ bytes = 0) := by
  let c : Config := ⟨UInt32.ofNat seconds, UInt64.ofNat bytes⟩
  have delaySeconds : c.delaySeconds.toNat = seconds := UInt32.toNat_ofNat_of_lt' short
  have sizeBytes : c.sizeBytes.toNat = bytes := UInt64.toNat_ofNat_of_lt' small
  have invalid : ¬ c.Valid := by
    rw [not_valid_iff, delaySeconds, sizeBytes]
    exact outside
  have named := names c invalid
  rw [violations_eq, delaySeconds, sizeBytes, List.forall_mem_cons, List.forall_mem_singleton,
    delayField_mem_outOfRange, sizeField_mem_outOfRange] at named
  exact named

/-- Each way to be refused is the first that applies. -/
theorem ofParameters_told_iff (names : tell.Names) :
    (∃ fault, ofParameters p = .error fault ∧ fault.message tell = text) ↔
      Refused tell p text := by
  constructor
  · rintro ⟨fault, refused, told⟩
    rcases ofParameters_eq_error_iff.mp refused with
      delay | ⟨_, delay, size | ⟨_, size, outside⟩⟩
    · exact .delay ((unread_iff (by decide)).mp ⟨fault, delay, told⟩)
    · have seconds := (readSetting_eq_ok_iff (by decide)).mp delay
      exact .size seconds ((unread_iff (by decide)).mp ⟨fault, size, told⟩)
    · have seconds := (readSetting_eq_ok_iff (by decide)).mp delay
      have bytes := (readSetting_eq_ok_iff (by decide)).mp size
      obtain ⟨range, rfl⟩ := (check_told_iff seconds.2 bytes.2).mp ⟨fault, outside, told⟩
      obtain ⟨namesDelay, namesSize⟩ := names.outOfRange seconds.2 bytes.2 range
      exact .range seconds bytes range rfl namesDelay namesSize
  · simp only [ofParameters_eq_error_iff]
    rintro (unread | ⟨seconds, unread⟩ | ⟨seconds, bytes, outside, told, -, -⟩)
    · obtain ⟨fault, delay, told⟩ := (unread_iff (by decide)).mpr unread
      exact ⟨fault, Or.inl delay, told⟩
    · have delay := (readSetting_eq_ok_iff (by decide)).mpr seconds
      obtain ⟨fault, size, told⟩ := (unread_iff (by decide)).mpr unread
      exact ⟨fault, Or.inr ⟨_, delay, Or.inl size⟩, told⟩
    · have delay := (readSetting_eq_ok_iff (by decide)).mpr seconds
      have size := (readSetting_eq_ok_iff (by decide)).mpr bytes
      obtain ⟨fault, range, told⟩ := (check_told_iff seconds.2 bytes.2).mpr ⟨outside, told⟩
      exact ⟨fault, Or.inr ⟨_, delay, Or.inr ⟨_, size, range⟩⟩, told⟩

theorem error_told_iff :
    (ofParameters p).mapError (Fault.error tell) = .error (.configuration text) ↔
      ∃ fault, ofParameters p = .error fault ∧ fault.message tell = text := by
  cases ofParameters p with
  | ok c => simp [Except.mapError]
  | error fault => simp [Except.mapError, Fault.error]

/-- Parameters that are not accepted are refused as a configuration error, and what it says is
settled: for the first setting that is not read its key, its text and the flaw of that text; where
both are read, what the words at hand make of the settings out of range, which names exactly these.
For either width a text has one flaw or is read. -/
theorem refuses_exactly (tell : Wording) (names : tell.Names) (p : Parameters) :
    ((∀ c, ofParameters p ≠ .ok c) →
      ∃ text, (ofParameters p).mapError (Fault.error tell) = .error (.configuration text)) ∧
    (∀ text, (ofParameters p).mapError (Fault.error tell) = .error (.configuration text) ↔
      Refused tell p text) ∧
    ∀ bound ∈ [2 ^ 32, 2 ^ 64], ∀ (s : List Char) (text : String),
      (∃ cause, Numeral.read bound s = .error cause ∧ cause.message = text) ↔
        Numeral.Flaw bound s text := by
  refine ⟨fun refused => ?_, fun text => error_told_iff.trans (ofParameters_told_iff names), ?_⟩
  · cases outcome : ofParameters p with
    | ok c => exact absurd outcome (refused c)
    | error fault => exact ⟨fault.message tell, rfl⟩
  · intro bound listed s text
    refine Numeral.flaw_iff ?_ s text
    rw [List.mem_cons, List.mem_singleton] at listed
    rcases listed with rfl | rfl <;> decide

/-- The delay is too large before its text turns out to be no numeral; neither the sink key nor the
size is looked at. -/
def garbled : Parameters := fun key =>
  if key = "connector.batch.max-delay-seconds" then some "\t+004294967296e1 "
  else if key = "sink.batch.max-delay-seconds" then some "5"
  else if key = "sink.batch.size-bytes" then some "many"
  else none

/-- Both are read, and neither is in its range. -/
def outlying : Parameters := fun key =>
  if key = "sink.batch.max-delay-seconds" then some " 86401"
  else if key = "connector.batch.size-bytes" then some "+00"
  else none

theorem garbled_and_outlying_told :
    (∃ text, (ofParameters garbled).mapError (Fault.error lineByLine) =
        .error (.configuration text)) ∧
      (ofParameters garbled).mapError (Fault.error lineByLine) = .error (.configuration
        ("invalid value '\t+004294967296e1 ' for connector.batch.max-delay-seconds: " ++
          "number too large to fit in target type")) ∧
      (ofParameters outlying).mapError (Fault.error lineByLine) = .error (.configuration
        ("max_batch_size_bytes: Validation error: range " ++
          "[\x7b\"min\": Number(1), \"value\": Number(0)\x7d]\n" ++
          "max_delay_seconds: Validation error: range " ++
          "[\x7b\"max\": Number(86400), \"value\": Number(86401)\x7d]")) ∧
      ∃ cause, Numeral.read (2 ^ 64) "18446744073709551615-".toList = .error cause ∧
        cause.message = "invalid digit found in string" := by
  have exactly := refuses_exactly lineByLine names_lineByLine garbled
  have large : Unread garbled "connector.batch.max-delay-seconds" "sink.batch.max-delay-seconds"
      (2 ^ 32) ("invalid value '\t+004294967296e1 ' for connector.batch.max-delay-seconds: " ++
        "number too large to fit in target type") :=
    ⟨_, _, _, .first rfl, .tooLarge (by decide), rfl⟩
  have told := (exactly.2.1 _).mpr (.delay large)
  have delay : Sets outlying "connector.batch.max-delay-seconds" "sink.batch.max-delay-seconds" 1
      86401 ∧ 86401 < 2 ^ 32 := (Numeral.read_trim_eq_ok_iff (by decide) " 86401".toList).mp rfl
  have size : Sets outlying "connector.batch.size-bytes" "sink.batch.size-bytes" 16777216 0 ∧
      0 < 2 ^ 64 := (Numeral.read_trim_eq_ok_iff (by decide) "+00".toList).mp rfl
  have outside : 86400 < 86401 ∨ 0 = 0 := Or.inr rfl
  obtain ⟨namesDelay, namesSize⟩ := names_lineByLine.outOfRange delay.2 size.2 outside
  refine ⟨exactly.1 fun c accepted => ?_, told, ?_, ?_⟩
  · rw [accepted] at told
    cases told
  · exact ((refuses_exactly lineByLine names_lineByLine outlying).2.1 _).mpr
      (.range delay size outside rfl namesDelay namesSize)
  · exact (exactly.2.2 (2 ^ 64) (by decide) _ _).mpr
      (.invalidDigit (by decide) (by decide) (by decide))

end Config
end ElasticBatch
