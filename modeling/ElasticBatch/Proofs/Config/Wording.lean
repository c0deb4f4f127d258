import ElasticBatch.Proofs.Config.Acceptance
import Mathlib.Data.List.Infix

/-! How settings out of range are put into words. The words may come in any order; all that counts
is which fields they name. -/
namespace ElasticBatch.Config

/-- The name of the field stands somewhere in the text. -/
def Mentions (text field : String) : Prop := field.toList <:+: text.toList

/-- Of settings that are not valid the words name the fields that are out of range, and no other. -/
def Wording.Names (tell : Wording) : Prop :=
  ∀ c : Config, ¬ c.Valid → ∀ field ∈ [delayField, sizeField],
    Mentions (tell c.violations) field ↔ field ∈ c.violations.map Violation.field

/-- What is out of range of a delay and a size. -/
def outOfRange (seconds bytes : Nat) : List Violation :=
  (if bytes = 0 then [.noRoom] else []) ++
    if 86400 < seconds then [.delayTooLong (UInt32.ofNat seconds)] else []

theorem violations_eq (c : Config) :
    c.violations = outOfRange c.delaySeconds.toNat c.sizeBytes.toNat := by
  have room : 1 ≤ c.sizeBytes ↔ ¬ c.sizeBytes.toNat = 0 := by
    rw [UInt64.le_iff_toNat_le]
    exact Nat.one_le_iff_ne_zero
  have short : c.delaySeconds ≤ longestDelay ↔ ¬ 86400 < c.delaySeconds.toNat := by
    rw [UInt32.le_iff_toNat_le]
    exact Nat.not_lt.symm
  simp only [violations, sizeViolations, delayViolations, outOfRange, room, short, ite_not,
    UInt32.ofNat_toNat]

theorem not_valid_iff {c : Config} :
    ¬ c.Valid ↔ 86400 < c.delaySeconds.toNat ∨ c.sizeBytes.toNat = 0 := by
  have most := c.sizeBytes.toNat_lt
  rw [valid_iff]
  omega

theorem delayField_mem_outOfRange (seconds bytes : Nat) :
    delayField ∈ (outOfRange seconds bytes).map Violation.field ↔ 86400 < seconds := by
  unfold outOfRange
  by_cases empty : bytes = 0 <;> by_cases long : 86400 < seconds <;>
    simp [empty, long, Violation.field, delayField, sizeField]

theorem sizeField_mem_outOfRange (seconds bytes : Nat) :
    sizeField ∈ (outOfRange seconds bytes).map Violation.field ↔ bytes = 0 := by
  unfold outOfRange
  by_cases empty : bytes = 0 <;> by_cases long : 86400 < seconds <;>
    simp [empty, long, Violation.field, delayField, sizeField]

/-! The plainest words: a line for each violation, in order. -/

def Violation.line (v : Violation) : String :=
  v.field ++ ": Validation error: range [\x7b" ++
    match v with
    | .noRoom => "\"min\": Number(1), \"value\": Number(0)\x7d]"
    | .delayTooLong seconds =>
      "\"max\": Number(86400), \"value\": Number(" ++ toString seconds ++ ")\x7d]"

def lineByLine : Wording :=
  fun violations => String.intercalate "\n" (violations.map Violation.line)

theorem lineByLine_one (v : Violation) : lineByLine [v] = v.line := rfl

theorem lineByLine_two (v w : Violation) : lineByLine [v, w] = v.line ++ "\n" ++ w.line := rfl

theorem isDigit_of_mem_toString {n : UInt32} {c : Char} (listed : c ∈ (toString n).toList) :
    c.isDigit = true := by
  change c ∈ n.toNat.repr.toList at listed
  rw [Nat.toList_repr] at listed
  exact Nat.isDigit_of_mem_toDigits (by decide) (by decide) listed

theorem Mentions.append_left {text field : String} (named : Mentions text field) (before : String) :
    Mentions (before ++ text) field := by
  rw [Mentions, String.toList_append]
  exact List.infix_append_of_infix_right named

theorem Mentions.append_right {text field : String} (named : Mentions text field)
    (after : String) : Mentions (text ++ after) field := by
  rw [Mentions, String.toList_append]
  exact List.infix_append_of_infix_left named

theorem mentions_line (v : Violation) : Mentions v.line v.field :=
  have named : Mentions v.field v.field := List.infix_refl _
  (named.append_right _).append_right _

/-- The lines about the delay lack a letter of the other field's name. -/
theorem not_mentions_size (seconds : UInt32) :
    ¬ Mentions (Violation.delayTooLong seconds).line sizeField := by
  intro named
  have letter : 'z' ∈ (Violation.delayTooLong seconds).line.toList :=
    named.subset (show 'z' ∈ sizeField.toList by decide)
  have digits : 'z' ∉ (toString seconds).toList := by
    intro found
    have digit : 'z'.isDigit = true := isDigit_of_mem_toString found
    revert digit
    decide
  have others : 'z' ∉ delayField.toList ++ ": Validation error: range [\x7b".toList ++
      "\"max\": Number(86400), \"value\": Number(".toList ++ ")\x7d]".toList := by
    decide
  simp only [Violation.line, Violation.field, String.toList_append, List.mem_append, digits,
    or_false] at letter others
  exact others (by tauto)

theorem not_mentions_delay : ¬ Mentions Violation.noRoom.line delayField := by
  unfold Mentions Violation.line
  simp only [String.toList_append]
  decide +kernel

theorem names_lineByLine : lineByLine.Names := by
  intro c invalid
  rw [not_valid_iff] at invalid
  rw [violations_eq, List.forall_mem_cons, List.forall_mem_singleton, delayField_mem_outOfRange,
    sizeField_mem_outOfRange]
  unfold outOfRange
  generalize UInt32.ofNat c.delaySeconds.toNat = seconds
  have delay := mentions_line (.delayTooLong seconds)
  have size := mentions_line .noRoom
  by_cases empty : c.sizeBytes.toNat = 0
  · by_cases long : 86400 < c.delaySeconds.toNat
    · rw [if_pos empty, if_pos long, List.singleton_append, lineByLine_two]
      exact ⟨iff_of_true (delay.append_left _) long,
        iff_of_true ((size.append_right _).append_right _) empty⟩
    · rw [if_pos empty, if_neg long, List.append_nil, lineByLine_one]
      exact ⟨iff_of_false not_mentions_delay long, iff_of_true size empty⟩
  · have long := invalid.resolve_right empty
    rw [if_neg empty, if_pos long, List.nil_append, lineByLine_one]
    exact ⟨iff_of_true delay long, iff_of_false (not_mentions_size seconds) empty⟩

end ElasticBatch.Config
