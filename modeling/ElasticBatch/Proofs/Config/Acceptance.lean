import ElasticBatch.Config.Parameters
import ElasticBatch.Proofs.Config.Numeral
import Mathlib.Algebra.Group.Nat.Defs

/-! Which parameters are accepted, and for which settings. Only four keys are ever looked at; what
they hold is a numeral for the very number that is set, or the settings are refused. -/
namespace ElasticBatch.Config

variable {p : Parameters} {c : Config} {keys : List String} {bound default n : Nat}

/-- The value of a setting. The connector key is the only one that counts where it is present; the
sink key stands in for it where it is not, and without both there is the default. -/
def Sets (p : Parameters) (connector sink : String) (default n : Nat) : Prop :=
  match p connector, p sink with
  | some raw, _ => Numeral.SpellsTrimmed raw.toList n
  | none, some raw => Numeral.SpellsTrimmed raw.toList n
  | none, none => n = default

theorem readSetting_of_absent (absent : chosen p keys = none) :
    readSetting p keys bound default = .ok default := by
  rw [readSetting, absent]

theorem readSetting_of_chosen {key raw : String} (found : chosen p keys = some (key, raw))
    (positive : 0 < bound) :
    readSetting p keys bound default = .ok n ↔
      Numeral.SpellsTrimmed raw.toList n ∧ n < bound := by
  simp only [readSetting, found, ← Numeral.read_trim_eq_ok_iff positive]
  cases Numeral.read bound (Text.trim raw.toList) with
  | error cause => exact iff_of_false nofun nofun
  | ok m => simp only [Except.ok.injEq]

theorem readSetting_eq_ok_iff {connector sink : String} (room : default < bound) :
    readSetting p [connector, sink] bound default = .ok n ↔
      Sets p connector sink default n ∧ n < bound := by
  have positive := Nat.zero_lt_of_lt room
  have selected := chosen_pair p connector sink
  unfold Sets
  cases first : p connector with
  | some raw =>
      rw [first] at selected
      exact readSetting_of_chosen selected positive
  | none =>
      rw [first] at selected
      cases second : p sink with
      | some raw =>
          rw [second] at selected
          exact readSetting_of_chosen selected positive
      | none =>
          rw [second] at selected
          rw [readSetting_of_absent selected, Except.ok.injEq]
          constructor
          · rintro rfl
            exact ⟨rfl, room⟩
          · exact fun given => given.1.symm

/-- What is read fits into the fields, so that nothing is cut off. -/
theorem ofParameters_eq_ok_iff_readSetting :
    ofParameters p = .ok c ↔
      readSetting p delayKeys UInt32.size defaultDelay.toNat = .ok c.delaySeconds.toNat ∧
        readSetting p sizeKeys UInt64.size defaultSize.toNat = .ok c.sizeBytes.toNat ∧
        c.Valid := by
  constructor
  · intro accepted
    unfold ofParameters at accepted
    cases delay : readSetting p delayKeys UInt32.size defaultDelay.toNat with
    | error fault =>
        rw [delay] at accepted
        cases accepted
    | ok seconds =>
        cases size : readSetting p sizeKeys UInt64.size defaultSize.toNat with
        | error fault =>
            simp only [delay, size] at accepted
            cases accepted
        | ok bytes =>
            simp only [delay, size] at accepted
            obtain ⟨rfl, valid⟩ := check_eq_ok_iff.mp accepted
            have short := ((readSetting_eq_ok_iff (by decide)).mp delay).2
            have small := ((readSetting_eq_ok_iff (by decide)).mp size).2
            rw [UInt32.toNat_ofNat_of_lt' short, UInt64.toNat_ofNat_of_lt' small]
            exact ⟨rfl, rfl, valid⟩
  · rintro ⟨delay, size, valid⟩
    rw [ofParameters, delay, size]
    simp only [UInt32.ofNat_toNat, UInt64.ofNat_toNat]
    exact check_eq_ok_iff.mpr ⟨rfl, valid⟩

theorem valid_iff :
    c.Valid ↔ c.delaySeconds.toNat ≤ 86400 ∧ 1 ≤ c.sizeBytes.toNat ∧
      c.sizeBytes.toNat ≤ 2 ^ 64 - 1 := by
  have most : c.sizeBytes.toNat ≤ 2 ^ 64 - 1 := Nat.le_pred_of_lt c.sizeBytes.toNat_lt
  rw [Valid, UInt32.le_iff_toNat_le, UInt64.le_iff_toNat_le]
  exact and_congr_right fun _ => (and_iff_left most).symm

theorem readSetting_congr {q : Parameters} (same : ∀ key ∈ keys, q key = p key) :
    readSetting q keys bound default = readSetting p keys bound default := by
  have choice : chosen q keys = chosen p keys := by
    unfold chosen
    induction keys with
    | nil => rfl
    | cons key rest ih =>
        obtain ⟨here, later⟩ := List.forall_mem_cons.mp same
        rw [List.findSome?_cons, List.findSome?_cons, here, ih later]
  rw [readSetting, readSetting, choice]

theorem ofParameters_eq_ok_iff (p : Parameters) (c : Config) :
    ofParameters p = .ok c ↔
      Sets p "connector.batch.max-delay-seconds" "sink.batch.max-delay-seconds" 1
          c.delaySeconds.toNat ∧
        Sets p "connector.batch.size-bytes" "sink.batch.size-bytes" 16777216 c.sizeBytes.toNat ∧
        c.delaySeconds.toNat ≤ 86400 ∧ 1 ≤ c.sizeBytes.toNat ∧
        c.sizeBytes.toNat ≤ 2 ^ 64 - 1 := by
  rw [ofParameters_eq_ok_iff_readSetting, valid_iff, delayKeys, sizeKeys,
    readSetting_eq_ok_iff (by decide), readSetting_eq_ok_iff (by decide)]
  simp only [c.delaySeconds.toNat_lt, c.sizeBytes.toNat_lt, and_true]
  rfl

/-- Where the four keys hold the same, so do the settings. -/
theorem ofParameters_congr {q : Parameters} (same : ∀ key ∈ delayKeys ++ sizeKeys, q key = p key) :
    ofParameters q = ofParameters p := by
  obtain ⟨delay, size⟩ := List.forall_mem_append.mp same
  rw [ofParameters, ofParameters, readSetting_congr delay, readSetting_congr size]

/-- Settings in decimal, each under one key. -/
def rendered (delayKey sizeKey : String) (c : Config) : Parameters := fun key =>
  if key = delayKey then some (toString c.delaySeconds)
  else if key = sizeKey then some (toString c.sizeBytes)
  else none

/-- The other keys are absent, among them the connector key where the sink key is used. -/
theorem sets_rendered {delayKey sizeKey : String} (delay : delayKey ∈ delayKeys)
    (size : sizeKey ∈ sizeKeys) :
    Sets (rendered delayKey sizeKey c) "connector.batch.max-delay-seconds"
        "sink.batch.max-delay-seconds" 1 c.delaySeconds.toNat ∧
      Sets (rendered delayKey sizeKey c) "connector.batch.size-bytes" "sink.batch.size-bytes"
        16777216 c.sizeBytes.toNat := by
  have seconds := (Numeral.spells_toString c.delaySeconds.toNat).trimmed
  have bytes := (Numeral.spells_toString c.sizeBytes.toNat).trimmed
  rw [delayKeys, List.mem_cons, List.mem_singleton] at delay
  rw [sizeKeys, List.mem_cons, List.mem_singleton] at size
  rcases delay with rfl | rfl <;> rcases size with rfl | rfl <;>
  · simp only [Sets, rendered, String.reduceEq, reduceIte]
    exact ⟨seconds, bytes⟩

/-- Accepted are the parameters that give each setting its value, in the ranges for it; no other key
has a say, and what is written out in decimal is read back. -/
theorem accepts_exactly (p : Parameters) (c : Config) :
    (ofParameters p = .ok c ↔
      Sets p "connector.batch.max-delay-seconds" "sink.batch.max-delay-seconds" 1
          c.delaySeconds.toNat ∧
        Sets p "connector.batch.size-bytes" "sink.batch.size-bytes" 16777216 c.sizeBytes.toNat ∧
        c.delaySeconds.toNat ≤ 86400 ∧ 1 ≤ c.sizeBytes.toNat ∧
        c.sizeBytes.toNat ≤ 2 ^ 64 - 1) ∧
    (∀ q : Parameters, (∀ key ∈ delayKeys ++ sizeKeys, q key = p key) →
      ofParameters q = ofParameters p) ∧
    (c.Valid → ∀ delayKey ∈ delayKeys, ∀ sizeKey ∈ sizeKeys,
      ofParameters (rendered delayKey sizeKey c) = .ok c) := by
  have exactly (q : Parameters) := ofParameters_eq_ok_iff q c
  refine ⟨exactly p, fun q => ofParameters_congr, fun valid _ delay _ size => ?_⟩
  obtain ⟨seconds, bytes⟩ := sets_rendered delay size
  exact (exactly _).mpr ⟨seconds, bytes, valid_iff.mp valid⟩

/-- The sink key gives the delay, with a sign, zeros and blanks around it; the connector key gives
the size, and what the sink key says of it is no number at all. -/
def mixed : Parameters := fun key =>
  if key = "sink.batch.max-delay-seconds" then some "\u00a0\t+007\u2003"
  else if key = "connector.batch.size-bytes" then some "18446744073709551615"
  else if key = "sink.batch.size-bytes" then some "many"
  else none

theorem mixed_accepted :
    ofParameters mixed = .ok ⟨7, Word.largest⟩ ∧
      ofParameters (fun key => if key = "sink.batch.retries" then some "3" else mixed key) =
        ofParameters mixed ∧
      ofParameters (rendered "sink.batch.max-delay-seconds" "sink.batch.size-bytes"
        ⟨7, Word.largest⟩) = .ok ⟨7, Word.largest⟩ := by
  have exactly := accepts_exactly mixed ⟨7, Word.largest⟩
  have blank {s : List Char} (all : s.all Text.isBlank = true) : ∀ c ∈ s, Text.isBlank c = true :=
    List.all_eq_true.mp all
  have delay : Numeral.SpellsTrimmed "\u00a0\t+007\u2003".toList 7 :=
    ⟨"+007".toList,
      ⟨"\u00a0\t".toList, "\u2003".toList, rfl, blank (by decide), blank (by decide)⟩,
      "007".toList, Or.inr rfl, by decide, List.all_eq_true.mp (by decide), rfl⟩
  have size : Numeral.SpellsTrimmed "18446744073709551615".toList 18446744073709551615 :=
    (Numeral.spells_toString 18446744073709551615).trimmed
  refine ⟨exactly.1.mpr ⟨delay, size, by decide, by decide, by decide⟩, ?_, ?_⟩
  · refine exactly.2.1 _ fun key listed => if_neg ?_
    rintro rfl
    revert listed
    decide
  · exact exactly.2.2 (by decide) _ (by decide) _ (by decide)

end ElasticBatch.Config
