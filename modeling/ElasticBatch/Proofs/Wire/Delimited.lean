import ElasticBatch.Wire.Value
import ElasticBatch.Proofs.Wire.Refusal
import Mathlib.Logic.Function.Basic

/-! Codes whose words show where they end. A word is known from what it begins with, whatever comes
after it: no word is another, and none begins another. All codes for what is written without
parts are of this kind. -/
namespace ElasticBatch.Wire

/-- What follows a word decides neither which word it is nor where it ends. -/
structure Delimited {α : Type} (code : α → Bytes) : Prop where
  cut {a b : α} {p q : Bytes} (same : code a ++ p = code b ++ q) : a = b ∧ p = q

namespace Delimited

variable {α β : Type} {code : α → Bytes}

theorem of_length {size : Nat} (length : ∀ a, (code a).length = size)
    (injective : Function.Injective code) : Delimited code where
  cut {a b _ _} same := by
    obtain ⟨word, rest⟩ := List.append_inj same ((length a).trans (length b).symm)
    exact ⟨injective word, rest⟩

theorem comp (h : Delimited code) {f : β → α} (injective : Function.Injective f) :
    Delimited fun b => code (f b) where
  cut same := by
    obtain ⟨inner, rest⟩ := h.cut same
    exact ⟨injective inner, rest⟩

end Delimited

/-- However large the numbers are, some format has room for both. -/
theorem delimited_write : Delimited Varint.write where
  cut {n m _ _} same := by
    have room {k : Nat} (le : k ≤ n + m) : k < ((1 : UInt8).toNat + 1) * 128 ^ (n + m) := by
      have less : n + m < 128 ^ (n + m) := Nat.lt_pow_self (by decide)
      change k < 2 * 128 ^ (n + m)
      omega
    have format := Varint.reads_form ⟨n + m, 1⟩ (show (1 : UInt8) < 128 by decide)
    exact format.unique (Varint.form_write (by decide) (room (Nat.le_add_right n m)))
      (Varint.form_write (by decide) (room (Nat.le_add_left m n))) same

theorem delimited_counted : Delimited counted where
  cut same := by
    simp only [counted, List.append_assoc] at same
    obtain ⟨length, rest⟩ := delimited_write.cut same
    exact List.append_inj rest length

theorem ofNat_byte_inj {n m : Nat} (small : n < 256) (less : m < 256)
    (same : UInt8.ofNat n = UInt8.ofNat m) : n = m := by
  have value := congrArg UInt8.toNat same
  rwa [UInt8.toNat_ofNat_of_lt' small, UInt8.toNat_ofNat_of_lt' less] at value

theorem delimited_flag : Delimited fun b : Bool => [if b then (1 : UInt8) else 0] :=
  .of_length (fun _ => rfl) (by unfold Function.Injective; decide)

theorem delimited_byte : Delimited fun n : BitVec 8 => [UInt8.ofNat n.toNat] := by
  refine .of_length (fun _ => rfl) fun n m same => ?_
  exact BitVec.eq_of_toNat_eq (ofNat_byte_inj n.isLt m.isLt (List.head_eq_of_cons_eq same))

theorem delimited_natural (width : Width) : Delimited (natural width) := by
  have wide {size : Nat} : Delimited fun n : BitVec size => Varint.write n.toNat :=
    delimited_write.comp fun _ _ => BitVec.eq_of_toNat_eq
  cases width with
  | w8 => exact delimited_byte
  | _ => exact wide

theorem zigzag_injective : Function.Injective zigzag := by
  intro a b same
  cases a with
  | ofNat n =>
      cases b with
      | ofNat m => simp only [zigzag] at same; exact congrArg Int.ofNat (by omega)
      | negSucc m => simp only [zigzag] at same; omega
  | negSucc n =>
      cases b with
      | ofNat m => simp only [zigzag] at same; omega
      | negSucc m => simp only [zigzag] at same; exact congrArg Int.negSucc (by omega)

theorem delimited_integer (width : Width) : Delimited (integer width) := by
  have wide {size : Nat} : Delimited fun n : BitVec size => Varint.write (zigzag n.toInt) :=
    delimited_write.comp fun _ _ same => BitVec.eq_of_toInt_eq (zigzag_injective same)
  cases width with
  | w8 => exact delimited_byte
  | _ => exact wide

theorem length_littleEndian (places n : Nat) : (littleEndian places n).length = places := by
  induction places generalizing n with
  | zero => rfl
  | succ places ih => exact congrArg Nat.succ (ih (n / 256))

theorem littleEndian_inj {places n m : Nat} (small : n < 256 ^ places) (less : m < 256 ^ places)
    (same : littleEndian places n = littleEndian places m) : n = m := by
  induction places generalizing n m with
  | zero => omega
  | succ places ih =>
      obtain ⟨lowest, others⟩ := List.cons.inj same
      rw [Nat.pow_succ] at small less
      have low := ofNat_byte_inj (by omega) (by omega) lowest
      have high := ih (by omega) (by omega) others
      omega

theorem delimited_single : Delimited fun bits : UInt32 => littleEndian 4 bits.toNat :=
  .of_length (fun _ => length_littleEndian 4 _) fun a b same =>
    UInt32.toNat_inj.mp (littleEndian_inj a.toNat_lt b.toNat_lt same)

theorem delimited_double : Delimited fun bits : UInt64 => littleEndian 8 bits.toNat :=
  .of_length (fun _ => length_littleEndian 8 _) fun a b same =>
    UInt64.toNat_inj.mp (littleEndian_inj a.toNat_lt b.toNat_lt same)

theorem delimited_index : Delimited fun index : UInt32 => Varint.write index.toNat :=
  delimited_write.comp fun _ _ => UInt32.toNat_inj.mp

theorem utf8EncodeChar_injective : Function.Injective String.utf8EncodeChar := by
  intro c d same
  have decode (c : Char) :
      ((String.utf8EncodeChar c).toByteArray ++ ByteArray.empty).utf8DecodeChar? 0 = some c :=
    ByteArray.utf8DecodeChar?_utf8EncodeChar_append
  have first := decode c
  rw [same, decode d] at first
  exact (Option.some.inj first).symm

theorem delimited_char : Delimited fun c => counted (String.utf8EncodeChar c) :=
  delimited_counted.comp utf8EncodeChar_injective

theorem utf8_injective : Function.Injective utf8 := by
  intro s t same
  exact String.toByteArray_inj.mp (ByteArray.ext (Array.toList_inj.mp same))

theorem delimited_text : Delimited fun s => counted (utf8 s) :=
  delimited_counted.comp utf8_injective

end ElasticBatch.Wire
