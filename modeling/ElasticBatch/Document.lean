import ElasticBatch.Text.Quoted
import ElasticBatch.Decimal

/-! Documents: the tree-shaped values that settings arrive in, and typed reading out of them. -/
namespace ElasticBatch

/-- The keys of a map are distinct, and each has its value. -/
inductive Document where
  | null
  | bool (value : Bool)
  | integer (value : Int)
  | float (value : Float)
  | text (value : String)
  | sequence (items : List Document)
  | map (keys : List String) (distinct : keys.Nodup) (values : Fin keys.length → Document)
  deriving Inhabited

namespace Document

/-- Floats in diagnostics: positional from `1e-5` up to below `1e16`. -/
def floatLayout : Decimal.Layout := ⟨-5, 16, true⟩

def quoteMark (s : String) : String := "`" ++ s ++ "`"

/-- What a reader says it found. -/
def describe : Document → String
  | .null => "null"
  | .bool true => "boolean " ++ quoteMark "true"
  | .bool false => "boolean " ++ quoteMark "false"
  | .integer n => "integer " ++ quoteMark (toString n)
  | .float x => "floating point " ++ quoteMark (floatLayout.float x)
  | .text s => "string " ++ Text.quote s
  | .sequence _ => "sequence"
  | .map .. => "map"

inductive Fault where
  | invalidType (found expected : String)
  | invalidValue (found expected : String)
  | invalidLength (length : Nat) (expected : String)
  | unknownVariant (name : String) (options : List String)
  deriving DecidableEq, Repr

def Fault.message : Fault → String
  | .invalidType found expected => "invalid type: " ++ found ++ ", expected " ++ expected
  | .invalidValue found expected => "invalid value: " ++ found ++ ", expected " ++ expected
  | .invalidLength length expected =>
    "invalid length " ++ toString length ++ ", expected " ++ expected
  | .unknownVariant name options =>
    "unknown variant " ++ quoteMark name ++ ", expected one of " ++
      String.intercalate ", " (options.map quoteMark)

/-- A natural number below the bound; `kind` names the set of those numbers. -/
def natural (bound : Nat) (kind : String) : Document → Except Fault Nat
  | .integer n =>
    if 0 ≤ n ∧ n.toNat < bound then .ok n.toNat
    else .error (.invalidValue (describe (.integer n)) kind)
  | other => .error (.invalidType other.describe kind)

/-- What stands under a key, if anything does. -/
def under {keys : List String} (values : Fin keys.length → Document) (key : String) :
    Option Document :=
  (keys.finIdxOf? key).map values

def pick (options : List (String × α)) (name : String) : Except Fault α :=
  match options.lookup name with
  | some a => .ok a
  | none => .error (.unknownVariant name (options.map (·.1)))

/-- One of the named options: its name, or a map from that name alone to null. -/
def variant (options : List (String × α)) : Document → Except Fault α
  | .text name => pick options name
  | .map [name] _ values =>
    match pick options name, values ⟨0, Nat.one_pos⟩ with
    | .error fault, _ => .error fault
    | .ok a, .null => .ok a
    | .ok _, body => .error (.invalidType body.describe "unit")
  | .map .. => .error (.invalidValue "map" "map with a single key")
  | other => .error (.invalidType other.describe "string or map")

/-- As no key occurs twice, each has its own value under it. -/
theorem under_getElem {keys : List String} (distinct : keys.Nodup)
    (values : Fin keys.length → Document) (i : Fin keys.length) :
    under values keys[i] = some (values i) := by
  have first : keys.finIdxOf? keys[i] = some i := by
    rw [List.finIdxOf?_eq_some_iff]
    exact ⟨rfl, fun j before => List.pairwise_iff_getElem.mp distinct j i j.isLt i.isLt before⟩
  rw [under, first]
  rfl

theorem natural_eq_ok_iff {bound n : Nat} {kind : String} {d : Document} :
    natural bound kind d = .ok n ↔ d = .integer n ∧ n < bound := by
  cases d with
  | integer m =>
      simp only [natural, integer.injEq]
      split
      · next h =>
          constructor
          · rintro ⟨⟩
            exact ⟨(Int.toNat_of_nonneg h.1).symm, h.2⟩
          · rintro ⟨rfl, _⟩
            rfl
      · next h =>
          simp only [reduceCtorEq, false_iff]
          rintro ⟨rfl, small⟩
          exact h ⟨Int.natCast_nonneg n, small⟩
  | _ => simp [natural]

end Document
end ElasticBatch
