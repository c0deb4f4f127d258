import ElasticBatch.Config.Basic
import ElasticBatch.Text.Blank

/-! Settings from flat parameters. Each setting has a connector key and a sink key; the connector
key, where present, is the only one looked at. -/
namespace ElasticBatch

abbrev Parameters := String → Option String

namespace Config

def delayKeys : List String :=
  ["connector.batch.max-delay-seconds", "sink.batch.max-delay-seconds"]

def sizeKeys : List String := ["connector.batch.size-bytes", "sink.batch.size-bytes"]

/-- The first of the keys that is present, with its value. -/
def chosen (p : Parameters) (keys : List String) : Option (String × String) :=
  keys.findSome? fun key => (p key).map fun raw => (key, raw)

/-- A numeral below the bound, blanks around it aside; an absent setting takes its default. -/
def readSetting (p : Parameters) (keys : List String) (bound default : Nat) : Except Fault Nat :=
  match chosen p keys with
  | none => .ok default
  | some (key, raw) =>
    match Numeral.read bound (Text.trim raw.toList) with
    | .ok n => .ok n
    | .error cause => .error (.unreadable raw key cause)

/-- The delay is read before the size, and both before the range check. -/
def ofParameters (p : Parameters) : Except Fault Config :=
  match readSetting p delayKeys UInt32.size defaultDelay.toNat with
  | .error fault => .error fault
  | .ok delay =>
    match readSetting p sizeKeys UInt64.size defaultSize.toNat with
    | .error fault => .error fault
    | .ok size => check ⟨UInt32.ofNat delay, UInt64.ofNat size⟩

theorem chosen_pair (p : Parameters) (first second : String) :
    chosen p [first, second] =
      match p first with
      | some raw => some (first, raw)
      | none => (p second).map fun raw => (second, raw) := by
  unfold chosen
  cases h : p first <;> cases k : p second <;> simp [List.findSome?, h, k]

end Config
end ElasticBatch
