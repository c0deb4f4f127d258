import ElasticBatch.Text.Unprinted

/-! Quoted text: double quotes around, escapes inside, unprinted characters by their code points. -/
namespace ElasticBatch.Text

def hexadecimal (n : Nat) : List Char := Nat.toDigits 16 n

def escape (c : Char) : List Char :=
  if c = '\x00' then ['\\', '0']
  else if c = '\t' then ['\\', 't']
  else if c = '\r' then ['\\', 'r']
  else if c = '\n' then ['\\', 'n']
  else if c = '"' then ['\\', '"']
  else if c = '\\' then ['\\', '\\']
  else if isUnprinted c then ['\\', 'u', '\x7b'] ++ hexadecimal c.toNat ++ ['\x7d']
  else [c]

def quote (s : String) : String :=
  String.ofList (['"'] ++ s.toList.flatMap escape ++ ['"'])

example : quote "a\"b\\" = "\"a\\\"b\\\\\"" := by decide +kernel

end ElasticBatch.Text
