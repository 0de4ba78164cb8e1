import EntityQuery.Text.HiddenTable

/-!
# Escaped text

`escaped` shows a text in double quotes, with escapes for quotes, backslashes and all characters
that would not be seen.
-/

namespace EntityQuery.Text

/-- Is a character shown as it is, quotes and backslashes aside? -/
def isVisible (c : Char) : Bool :=
  if c.toNat < 128 then 0x20 ≤ c.toNat && c.toNat < 0x7F else !hiddenRanges.mem c.toNat

def escapeHidden (c : Char) : List Char :=
  match c with
  | '\x00' => ['\\', '0']
  | '\t' => ['\\', 't']
  | '\r' => ['\\', 'r']
  | '\n' => ['\\', 'n']
  | '\\' => ['\\', '\\']
  | '"' => ['\\', '"']
  | c =>
    if isVisible c then [c]
    else '\\' :: 'u' :: '\x7b' :: Nat.toDigits 16 c.toNat ++ ['\x7d']

def escaped (s : String) : String :=
  String.ofList ('"' :: s.toList.flatMap escapeHidden ++ ['"'])

end EntityQuery.Text
