/-!
# Quoted text

A text is quoted by single quotes around it, with a backslash before each quote and backslash
inside. Reading takes the character after a backslash as it is. `unquote_quote` says that reading
undoes writing.
-/

namespace EntityQuery.Text

/-- Each quote and backslash behind a backslash. -/
def escapeQuotes : List Char → List Char
  | [] => []
  | c :: cs => if c = '\\' ∨ c = '\'' then '\\' :: c :: escapeQuotes cs else c :: escapeQuotes cs

/-- Backslashes gone, the characters after them kept. One at the very end is dropped. -/
def unescape : List Char → List Char
  | [] => []
  | '\\' :: c :: cs => c :: unescape cs
  | ['\\'] => []
  | c :: cs => c :: unescape cs

/-- What stands between a first and a last single quote; without the pair, the whole. -/
def stripQuotes (cs : List Char) : List Char :=
  match cs with
  | '\'' :: rest => if rest.getLast? = some '\'' then rest.dropLast else cs
  | _ => cs

def quote (s : String) : String :=
  String.ofList ('\'' :: escapeQuotes s.toList ++ ['\''])

def unquote (raw : String) : String := String.ofList (unescape (stripQuotes raw.toList))

/-! ## Reading undoes writing -/

theorem unescape_escapeQuotes (cs : List Char) : unescape (escapeQuotes cs) = cs := by
  induction cs with
  | nil => rfl
  | cons c cs ih =>
    unfold escapeQuotes
    split
    · simp [unescape, ih]
    · rename_i h
      have hc : c ≠ '\\' := fun e => h (.inl e)
      unfold unescape
      split <;> simp_all

theorem stripQuotes_quoted (cs : List Char) : stripQuotes ('\'' :: cs ++ ['\'']) = cs := by
  simp [stripQuotes]

theorem unquote_quote (s : String) : unquote (quote s) = s := by
  simp only [unquote, quote, String.toList_ofList, stripQuotes_quoted, unescape_escapeQuotes,
    String.ofList_toList]

end EntityQuery.Text
