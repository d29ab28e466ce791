import ServiceGen.Source.Literal

/-!
Reading string literals.  A literal is read up to the quote that ends it, and what is read is the
text that was written, whatever stands behind it.
-/

namespace ServiceGen.Literal

/-- The character that an escaped one stands for. -/
def unescape (c : Char) : Char :=
  if c = 'n' then '\n'
  else if c = 'r' then '\r'
  else if c = 't' then '\t'
  else c

/-- Reads the rest of a literal, up to its end, and gives what stands behind it. -/
def readRest? : List Char → Option (List Char × List Char)
  | [] => none
  | '\"' :: after => some ([], after)
  | '\\' :: c :: rest => (readRest? rest).map fun (cs, after) => (unescape c :: cs, after)
  | c :: rest => (readRest? rest).map fun (cs, after) => (c :: cs, after)

def read? (text : String) : Option String :=
  match text.toList with
  | '\"' :: cs => (readRest? cs).map fun (found, _) => .ofList found
  | _ => none

/-- A character is read as it was written. -/
theorem readRest?_escapeChar (c : Char) (rest : List Char) :
    readRest? (escapeChar c ++ rest) =
      (readRest? rest).map fun (cs, after) => (c :: cs, after) := by
  by_cases hquote : c = '\"'
  · subst hquote
    rfl
  by_cases hbackslash : c = '\\'
  · subst hbackslash
    rfl
  by_cases hfeed : c = '\n'
  · subst hfeed
    rfl
  by_cases hreturn : c = '\r'
  · subst hreturn
    rfl
  by_cases htab : c = '\t'
  · subst htab
    rfl
  have hplain : escapeChar c = [c] := by
    simp [escapeChar, hquote, hbackslash, hfeed, hreturn, htab]
  rw [hplain, List.singleton_append, readRest?]
  · exact hquote
  · intro d after hc
    exact absurd hc hbackslash

/-- A text is read as it was written, and what stands behind it is left. -/
theorem readRest?_flatMap (cs after : List Char) :
    readRest? (cs.flatMap escapeChar ++ '\"' :: after) = some (cs, after) := by
  induction cs with
  | nil => rfl
  | cons c cs ih => rw [List.flatMap_cons, List.append_assoc, readRest?_escapeChar, ih]; rfl

/-- What was quoted is read again. -/
theorem read?_quote (s after : String) : read? (quote s ++ after) = some s := by
  rw [read?, quote, String.toList_append, String.toList_ofList]
  simp [readRest?_flatMap]

end ServiceGen.Literal
