import Mathlib.Data.List.Basic
import ServiceGen.Proofs.Naming
import ServiceGen.Proofs.Source.LiteralText

/-!
Which names a line of generated code refers to.  A name is referred to at the front of a line, as an
item or a call, or at its back, as a call that is assigned or as the class that is extended.  The
characters next to a name are none of its own, so a line refers to one name at most in each place.
-/

namespace ServiceGen.Block

open Naming

/-- A line refers to a name. -/
inductive RefersTo : String → String → Prop
  | item (name : String) : RefersTo (name ++ ",") name
  | call (name arguments : String) : RefersTo (name ++ "(" ++ arguments) name
  | assigned (target name : String) : RefersTo (target ++ " = " ++ name ++ "(") name
  | extended (derived name : String) : RefersTo ("class " ++ derived ++ "(" ++ name ++ "):") name

/-- The line refers to no identifier. -/
def RefersToNone (line : String) : Prop :=
  ∀ name, isIdentifier name = true → ¬ RefersTo line name

/-- The line refers to no other identifier than `name`. -/
def RefersOnlyTo (line name : String) : Prop :=
  ∀ other, isIdentifier other = true → RefersTo line other → other = name

/-- The line begins with an item or a call of the name. -/
def FrontReference (line name : List Char) : Prop :=
  ∃ c after, line = name ++ c :: after ∧ (c = '(' ∨ c = ',' ∧ after = [])

/-- The line ends with a call of the name behind a blank, or with the name in parentheses. -/
def BackReference (line name : List Char) : Prop :=
  ∃ before c after, line = before ++ c :: (name ++ after) ∧
    (c = ' ' ∧ after = ['('] ∨ c = '(' ∧ after = [')', ':'])

theorem RefersTo.front_or_back {line name : String} (h : RefersTo line name) :
    FrontReference line.toList name.toList ∨ BackReference line.toList name.toList := by
  cases h with
  | item => exact .inl ⟨',', [], by simp, .inr ⟨rfl, rfl⟩⟩
  | call _ arguments => exact .inl ⟨'(', arguments.toList, by simp, .inl rfl⟩
  | assigned target =>
      exact .inr ⟨target.toList ++ [' ', '='], ' ', ['('], by simp, .inl ⟨rfl, rfl⟩⟩
  | extended derived =>
      exact .inr ⟨"class ".toList ++ derived.toList, '(', [')', ':'], by simp, .inr ⟨rfl, rfl⟩⟩

section Places

variable {line name word before after : List Char} {c : Char}

/-- The word at the front of a line is the one that it can refer to there, and only when it is an
item or a call. -/
theorem FrontReference.eq_word (h : FrontReference (word ++ c :: after) name)
    (hname : ∀ d ∈ name, IsWordChar d) (hword : ∀ d ∈ word, IsWordChar d) (hc : ¬ IsWordChar c) :
    name = word ∧ (c = '(' ∨ c = ',' ∧ after = []) := by
  obtain ⟨d, rest, heq, hd⟩ := h
  have hdelimiter : ¬ IsWordChar d := by
    rcases hd with rfl | ⟨rfl, -⟩ <;> decide
  obtain ⟨rfl, hrest⟩ := Literal.eq_of_append_eq hword hname
    (by simpa using hc) (by simpa using hdelimiter) heq
  obtain ⟨rfl, rfl⟩ := List.cons.inj hrest
  exact ⟨rfl, hd⟩

/-- A line with something else behind its first word refers to nothing at its front. -/
theorem not_frontReference (hword : ∀ d ∈ word, IsWordChar d) (hc : ¬ IsWordChar c)
    (hcall : c ≠ '(') (hitem : c ≠ ',') (hname : ∀ d ∈ name, IsWordChar d) :
    ¬ FrontReference (word ++ c :: after) name := by
  intro h
  rcases (h.eq_word hname hword hc).2 with hparen | ⟨hcomma, -⟩
  · exact hcall hparen
  · exact hitem hcomma

/-- The last word of a line, before its closing characters, is the one that it can refer to at its
back. -/
theorem BackReference.eq_word (h : BackReference (before ++ c :: (word ++ after)) name)
    (hname : ∀ d ∈ name, IsWordChar d) (hword : ∀ d ∈ word, IsWordChar d) (hc : ¬ IsWordChar c)
    (hafter : after = ['('] ∨ after = [')', ':']) : name = word := by
  obtain ⟨front, d, rest, heq, hd⟩ := h
  have hdelimiter : ¬ IsWordChar d := by
    rcases hd with ⟨rfl, -⟩ | ⟨rfl, -⟩ <;> decide
  -- the closing characters are told apart by the last one
  have hrest : after = rest := by
    have hlast := congrArg List.getLast? heq
    rcases hafter with rfl | rfl <;> rcases hd with ⟨-, rfl⟩ | ⟨-, rfl⟩ <;>
      simp [List.getLast?_append, List.getLast?_cons] at hlast ⊢
  subst hrest
  have hreversed : word.reverse ++ c :: before.reverse = name.reverse ++ d :: front.reverse := by
    have hcut : before ++ c :: word = front ++ d :: name := by
      refine List.append_cancel_right (?_ : _ ++ after = _ ++ after)
      simpa using heq
    simpa using congrArg List.reverse hcut
  have hwords := Literal.eq_of_append_eq (p := IsWordChar) (by simpa using hword)
    (by simpa using hname) (by simpa using hc) (by simpa using hdelimiter) hreversed
  exact (List.reverse_injective hwords.1).symm

/-- A line that ends otherwise refers to nothing at its back. -/
theorem not_backReference_of_getLast? {d : Char} (hlast : line.getLast? = some d)
    (hcall : d ≠ '(') (hheader : d ≠ ':') : ¬ BackReference line name := by
  rintro ⟨front, e, rest, rfl, hrest⟩
  rcases hrest with ⟨-, rfl⟩ | ⟨-, rfl⟩
  · exact hcall (by simpa [List.getLast?_append, List.getLast?_cons] using hlast.symm)
  · exact hheader (by simpa [List.getLast?_append, List.getLast?_cons] using hlast.symm)

/-- A call alone in its line stands at the front only. -/
theorem not_backReference_call (hword : ∀ d ∈ word, IsWordChar d) :
    ¬ BackReference (word ++ ['(']) name := by
  rintro ⟨front, e, rest, heq, ⟨rfl, rfl⟩ | ⟨rfl, rfl⟩⟩
  · have hblank : ' ' ∈ word ++ ['('] := heq ▸ by simp
    have hmem : ' ' ∈ word := by simpa using hblank
    exact absurd (hword ' ' hmem) (by decide)
  · have hlast := congrArg List.getLast? heq
    simp [List.getLast?_append, List.getLast?_cons] at hlast

end Places

section Lines

variable {line name : String}

theorem getLast?_append_comma (text : String) : (text ++ ",").toList.getLast? = some ',' := by
  rw [String.toList_append, List.getLast?_append]
  rfl

/-- An item refers to itself only. -/
theorem refersOnlyTo_item (hname : isIdentifier name = true) :
    RefersOnlyTo (name ++ ",") name := by
  intro other hother h
  have hwords := isWordChar_of_isIdentifier hname
  have hline : (name ++ ",").toList = name.toList ++ ',' :: [] := by simp
  have hback : ¬ BackReference (name ++ ",").toList other.toList :=
    not_backReference_of_getLast? (getLast?_append_comma name) (by decide) (by decide)
  have hfront := h.front_or_back.resolve_right hback
  rw [hline] at hfront
  exact String.toList_injective (hfront.eq_word (isWordChar_of_isIdentifier hother) hwords
    (by decide)).1

/-- A call of a name refers to it only, when its arguments end the line or close it like an item. -/
theorem refersOnlyTo_call (hname : isIdentifier name = true) (arguments : String)
    (harguments : arguments = "" ∨ arguments.toList.getLast? = some ',') :
    RefersOnlyTo (name ++ "(" ++ arguments) name := by
  intro other hother h
  have hwords := isWordChar_of_isIdentifier hname
  have hline : (name ++ "(" ++ arguments).toList = name.toList ++ '(' :: arguments.toList := by
    simp
  have hback : ¬ BackReference (name ++ "(" ++ arguments).toList other.toList := by
    rw [hline]
    rcases harguments with rfl | hlast
    · exact not_backReference_call hwords
    · refine not_backReference_of_getLast? (d := ',') ?_ (by decide) (by decide)
      simp [List.getLast?_append, List.getLast?_cons, hlast]
  have hfront := h.front_or_back.resolve_right hback
  rw [hline] at hfront
  exact String.toList_injective (hfront.eq_word (isWordChar_of_isIdentifier hother) hwords
    (by decide)).1

/-- A call that is assigned to an identifier refers to what is called only. -/
theorem refersOnlyTo_assigned {target : String} (htarget : isIdentifier target = true)
    (hname : isIdentifier name = true) : RefersOnlyTo (target ++ " = " ++ name ++ "(") name := by
  intro other hother h
  have hwords := isWordChar_of_isIdentifier hother
  have hfront : ¬ FrontReference (target ++ " = " ++ name ++ "(").toList other.toList := by
    have hline : (target ++ " = " ++ name ++ "(").toList =
        target.toList ++ ' ' :: ('=' :: ' ' :: (name.toList ++ ['('])) := by simp
    rw [hline]
    exact not_frontReference (isWordChar_of_isIdentifier htarget) (by decide) (by decide)
      (by decide) hwords
  have hback := h.front_or_back.resolve_left hfront
  have hline : (target ++ " = " ++ name ++ "(").toList =
      (target.toList ++ [' ', '=']) ++ ' ' :: (name.toList ++ ['(']) := by simp
  rw [hline] at hback
  exact String.toList_injective (hback.eq_word hwords (isWordChar_of_isIdentifier hname)
    (by decide) (.inl rfl))

/-- The header of a class refers to the class that is extended only. -/
theorem refersOnlyTo_extended (derived : String) (hname : isIdentifier name = true) :
    RefersOnlyTo ("class " ++ derived ++ "(" ++ name ++ "):") name := by
  intro other hother h
  have hwords := isWordChar_of_isIdentifier hother
  have hfront : ¬ FrontReference ("class " ++ derived ++ "(" ++ name ++ "):").toList
      other.toList := by
    have hline : ("class " ++ derived ++ "(" ++ name ++ "):").toList =
        "class".toList ++ ' ' :: (derived.toList ++ '(' :: (name.toList ++ [')', ':'])) := by simp
    rw [hline]
    exact not_frontReference (by simp [IsWordChar]) (by decide) (by decide) (by decide) hwords
  have hback := h.front_or_back.resolve_left hfront
  have hline : ("class " ++ derived ++ "(" ++ name ++ "):").toList =
      ("class ".toList ++ derived.toList) ++ '(' :: (name.toList ++ [')', ':']) := by simp
  rw [hline] at hback
  exact String.toList_injective (hback.eq_word hwords (isWordChar_of_isIdentifier hname)
    (by decide) (.inr rfl))

/-- A line refers to nothing when its first word is neither an item nor called, and no name can
stand at its back. -/
theorem refersToNone_of_word {word after : List Char} {c : Char}
    (hline : line.toList = word ++ c :: after) (hword : ∀ d ∈ word, IsWordChar d)
    (hc : ¬ IsWordChar c ∧ c ≠ '(' ∧ c ≠ ',') {d : Char} (hlast : line.toList.getLast? = some d)
    (hd : d ≠ '(' ∧ d ≠ ':') : RefersToNone line := by
  intro name hname h
  rcases h.front_or_back with hfront | hback
  · rw [hline] at hfront
    exact not_frontReference hword hc.1 hc.2.1 hc.2.2 (isWordChar_of_isIdentifier hname) hfront
  · exact not_backReference_of_getLast? hlast hd.1 hd.2 hback

/-- Nothing can stand at the front of a line that begins with a symbol. -/
theorem refersToNone_of_symbol {c d : Char} {cs : List Char} (hline : line.toList = c :: cs)
    (hc : ¬ IsWordChar c ∧ c ≠ '(' ∧ c ≠ ',') (hlast : line.toList.getLast? = some d)
    (hd : d ≠ '(' ∧ d ≠ ':') : RefersToNone line := by
  have hcut : line.toList = [] ++ c :: cs := hline
  exact refersToNone_of_word hcut (by simp) hc hlast hd

/-- A setting: a value that is assigned to an identifier. -/
theorem refersToNone_setting (target value : String) (hline : line = target ++ " = " ++ value)
    (htarget : isIdentifier target = true) {d : Char}
    (hlast : value.toList.getLast? = some d) (hd : d ≠ '(' ∧ d ≠ ':') : RefersToNone line := by
  have hcut : line.toList = target.toList ++ ' ' :: '=' :: ' ' :: value.toList := by simp [hline]
  refine refersToNone_of_word hcut (isWordChar_of_isIdentifier htarget) (by decide) ?_ hd
  simp [hline, List.getLast?_append, List.getLast?_cons, hlast]

/-- A parenthesis that is assigned to an identifier has nothing in front that is called. -/
theorem refersToNone_tuple (target : String) (htarget : isIdentifier target = true) :
    RefersToNone (target ++ " = (") := by
  intro name hname h
  have hwords := isWordChar_of_isIdentifier hname
  rcases h.front_or_back with hfront | hback
  · have hline : (target ++ " = (").toList = target.toList ++ ' ' :: ['=', ' ', '('] := by simp
    rw [hline] at hfront
    exact not_frontReference (isWordChar_of_isIdentifier htarget) (by decide)
      (by decide) (by decide) hwords hfront
  · have hline : (target ++ " = (").toList =
        (target.toList ++ [' ', '=']) ++ ' ' :: ([] ++ ['(']) := by simp
    rw [hline] at hback
    exact toList_ne_nil_of_isIdentifier hname
      (hback.eq_word hwords (by simp) (by decide) (.inl rfl))

end Lines

end ServiceGen.Block
