import Mathlib.Data.Bool.AllAny
import ServiceGen.Proofs.Json.UniqueNames
import ServiceGen.Proofs.Number.Layout
import ServiceGen.Proofs.Source.Literal
import ServiceGen.Proofs.Text.Search

/-!
Literals are an unambiguous way to write values on one line.  The first character of a literal says
what kind of value it is for, and a literal ends where something begins that can stand behind one;
so different values have different literals, if different numbers are printed differently.
-/

namespace ServiceGen

open Number

namespace Json

mutual

/-- The floating-point numbers in a value. -/
def reals : Json → List Binary64
  | .num (.real x) => [x]
  | .arr items => realsInItems items
  | .obj members => realsInMembers members
  | _ => []

/-- The floating-point numbers in items. -/
def realsInItems : List Json → List Binary64
  | [] => []
  | item :: rest => item.reals ++ realsInItems rest

/-- The floating-point numbers in the values of members. -/
def realsInMembers : List (String × Json) → List Binary64
  | [] => []
  | (_, value) :: rest => value.reals ++ realsInMembers rest

end

mutual

/-- The strings in a value, names of members included, in their order. -/
def strings : Json → List String
  | .str s => [s]
  | .arr items => stringsInItems items
  | .obj members => stringsInMembers members
  | _ => []

def stringsInItems : List Json → List String
  | [] => []
  | item :: rest => item.strings ++ stringsInItems rest

def stringsInMembers : List (String × Json) → List String
  | [] => []
  | (name, value) :: rest => name :: value.strings ++ stringsInMembers rest

end

@[simp] theorem reals_arr (items : List Json) : reals (.arr items) = items.flatMap reals := by
  rw [reals]
  induction items with
  | nil => rfl
  | cons item rest ih => rw [realsInItems, ih, List.flatMap_cons]

@[simp] theorem reals_obj (members : List (String × Json)) :
    reals (.obj members) = members.flatMap fun member => member.2.reals := by
  rw [reals]
  induction members with
  | nil => rfl
  | cons member rest ih => rw [realsInMembers, ih, List.flatMap_cons]

@[simp] theorem strings_arr (items : List Json) : strings (.arr items) = items.flatMap strings := by
  rw [strings]
  induction items with
  | nil => rfl
  | cons item rest ih => rw [stringsInItems, ih, List.flatMap_cons]

@[simp] theorem strings_obj (members : List (String × Json)) :
    strings (.obj members) = members.flatMap fun member => member.1 :: member.2.strings := by
  rw [strings]
  induction members with
  | nil => rfl
  | cons member rest ih => rw [stringsInMembers, ih, List.flatMap_cons]

end Json

namespace Literal

section Parts

def ofMember (member : String × Json) : String :=
  quote member.1 ++ ": " ++ ofJson member.2

theorem ofItems_eq (items : List Json) : ofItems items = items.map ofJson := by
  induction items with
  | nil => rfl
  | cons item rest ih => rw [ofItems, ih, List.map_cons]

theorem ofMembers_eq (members : List (String × Json)) :
    ofMembers members = members.map ofMember := by
  induction members with
  | nil => rfl
  | cons member rest ih => rw [ofMembers, ih, List.map_cons]; rfl

variable {α : Type} (text : α → List Char)

/-- Texts behind another one, each after a comma. -/
def further (items : List α) : List Char :=
  items.flatMap fun a => ',' :: ' ' :: text a

/-- Texts one after the other, with commas between them. -/
def listed : List α → List Char
  | [] => []
  | a :: rest => text a ++ further text rest

theorem toList_intercalate_comma (name : α → String) (items : List α) :
    (", ".intercalate (items.map name)).toList = listed (fun a => (name a).toList) items := by
  cases items with
  | nil => rfl
  | cons a rest =>
      rw [List.map_cons, Text.toList_intercalate_cons, List.flatMap_map, listed, further]
      rfl

theorem toList_quote (s : String) :
    (quote s).toList = '\"' :: (s.toList.flatMap escapeChar ++ ['\"']) :=
  String.toList_ofList

theorem toList_ofMember (member : String × Json) :
    (ofMember member).toList =
      (quote member.1).toList ++ ':' :: ' ' :: (ofJson member.2).toList := by
  simp [ofMember]

theorem toList_ofJson_arr (items : List Json) :
    (ofJson (.arr items)).toList = '[' :: (listed (fun v => (ofJson v).toList) items ++ [']']) := by
  rw [ofJson, ofItems_eq, String.toList_append, String.toList_append, toList_intercalate_comma]
  rfl

theorem toList_ofJson_obj (members : List (String × Json)) :
    (ofJson (.obj members)).toList =
      '\x7b' :: (listed (fun m => (ofMember m).toList) members ++ ['\x7d']) := by
  rw [ofJson, ofMembers_eq, String.toList_append, String.toList_append, toList_intercalate_comma]
  rfl

end Parts

section Beginnings

/-- What the first character of a literal says about the value. -/
inductive Shape where
  | nothing | truth | number | text | array | object
deriving DecidableEq

def shapeOf : Json → Shape
  | .null => .nothing
  | .bool _ => .truth
  | .num _ => .number
  | .str _ => .text
  | .arr _ => .array
  | .obj _ => .object

/-- The shape that a character announces; those that can stand behind a literal announce none. -/
def announced? (c : Char) : Option Shape :=
  if c = ',' ∨ c = ']' ∨ c = '\x7d' then none
  else if c = 'N' then some .nothing
  else if c = 'T' ∨ c = 'F' then some .truth
  else if c = '\"' then some .text
  else if c = '[' then some .array
  else if c = '\x7b' then some .object
  else some .number

theorem announced?_of_isNumeralChar {c : Char} (hc : IsNumeralChar c) :
    announced? c = some .number := by
  have hother : ∀ d ∈ [',', ']', '\x7d', 'N', 'T', 'F', '\"', '[', '\x7b'], ¬ IsNumeralChar d :=
    List.all_iff_forall_prop.mp (by decide)
  have hne : ∀ d ∈ [',', ']', '\x7d', 'N', 'T', 'F', '\"', '[', '\x7b'], c ≠ d :=
    fun d hd heq => hother d hd (heq ▸ hc)
  simp only [List.forall_mem_cons] at hne
  simp [announced?, hne]

/-- A literal begins with a character that announces the shape of the value. -/
theorem exists_announced (v : Json) :
    ∃ c cs, (ofJson v).toList = c :: cs ∧ announced? c = some (shapeOf v) := by
  cases v with
  | null => exact ⟨_, _, rfl, rfl⟩
  | bool b => cases b <;> exact ⟨_, _, rfl, rfl⟩
  | num n =>
      cases htext : n.render.toList with
      | nil => exact absurd (String.toList_eq_nil_iff.mp htext) n.render_ne_empty
      | cons c cs =>
          have hc : c ∈ n.render.toList := by
            rw [htext]
            exact List.mem_cons_self
          exact ⟨c, cs, htext, announced?_of_isNumeralChar (Numeral.isNumeralChar_of_mem_render hc)⟩
  | str s => exact ⟨_, _, toList_quote s, rfl⟩
  | arr items => exact ⟨_, _, toList_ofJson_arr items, rfl⟩
  | obj members => exact ⟨_, _, toList_ofJson_obj members, rfl⟩

/-- What can stand behind a literal: nothing, a comma or the end of a list. -/
def Stops (cs : List Char) : Prop :=
  ∀ c ∈ cs.head?, announced? c = none

theorem not_stops (v : Json) (cs : List Char) : ¬ Stops ((ofJson v).toList ++ cs) := by
  obtain ⟨c, rest, htext, hc⟩ := exists_announced v
  intro hstops
  rw [htext] at hstops
  cases hc.symm.trans (hstops c rfl)

theorem shapeOf_eq {v w : Json} {r s : List Char}
    (h : (ofJson v).toList ++ r = (ofJson w).toList ++ s) : shapeOf v = shapeOf w := by
  obtain ⟨c, cs, hv, hc⟩ := exists_announced v
  obtain ⟨d, ds, hw, hd⟩ := exists_announced w
  rw [hv, hw, List.cons_append, List.cons_append] at h
  obtain ⟨rfl, -⟩ := List.cons.inj h
  exact Option.some.inj (hc.symm.trans hd)

end Beginnings

section Delimited

variable {α : Type}

/-- The text of an item shows where it ends, and no other item of the kind has it. -/
def Delimited (text : α → List Char) (Allowed : α → Prop) (a : α) : Prop :=
  ∀ b, Allowed b → ∀ r s, Stops r → Stops s → text a ++ r = text b ++ s → a = b ∧ r = s

/-- Texts end where a character begins that is in neither of them. -/
theorem eq_of_append_eq {p : Char → Prop} {a b r s : List Char} (ha : ∀ c ∈ a, p c)
    (hb : ∀ c ∈ b, p c) (hr : ∀ c ∈ r.head?, ¬ p c) (hs : ∀ c ∈ s.head?, ¬ p c)
    (h : a ++ r = b ++ s) : a = b ∧ r = s := by
  rcases List.append_eq_append_iff.mp h with ⟨more, rfl, rfl⟩ | ⟨more, rfl, rfl⟩
  · cases more with
    | nil => simp
    | cons c cs => exact absurd (hb c (by simp)) (hr c rfl)
  · cases more with
    | nil => simp
    | cons c cs => exact absurd (ha c (by simp)) (hs c rfl)

variable {text : α → List Char} {Allowed : α → Prop} {as : List α} {closing : Char}

theorem stops_further (hclosing : announced? closing = none) (as : List α) (r : List Char) :
    Stops (further text as ++ closing :: r) := by
  cases as with
  | nil =>
      rintro c hc
      obtain rfl := Option.some.inj hc
      exact hclosing
  | cons a rest =>
      rintro c hc
      obtain rfl := Option.some.inj hc
      rfl

/-- Delimited items that follow one another up to the end of a list are told apart. -/
theorem eq_of_further (hclosing : announced? closing = none) (hcomma : closing ≠ ',')
    (has : ∀ a ∈ as, Delimited text Allowed a) {bs : List α} (hbs : ∀ b ∈ bs, Allowed b)
    {r s : List Char} (h : further text as ++ closing :: r = further text bs ++ closing :: s) :
    as = bs ∧ r = s := by
  induction as generalizing bs with
  | nil =>
      cases bs with
      | nil => exact ⟨rfl, (List.cons.inj h).2⟩
      | cons b bs => exact absurd (List.cons.inj h).1 hcomma
  | cons a as ih =>
      cases bs with
      | nil => exact absurd (List.cons.inj h).1.symm hcomma
      | cons b bs =>
          rw [List.forall_mem_cons] at has hbs
          simp only [further, List.flatMap_cons, List.cons_append, List.append_assoc] at h
          obtain ⟨-, h⟩ := List.cons.inj h
          obtain ⟨-, h⟩ := List.cons.inj h
          obtain ⟨rfl, hrest⟩ := has.1 b hbs.1 _ _ (stops_further hclosing as r)
            (stops_further hclosing bs s) h
          obtain ⟨rfl, hrs⟩ := ih has.2 hbs.2 hrest
          exact ⟨rfl, hrs⟩

/-- Delimited items in a list are told apart. -/
theorem eq_of_listed (closing : Char) (hclosing : announced? closing = none)
    (hcomma : closing ≠ ',') (hbegins : ∀ a r, ¬ Stops (text a ++ r))
    (has : ∀ a ∈ as, Delimited text Allowed a) {bs : List α} (hbs : ∀ b ∈ bs, Allowed b)
    {r s : List Char} (h : listed text as ++ closing :: r = listed text bs ++ closing :: s) :
    as = bs ∧ r = s := by
  have hends : ∀ r, Stops (closing :: r) := by
    rintro r c hc
    obtain rfl := Option.some.inj hc
    exact hclosing
  cases as with
  | nil =>
      cases bs with
      | nil => exact ⟨rfl, (List.cons.inj h).2⟩
      | cons b bs =>
          rw [listed, listed, List.append_assoc, List.nil_append] at h
          exact absurd (h ▸ hends r) (hbegins b _)
  | cons a as =>
      cases bs with
      | nil =>
          rw [listed, listed, List.append_assoc, List.nil_append] at h
          exact absurd (h ▸ hends s) (hbegins a _)
      | cons b bs =>
          rw [List.forall_mem_cons] at has hbs
          rw [listed, listed, List.append_assoc, List.append_assoc] at h
          obtain ⟨rfl, hrest⟩ := has.1 b hbs.1 _ _ (stops_further hclosing as r)
            (stops_further hclosing bs s) h
          obtain ⟨rfl, hrs⟩ := eq_of_further hclosing hcomma has.2 hbs.2 hrest
          exact ⟨rfl, hrs⟩

end Delimited

section Values

/-- Quoted texts end at their last quote. -/
theorem eq_of_quote {s t : String} {r r' : List Char}
    (h : (quote s).toList ++ r = (quote t).toList ++ r') : s = t ∧ r = r' := by
  rw [toList_quote, toList_quote, List.cons_append, List.cons_append, List.append_assoc,
    List.append_assoc] at h
  obtain ⟨-, h⟩ := List.cons.inj h
  have hread := congrArg readRest? h
  rw [List.singleton_append, List.singleton_append, readRest?_flatMap, readRest?_flatMap] at hread
  obtain ⟨hst, hrr⟩ := Prod.mk.inj (Option.some.inj hread)
  exact ⟨String.toList_injective hst, hrr⟩

/-- Numbers end where something begins that can stand behind them. -/
theorem eq_of_numeral {m n : Numeral} {r s : List Char} (hr : Stops r) (hs : Stops s)
    (h : m.render.toList ++ r = n.render.toList ++ s) : m.render = n.render ∧ r = s := by
  have hends : ∀ cs, Stops cs → ∀ c ∈ cs.head?, ¬ IsNumeralChar c := by
    intro cs hcs c hc hnumeral
    cases (announced?_of_isNumeralChar hnumeral).symm.trans (hcs c hc)
  obtain ⟨htext, hrest⟩ := eq_of_append_eq (fun _ => Numeral.isNumeralChar_of_mem_render)
    (fun _ => Numeral.isNumeralChar_of_mem_render) (hends r hr) (hends s hs) h
  exact ⟨String.toList_injective htext, hrest⟩

/-- Different ones of these floating-point numbers are printed differently. -/
def PrintedApart (xs : List Binary64) : Prop :=
  ∀ x ∈ xs, ∀ y ∈ xs, x.render .json = y.render .json → x = y

instance (xs : List Binary64) : Decidable (PrintedApart xs) :=
  inferInstanceAs (Decidable (∀ x ∈ xs, ∀ y ∈ xs, x.render .json = y.render .json → x = y))

variable {xs : List Binary64}

/-- Numbers are told apart by their texts if floating-point numbers are. -/
theorem eq_of_render (hxs : PrintedApart xs) {m n : Numeral} (hm : (Json.num m).reals ⊆ xs)
    (hn : (Json.num n).reals ⊆ xs) (h : m.render = n.render) : m = n := by
  cases m with
  | int i => exact Numeral.eq_of_render_int h
  | real x =>
      cases n with
      | int j => exact (Numeral.eq_of_render_int h.symm).symm
      | real y =>
          have hx : x ∈ xs := hm (by simp [Json.reals])
          have hy : y ∈ xs := hn (by simp [Json.reals])
          exact congrArg Numeral.real (hxs x hx y hy h)

/-- Members are told apart if their values are. -/
theorem delimited_ofMember {member : String × Json}
    (hvalue : Delimited (fun v => (ofJson v).toList) (fun v => v.reals ⊆ xs) member.2) :
    Delimited (fun m => (ofMember m).toList) (fun m => m.2.reals ⊆ xs) member := by
  intro other hother r s hr hs h
  simp only [toList_ofMember, List.append_assoc, List.cons_append] at h
  obtain ⟨hname, h⟩ := eq_of_quote h
  obtain ⟨-, h⟩ := List.cons.inj h
  obtain ⟨-, h⟩ := List.cons.inj h
  obtain ⟨hsame, hrs⟩ := hvalue other.2 hother r s hr hs h
  exact ⟨Prod.ext hname hsame, hrs⟩

theorem not_stops_ofMember (member : String × Json) (cs : List Char) :
    ¬ Stops ((ofMember member).toList ++ cs) := by
  rw [toList_ofMember, toList_quote]
  intro hstops
  cases hstops '\"' rfl

theorem flatMap_subset {α : Type} {f : α → List Binary64} {items : List α}
    (h : items.flatMap f ⊆ xs) {a : α} (ha : a ∈ items) : f a ⊆ xs :=
  fun _ hx => h (List.mem_flatMap.mpr ⟨a, ha, hx⟩)

/-- Where floating-point numbers can be told apart by their texts, values can be told apart by
their literals. -/
theorem delimited_ofJson (hxs : PrintedApart xs) {v : Json} (hv : v.reals ⊆ xs) :
    Delimited (fun v => (ofJson v).toList) (fun v => v.reals ⊆ xs) v := by
  induction v using Json.induction_parts with
  | null =>
      intro w _ r s _ _ h
      cases w with
      | null => exact ⟨rfl, List.append_cancel_left h⟩
      | _ => cases shapeOf_eq h
  | bool b =>
      intro w _ r s _ _ h
      cases w with
      | bool b' =>
          obtain rfl : b = b' := by
            cases b <;> cases b' <;> first | rfl | cases (List.cons.inj h).1
          exact ⟨rfl, List.append_cancel_left h⟩
      | _ => cases shapeOf_eq h
  | num m =>
      intro w hw r s hr hs h
      cases w with
      | num n =>
          obtain ⟨htext, hrs⟩ := eq_of_numeral hr hs h
          exact ⟨congrArg Json.num (eq_of_render hxs hv hw htext), hrs⟩
      | _ => cases shapeOf_eq h
  | str t =>
      intro w _ r s _ _ h
      cases w with
      | str t' =>
          obtain ⟨rfl, hrs⟩ := eq_of_quote h
          exact ⟨rfl, hrs⟩
      | _ => cases shapeOf_eq h
  | arr items ih =>
      intro w hw r s _ _ h
      cases w with
      | arr others =>
          simp only [toList_ofJson_arr, List.cons_append, List.append_assoc] at h
          rw [Json.reals_arr] at hv hw
          obtain ⟨-, h⟩ := List.cons.inj h
          obtain ⟨rfl, hrs⟩ := eq_of_listed ']' rfl (by decide) not_stops
            (fun item hitem => ih item hitem (flatMap_subset hv hitem))
            (fun _ => flatMap_subset hw) h
          exact ⟨rfl, hrs⟩
      | _ => cases shapeOf_eq h
  | obj members ih =>
      intro w hw r s _ _ h
      cases w with
      | obj others =>
          simp only [toList_ofJson_obj, List.cons_append, List.append_assoc] at h
          rw [Json.reals_obj] at hv hw
          obtain ⟨-, h⟩ := List.cons.inj h
          obtain ⟨rfl, hrs⟩ := eq_of_listed '\x7d' rfl (by decide) not_stops_ofMember
            (fun m hm => delimited_ofMember (ih m hm (flatMap_subset hv hm)))
            (fun _ => flatMap_subset hw) h
          exact ⟨rfl, hrs⟩
      | _ => cases shapeOf_eq h

end Values

section Lines

/-- What holds of the characters of the literals in a list, of commas and of blanks, holds of those
of the list. -/
theorem forall_mem_listed {α : Type} {text : α → List Char} {p : Char → Prop} (hcomma : p ',')
    (hblank : p ' ') {items : List α} (hitems : ∀ a ∈ items, ∀ c ∈ text a, p c) :
    ∀ c ∈ listed text items, p c := by
  cases items with
  | nil => exact List.forall_mem_nil p
  | cons a rest =>
      rw [List.forall_mem_cons] at hitems
      rw [listed, List.forall_mem_append, further, List.forall_mem_flatMap]
      refine ⟨hitems.1, fun b hb => ?_⟩
      simp only [List.forall_mem_cons]
      exact ⟨hcomma, hblank, hitems.2 b hb⟩

/-- The character does not end a line. -/
def StaysInLine (c : Char) : Prop :=
  c ≠ '\n' ∧ c ≠ '\r'

instance (c : Char) : Decidable (StaysInLine c) :=
  inferInstanceAs (Decidable (_ ∧ _))

theorem staysInLine_of_mem_escapeChar {c d : Char} (hd : d ∈ escapeChar c) : StaysInLine d := by
  unfold escapeChar at hd
  repeat' split at hd
  all_goals simp only [List.mem_cons, List.not_mem_nil, or_false] at hd
  · rcases hd with rfl | rfl <;> decide
  · rcases hd with rfl | rfl <;> decide
  · rcases hd with rfl | rfl <;> decide
  · rcases hd with rfl | rfl <;> decide
  · rcases hd with rfl | rfl <;> decide
  · rename_i hfeed hreturn htab
    subst hd
    exact ⟨hfeed, hreturn⟩

theorem staysInLine_of_mem_quote {s : String} : ∀ c ∈ (quote s).toList, StaysInLine c := by
  rw [toList_quote]
  simp only [List.forall_mem_cons, List.forall_mem_append, List.forall_mem_flatMap]
  exact ⟨by decide, fun _ _ _ => staysInLine_of_mem_escapeChar, by decide, List.forall_mem_nil _⟩

/-- A literal is one line. -/
theorem staysInLine_of_mem_ofJson (v : Json) : ∀ c ∈ (ofJson v).toList, StaysInLine c := by
  induction v using Json.induction_parts with
  | null => exact List.all_iff_forall_prop.mp (by decide)
  | bool b => cases b <;> exact List.all_iff_forall_prop.mp (by decide)
  | num n =>
      intro c hc
      have hnumeral := Numeral.isNumeralChar_of_mem_render hc
      constructor
      all_goals
        rintro rfl
        revert hnumeral
        decide
  | str s => exact staysInLine_of_mem_quote
  | arr items ih =>
      rw [toList_ofJson_arr, List.forall_mem_cons, List.forall_mem_append]
      exact ⟨by decide, forall_mem_listed (by decide) (by decide) ih,
        List.forall_mem_singleton.mpr (by decide)⟩
  | obj members ih =>
      rw [toList_ofJson_obj, List.forall_mem_cons, List.forall_mem_append]
      refine ⟨by decide, forall_mem_listed (by decide) (by decide) fun m hm => ?_,
        List.forall_mem_singleton.mpr (by decide)⟩
      simp only [toList_ofMember, List.forall_mem_append, List.forall_mem_cons]
      exact ⟨staysInLine_of_mem_quote, by decide, by decide, ih m hm⟩

end Lines

section Reading

/-- The string literals in a text, read one after the other, are for these strings. -/
inductive Holds : List Char → List String → Prop
  | done : Holds [] []
  | plain {c cs found} : c ≠ '\"' → Holds cs found → Holds (c :: cs) found
  | quoted {cs s after found} : readRest? cs = some (s, after) → Holds after found →
      Holds ('\"' :: cs) (.ofList s :: found)

/-- There is one way to read a text. -/
theorem Holds.unique {cs : List Char} {found found' : List String} (h : Holds cs found)
    (h' : Holds cs found') : found = found' := by
  induction h generalizing found' with
  | done =>
      cases h'
      rfl
  | plain hc _ ih =>
      cases h' with
      | plain _ h' => exact ih h'
      | quoted _ _ => exact absurd rfl hc
  | quoted hread _ ih =>
      cases h' with
      | plain hc _ => exact absurd rfl hc
      | quoted hread' h' =>
          obtain ⟨rfl, rfl⟩ := Prod.mk.inj (Option.some.inj (hread.symm.trans hread'))
          rw [ih h']

theorem Holds.append_plain {front : List Char} (hfront : ∀ c ∈ front, c ≠ '\"') {cs : List Char}
    {found : List String} (h : Holds cs found) : Holds (front ++ cs) found := by
  induction front with
  | nil => exact h
  | cons c front ih =>
      rw [List.forall_mem_cons] at hfront
      exact .plain hfront.1 (ih hfront.2)

theorem Holds.quote (s : String) {cs : List Char} {found : List String} (h : Holds cs found) :
    Holds ((Literal.quote s).toList ++ cs) (s :: found) := by
  rw [toList_quote, List.cons_append, List.append_assoc, List.singleton_append]
  have hquoted := Holds.quoted (readRest?_flatMap s.toList cs) h
  rwa [String.ofList_toList] at hquoted

/-- The text of an item is read as its strings, whatever stands behind it. -/
def ReadsAs {α : Type} (text : α → List Char) (strings : α → List String) (a : α) : Prop :=
  ∀ cs found, Holds cs found → Holds (text a ++ cs) (strings a ++ found)

theorem readsAs_listed {α : Type} {text : α → List Char} {strings : α → List String}
    {items : List α} (hitems : ∀ a ∈ items, ReadsAs text strings a) :
    ReadsAs (listed text) (List.flatMap strings) items := by
  have hfurther : ∀ items : List α, (∀ a ∈ items, ReadsAs text strings a) →
      ReadsAs (further text) (List.flatMap strings) items := by
    intro items
    induction items with
    | nil => exact fun _ _ _ h => h
    | cons a rest ih =>
        intro hitems cs found h
        rw [List.forall_mem_cons] at hitems
        simp only [further, List.flatMap_cons, List.cons_append, List.append_assoc]
        exact .plain (by decide) (.plain (by decide) (hitems.1 _ _ (ih hitems.2 _ _ h)))
  cases items with
  | nil => exact fun _ _ h => h
  | cons a rest =>
      intro cs found h
      rw [List.forall_mem_cons] at hitems
      rw [listed, List.append_assoc, List.flatMap_cons, List.append_assoc]
      exact hitems.1 _ _ (hfurther rest hitems.2 _ _ h)

/-- The string literals in the literal of a value are for its strings. -/
theorem readsAs_ofJson (v : Json) : ReadsAs (fun v => (ofJson v).toList) Json.strings v := by
  induction v using Json.induction_parts with
  | null => exact fun _ _ h => h.append_plain (List.all_iff_forall_prop.mp (by decide))
  | bool b =>
      cases b <;> exact fun _ _ h => h.append_plain (List.all_iff_forall_prop.mp (by decide))
  | num n =>
      intro cs found h
      refine h.append_plain ?_
      rintro c hc rfl
      have hnumeral := Numeral.isNumeralChar_of_mem_render hc
      revert hnumeral
      decide
  | str s => exact fun _ _ h => h.quote s
  | arr items ih =>
      intro cs found h
      simp only [toList_ofJson_arr, Json.strings_arr, List.cons_append, List.append_assoc]
      exact .plain (by decide) (readsAs_listed ih _ _ (.plain (by decide) h))
  | obj members ih =>
      intro cs found h
      have hmember : ∀ m ∈ members, ReadsAs (fun m => (ofMember m).toList)
          (fun m => m.1 :: m.2.strings) m := by
        intro m hm cs found h
        simp only [toList_ofMember, List.append_assoc, List.cons_append]
        exact .quote m.1 (.plain (by decide) (.plain (by decide) (ih m hm cs found h)))
      simp only [toList_ofJson_obj, Json.strings_obj, List.cons_append, List.append_assoc]
      exact .plain (by decide) (readsAs_listed hmember _ _ (.plain (by decide) h))

end Reading

/-- Different values have different literals, if different floating-point numbers in them are
printed differently.  A literal is one line, and the string literals that are read in it, each up to
the first quote that is not escaped, are for the strings of the value in their order. -/
theorem ofJson_unambiguous {v w : Json} (hreals : PrintedApart (v.reals ++ w.reals)) :
    (ofJson v = ofJson w ↔ v = w) ∧
      (∀ c ∈ (ofJson v).toList, c ≠ '\n' ∧ c ≠ '\r') ∧
      ∀ found, Holds (ofJson v).toList found ↔ found = v.strings := by
  have hstops : Stops [] := nofun
  have hholds : Holds (ofJson v).toList v.strings := by
    have h := readsAs_ofJson v [] [] .done
    rwa [List.append_nil, List.append_nil] at h
  refine ⟨⟨fun h => ?_, congrArg ofJson⟩, staysInLine_of_mem_ofJson v,
    fun found => ⟨fun h => h.unique hholds, ?_⟩⟩
  · exact (delimited_ofJson hreals (List.subset_append_left ..) w (List.subset_append_right ..)
      [] [] hstops hstops (congrArg (·.toList ++ []) h)).1
  · rintro rfl
    exact hholds

end Literal

namespace LiteralTextWitness

open Literal

/-- A text that looks like the end of a string and more items. -/
def nested : Json :=
  .arr [.str "a\", \"b\\", .num (.real ⟨0x3ff8000000000000⟩), .obj [("x", .num (.int 1))]]

/-- The items that the text looks like. -/
def flat : Json :=
  .arr [.str "a", .str "b\\", .num (.real ⟨0x3fe0000000000000⟩), .obj [("x", .num (.int 1))]]

theorem nested_and_flat_apart :
    PrintedApart (nested.reals ++ flat.reals) ∧ ofJson nested ≠ ofJson flat := by
  have hreals : PrintedApart (nested.reals ++ flat.reals) := by decide +kernel
  refine ⟨hreals, fun heq => ?_⟩
  have hitems := Json.arr.inj ((ofJson_unambiguous hreals).1.mp heq)
  exact absurd (Json.str.inj (List.cons.inj hitems).1) (by decide)

/-- The literal of a value with quotes, a backslash, numbers and an object. -/
example : ofJson nested = "[\"a\\\", \\\"b\\\\\", 1.5, \x7b\"x\": 1\x7d]" := by
  decide +kernel

end LiteralTextWitness

end ServiceGen
