import ServiceGen.Json.Basic

/-!
The characters of printed numbers.  A number is printed with digits, signs, a point and the mark of
an exponent, and only a floating-point number has one of the last two.
-/

namespace ServiceGen

namespace Number

/-- The marks of a floating-point number: the point, and what stands in front of the exponent. -/
def IsRealMark (c : Char) : Prop :=
  c = '.' ∨ c = 'e'

/-- The characters of printed numbers. -/
def IsNumeralChar (c : Char) : Prop :=
  c.isDigit = true ∨ c = '-' ∨ c = '+' ∨ IsRealMark c

instance (c : Char) : Decidable (IsRealMark c) :=
  inferInstanceAs (Decidable (_ ∨ _))

instance (c : Char) : Decidable (IsNumeralChar c) :=
  inferInstanceAs (Decidable (_ ∨ _ ∨ _ ∨ IsRealMark c))

theorem isDigit_of_mem_digitsOf {n : Nat} {c : Char} (hc : c ∈ digitsOf n) : c.isDigit = true :=
  Nat.isDigit_of_mem_toDigits (by decide) (by decide) hc

theorem isDigit_of_mem_zeros {n : Nat} {c : Char} (hc : c ∈ zeros n) : c.isDigit = true := by
  rw [List.eq_of_mem_replicate hc]
  rfl

section Texts

variable {digits : List Char} {c : Char}

theorem isNumeralChar_of_mem_positionalText (hdigits : ∀ d ∈ digits, d.isDigit = true)
    {point : Int} {keepsPlace : Bool} (hc : c ∈ positionalText digits point keepsPlace) :
    IsNumeralChar c := by
  have hpoint : IsNumeralChar '.' := .inr (.inr (.inr (.inl rfl)))
  have hzero : IsNumeralChar '0' := .inl rfl
  rw [positionalText] at hc
  split at hc
  · simp only [List.mem_cons, List.mem_append] at hc
    rcases hc with rfl | rfl | hc | hc
    · exact hzero
    · exact hpoint
    · exact .inl (isDigit_of_mem_zeros hc)
    · exact .inl (hdigits c hc)
  · simp only at hc
    split at hc
    · rw [List.mem_append, List.mem_append] at hc
      rcases hc with (hc | hc) | hc
      · exact .inl (hdigits c hc)
      · exact .inl (isDigit_of_mem_zeros hc)
      · cases keepsPlace with
        | false => cases hc
        | true =>
            simp only [if_true, List.mem_cons, List.not_mem_nil, or_false] at hc
            rcases hc with rfl | rfl
            · exact hpoint
            · exact hzero
    · rw [List.mem_append, List.mem_cons] at hc
      rcases hc with hc | rfl | hc
      · exact .inl (hdigits c (List.mem_of_mem_take hc))
      · exact hpoint
      · exact .inl (hdigits c (List.mem_of_mem_drop hc))

theorem isNumeralChar_of_mem_exponentText (hdigits : ∀ d ∈ digits, d.isDigit = true)
    {exponent : Int} (hc : c ∈ exponentText digits exponent) : IsNumeralChar c := by
  have hplaces : c ∈ (if digits.length ≤ 1 then [] else '.' :: digits.drop 1) →
      IsNumeralChar c := by
    split
    · nofun
    · intro hc
      rcases List.mem_cons.mp hc with rfl | hc
      · exact .inr (.inr (.inr (.inl rfl)))
      · exact .inl (hdigits c (List.mem_of_mem_drop hc))
  have hmark : c ∈ (if exponent < 0 then ['e', '-'] else ['e', '+']) → IsNumeralChar c := by
    split <;> simp only [List.mem_cons, List.not_mem_nil, or_false] <;> rintro (rfl | rfl) <;>
      simp [IsNumeralChar, IsRealMark]
  simp only [exponentText, List.mem_append] at hc
  rcases hc with ((hc | hc) | hc) | hc
  · exact .inl (hdigits c (List.mem_of_mem_take hc))
  · exact hplaces hc
  · exact hmark hc
  · exact .inl (isDigit_of_mem_digitsOf hc)

/-- A text in positions that keeps a decimal place has a point. -/
theorem point_mem_positionalText (digits : List Char) (point : Int) :
    '.' ∈ positionalText digits point true := by
  rw [positionalText]
  split
  · simp
  · simp only
    split <;> simp

theorem mark_mem_exponentText (digits : List Char) (exponent : Int) :
    'e' ∈ exponentText digits exponent := by
  have hmark : 'e' ∈ (if exponent < 0 then ['e', '-'] else ['e', '+']) := by
    split <;> simp
  simp only [exponentText, List.mem_append]
  exact .inl (.inr hmark)

end Texts

theorem isNumeralChar_of_mem_text {layout : Layout} {s : Scientific} {c : Char}
    (hc : c ∈ layout.text s) : IsNumeralChar c := by
  have hdigits : ∀ d ∈ digitsOf s.digits, d.isDigit = true := fun _ => isDigit_of_mem_digitsOf
  simp only [Layout.text] at hc
  split at hc
  · split at hc
    · exact isNumeralChar_of_mem_positionalText hdigits hc
    · exact isNumeralChar_of_mem_exponentText hdigits hc
  · exact isNumeralChar_of_mem_positionalText hdigits hc

theorem isNumeralChar_of_mem_render {layout : Layout} {x : Binary64} {c : Char}
    (hc : c ∈ (x.render layout).toList) : IsNumeralChar c := by
  rw [Binary64.render, String.toList_ofList, List.mem_append] at hc
  rcases hc with hc | hc
  · split at hc
    · rw [List.mem_singleton.mp hc]
      exact .inr (.inl rfl)
    · cases hc
  · exact isNumeralChar_of_mem_text hc

/-- In JSON text a floating-point number can be told from an integer. -/
theorem exists_realMark_mem_render (x : Binary64) :
    ∃ c ∈ (x.render .json).toList, IsRealMark c := by
  have htext : ∃ c ∈ Layout.json.text x.shortest, IsRealMark c := by
    simp only [Layout.text, Layout.json]
    split
    · exact ⟨'.', point_mem_positionalText _ _, .inl rfl⟩
    · exact ⟨'e', mark_mem_exponentText _ _, .inr rfl⟩
  obtain ⟨c, hc, hmark⟩ := htext
  refine ⟨c, ?_, hmark⟩
  rw [Binary64.render, String.toList_ofList]
  exact List.mem_append_right _ hc

end Number

namespace Numeral

open Number

theorem isDigit_or_sign_of_mem_toString {i : Int} {c : Char} (hc : c ∈ (toString i).toList) :
    c.isDigit = true ∨ c = '-' := by
  have hdigit : ∀ n : Nat, c ∈ (Nat.repr n).toList → c.isDigit = true := by
    intro n hmem
    rw [Nat.repr, String.toList_ofList] at hmem
    exact isDigit_of_mem_digitsOf hmem
  cases i with
  | ofNat n => exact .inl (hdigit n hc)
  | negSucc n =>
      have hrepr : toString (Int.negSucc n) = "-" ++ Nat.repr n.succ := rfl
      rw [hrepr, String.toList_append, List.mem_append] at hc
      rcases hc with hc | hc
      · exact .inr (List.mem_singleton.mp hc)
      · exact .inl (hdigit _ hc)

theorem isNumeralChar_of_mem_render {n : Numeral} {c : Char} (hc : c ∈ n.render.toList) :
    IsNumeralChar c := by
  cases n with
  | int i =>
      rcases isDigit_or_sign_of_mem_toString hc with hdigit | rfl
      · exact .inl hdigit
      · exact .inr (.inl rfl)
  | real x => exact Number.isNumeralChar_of_mem_render hc

theorem render_ne_empty (n : Numeral) : n.render ≠ "" := by
  intro hempty
  cases n with
  | int i =>
      rw [← String.toList_inj] at hempty
      have hnat : ∀ k : Nat, (Nat.repr k).toList ≠ [] := by
        intro k
        rw [Nat.repr, String.toList_ofList]
        exact Nat.toDigits_ne_nil
      cases i with
      | ofNat k => exact hnat k hempty
      | negSucc k =>
          have hrepr : render (.int (Int.negSucc k)) = "-" ++ Nat.repr k.succ := rfl
          rw [hrepr, String.toList_append] at hempty
          exact hnat _ (List.append_eq_nil_iff.mp hempty).2
  | real x =>
      obtain ⟨c, hc, -⟩ := exists_realMark_mem_render x
      rw [render] at hempty
      simp [hempty] at hc

theorem natRepr_inj {m n : Nat} (h : Nat.repr m = Nat.repr n) : m = n := by
  have hdigits : Nat.toDigits 10 m = Nat.toDigits 10 n := String.ofList_injective h
  rw [← Nat.ofDigitChars_toDigits (b := 10) (by decide) (by decide) (n := m), hdigits,
    Nat.ofDigitChars_toDigits (by decide) (by decide)]

theorem natRepr_ne_negative (m n : Nat) : Nat.repr m ≠ "-" ++ Nat.repr n := by
  intro h
  have hmem : '-' ∈ (Nat.repr m).toList := by
    rw [h, String.toList_append]
    exact List.mem_cons_self
  rw [Nat.repr, String.toList_ofList] at hmem
  cases isDigit_of_mem_digitsOf hmem

theorem toString_int_inj {i j : Int} (h : toString i = toString j) : i = j := by
  cases i with
  | ofNat m =>
      cases j with
      | ofNat n => exact congrArg Int.ofNat (natRepr_inj h)
      | negSucc n => exact absurd h (natRepr_ne_negative m n.succ)
  | negSucc m =>
      cases j with
      | ofNat n => exact absurd h.symm (natRepr_ne_negative n m.succ)
      | negSucc n =>
          have hrepr : "-" ++ Nat.repr m.succ = "-" ++ Nat.repr n.succ := h
          rw [← String.toList_inj, String.toList_append, String.toList_append,
            List.append_right_inj, String.toList_inj] at hrepr
          exact congrArg Int.negSucc (Nat.succ.inj (natRepr_inj hrepr))

/-- An integer is printed differently from every other number. -/
theorem eq_of_render_int {i : Int} {n : Numeral} (h : render (.int i) = n.render) :
    .int i = n := by
  cases n with
  | int j => exact congrArg int (toString_int_inj h)
  | real x =>
      obtain ⟨c, hc, hmark⟩ := exists_realMark_mem_render x
      have hmem : c ∈ (toString i).toList := by
        rw [render, render] at h
        rwa [h]
      rcases isDigit_or_sign_of_mem_toString hmem with hdigit | rfl
      · rcases hmark with rfl | rfl <;> cases hdigit
      · rcases hmark with h | h <;> cases h

end Numeral

end ServiceGen
