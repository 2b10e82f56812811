import HyperPod.Lib.Binary64Round
import HyperPod.Lib.Outcome
import Mathlib.Data.List.TakeWhile

/-!
# Reading a binary64 number from a text

The grammar of `f64::from_str`: a sign, then digits with a point and an exponent, or one of
the words for infinity and NaN.  Digits give the number nearest to the decimal that they
spell (`parse_point`).
-/

namespace FloatText

open Machine Binary64

/-- The sign at the front of a text: whether it is a minus, and what follows. -/
def sign : List Char → Bool × List Char
  | '-' :: cs => (true, cs)
  | '+' :: cs => (false, cs)
  | cs => (false, cs)

/-- The digits after a point, and what follows them. -/
def fraction : List Char → List Char × List Char
  | '.' :: cs => (cs.takeWhile Char.isDigit, cs.dropWhile Char.isDigit)
  | cs => ([], cs)

/-- The exponent that a text is, if it is one; there may be none. -/
def exponent : List Char → Option Int
  | [] => some 0
  | c :: cs =>
    let (neg, digits) := sign cs
    if (c = 'e' ∨ c = 'E') ∧ digits ≠ [] ∧ digits.all Char.isDigit then
      some (if neg then -(Nat.ofDigitChars 10 digits 0 : Int) else Nat.ofDigitChars 10 digits 0)
    else none

/-- A decimal without a sign. -/
def number (text : List Char) : Option ℚ :=
  let int := text.takeWhile Char.isDigit
  let (frac, rest) := fraction (text.dropWhile Char.isDigit)
  if int = [] ∧ frac = [] then none
  else do
    let e ← exponent rest
    return Nat.ofDigitChars 10 (int ++ frac) 0 * 10 ^ (e - frac.length)

/-- The magnitude that a word stands for. -/
def word (text : List Char) : Option Nat :=
  match String.ofList (text.map Char.toLower) with
  | "inf" | "infinity" => some infinite
  | "nan" => some nan.magnitude
  | _ => none

/-- `f64::from_str` -/
def parse (text : List Char) : Except Error Binary64 :=
  if text = [] then .error (.msg "cannot parse float from empty string")
  else
    let (neg, text) := sign text
    match number text, word text with
    | some q, _ => .ok (round neg q)
    | none, some m => .ok (ofMagnitude neg m)
    | none, none => .error (.msg "invalid float literal")

example : parse "-1.5e-1".toList = .ok (ofMagnitude true 0x3fc3333333333333) := by decide +kernel

variable {int : List Char}

theorem sign_of_isDigit (hint : ∀ c ∈ int, c.isDigit) (hne : int ≠ []) (rest : List Char) :
    sign (int ++ rest) = (false, int ++ rest) := by
  cases int with
  | nil => exact absurd rfl hne
  | cons c cs =>
    have hc : c.isDigit = true := hint c List.mem_cons_self
    rw [List.cons_append]
    unfold sign
    split
    · next heq =>
      cases heq
      cases hc
    · next heq =>
      cases heq
      cases hc
    · rfl

theorem takeWhile_digits (hint : ∀ c ∈ int, c.isDigit) (c : Char) (hc : c.isDigit = false)
    (rest : List Char) :
    (int ++ c :: rest).takeWhile Char.isDigit = int ∧
      (int ++ c :: rest).dropWhile Char.isDigit = c :: rest := by
  have hne : ¬ c.isDigit = true := by
    rw [hc]
    exact Bool.false_ne_true
  rw [List.takeWhile_append_of_pos hint, List.dropWhile_append_of_pos hint,
    List.takeWhile_cons_of_neg hne, List.dropWhile_cons_of_neg hne, List.append_nil]
  exact ⟨rfl, rfl⟩

/-- Digits around a point give the number nearest to the decimal that they spell. -/
theorem parse_point (int frac : List Char) (hint : ∀ c ∈ int, c.isDigit)
    (hfrac : ∀ c ∈ frac, c.isDigit) (hne : int ≠ []) :
    parse (int ++ '.' :: frac) =
      .ok (round false (Nat.ofDigitChars 10 (int ++ frac) 0 / 10 ^ frac.length)) := by
  obtain ⟨htake, hdrop⟩ := takeWhile_digits hint '.' rfl frac
  have hfrac' : fraction ('.' :: frac) = (frac, []) := by
    show (frac.takeWhile Char.isDigit, frac.dropWhile Char.isDigit) = _
    rw [List.takeWhile_eq_self_iff.mpr hfrac, List.dropWhile_eq_nil_iff.mpr hfrac]
  have hnumber : number (int ++ '.' :: frac) =
      some ((Nat.ofDigitChars 10 (int ++ frac) 0 : ℚ) / 10 ^ frac.length) := by
    unfold number
    rw [htake, hdrop, hfrac']
    simp only [hne, false_and, if_false, exponent]
    show some _ = some _
    rw [zero_sub, zpow_neg, zpow_natCast, div_eq_mul_inv]
  unfold parse
  rw [if_neg (by simp), sign_of_isDigit hint hne]
  simp only [hnumber]

/-- What is read is a number, unless the text says NaN. -/
theorem isNan_of_parse {text : List Char} {x : Binary64} (h : parse text = .ok x)
    (hnan : word (sign text).2 ≠ some nan.magnitude) : x.isNan = false := by
  unfold parse at h
  split_ifs at h
  rcases hsign : sign text with ⟨neg, text'⟩
  simp only [hsign] at h hnan
  cases hnumber : number text' with
  | some q =>
    simp only [hnumber, Except.ok.injEq] at h
    rw [← h]
    exact isNan_ofMagnitude (nearest_le_infinite q)
  | none =>
    cases hword : word text' with
    | none => simp [hnumber, hword] at h
    | some m =>
      simp only [hnumber, hword, Except.ok.injEq] at h
      rw [hword] at hnan
      unfold word at hword
      split at hword
      · cases hword
        rw [← h]
        exact isNan_ofMagnitude (le_refl _)
      · cases hword
        rw [← h]
        exact isNan_ofMagnitude (le_refl _)
      · exact absurd hword.symm (by simpa using hnan)
      · cases hword

/-- A word that stands for NaN has three characters, and is not a decimal. -/
theorem number_of_word_nan {text : List Char} (h : word text = some nan.magnitude) :
    number text = none := by
  have hlower : text.map Char.toLower = "nan".toList := by
    unfold word at h
    split at h
    · next => exact absurd (Option.some.inj h) (by decide)
    · next => exact absurd (Option.some.inj h) (by decide)
    · next heq => rw [← heq, String.toList_ofList]
    · cases h
  cases text with
  | nil => exact absurd hlower (by decide)
  | cons c cs =>
    have hc : c.toLower = 'n' := (List.cons.inj hlower).1
    have hdigit : ¬ c.isDigit = true := by
      intro hd
      have hsame : c.toLower = c := by
        unfold Char.toLower
        unfold Char.isDigit at hd
        simp only [ge_iff_le, Bool.and_eq_true, decide_eq_true_eq, UInt32.le_iff_toNat_le] at hd ⊢
        rw [dif_neg]
        intro hle
        exact absurd (hle.1.trans hd.2) (by decide)
      rw [hsame] at hc
      rw [hc] at hd
      exact absurd hd (by decide)
    have hpoint : c ≠ '.' := by
      rintro rfl
      exact absurd hc (by decide)
    have hfraction : fraction (c :: cs) = ([], c :: cs) := by
      unfold fraction
      split
      · next heq => exact absurd (List.cons.inj heq).1 hpoint
      · rfl
    unfold number
    rw [List.takeWhile_cons_of_neg hdigit, List.dropWhile_cons_of_neg hdigit, hfraction]
    rfl

theorem exists_nan_of_word {text : List Char} (h : word (sign text).2 = some nan.magnitude) :
    ∃ x, parse text = .ok x ∧ x.isNan = true := by
  have hne : text ≠ [] := by
    rintro rfl
    exact absurd h (by decide)
  have hnumber := number_of_word_nan h
  refine ⟨ofMagnitude (sign text).1 nan.magnitude, ?_, ?_⟩
  · unfold parse
    rw [if_neg hne]
    simp only [hnumber, h]
  · cases (sign text).1 with
    | true => decide
    | false => decide

end FloatText
