import Mathlib.Data.List.Lex
import CqlDdl.Proofs.Characters
import CqlDdl.Proofs.Separation
import CqlDdl.Text.Parts
import CqlDdl.Text.Spelling

/-! The order of texts by their 16-bit units, and the numbers that digits stand for. Of two runs of
digits of one length, the one with the smaller number comes first, whatever follows them. -/

namespace CqlDdl.Text

/-- The 16-bit units of a character: one of its own, or two surrogates. -/
def charUnits (c : Char) : List Nat :=
  if isWide c then
    [0xD800 + (c.toNat - 0x10000) / 0x400, 0xDC00 + (c.toNat - 0x10000) % 0x400]
  else [c.toNat]

def codeUnits (text : Text) : List Nat :=
  text.flatMap charUnits

/-- Whether a text comes before another one in the order of their 16-bit units. -/
def Precedes (s t : Text) : Prop :=
  List.Lex (· < ·) (codeUnits s) (codeUnits t)

theorem codeUnits_cons {c : Char} (h : isWide c = false) (rest : Text) :
    codeUnits (c :: rest) = c.toNat :: codeUnits rest := by
  simp [codeUnits, charUnits, h]

namespace Precedes

variable {s t : Text}

theorem asymm (h : Precedes s t) : ¬ Precedes t s :=
  (List.Lex.asymm (· < · : Nat → Nat → Prop)).asymm _ _ h

theorem cons (c : Char) (h : Precedes s t) : Precedes (c :: s) (c :: t) :=
  List.Lex.append_left _ h (charUnits c)

theorem of_lt {c d : Char} (hc : isWide c = false) (hd : isWide d = false)
    (h : c.toNat < d.toNat) (s t : Text) : Precedes (c :: s) (d :: t) := by
  rw [Precedes, codeUnits_cons hc, codeUnits_cons hd]
  exact .rel h

end Precedes

/-! ### Digits -/

/-- The natural number that digits stand for. -/
def value (digits : Text) : Nat :=
  Nat.ofDigitChars 10 digits 0

theorem toNat_of_isDigit {c : Char} (h : c.isDigit = true) : 48 ≤ c.toNat ∧ c.toNat ≤ 57 := by
  simpa [Char.isDigit, UInt32.le_iff_toNat_le] using h

theorem isWide_of_isDigit {c : Char} (h : c.isDigit = true) : isWide c = false := by
  have hbounds := toNat_of_isDigit h
  simp only [isWide, decide_eq_false_iff_not]
  omega

/-- Digits of one length, after digits that were read before them: where the number that all of them
stand for is smaller, the earlier ones stand for less, or for the same, and then the text comes
first. -/
theorem lt_or_precedes {a b : Text} (ha : ∀ c ∈ a, c.isDigit = true)
    (hb : ∀ c ∈ b, c.isDigit = true) (hlength : a.length = b.length) {i j : Nat}
    (h : Nat.ofDigitChars 10 a i < Nat.ofDigitChars 10 b j) (r s : Text) :
    i < j ∨ i = j ∧ Precedes (a ++ r) (b ++ s) := by
  induction a generalizing b i j with
  | nil =>
    obtain rfl := List.length_eq_zero_iff.mp hlength.symm
    exact .inl h
  | cons c a ih =>
    cases b with
    | nil => simp at hlength
    | cons d b =>
      obtain ⟨hc, ha⟩ := List.forall_mem_cons.mp ha
      obtain ⟨hd, hb⟩ := List.forall_mem_cons.mp hb
      have hcount := toNat_of_isDigit hc
      have hdcount := toNat_of_isDigit hd
      have hzero : '0'.toNat = 48 := rfl
      rw [Nat.ofDigitChars_cons, Nat.ofDigitChars_cons] at h
      -- What the rest is compared after holds one digit more: it is less by the digits read
      -- before, or by the first digits here, or the rest decides.
      rcases ih ha hb (Nat.succ.inj hlength) h with hlt | ⟨heq, hrest⟩
      · by_cases hij : i < j
        · exact .inl hij
        · have hsame : i = j := by omega
          have hdigit : c.toNat < d.toNat := by omega
          exact .inr ⟨hsame,
            Precedes.of_lt (isWide_of_isDigit hc) (isWide_of_isDigit hd) hdigit _ _⟩
      · have hsame : i = j := by omega
        have hdigit : c = d := Char.toNat_inj.mp (by omega)
        exact .inr ⟨hsame, hdigit ▸ Precedes.cons c hrest⟩

theorem precedes_of_value_lt {a b : Text} (ha : ∀ c ∈ a, c.isDigit = true)
    (hb : ∀ c ∈ b, c.isDigit = true) (hlength : a.length = b.length) (h : value a < value b)
    (r s : Text) : Precedes (a ++ r) (b ++ s) :=
  (lt_or_precedes ha hb hlength h r s).elim (fun hlt => absurd hlt (Nat.lt_irrefl 0)) And.right

/-! ### Numbers filled up with zeros -/

theorem isDigit_of_mem_ofNat {n : Nat} : ∀ c ∈ ofNat n, c.isDigit = true := fun _ =>
  Nat.isDigit_of_mem_toDigits (by decide) (by decide)

theorem isDigit_of_mem_padded {width n : Nat} : ∀ c ∈ padded width (ofNat n), c.isDigit = true := by
  intro c hc
  rcases List.mem_append.mp hc with hc | hc
  · rw [List.eq_of_mem_replicate hc]
    rfl
  · exact isDigit_of_mem_ofNat c hc

theorem length_padded (width : Nat) (text : Text) :
    (padded width text).length = max width text.length := by
  simp only [padded, List.length_append, List.length_replicate]
  omega

theorem value_padded (width n : Nat) : value (padded width (ofNat n)) = n := by
  rw [value, padded, Nat.ofDigitChars_append, Nat.ofDigitChars_replicate_zero, Nat.mul_zero, ofNat,
    Nat.ofDigitChars_ten_toDigits]

theorem value_ofNat (n : Nat) : value (ofNat n) = n :=
  Nat.ofDigitChars_ten_toDigits

theorem length_ofNat_pos (n : Nat) : 0 < (ofNat n).length :=
  Nat.length_toDigits_pos

theorem ofNat_of_ten_le {n : Nat} (h : 10 ≤ n) :
    ofNat n = ofNat (n / 10) ++ [Nat.digitChar (n % 10)] :=
  Nat.toDigits_of_base_le (by decide) h

theorem length_ofNat_of_lt_ten {n : Nat} (h : n < 10) : (ofNat n).length = 1 := by
  rw [ofNat, Nat.toDigits_of_lt_base h]
  rfl

theorem length_ofNat_of_ten_le {n : Nat} (h : 10 ≤ n) :
    (ofNat n).length = (ofNat (n / 10)).length + 1 := by
  rw [ofNat_of_ten_le h, List.length_append]
  rfl

theorem length_ofNat_le {m n : Nat} (h : m ≤ n) : (ofNat m).length ≤ (ofNat n).length := by
  induction n using Nat.strongRecOn generalizing m with
  | ind n ih =>
    by_cases hm : m < 10
    · rw [length_ofNat_of_lt_ten hm]
      exact length_ofNat_pos n
    · have hten : 10 ≤ m := Nat.le_of_not_lt hm
      have hrest := ih (n / 10) (by omega) (Nat.div_le_div_right h)
      rw [length_ofNat_of_ten_le hten, length_ofNat_of_ten_le (Nat.le_trans hten h)]
      exact Nat.succ_le_succ hrest

theorem length_ofNat_succ_le (n : Nat) : (ofNat (n + 1)).length ≤ (ofNat n).length + 1 := by
  by_cases h : n + 1 < 10
  · rw [length_ofNat_of_lt_ten h]
    omega
  · rw [length_ofNat_of_ten_le (Nat.le_of_not_lt h)]
    exact Nat.succ_le_succ (length_ofNat_le (by omega))

/-- Where the next number has a digit more, it comes first: its digits but the last one stand for
less than the number itself. -/
theorem precedes_of_length_lt {n : Nat} (h : (ofNat n).length < (ofNat (n + 1)).length)
    (r s : Text) : Precedes (ofNat (n + 1) ++ s) (ofNat n ++ r) := by
  have hten : 10 ≤ n + 1 := by
    by_contra hlt
    rw [length_ofNat_of_lt_ten (Nat.lt_of_not_le hlt)] at h
    exact absurd (length_ofNat_pos n) (by omega)
  have hlength : (ofNat ((n + 1) / 10)).length = (ofNat n).length := by
    have hnext := length_ofNat_succ_le n
    rw [length_ofNat_of_ten_le hten] at h hnext
    omega
  rw [ofNat_of_ten_le hten, List.append_assoc]
  refine precedes_of_value_lt isDigit_of_mem_ofNat isDigit_of_mem_ofNat hlength ?_ _ _
  rw [value_ofNat, value_ofNat]
  omega

end CqlDdl.Text
