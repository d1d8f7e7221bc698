import ImagePreview.Proofs.Text.Decimal
import ImagePreview.Proofs.Text.Decoding

/-!
Numbers as they may be given: in decimal digits, needless zeros among them, and with a sign or
without. What is read is the number itself and never another one that fits; what has no such form or
does not fit is not read.
-/
namespace ImagePreview.Text

structure IsDecimal (t : Text) (n : Nat) : Prop where
  ne_nil : t ≠ []
  digits : ∀ c ∈ t, c.isDigit = true
  value : Nat.ofDigitChars 10 t 0 = n

inductive Numeral : Text → Int → Prop
  | plain {t : Text} {n : Nat} : IsDecimal t n → Numeral t n
  | plus {t : Text} {n : Nat} : IsDecimal t n → Numeral ('+' :: t) n
  | minus {t : Text} {n : Nat} : IsDecimal t n → Numeral ('-' :: t) (-n)

theorem digit?_ten_of_not_isDigit {c : Char} (h : c.isDigit = false) : digit? 10 c = none := by
  have hnot : ¬('0' ≤ c ∧ c ≤ '9') := by
    rintro ⟨hlow, hhigh⟩
    rw [Char.isDigit, Bool.and_eq_false_iff] at h
    rcases h with h | h
    · exact of_decide_eq_false h hlow
    · exact of_decide_eq_false h hhigh
  refine if_neg (Nat.not_lt.mpr ?_)
  simp only [Bool.and_eq_true, decide_eq_true_eq, if_neg hnot]
  split
  · exact Nat.le_add_left 10 _
  · split
    · exact Nat.le_add_left 10 _
    · exact Nat.le_refl 10

theorem ofDigits?_eq_some {t : Text} {n : Nat} : ofDigits? 10 t = some n ↔ IsDecimal t n := by
  constructor
  · intro h
    have hne : t ≠ [] := by
      rintro rfl
      contradiction
    have hdigits : ∀ c ∈ t, c.isDigit = true := by
      intro c hc
      cases hdigit : c.isDigit with
      | true => rfl
      | false =>
        rw [ofDigits?_of_not_digit (digit?_ten_of_not_isDigit hdigit) hc] at h
        contradiction
    rw [ofDigits?_ten hne hdigits] at h
    exact ⟨hne, hdigits, Option.some.inj h⟩
  · intro h
    rw [ofDigits?_ten h.ne_nil h.digits, h.value]

theorem isDecimal_ofNat (n : Nat) : IsDecimal (ofNat n) n :=
  ofDigits?_eq_some.mp (ofDigits?_ofNat n)

theorem numeral_ofInt (n : Int) : Numeral (ofInt n) n := by
  cases n with
  | ofNat n => exact .plain (isDecimal_ofNat n)
  | negSucc n => exact .minus (isDecimal_ofNat (n + 1))

theorem IsDecimal.head?_ne {t : Text} {n : Nat} {c : Char} (h : IsDecimal t n)
    (hc : c.isDigit = false) : t.head? ≠ some c := by
  intro hhead
  have hdigit := h.digits c (List.mem_of_head? hhead)
  rw [hc] at hdigit
  contradiction

theorem IsDecimal.ne_cons {t rest : Text} {n : Nat} {c : Char} (h : IsDecimal t n)
    (hc : c.isDigit = false) : t ≠ c :: rest := by
  rintro rfl
  exact h.head?_ne hc rfl

theorem toNat?_eq_some {t : Text} {n : Nat} :
    toNat? t = some n ↔ Numeral t n ∧ t.head? ≠ some '-' := by
  constructor
  · intro h
    unfold toNat? at h
    split at h
    · exact ⟨.plus (ofDigits?_eq_some.mp h), by simp⟩
    · have hdecimal := ofDigits?_eq_some.mp h
      exact ⟨.plain hdecimal, hdecimal.head?_ne (by decide)⟩
  · rintro ⟨h, hsign⟩
    generalize he : (n : Int) = m at h
    cases h with
    | plain hdecimal =>
      rw [toNat?, ofDigits?_eq_some, Int.ofNat_inj.mp he]
      · exact hdecimal
      · exact fun rest => hdecimal.ne_cons (by decide)
    | plus hdecimal =>
      rw [toNat?, ofDigits?_eq_some, Int.ofNat_inj.mp he]
      exact hdecimal
    | minus => exact absurd rfl hsign

theorem toInt?_eq_some {t : Text} {n : Int} : toInt? t = some n ↔ Numeral t n := by
  constructor
  · intro h
    unfold toInt? at h
    split at h
    · obtain ⟨k, hread, rfl⟩ := Option.map_eq_some_iff.mp h
      obtain ⟨m, hm, hk⟩ := Option.bind_eq_some_iff.mp hread
      rw [← Option.some.inj hk]
      exact .minus (ofDigits?_eq_some.mp hm)
    · obtain ⟨m, hm, rfl⟩ := Option.map_eq_some_iff.mp h
      exact (toNat?_eq_some.mp hm).1
  · intro h
    cases h with
    | @plain t n hdecimal =>
      rw [toInt?, toNat?_eq_some.mpr ⟨.plain hdecimal, hdecimal.head?_ne (by decide)⟩]
      · rfl
      · exact fun rest => hdecimal.ne_cons (by decide)
    | plus hdecimal =>
      rw [toInt?, toNat?_eq_some.mpr ⟨.plus hdecimal, by simp⟩]
      · rfl
      · simp
    | minus hdecimal =>
      rw [toInt?, ofDigits?_eq_some.mpr hdecimal]
      rfl

theorem Numeral.unique {t : Text} {m n : Int} (hm : Numeral t m) (hn : Numeral t n) : m = n := by
  have hread := toInt?_eq_some.mpr hm
  rw [toInt?_eq_some.mpr hn] at hread
  exact (Option.some.inj hread).symm

theorem signed64?_eq_some {n : Int} {word : Int64} : signed64? n = some word ↔ n = word.toInt := by
  rw [signed64?]
  constructor
  · intro h
    split at h
    · rename_i hfits
      rw [Int64.toInt_minValue, Int64.toInt_maxValue] at hfits
      rw [← Option.some.inj h]
      exact (Int64.toInt_ofInt_of_le hfits.1 (Int.lt_of_le_sub_one hfits.2)).symm
    · contradiction
  · rintro rfl
    rw [if_pos ⟨word.minValue_le_toInt, word.toInt_le⟩, Int64.ofInt_toInt]

theorem toUInt64?_eq_some {t : Text} {word : UInt64} :
    toUInt64? t = some word ↔ Numeral t word.toNat ∧ t.head? ≠ some '-' := by
  rw [toUInt64?, Option.bind_eq_some_iff]
  constructor
  · rintro ⟨n, hn, hword⟩
    rw [← unsigned64?_eq_some.mp hword]
    exact toNat?_eq_some.mp hn
  · intro h
    exact ⟨word.toNat, toNat?_eq_some.mpr h, unsigned64?_eq_some.mpr rfl⟩

theorem toInt64?_eq_some {t : Text} {word : Int64} :
    toInt64? t = some word ↔ Numeral t word.toInt := by
  rw [toInt64?, Option.bind_eq_some_iff]
  constructor
  · rintro ⟨n, hn, hword⟩
    rw [← signed64?_eq_some.mp hword]
    exact toInt?_eq_some.mp hn
  · intro h
    exact ⟨word.toInt, toInt?_eq_some.mpr h, signed64?_eq_some.mpr rfl⟩

theorem not_isBlank_of_isDigit {c : Char} (h : c.isDigit = true) : isBlank c = false := by
  rw [Char.isDigit, Bool.and_eq_true] at h
  have hlow : 48 ≤ c.toNat := of_decide_eq_true h.1
  have hhigh : c.toNat ≤ 57 := of_decide_eq_true h.2
  simp [isBlank]
  omega

theorem Numeral.not_isBlank {t : Text} {n : Int} (h : Numeral t n) :
    ∀ c ∈ t, isBlank c = false := by
  cases h with
  | plain hdecimal => exact fun c hc => not_isBlank_of_isDigit (hdecimal.digits c hc)
  | plus hdecimal | minus hdecimal =>
    refine List.forall_mem_cons.mpr ⟨by decide, fun c hc => ?_⟩
    exact not_isBlank_of_isDigit (hdecimal.digits c hc)

end ImagePreview.Text
