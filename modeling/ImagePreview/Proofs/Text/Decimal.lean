import ImagePreview.Text.Digits

/-!
Decimal numbers. A number is written in digits, none of them a needless zero in front, and these are
read as the number.
-/
namespace ImagePreview.Text

theorem digit?_ten {c : Char} (h : c.isDigit = true) :
    digit? 10 c = some (c.toNat - '0'.toNat) := by
  obtain ⟨hlow, hhigh⟩ : '0' ≤ c ∧ c ≤ '9' := by
    rw [Char.isDigit, Bool.and_eq_true] at h
    exact ⟨of_decide_eq_true h.1, of_decide_eq_true h.2⟩
  have hbound : c.toNat ≤ 57 := hhigh
  have hlt : c.toNat - 48 < 10 := by omega
  simp [digit?, hlow, hhigh, hlt]

theorem ofDigits?_ten {t : Text} (hne : t ≠ []) (h : ∀ c ∈ t, c.isDigit = true) :
    ofDigits? 10 t = some (Nat.ofDigitChars 10 t 0) := by
  have hread : ∀ n, t.foldlM (fun n c => (digit? 10 c).map (10 * n + ·)) n =
      some (Nat.ofDigitChars 10 t n) := by
    clear hne
    induction t with
    | nil => exact fun n => rfl
    | cons c t ih =>
      obtain ⟨hc, ht⟩ := List.forall_mem_cons.mp h
      intro n
      rw [List.foldlM_cons, digit?_ten hc, Nat.ofDigitChars_cons]
      exact ih ht _
  rw [ofDigits?, if_neg (by simpa using hne), hread]

theorem isDigit_of_mem_ofNat {n : Nat} {c : Char} (h : c ∈ ofNat n) : c.isDigit = true :=
  Nat.isDigit_of_mem_toDigits (by decide) (by decide) h

theorem ofNat_ne_nil (n : Nat) : ofNat n ≠ [] := Nat.toDigits_ne_nil

@[simp] theorem ofDigits?_ofNat (n : Nat) : ofDigits? 10 (ofNat n) = some n := by
  rw [ofDigits?_ten (ofNat_ne_nil n) fun _ => isDigit_of_mem_ofNat, ofNat,
    Nat.ofDigitChars_ten_toDigits]

theorem head?_ofNat {n : Nat} (h : 0 < n) : (ofNat n).head? ≠ some '0' := by
  induction n using Nat.strongRecOn with
  | ind n ih =>
    rw [ofNat, Nat.toDigits_eq_if (by decide)]
    split
    · simpa [Nat.digitChar_eq_zero] using Nat.ne_of_gt h
    · rw [List.head?_append, Option.or_of_isSome (by simp)]
      exact ih (n / 10) (by omega) (by omega)

theorem no_leading_zero (n : Nat) :
    ¬ ((ofNat n).head? = some '0' ∧ 1 < (ofNat n).length) := by
  rintro ⟨hzero, hlong⟩
  obtain rfl | hpos := n.eq_zero_or_pos
  · exact absurd hlong (by decide)
  · exact head?_ofNat hpos hzero

theorem unsigned64?_eq_some {n : Int} {size : UInt64} :
    unsigned64? n = some size ↔ n = size.toNat := by
  rw [unsigned64?]
  constructor
  · intro h
    split at h
    · rename_i hfits
      obtain rfl := Option.some.inj h
      rw [UInt64.toNat_ofNat_of_lt' (by omega), Int.toNat_of_nonneg hfits.1]
    · contradiction
  · rintro rfl
    have hfits : size.toNat < UInt64.size := size.toNat_lt_size
    rw [if_pos ⟨by omega, by omega⟩, Int.toNat_natCast, UInt64.ofNat_toNat]

end ImagePreview.Text
