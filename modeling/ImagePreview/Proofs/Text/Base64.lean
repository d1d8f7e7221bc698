import ImagePreview.Text.Base64

/-!
Base64 there and back. Each byte list has one written form, and nothing else is read as it; the
written form is made of letters, digits and three more characters.
-/
namespace ImagePreview.Text.Base64

theorem value?_digit {n : Nat} (h : n < 64) : value? (digit n) = some n := by
  have hall : ∀ i : Fin 64, value? (digit i) = some i.val := by decide +kernel
  exact hall ⟨n, h⟩

theorem value?_eq_some {c : Char} {n : Nat} : value? c = some n ↔ n < 64 ∧ c = digit n := by
  constructor
  · intro h
    obtain ⟨hn, hc, -⟩ := List.idxOf?_eq_some_iff.mp h
    refine ⟨hn, ?_⟩
    rw [digit, List.getD_eq_getElem?_getD, List.getElem?_eq_getElem hn, hc]
    rfl
  · rintro ⟨hn, rfl⟩
    exact value?_digit hn

theorem digit_mem_alphabet (n : Nat) : digit n ∈ alphabet := by
  rw [digit, List.getD_eq_getElem?_getD]
  cases h : alphabet[n]? with
  | none => decide
  | some c => exact List.mem_of_getElem? h

theorem digit_ne_padding (n : Nat) : digit n ≠ '=' := by
  intro h
  have hmem := digit_mem_alphabet n
  rw [h] at hmem
  exact absurd hmem (by decide)

theorem decode_encode (bytes : List UInt8) : decode (encode bytes) = some bytes := by
  fun_induction encode bytes with
  | case1 => rfl
  | case2 a n =>
    have ha := a.toNat_lt
    have hn : n / 64 < 64 ∧ n % 64 < 64 ∧ n / 64 * 64 + n % 64 = n := by omega
    have hbits : n % 16 = 0 ∧ n / 16 = a.toNat := by omega
    simp [decode, value?_digit, hn, hbits]
  | case3 a b n =>
    have ha := a.toNat_lt
    have hb := b.toNat_lt
    have hn : n / 4096 < 64 ∧ n / 64 % 64 < 64 ∧ n % 64 < 64 ∧
        (n / 4096 * 64 + n / 64 % 64) * 64 + n % 64 = n := by omega
    have hbits : n % 4 = 0 ∧ n / 1024 = a.toNat ∧ n / 4 % 256 = b.toNat := by omega
    simp [decode, value?_digit, hn, hbits, digit_ne_padding]
  | case4 a b c rest n ih =>
    have ha := a.toNat_lt
    have hb := b.toNat_lt
    have hc := c.toNat_lt
    have hn : n / 262144 < 64 ∧ n / 4096 % 64 < 64 ∧ n / 64 % 64 < 64 ∧ n % 64 < 64 ∧
        ((n / 262144 * 64 + n / 4096 % 64) * 64 + n / 64 % 64) * 64 + n % 64 = n := by omega
    have hbits : n / 65536 = a.toNat ∧ n / 256 % 256 = b.toNat ∧ n % 256 = c.toNat := by omega
    simp [decode, value?_digit, hn, hbits, digit_ne_padding, ih]

section Groups

variable {n : Nat}

theorem toNat_byte (h : n < 256) : (UInt8.ofNat n).toNat = n := UInt8.toNat_ofNat_of_lt' h

/-- Two digits write a byte, if the bits that are left over are clear. -/
theorem encode_one (h : n < 4096) (hclear : n % 16 = 0) :
    encode [UInt8.ofNat (n / 16)] = [digit (n / 64), digit (n % 64), '=', '='] := by
  have ha := toNat_byte (n := n / 16) (by omega)
  have hn : n / 16 * 16 = n := by omega
  simp only [encode, ha, hn]

theorem encode_two (h : n < 262144) (hclear : n % 4 = 0) :
    encode [UInt8.ofNat (n / 1024), UInt8.ofNat (n / 4 % 256)] =
      [digit (n / 4096), digit (n / 64 % 64), digit (n % 64), '='] := by
  have ha := toNat_byte (n := n / 1024) (by omega)
  have hb := toNat_byte (n := n / 4 % 256) (by omega)
  have hn : (n / 1024 * 256 + n / 4 % 256) * 4 = n := by omega
  simp only [encode, ha, hb, hn]

theorem encode_three (h : n < 16777216) (rest : List UInt8) :
    encode (UInt8.ofNat (n / 65536) :: UInt8.ofNat (n / 256 % 256) :: UInt8.ofNat (n % 256) ::
        rest) =
      digit (n / 262144) :: digit (n / 4096 % 64) :: digit (n / 64 % 64) :: digit (n % 64) ::
        encode rest := by
  have ha := toNat_byte (n := n / 65536) (by omega)
  have hb := toNat_byte (n := n / 256 % 256) (by omega)
  have hc := toNat_byte (n := n % 256) (by omega)
  have hn : (n / 65536 * 256 + n / 256 % 256) * 256 + n % 256 = n := by omega
  simp only [encode, ha, hb, hc, hn]

end Groups

theorem eq_encode_of_decode {t : Text} {bytes : List UInt8} (h : decode t = some bytes) :
    t = encode bytes := by
  fun_induction decode t generalizing bytes with
  | case1 =>
    rw [← Option.some.inj h]
    rfl
  | case2 w x =>
    simp only [Option.bind_eq_bind, Option.bind_eq_some_iff, value?_eq_some] at h
    obtain ⟨i, ⟨hi, rfl⟩, j, ⟨hj, rfl⟩, h⟩ := h
    split at h
    · rename_i hclear
      have hdigits : (i * 64 + j) / 64 = i ∧ (i * 64 + j) % 64 = j := by omega
      rw [← Option.some.inj h, encode_one (by omega) hclear, hdigits.1, hdigits.2]
    · contradiction
  | case3 w x y =>
    simp only [Option.bind_eq_bind, Option.bind_eq_some_iff, value?_eq_some] at h
    obtain ⟨i, ⟨hi, rfl⟩, j, ⟨hj, rfl⟩, k, ⟨hk, rfl⟩, h⟩ := h
    split at h
    · rename_i hclear
      have hdigits : ((i * 64 + j) * 64 + k) / 4096 = i ∧
          ((i * 64 + j) * 64 + k) / 64 % 64 = j ∧ ((i * 64 + j) * 64 + k) % 64 = k := by omega
      rw [← Option.some.inj h, encode_two (by omega) hclear, hdigits.1, hdigits.2.1,
        hdigits.2.2]
    · contradiction
  | case4 w x y z rest _ _ ih =>
    simp only [Option.bind_eq_bind, Option.bind_eq_some_iff, value?_eq_some] at h
    obtain ⟨i, ⟨hi, rfl⟩, j, ⟨hj, rfl⟩, k, ⟨hk, rfl⟩, l, ⟨hl, rfl⟩, behind, hrest, h⟩ := h
    have hdigits : (((i * 64 + j) * 64 + k) * 64 + l) / 262144 = i ∧
        (((i * 64 + j) * 64 + k) * 64 + l) / 4096 % 64 = j ∧
        (((i * 64 + j) * 64 + k) * 64 + l) / 64 % 64 = k ∧
        (((i * 64 + j) * 64 + k) * 64 + l) % 64 = l := by omega
    rw [← Option.some.inj h, encode_three (by omega), hdigits.1, hdigits.2.1, hdigits.2.2.1,
      hdigits.2.2.2, ih hrest]
  | case5 t => contradiction

theorem decode_eq_some {t : Text} {bytes : List UInt8} :
    decode t = some bytes ↔ t = encode bytes := by
  refine ⟨eq_encode_of_decode, ?_⟩
  rintro rfl
  exact decode_encode bytes

theorem mem_encode (bytes : List UInt8) : ∀ c ∈ encode bytes, c ∈ alphabet ∨ c = '=' := by
  fun_induction encode bytes with
  | case1 => simp
  | case2 a n => simp [digit_mem_alphabet]
  | case3 a b n => simp [digit_mem_alphabet]
  | case4 a b c rest n ih => simpa [digit_mem_alphabet] using ih

end ImagePreview.Text.Base64
