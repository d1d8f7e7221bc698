import ImagePreview.Text.Basic

/-!
White space in the sense of the Unicode property White_Space: 25 characters. Zero-width spaces and
the byte order mark are not among them.
-/
namespace ImagePreview.Text

/-- The 25 characters with the property White_Space. -/
def isBlank (c : Char) : Bool :=
  let n := c.toNat
  (0x09 ≤ n && n ≤ 0x0D) || n == 0x20 || n == 0x85 || n == 0xA0 || n == 0x1680 ||
    (0x2000 ≤ n && n ≤ 0x200A) || n == 0x2028 || n == 0x2029 || n == 0x202F || n == 0x205F ||
    n == 0x3000

def trimLeft (t : Text) : Text := t.dropWhile isBlank

def trimRight (t : Text) : Text := (trimLeft t.reverse).reverse

def trim (t : Text) : Text := trimRight (trimLeft t)

theorem toLower_of_isBlank {c : Char} (h : isBlank c = true) : c.toLower = c := by
  refine dif_neg ?_
  rintro ⟨hfirst, hlast⟩
  have hleast : 65 ≤ c.toNat := hfirst
  have hmost : c.toNat ≤ 90 := hlast
  simp [isBlank] at h
  omega

theorem trimLeft_append {a : Text} (ha : ∀ c ∈ a, isBlank c = true) (b : Text) :
    trimLeft (a ++ b) = trimLeft b := by
  induction a with
  | nil => rfl
  | cons c a ih =>
    have hc := ha c (by simp)
    simpa [trimLeft, hc] using ih fun d hd => ha d (by simp [hd])

theorem trim_of_not_isBlank {t : Text} (h : ∀ c ∈ t, isBlank c = false) : trim t = t := by
  have hkept {t : Text} (ht : ∀ c ∈ t, isBlank c = false) : trimLeft t = t := by
    cases t with
    | nil => rfl
    | cons c t => rw [trimLeft, List.dropWhile_cons, ht c List.mem_cons_self, if_neg nofun]
  have hback : ∀ c ∈ t.reverse, isBlank c = false := fun c hc => h c (List.mem_reverse.mp hc)
  rw [trim, hkept h, trimRight, hkept hback, List.reverse_reverse]

end ImagePreview.Text
