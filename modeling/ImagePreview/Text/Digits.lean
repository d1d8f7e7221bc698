import ImagePreview.Text.Basic

/-!
Numbers written in digits, and the decimal form of the fixed-width integers. Reading takes an
optional sign and at least one digit, and refuses a number that does not fit.
-/
namespace ImagePreview.Text

/-- Value of a digit in bases up to sixteen, letters in either case. -/
def digit? (base : Nat) (c : Char) : Option Nat :=
  let n :=
    if '0' ≤ c && c ≤ '9' then c.toNat - '0'.toNat
    else if 'a' ≤ c && c ≤ 'f' then c.toNat - 'a'.toNat + 10
    else if 'A' ≤ c && c ≤ 'F' then c.toNat - 'A'.toNat + 10
    else base
  if n < base then some n else none

def ofDigits? (base : Nat) (t : Text) : Option Nat :=
  if t.isEmpty then none
  else t.foldlM (fun n c => (digit? base c).map (base * n + ·)) 0

def ofNat (n : Nat) : Text := Nat.toDigits 10 n

def ofInt : Int → Text
  | .ofNat n => ofNat n
  | .negSucc n => '-' :: ofNat (n + 1)

def toNat? : Text → Option Nat
  | '+' :: t => ofDigits? 10 t
  | t => ofDigits? 10 t

def toInt? : Text → Option Int
  | '-' :: t => (ofDigits? 10 t).map fun n => -(n : Int)
  | t => (toNat? t).map Int.ofNat

def unsigned64? (n : Int) : Option UInt64 :=
  if 0 ≤ n ∧ n < UInt64.size then some (UInt64.ofNat n.toNat) else none

def signed64? (n : Int) : Option Int64 :=
  if Int64.minValue.toInt ≤ n ∧ n ≤ Int64.maxValue.toInt then some (Int64.ofInt n) else none

def toUInt64? (t : Text) : Option UInt64 := (toNat? t).bind fun n => unsigned64? n

def toInt64? (t : Text) : Option Int64 := (toInt? t).bind signed64?

end ImagePreview.Text
