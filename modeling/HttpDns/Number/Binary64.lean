/-!
# Double-precision magnitudes

The non-negative finite values of the 64-bit binary format, as a mantissa below `2 ^ 53` times a
power of two that is at least `2 ^ (-1074)`. Every operation computes the exact quotient and rounds
it once, to the nearest value and to the even mantissa on a tie; a quotient past the greatest value
has no result.
-/

namespace HttpDns.Number

/-- The integer nearest to `num / den`, the even one on a tie. -/
def divNearest (num den : Nat) : Nat :=
  let q := num / den
  let r := num % den
  if den < 2 * r ∨ (2 * r = den ∧ q % 2 = 1) then q + 1 else q

/-- The value `mantissa * 2 ^ exponent`. -/
structure Binary64 where
  mantissa : Nat
  exponent : Int
  deriving DecidableEq, Repr

namespace Binary64

/-- The exponent of the smallest positive value. -/
def leastExponent : Int := -1074

/-- The exponent of the greatest values. -/
def greatestExponent : Int := 971

def zero : Binary64 := ⟨0, leastExponent⟩

/-- Numerator and denominator of the value. -/
def ratio (x : Binary64) : Nat × Nat :=
  if 0 ≤ x.exponent then (x.mantissa * Nat.pow 2 x.exponent.toNat, 1)
  else (x.mantissa, Nat.pow 2 (-x.exponent).toNat)

/-- The numerator and denominator of `num / den` after division by `2 ^ e`. -/
def scaled (num den : Nat) (e : Int) : Nat × Nat :=
  if 0 ≤ e then (num, den * Nat.pow 2 e.toNat) else (num * Nat.pow 2 (-e).toNat, den)

/-- The value nearest to `num / den` for a positive `den`, if it is not too great. -/
def ofRatio (num den : Nat) : Option Binary64 :=
  if num = 0 then some zero
  else
    let guess : Int := (num.log2 : Int) - (den.log2 : Int)
    let s := scaled num den guess
    let high := if s.2 ≤ s.1 then guess else guess - 1
    let e := max (high - 52) leastExponent
    let t := scaled num den e
    let m := divNearest t.1 t.2
    let x : Binary64 := if m = Nat.pow 2 53 then ⟨Nat.pow 2 52, e + 1⟩ else ⟨m, e⟩
    if greatestExponent < x.exponent then none else some x

def ofNat (n : Nat) : Option Binary64 :=
  ofRatio n 1

def mul (x y : Binary64) : Option Binary64 :=
  ofRatio (x.ratio.1 * y.ratio.1) (x.ratio.2 * y.ratio.2)

def div (x y : Binary64) : Option Binary64 :=
  ofRatio (x.ratio.1 * y.ratio.2) (x.ratio.2 * y.ratio.1)

end Binary64

theorem divNearest_one (n : Nat) : divNearest n 1 = n := by
  have : n % 1 = 0 := Nat.mod_one n
  simp [divNearest, this]

/-- The rounded quotient is within half a unit of the exact one. -/
theorem divNearest_near {num den : Nat} (h : 0 < den) :
    2 * num ≤ 2 * (den * divNearest num den) + den ∧
      2 * (den * divNearest num den) ≤ 2 * num + den := by
  have hd := Nat.div_add_mod num den
  have hr := Nat.mod_lt num h
  unfold divNearest
  simp only []
  split
  · rename_i hc
    have : den * (num / den + 1) = den * (num / den) + den := by rw [Nat.mul_add, Nat.mul_one]
    omega
  · rename_i hc
    omega

end HttpDns.Number
