import HttpDns.Number.Binary64

/-!
# Decimal writing of double-precision magnitudes

The shortest decimal of a value is the one with the fewest digits among those that round back to
the value, and of these the nearest; on a tie the even last digit wins. A style says which decimal
exponents are written positionally. A ratio with a fixed number of places is rounded once.
-/

namespace HttpDns.Number

/-- The decimal `digits * 10 ^ exponent`. -/
structure Decimal where
  digits : Nat
  exponent : Int
  deriving DecidableEq, Repr

/-- How many digits the number has in base ten. -/
def digitCount (n : Nat) : Nat :=
  (Nat.toDigits 10 n).length

/-- The `d` with `10 ^ (d - 1) ≤ num / den < 10 ^ d`, for positive `num` and `den`. -/
def magnitude (num den : Nat) : Int :=
  if den ≤ num then (digitCount (num / den) : Int)
  else 1 - (digitCount ((den - 1) / num) : Int)

namespace Decimal

/-- The decimal without trailing zeros among its digits. -/
def stripZeros : Nat → Decimal → Decimal
  | 0, x => x
  | fuel + 1, x =>
    if x.digits ≠ 0 ∧ x.digits % 10 = 0 then stripZeros fuel ⟨x.digits / 10, x.exponent + 1⟩ else x

/-- Numerator and denominator of the decimal. -/
def ratio (x : Decimal) : Nat × Nat :=
  if 0 ≤ x.exponent then (x.digits * Nat.pow 10 x.exponent.toNat, 1)
  else (x.digits, Nat.pow 10 (-x.exponent).toNat)

end Decimal

namespace Binary64

/-- The decimal lies in the interval of numbers that round to `x`: half a unit of the last place
above and below, a quarter below where the spacing changes, with the ends exactly when the
mantissa is even. -/
def roundsFrom (x : Binary64) (d : Decimal) : Bool :=
  let v := ratio ⟨4 * x.mantissa, x.exponent⟩
  let unit := ratio ⟨1, x.exponent⟩
  let below := if x.mantissa = Nat.pow 2 52 ∧ leastExponent < x.exponent then 1 else 2
  let r := d.ratio
  -- everything over the common denominator `4 * v.2 * r.2`
  let point := 4 * r.1 * v.2
  let lo := (v.1 - below * unit.1) * r.2
  let hi := (v.1 + 2 * unit.1) * r.2
  if x.mantissa % 2 = 0 then lo ≤ point && point ≤ hi else lo < point && point < hi

/-- The nearer of two neighbouring grid points `c` and `c + 1` at `10 ^ g`, the even one on a
tie. -/
def nearer (x : Binary64) (c : Nat) (g : Int) : Decimal :=
  let v := x.ratio
  let mid := Decimal.ratio ⟨2 * c + 1, g⟩
  -- compares `2 * v` with `(2 * c + 1) * 10 ^ g`
  let a := 2 * v.1 * mid.2
  let b := mid.1 * v.2
  if a < b then ⟨c, g⟩ else if b < a then ⟨c + 1, g⟩ else if c % 2 = 0 then ⟨c, g⟩ else ⟨c + 1, g⟩

/-- The grid point at `10 ^ g` that the value is written with, if one of its two neighbours rounds
back to it. -/
def onGrid (x : Binary64) (g : Int) : Option Decimal :=
  let v := x.ratio
  let c := if 0 ≤ g then v.1 / (v.2 * Nat.pow 10 g.toNat) else v.1 * Nat.pow 10 (-g).toNat / v.2
  match x.roundsFrom ⟨c, g⟩, x.roundsFrom ⟨c + 1, g⟩ with
  | true, true => some (nearer x c g)
  | true, false => some ⟨c, g⟩
  | false, true => some ⟨c + 1, g⟩
  | false, false => none

/-- The first grid from `10 ^ g` downwards that has such a point. -/
def firstGrid (x : Binary64) : Nat → Int → Decimal
  | 0, g => ⟨x.ratio.1 * Nat.pow 10 (-g).toNat / x.ratio.2, g⟩
  | fuel + 1, g => (onGrid x g).getD (firstGrid x fuel (g - 1))

/-- The shortest decimal that rounds back to the value; seventeen digits always do. -/
def shortest (x : Binary64) : Decimal :=
  if x.mantissa = 0 then ⟨0, 0⟩
  else (firstGrid x 17 (magnitude x.ratio.1 x.ratio.2 - 1)).stripZeros 20

end Binary64

/-- The decimal exponents, of the leading digit, that are written without an exponent part. -/
structure DecimalStyle where
  least : Int
  most : Int

/-- A run of zeros. -/
def zeros (n : Nat) : List Char :=
  List.replicate n '0'

/-- The decimal in a style: always with a point or an exponent, whose sign is always written. -/
def DecimalStyle.write (style : DecimalStyle) (x : Decimal) : List Char :=
  let ds := Nat.toDigits 10 x.digits
  let count : Int := ds.length
  let lead : Int := count + x.exponent - 1
  if x.digits = 0 then ['0', '.', '0']
  else if style.least ≤ lead ∧ lead ≤ style.most then
    if 0 ≤ x.exponent then ds ++ zeros x.exponent.toNat ++ ['.', '0']
    else if 0 ≤ lead then
      ds.take (lead + 1).toNat ++ '.' :: ds.drop (lead + 1).toNat
    else '0' :: '.' :: zeros (-lead - 1).toNat ++ ds
  else
    let power := 'e' :: (if lead < 0 then '-' else '+') :: Nat.toDigits 10 lead.natAbs
    match ds with
    | [] => power
    | [d] => d :: power
    | d :: rest => d :: '.' :: rest ++ power

/-- The ratio with `places` digits after the point. -/
def fixedPlaces (places num den : Nat) : String :=
  let unit := Nat.pow 10 places
  let n := divNearest (num * unit) den
  let fraction := Nat.toDigits 10 (n % unit)
  String.ofList (Nat.toDigits 10 (n / unit) ++ '.' :: zeros (places - fraction.length)
    ++ fraction)

end HttpDns.Number
