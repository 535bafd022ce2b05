/-!
# Latency estimates

An estimate moves three tenths of the way to each new sample and is rounded, a half upwards. A
sample whose three tenths alone exceed the estimate is an outlier and is dropped. The first sample
of an unmeasured server is its estimate.
-/

namespace HttpDns.Latency

/-- The weight of a sample, in tenths. -/
def sampleTenths : Nat := 3

/-- The weighted sum in tenths, with the half that rounds it. -/
def weighted (old sample : Nat) : Nat :=
  sample * sampleTenths + old * (10 - sampleTenths) + 5

/-- The estimate after a sample. -/
def estimate (old : Option UInt32) (sample : UInt32) : UInt32 :=
  match old with
  | none => sample
  | some old =>
    if old.toNat * 10 < sample.toNat * sampleTenths then old
    else UInt32.ofNat (weighted old.toNat sample.toNat / 10)

/-- The weighted mean of two 32-bit numbers fits 32 bits. -/
theorem weighted_div_lt (old sample : UInt32) :
    weighted old.toNat sample.toNat / 10 < UInt32.size := by
  have h1 := old.toNat_lt
  have h2 := sample.toNat_lt
  simp only [weighted, sampleTenths, UInt32.size]
  omega

end HttpDns.Latency
