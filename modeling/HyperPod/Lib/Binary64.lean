import Mathlib.Algebra.Group.Nat.Defs

/-!
# Comparing IEEE 754 binary64 numbers

A number is its 64 bits.  Two numbers that are not NaN compare as their bits read as
sign and magnitude, so the two zeros are equal and the infinities lie at the ends;
a comparison with a NaN is false.
-/

structure Binary64 where
  bits : UInt64
deriving Repr, DecidableEq

namespace Binary64

def magnitude (x : Binary64) : Nat := x.bits.toNat % 2 ^ 63

/-- The exponent is all ones and the fraction is not zero. -/
def isNan (x : Binary64) : Bool := 0x7ff0000000000000 < x.magnitude

/-- The bits read as sign and magnitude. -/
def key (x : Binary64) : Int :=
  if x.bits.toNat < 2 ^ 63 then x.magnitude else -x.magnitude

instance : LE Binary64 := ⟨fun x y => x.isNan = false ∧ y.isNan = false ∧ x.key ≤ y.key⟩

instance (x y : Binary64) : Decidable (x ≤ y) := inferInstanceAs (Decidable (_ ∧ _))

variable {x y z : Binary64}

theorem le_trans (hxy : x ≤ y) (hyz : y ≤ z) : x ≤ z :=
  ⟨hxy.1, hyz.2.1, Int.le_trans hxy.2.2 hyz.2.2⟩

end Binary64
