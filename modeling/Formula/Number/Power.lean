/-!
# Powers

The numbers of the language are scaled by powers of two and of ten, all of them with natural
exponents. Where `NaturalPower` is open, such a power is that of the number type itself, whatever
more general notion of power is known.
-/

namespace Formula.NaturalPower

attribute [scoped instance (2000)] instPowNat

end Formula.NaturalPower
