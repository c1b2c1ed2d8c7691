/-!
# Numerals

The zero of a number and its powers are those of the number. Where algebra is known too they could be taken for those of
a monoid, which are equal to them but not the same; with these instances a term means the same wherever it stands.
-/

namespace PacketProtocol.Numerals

attribute [scoped instance (high)] instPowNat Zero.ofOfNat0

end PacketProtocol.Numerals
