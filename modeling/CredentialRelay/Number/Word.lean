/-!
# Bounds of words

How many whole numbers can be written in some number of bits, spelled out.
-/

namespace CredentialRelay.Word

/-- The number of values of 16 bits. -/
def size16 : Nat := 65536

/-- The number of values of 31 bits. -/
def size31 : Nat := 2147483648

/-- The number of values of 32 bits. -/
def size32 : Nat := 4294967296

/-- The number of values of 52 bits. -/
def size52 : Nat := 4503599627370496

/-- The number of values of 53 bits. -/
def size53 : Nat := 9007199254740992

/-- The number of values of 63 bits. -/
def size63 : Nat := 9223372036854775808

/-- The number of values of 64 bits. -/
def size64 : Nat := 18446744073709551616

end CredentialRelay.Word
