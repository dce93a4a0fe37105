import ParticleSim.Text.Unicode
/-!
The classes of characters that scenario texts, rendered paths and patterns speak of. Texts and paths
know every character of the standard; patterns leave out the recent ones.
-/
namespace ParticleSim.CharClass

def isControl (c : Char) : Bool :=
  c.toNat < 0x20 || (0x7F ≤ c.toNat && c.toNat < 0xA0)

def isAlphanumeric (c : Char) : Bool :=
  Unicode.alphabetic.contains c.toNat || Unicode.decimalDigit.contains c.toNat ||
    Unicode.numberOnly.contains c.toNat

/-- Characters that came into the standard after the edition that patterns go by. -/
def isRecent (c : Char) : Bool :=
  Unicode.recent.contains c.toNat

def isWord (c : Char) : Bool :=
  (Unicode.alphabetic.contains c.toNat || Unicode.decimalDigit.contains c.toNat ||
    Unicode.wordOnly.contains c.toNat) && !isRecent c

def isDecimalDigit (c : Char) : Bool :=
  Unicode.decimalDigit.contains c.toNat && !isRecent c

def isSpace (c : Char) : Bool :=
  Unicode.whiteSpace.contains c.toNat

/-- Characters that are shown by their code point, since they do not show by themselves. -/
def isHidden (c : Char) : Bool :=
  Unicode.unprintable.contains c.toNat || Unicode.extending.contains c.toNat ||
    Unicode.fillers.contains c.toNat

def caseVariants (c : Char) : List Char :=
  (CaseShift.variants Unicode.caseShifts c.toNat).map Char.ofNat

end ParticleSim.CharClass
