/-!
# Random sources — where random words come from

Sampling asks for one 64-bit word at a time.  It is written for any type of states that can give the next word, so that
what it draws is a function of the words alone.
-/
namespace SeismicHazard

class RandomSource (G : Type) where
  next : G → UInt64 × G

structure WordStream where
  word : Nat → UInt64
  position : Nat

instance : RandomSource WordStream := ⟨fun s => (s.word s.position, { s with position := s.position + 1 })⟩

end SeismicHazard
