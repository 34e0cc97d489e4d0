import SeismicHazard.Random.Source
/-!
# ChaCha — the seeded generator

Random words come from the ChaCha stream cipher with twelve rounds.  Its state is four rows of four 32-bit words; a
round works on the four columns at once, and between two rounds the rows are turned so that the next round works on the
diagonals.  The key is expanded from a 64-bit seed by a linear congruential generator with a permuted output.
-/
namespace SeismicHazard

namespace ChaCha

structure Row where
  a : UInt32
  b : UInt32
  c : UInt32
  d : UInt32
  deriving DecidableEq, Repr, Inhabited

namespace Row

def add (x y : Row) : Row := ⟨x.a + y.a, x.b + y.b, x.c + y.c, x.d + y.d⟩

def xor (x y : Row) : Row := ⟨x.a ^^^ y.a, x.b ^^^ y.b, x.c ^^^ y.c, x.d ^^^ y.d⟩

def turn (n : UInt32) (x : UInt32) : UInt32 := (x <<< n) ||| (x >>> (32 - n))

def rotate (n : UInt32) (x : Row) : Row := ⟨turn n x.a, turn n x.b, turn n x.c, turn n x.d⟩

def shift (x : Row) : Row := ⟨x.b, x.c, x.d, x.a⟩

def toList (x : Row) : List UInt32 := [x.a, x.b, x.c, x.d]

end Row

structure Block where
  r0 : Row
  r1 : Row
  r2 : Row
  r3 : Row
  deriving DecidableEq, Repr, Inhabited

namespace Block

def round (s : Block) : Block :=
  let r0 := s.r0.add s.r1
  let r3 := (s.r3.xor r0).rotate 16
  let r2 := s.r2.add r3
  let r1 := (s.r1.xor r2).rotate 12
  let r0 := r0.add r1
  let r3 := (r3.xor r0).rotate 8
  let r2 := r2.add r3
  let r1 := (r1.xor r2).rotate 7
  ⟨r0, r1, r2, r3⟩

def skew (s : Block) : Block := ⟨s.r0, s.r1.shift, s.r2.shift.shift, s.r3.shift.shift.shift⟩

def unskew (s : Block) : Block := ⟨s.r0, s.r1.shift.shift.shift, s.r2.shift.shift, s.r3.shift⟩

def doubleRound (s : Block) : Block := s.round.skew.round.unskew

def add (s t : Block) : Block := ⟨s.r0.add t.r0, s.r1.add t.r1, s.r2.add t.r2, s.r3.add t.r3⟩

def toList (s : Block) : List UInt32 := s.r0.toList ++ s.r1.toList ++ s.r2.toList ++ s.r3.toList

end Block

def doubleRounds : Nat := 6

def Block.rounds : Nat → Block → Block
  | 0, s => s
  | n + 1, s => rounds n s.doubleRound

def constants : Row := ⟨0x61707865, 0x3320646e, 0x79622d32, 0x6b206574⟩

def block (k1 k2 : Row) (counter : UInt64) : Block :=
  let start : Block := ⟨constants, k1, k2, ⟨counter.toUInt32, (counter >>> 32).toUInt32, 0, 0⟩⟩
  (Block.rounds doubleRounds start).add start

def pairs : List UInt32 → List UInt64
  | lo :: hi :: rest => (lo.toUInt64 ||| (hi.toUInt64 <<< 32)) :: pairs rest
  | _ => []

end ChaCha

/-- The state of the seeded generator. -/
structure Generator where
  key1 : ChaCha.Row
  key2 : ChaCha.Row
  counter : UInt64
  pending : List UInt64
  deriving DecidableEq, Repr, Inhabited

namespace Generator

def expand (s : UInt64) : UInt32 × UInt64 :=
  let s := s * 6364136223846793005 + 11634580027462260723
  let x := (((s >>> 18) ^^^ s) >>> 27).toUInt32
  let r := (s >>> 59).toUInt32
  (if r = 0 then x else ChaCha.Row.turn (32 - r) x, s)

def expandRow (s : UInt64) : ChaCha.Row × UInt64 :=
  let (a, s) := expand s
  let (b, s) := expand s
  let (c, s) := expand s
  let (d, s) := expand s
  (⟨a, b, c, d⟩, s)

def seeded (seed : UInt64) : Generator :=
  let (k1, s) := expandRow seed
  let (k2, _) := expandRow s
  ⟨k1, k2, 0, []⟩

def next (g : Generator) : UInt64 × Generator :=
  match g.pending with
  | w :: rest => (w, { g with pending := rest })
  | [] =>
    match ChaCha.pairs (ChaCha.block g.key1 g.key2 g.counter).toList with
    | w :: rest => (w, { g with counter := g.counter + 1, pending := rest })
    | [] => (0, g)

instance : RandomSource Generator := ⟨next⟩

end Generator

end SeismicHazard
