import Downhill.Sampling.Source

/-!
# Permuted congruential generator

A 128-bit linear congruential generator whose output is the exclusive or of its
halves, rotated by its top bits.  A seed of any size is first spread over four
32-bit words by a hash, from which state and increment are drawn.  A word of 64
bits is used as two numbers of 32 bits, the low half first, or as a whole.
-/

namespace Downhill

/-- The generator: its 128-bit state and odd increment, and the high half of the
last word if it is still unused. -/
structure Permuted where
  state : Nat
  increment : Nat
  kept : Option Nat
  deriving DecidableEq, Repr

namespace Permuted

def word32 : Nat := 0x100000000

def word64 : Nat := 0x10000000000000000

def word128 : Nat := 0x100000000000000000000000000000000

/-! ## Seeding -/

/-- The 32-bit words of a number, the least significant first, and at least one
word. -/
def words (seed : Nat) : List UInt32 :=
  if seed < word32 then [UInt32.ofNat seed]
  else UInt32.ofNat (seed % word32) :: words (seed / word32)
termination_by seed
decreasing_by exact Nat.div_lt_self (by unfold word32 at *; omega) (by decide)

/-- One step of the multiplicative hash that spreads a seed.  The multiplier is
itself multiplied from step to step. -/
def hashStep (growth : UInt32) (v key : UInt32) : UInt32 × UInt32 :=
  let key' := key * growth
  let v := (v ^^^ key) * key'
  (v ^^^ (v >>> 16), key')

def spread : UInt32 → UInt32 → UInt32 × UInt32 := hashStep 0x931e8875

def blend (x y : UInt32) : UInt32 :=
  let r := x * 0xca01f9dd - y * 0x4973f715
  r ^^^ (r >>> 16)

def stir (pool : List UInt32 × UInt32) (place : Nat) (word : UInt32) : List UInt32 × UInt32 :=
  let (hashed, key) := spread word pool.2
  (pool.1.set place (blend (pool.1.getD place 0) hashed), key)

/-- Hash the first four words of a seed, one per place. -/
def fill (seed : List UInt32) : List UInt32 × UInt32 :=
  (List.range 4).foldl
    (fun (pool, key) i =>
      let (hashed, key) := spread (seed.getD i 0) key
      (pool ++ [hashed], key))
    ([], 0x43b0d7e5)

/-- The pool of a seed: every place is stirred into every other, and then each
further word of the seed into all of them. -/
def pool (seed : List UInt32) : List UInt32 :=
  let pairs := (List.range 4).flatMap fun source =>
    ((List.range 4).filter (· ≠ source)).map fun place => (source, place)
  let mixed := pairs.foldl
    (fun pool (source, place) => stir pool place (pool.1.getD source 0)) (fill seed)
  let final := (seed.drop 4).foldl
    (fun pool word => (List.range 4).foldl (fun pool place => stir pool place word) pool) mixed
  final.1

def expand (pool : List UInt32) : List UInt32 :=
  ((List.range 8).foldl
    (fun (out, key) i =>
      let (word, key) := hashStep 0x58f38ded (pool.getD (i % 4) 0) key
      (out ++ [word], key))
    (([] : List UInt32), (0x8b51f9dd : UInt32))).1

/-- Two neighbouring words as one number of 64 bits, the low word first. -/
def wide (out : List UInt32) (i : Nat) : Nat :=
  (out.getD (2 * i) 0).toNat + (out.getD (2 * i + 1) 0).toNat * word32

/-! ## The recurrence -/

def multiplier : Nat := 0x2360ED051FC65DA44385DF649FCCF645

def advance (g : Permuted) : Permuted :=
  { g with state := (g.state * multiplier + g.increment) % word128 }

def ofSeed (seed : Nat) : Permuted :=
  let out := expand (pool (words seed))
  let start := wide out 0 * word64 + wide out 1
  let stream := wide out 2 * word64 + wide out 3
  let g := advance ⟨0, (stream * 2 + 1) % word128, none⟩
  advance { g with state := (g.state + start) % word128 }

def next64 (g : Permuted) : Nat × Permuted :=
  let g := g.advance
  let mixed := (g.state / word64) ^^^ (g.state % word64)
  let turn := g.state >>> 122
  ((mixed >>> turn + mixed <<< (64 - turn)) % word64, g)

def next32 (g : Permuted) : Nat × Permuted :=
  match g.kept with
  | some high => (high, { g with kept := none })
  | none =>
    let (word, g) := g.next64
    (word % word32, { g with kept := some (word / word32) })

/-! ## Indices

Both ways to draw an index reject some words.  A word is rejected with
probability below one half, so a rejection that goes on past the limit does not
occur in practice; the last word is then used as it is. -/

def rejectionLimit : Nat := 4096

/-- The high half of a product of a word with the bound, for words that take
`size` values.  Products with a low half under the threshold are rejected, which
leaves equally many words for each index. -/
def product (next : Permuted → Nat × Permuted) (size bound threshold : Nat) :
    Nat → Permuted → Nat × Permuted
  | 0, g => (0, g)
  | tries + 1, g =>
    let (word, g) := next g
    let m := word * bound
    if m % size < threshold then product next size bound threshold tries g else (m / size, g)

/-- An index below the bound.  A bound of one needs no random bits, and a bound
above 32 bits needs whole words of 64 bits. -/
def below (bound : Nat) (g : Permuted) : Nat × Permuted :=
  if bound ≤ 1 then (0, g)
  else if bound ≤ word32 then
    product next32 word32 bound ((word32 - bound) % bound) rejectionLimit g
  else product next64 word64 bound ((word64 - bound) % bound) rejectionLimit g

/-- The low bits of the next word that is not above the limit. -/
def masked (limit bits : Nat) : Nat → Permuted → Nat × Permuted
  | 0, g => (0, g)
  | tries + 1, g =>
    let (word, g) := g.next32
    let v := word % 1 <<< bits
    if v ≤ limit then (v, g) else masked limit bits tries g

def position (limit : Nat) (g : Permuted) : Nat × Permuted :=
  masked limit (limit.log2 + 1) rejectionLimit g

/-- The first number that does not fit into 63 bits, as indices have to. -/
def indexLimit : Nat := 0x8000000000000000

instance : IndexSource Permuted where
  admits bound _ := decide (bound ≤ indexLimit)
  below := below
  shuffle := IndexSource.arrange position

instance : LawfulIndexSource Permuted where
  shuffle_perm := IndexSource.arrange_perm _

end Permuted

end Downhill
