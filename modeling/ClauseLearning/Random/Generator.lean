/-!
The generator PCG32 (XSH RR): a 64-bit linear congruential state, and a 32-bit output that rotates
the state's high bits.
-/

namespace ClauseLearning

structure Generator where
  state : UInt64
  deriving Repr, DecidableEq, Inhabited

namespace Generator

def multiplier : UInt64 := 6364136223846793005

/-- Any odd increment gives a full period. -/
def increment : UInt64 := 1442695040888963407

def advance (g : Generator) : Generator := ⟨g.state * multiplier + increment⟩

def rotateRight (word amount : UInt32) : UInt32 :=
  (word >>> amount) ||| (word <<< (0 - amount))

def output (g : Generator) : UInt32 :=
  rotateRight (((g.state >>> 18) ^^^ g.state) >>> 27).toUInt32 (g.state >>> 59).toUInt32

def next32 (g : Generator) : UInt32 × Generator := (g.output, g.advance)

def next64 (g : Generator) : UInt64 × Generator :=
  let (low, g) := g.next32
  let (high, g) := g.next32
  (high.toUInt64 <<< 32 ||| low.toUInt64, g)

/-- The generator of a seed, which is added to the state between two draws. -/
def ofSeed (seed : UInt64) : Generator :=
  let g := advance ⟨0⟩
  advance ⟨g.state + seed⟩

def lowBytes (count : Nat) (n : Nat) : List UInt8 :=
  (List.range count).map fun i => UInt8.ofNat (n >>> (8 * i))

/-- `count` bytes: eight from each draw of 64 bits, and a rest of at most four from one of 32. -/
def bytes (count : Nat) (g : Generator) : List UInt8 × Generator :=
  if _many : 4 < count then
    let (n, g) := g.next64
    let now := min count 8
    let (rest, g) := bytes (count - now) g
    (lowBytes now n.toNat ++ rest, g)
  else if count = 0 then ([], g)
  else
    let (n, g) := g.next32
    (lowBytes count n.toNat, g)
termination_by count
decreasing_by omega

/-- A Bernoulli sample, documented to be true with probability `p` up to `2 ^ -64`, and always if `p`
is one. There a `p` below zero or above one is refused; settings within their bounds have none. -/
def chance (p : Float) (g : Generator) : Bool × Generator :=
  if p == 1.0 then (true, g)
  else
    let (n, g) := g.next64
    (n < (p * 18446744073709551616.0).toUInt64, g)

end Generator

end ClauseLearning
