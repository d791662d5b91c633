import ClauseLearning.Random.Generator

/-!
A fair choice from a list whose length is not known beforehand: the `k`-th item replaces the one
chosen so far with probability `1 / k`. Such chances are decided by flipping coins, the bits of
32-bit draws, and no more of them than needed.
-/

namespace ClauseLearning

/-- A supply of coins: the next `remaining` coins are the high bits of `chunk`. -/
structure Coins where
  chunk : UInt32 := 0
  remaining : Nat := 0
  source : Generator

namespace Coins

def leadingZeros (width n : Nat) : Nat := if n = 0 then width else width - 1 - n.log2

/-- Whether the next `count` coins all show heads, if the coins at hand tell. Coins behind the
first tail are kept. -/
def allHeads? (coins : Coins) (count : Nat) : Option (Bool × Coins) :=
  let zeros := leadingZeros 32 coins.chunk.toNat
  if zeros < count then
    some (false, { coins with
      chunk := coins.chunk <<< UInt32.ofNat (zeros + 1)
      remaining := coins.remaining - (zeros + 1) })
  else if count ≤ coins.remaining then
    some (true, { coins with
      chunk := coins.chunk <<< UInt32.ofNat count
      remaining := coins.remaining - count })
  else none

/-- Whether the next `count` coins all show heads, for a count of at most 32: where the coins at
hand are too few, a draw adds enough. -/
def allHeads (coins : Coins) (count : Nat) : Bool × Coins :=
  match coins.allHeads? count with
  | some answer => answer
  | none =>
    let (chunk, source) := coins.source.next32
    let fresh : Coins := ⟨chunk, 32, source⟩
    (fresh.allHeads? (count - coins.remaining)).getD (true, fresh)

/-- True with probability `n / d`, where `n` is at least half of `d`, or grows to be. Every flip
doubles `n`, or leaves what is missing to be decided; a run of `flips` flips which decide nothing
counts as false. -/
def ratio : (flips : Nat) → Coins → (n d : Nat) → Bool × Coins
  | 0, coins, _, _ => (false, coins)
  | flips + 1, coins, n, d =>
    if d ≤ n then (true, coins)
    else
      let count := max 1 (min 32 (leadingZeros 64 n - (leadingZeros 64 d + 1)))
      let (heads, coins) := coins.allHeads count
      if heads then ratio flips coins (n * Nat.pow 2 count) d
      else if count = 1 ∧ d < 2 * n then ratio flips coins (2 * n - d) d
      else (false, coins)

def oneOver (coins : Coins) (d : Nat) : Bool × Coins :=
  let count := d.log2
  let (heads, coins) := coins.allHeads count
  if heads then coins.ratio (Nat.pow 2 16) (Nat.pow 2 count) d else (false, coins)

def chooseFrom {α : Type} (coins : Coins) (k : Nat) (chosen : Option α) :
    List α → Option α × Coins
  | [] => (chosen, coins)
  | item :: rest =>
    let (replaces, coins) := coins.oneOver k
    chooseFrom coins (k + 1) (if replaces then some item else chosen) rest

end Coins

/-- A uniform sample: documented is that each item is as likely as any other, and that none is
answered only of no items. Which draws decide is left open there; here they are made item by item. -/
def Generator.choose {α : Type} (g : Generator) (items : List α) : Option α × Generator :=
  let (chosen, coins) := Coins.chooseFrom ⟨0, 0, g⟩ 1 none items
  (chosen, coins.source)

end ClauseLearning
