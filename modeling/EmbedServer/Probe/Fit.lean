import EmbedServer.Binpack
import Mathlib.Algebra.Order.Field.Rat

/-!
# Least-squares fit of the cost model (`probe/fit.rs`)

Floats are exact rationals here.
-/

namespace EmbedServer

structure DataPoint where
  batch : Nat
  seq : Nat
  rssDelta : Nat
deriving DecidableEq, Repr

namespace DataPoint

/-- `batch * seq` -/
def x1 (dp : DataPoint) : Rat := (dp.batch * dp.seq : Nat)

/-- `batch * seq * seq` -/
def x2 (dp : DataPoint) : Rat := (dp.batch * dp.seq * dp.seq : Nat)

end DataPoint

/-- the Gram matrix and the right-hand side, in normalised columns -/
structure Gram where
  g11 : Rat
  g12 : Rat
  g22 : Rat
  gy1 : Rat
  gy2 : Rat

def Gram.push (x1Max x2Max : Rat) (g : Gram) (dp : DataPoint) : Gram :=
  let n1 := dp.x1 / x1Max
  let n2 := dp.x2 / x2Max
  let y : Rat := dp.rssDelta
  ⟨g.g11 + n1 * n1, g.g12 + n1 * n2, g.g22 + n2 * n2, g.gy1 + n1 * y, g.gy2 + n2 * y⟩

/-- `f64::clamp` -/
def clampRat (x lo hi : Rat) : Rat := min (max x lo) hi

def fitCostModel (data : List DataPoint) : Option (Rat × Rat) :=
  if data.length < 2 then none
  else
    let x1Max := data.foldl (fun m dp => max m dp.x1) 0
    let x2Max := data.foldl (fun m dp => max m dp.x2) 0
    if x1Max = 0 ∨ x2Max = 0 then none
    else
      let g := data.foldl (Gram.push x1Max x2Max) ⟨0, 0, 0, 0, 0⟩
      let det := g.g11 * g.g22 - g.g12 * g.g12
      let maxDiagSq := max g.g11 g.g22 ^ 2
      if |det| < 1 / 1000000 * maxDiagSq then none
      else
        let alpha := (g.g22 * g.gy1 - g.g12 * g.gy2) / det
        let beta := (g.g11 * g.gy2 - g.g12 * g.gy1) / det
        let aRaw := alpha / x1Max
        let bRaw := beta / x2Max
        if bRaw < 0 then none
        else some (clampRat (max aRaw 0) 4096 262144, clampRat bRaw (1 / 100) 50000)

end EmbedServer
