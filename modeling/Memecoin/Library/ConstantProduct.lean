/-
This file develops the integer arithmetic of a constant-product curve with
reserves `x` and `y`. Buying `d` of the second asset charges the first asset
rounded up: the reserve becomes the ceiling of `x * y / (y - d)`. Selling `d`
pays `x` minus the floor of `x * y / (y + d)`, which rounds the payment up as
well, so that the product can fall, by less than the new `y`. A cap on the
payment only ever raises the product. A quote without its division is a bound on
a price: from that follow minimality, monotonicity, the round trip of a buy, the
amounts that hit a given charge, and what it costs to buy in parts. Every
statement is over all naturals.
-/

import Mathlib.Data.Nat.Notation
import Mathlib.Tactic.Common
import Mathlib.Tactic.Ring
import Mathlib.Tactic.Linarith

namespace ConstantProduct

/-! ### Quotes -/

/-- What buying `d` charges: the ceiling of `x * y / (y - d)`, minus `x`. -/
def cost (x y d : ℕ) : ℕ := (x * y + (y - d - 1)) / (y - d) - x

/-- What selling `d` pays: `x` minus the floor of `x * y / (y + d)`. -/
def proceeds (x y d : ℕ) : ℕ := x - x * y / (y + d)

/-- What selling `d` pays when at most `cap` can be paid. -/
def cappedProceeds (x y d cap : ℕ) : ℕ := min (proceeds x y d) cap

/-- The payments for `d` units that do not lower the product. -/
def payments (x y d : ℕ) : Set ℕ := {s | x * y ≤ (x + s) * (y - d)}

/-! ### Buying -/

/-- The ceiling is never below the reserve it replaces. -/
theorem le_ceiling (x y d : ℕ) (room : d < y) : x ≤ (x * y + (y - d - 1)) / (y - d) := by
  rw [Nat.le_div_iff_mul_le (Nat.sub_pos_of_lt room)]
  exact (Nat.mul_le_mul_left x (Nat.sub_le y d)).trans (Nat.le_add_right _ _)

/-- The reserve after a buy is the ceiling. -/
theorem add_cost (x y d : ℕ) (room : d < y) :
    x + cost x y d = (x * y + (y - d - 1)) / (y - d) :=
  Nat.add_sub_cancel' (le_ceiling x y d room)

/-- A buy never lowers the product. -/
theorem product_le_buy (x y d : ℕ) (room : d < y) : x * y ≤ (x + cost x y d) * (y - d) := by
  rw [add_cost x y d room]
  have positive : 0 < y - d := Nat.sub_pos_of_lt room
  have above := Nat.lt_div_mul_add (a := x * y + (y - d - 1)) positive
  omega

/-- A buy raises the product by less than the remaining reserve. -/
theorem buy_product_lt (x y d : ℕ) (room : d < y) :
    (x + cost x y d) * (y - d) < x * y + (y - d) := by
  rw [add_cost x y d room]
  have positive : 0 < y - d := Nat.sub_pos_of_lt room
  have below := Nat.div_mul_le_self (x * y + (y - d - 1)) (y - d)
  omega

/-- A payment is enough exactly when it covers the price `x * d / (y - d)`. -/
theorem cost_le_iff {x y d s : ℕ} (room : d < y) : cost x y d ≤ s ↔ x * d ≤ s * (y - d) := by
  have positive : 0 < y - d := Nat.sub_pos_of_lt room
  have split : x * y = x * (y - d) + x * d := by
    rw [← Nat.mul_add, Nat.sub_add_cancel room.le]
  rw [cost, Nat.sub_le_iff_le_add, ← Nat.lt_succ_iff, Nat.div_lt_iff_lt_mul positive, Nat.succ_mul,
    Nat.add_mul]
  omega

/-- The charge is the least payment that does not lower the product. -/
theorem cost_isLeast {x y d : ℕ} (room : d < y) :
    IsLeast (payments x y d) (cost x y d) := by
  refine ⟨product_le_buy x y d room, fun s sufficient => (cost_le_iff room).mpr ?_⟩
  have split : x * y = x * (y - d) + x * d := by
    rw [← Nat.mul_add, Nat.sub_add_cancel room.le]
  have sufficient : x * y ≤ (x + s) * (y - d) := sufficient
  rw [split, Nat.add_mul] at sufficient
  exact Nat.le_of_add_le_add_left sufficient

/-- The charge grows with the first reserve and falls with the second. -/
theorem cost_mono {x x' y y' d : ℕ} (first : x ≤ x') (second : y' ≤ y) (room : d < y') :
    cost x y d ≤ cost x' y' d := by
  rw [cost_le_iff (room.trans_le second)]
  calc x * d ≤ x' * d := Nat.mul_le_mul_right d first
    _ ≤ cost x' y' d * (y' - d) := (cost_le_iff room).mp le_rfl
    _ ≤ cost x' y' d * (y - d) := Nat.mul_le_mul_left _ (Nat.sub_le_sub_right second d)

theorem cost_mono_amount {x y d d' : ℕ} (order : d ≤ d') (room : d' < y) :
    cost x y d ≤ cost x y d' := by
  rw [cost_le_iff (lt_of_le_of_lt order room)]
  calc x * d ≤ x * d' := Nat.mul_le_mul_left x order
    _ ≤ cost x y d' * (y - d') := (cost_le_iff room).mp le_rfl
    _ ≤ cost x y d' * (y - d) := Nat.mul_le_mul_left _ (Nat.sub_le_sub_left order y)

/-- One more unit charges at most one more, where the remaining reserve outweighs the product. -/
theorem cost_succ_le {x y d : ℕ} (room : d + 1 < y) (deep : x * y ≤ (y - d) * (y - (d + 1))) :
    cost x y (d + 1) ≤ cost x y d + 1 := by
  obtain ⟨rest, rfl⟩ : ∃ rest, y = d + 1 + rest := Nat.exists_eq_add_of_le room.le
  have covered : x * d ≤ cost x (d + 1 + rest) d * (d + 1 + rest - d) :=
    (cost_le_iff (Nat.lt_of_succ_lt room)).mp le_rfl
  rw [cost_le_iff room]
  rw [Nat.add_sub_cancel_left, show d + 1 + rest - d = rest + 1 by omega] at *
  -- the inequality, multiplied by the larger of the two remaining reserves
  refine Nat.le_of_mul_le_mul_right ?_ (Nat.succ_pos rest)
  nlinarith only [Nat.mul_le_mul_right rest covered, deep]

/-- Reserves whose product has not fallen by more than `n` per unit of the second have been paid the
charge, up to `n`. -/
theorem add_cost_le {x x' y d n : ℕ} (room : d < y) (product : x * y ≤ (x' + n) * (y - d)) :
    x + cost x y d ≤ x' + n := by
  have positive : 0 < y - d := Nat.sub_pos_of_lt room
  have grown : x ≤ x' + n := Nat.le_of_mul_le_mul_right
    ((Nat.mul_le_mul_left x (Nat.sub_le y d)).trans product) positive
  have sufficient : x' + n - x ∈ payments x y d := by
    show x * y ≤ (x + (x' + n - x)) * (y - d)
    rwa [Nat.add_sub_of_le grown]
  have least := (cost_isLeast room).2 sufficient
  omega

theorem cost_zero {x y : ℕ} (reserve : 0 < y) : cost x y 0 = 0 := by
  rw [← Nat.le_zero, cost_le_iff reserve, Nat.mul_zero]
  exact Nat.zero_le _

/-- A function that grows by at most one at each step takes every value on its way. -/
theorem exists_eq_of_step {f : ℕ → ℕ} {target n : ℕ} (start : f 0 ≤ target) (final : target ≤ f n)
    (step : ∀ d, d < n → f (d + 1) ≤ f d + 1) : ∃ d, d ≤ n ∧ f d = target := by
  induction n with
  | zero => exact ⟨0, le_rfl, start.antisymm final⟩
  | succ n inductionHypothesis =>
    rcases Nat.lt_or_ge (f n) target with below | reached
    · have last := step n (Nat.lt_succ_self n)
      exact ⟨n + 1, le_rfl, by omega⟩
    · obtain ⟨d, bound, value⟩ :=
        inductionHypothesis reached fun d bound => step d (bound.trans (Nat.lt_succ_self n))
      exact ⟨d, bound.trans (Nat.le_succ n), value⟩

/-- Every charge up to that of `n` units is the charge of some amount up to `n`. -/
theorem exists_cost_eq {x y n target : ℕ} (room : n < y) (deep : x * y ≤ (y - n) * (y - n))
    (reached : target ≤ cost x y n) : ∃ d, d ≤ n ∧ cost x y d = target := by
  refine exists_eq_of_step ?_ reached fun d bound => cost_succ_le (by omega) (deep.trans ?_)
  · rw [cost_zero (by omega)]
    exact Nat.zero_le _
  · exact Nat.mul_le_mul (by omega) (by omega)

/-! ### Selling -/

theorem floor_le (x y d : ℕ) : x * y / (y + d) ≤ x :=
  Nat.div_le_of_le_mul (by
    rw [Nat.mul_comm]
    exact Nat.mul_le_mul_right x (Nat.le_add_right y d))

theorem proceeds_le (x y d : ℕ) : proceeds x y d ≤ x := Nat.sub_le _ _

/-- A payout is at most `s` exactly when `s` covers the price `x * d / (y + d)`. -/
theorem proceeds_le_iff {x y d s : ℕ} (reserve : 0 < y + d) :
    proceeds x y d ≤ s ↔ x * d ≤ s * (y + d) := by
  have split : x * (y + d) = x * y + x * d := Nat.mul_add x y d
  have swap (floor : ℕ) : x - floor ≤ s ↔ x - s ≤ floor := by omega
  rw [proceeds, swap, Nat.le_div_iff_mul_le reserve, Nat.sub_mul, split]
  omega

/-- Reserves whose product has not fallen by more than `n` per unit of the second have paid no more
than the payout, up to `n`. -/
theorem le_add_proceeds {x x' y d n : ℕ} (product : x * y ≤ (x' + n) * (y + d)) :
    x ≤ x' + n + proceeds x y d := by
  have floor : x * y / (y + d) ≤ x' + n := Nat.div_le_of_le_mul (by rwa [Nat.mul_comm (y + d)])
  rw [proceeds]
  omega

/-- The payout grows with the first reserve and falls with the second. -/
theorem proceeds_mono {x x' y y' d : ℕ} (first : x ≤ x') (second : y' ≤ y) (sold : 0 < d) :
    proceeds x y d ≤ proceeds x' y' d := by
  have reserve : 0 < y' + d := Nat.add_pos_right y' sold
  rw [proceeds_le_iff (Nat.add_pos_right y sold)]
  calc x * d ≤ x' * d := Nat.mul_le_mul_right d first
    _ ≤ proceeds x' y' d * (y' + d) := (proceeds_le_iff reserve).mp le_rfl
    _ ≤ proceeds x' y' d * (y + d) := Nat.mul_le_mul_left _ (Nat.add_le_add_right second d)

theorem cappedProceeds_mono {x x' y y' d cap cap' : ℕ} (first : x ≤ x') (second : y' ≤ y)
    (sold : 0 < d) (caps : cap ≤ cap') : cappedProceeds x y d cap ≤ cappedProceeds x' y' d cap' :=
  min_le_min (proceeds_mono first second sold) caps

/-- Selling pays at most what buying the same amount charges. -/
theorem proceeds_le_cost {x y d : ℕ} (room : d < y) : proceeds x y d ≤ cost x y d := by
  rw [proceeds_le_iff (Nat.add_pos_left (Nat.zero_lt_of_lt room) d)]
  calc x * d ≤ cost x y d * (y - d) := (cost_le_iff room).mp le_rfl
    _ ≤ cost x y d * (y + d) := Nat.mul_le_mul_left _ ((Nat.sub_le y d).trans (Nat.le_add_right y d))

/-- Selling what was just bought pays exactly what it charged: the ceiling of the purchase and the
floor of the sale cancel. -/
theorem proceeds_cost {x y d : ℕ} (room : d < y) :
    proceeds (x + cost x y d) (y - d) d = cost x y d := by
  have floor : (x + cost x y d) * (y - d) / (y - d + d) = x := by
    rw [Nat.sub_add_cancel room.le]
    refine Nat.div_eq_of_lt_le (product_le_buy x y d room) ?_
    calc (x + cost x y d) * (y - d) < x * y + (y - d) := buy_product_lt x y d room
      _ ≤ x * y + y := Nat.add_le_add_left (Nat.sub_le y d) _
      _ = (x + 1) * y := (Nat.succ_mul x y).symm
  rw [proceeds, floor, Nat.add_sub_cancel_left]

/-- An uncapped sale pays at least the exact price `x * d / (y + d)`. -/
theorem mul_le_proceeds (x y d : ℕ) : x * d ≤ proceeds x y d * (y + d) := by
  have below := Nat.div_mul_le_self (x * y) (y + d)
  rw [proceeds, Nat.sub_mul, Nat.mul_add]
  omega

/-- The cap does not bind while the curve keeps what the cap leaves. -/
theorem cappedProceeds_of_lt (x y d cap : ℕ) (large : (x - cap) * (y + d) < x * y) :
    cappedProceeds x y d cap = proceeds x y d := by
  have positive : 0 < y + d := by
    by_contra empty
    have zero : y = 0 := by omega
    rw [zero, Nat.mul_zero] at large
    exact absurd large (Nat.not_lt_zero _)
  have quotient : x - cap ≤ x * y / (y + d) := (Nat.le_div_iff_mul_le positive).mpr large.le
  rw [cappedProceeds, proceeds]
  omega

/-- The reserve after a capped sale is the floor, or what the cap leaves. -/
theorem sub_cappedProceeds (x y d cap : ℕ) :
    x - cappedProceeds x y d cap = max (x * y / (y + d)) (x - cap) := by
  have below := floor_le x y d
  rw [cappedProceeds, proceeds]
  omega

/-- A sale lowers the product by less than the new reserve. -/
theorem product_lt_sell (x y d cap : ℕ) (reserve : 0 < y + d) :
    x * y < (x - cappedProceeds x y d cap) * (y + d) + (y + d) := by
  rw [sub_cappedProceeds]
  calc x * y < x * y / (y + d) * (y + d) + (y + d) := Nat.lt_div_mul_add reserve
    _ ≤ max (x * y / (y + d)) (x - cap) * (y + d) + (y + d) :=
      Nat.add_le_add_right (Nat.mul_le_mul_right _ (Nat.le_max_left _ _)) _

/-- The sales that do not lower the product are exactly those whose division is even and those
whose payment the cap bounds at the curve's price or below. -/
theorem product_le_sell_iff (x y d cap : ℕ) :
    x * y ≤ (x - cappedProceeds x y d cap) * (y + d) ↔
      (y + d) ∣ x * y ∨ x * y ≤ (x - cap) * (y + d) := by
  rw [sub_cappedProceeds, ← Nat.mul_max_mul_right, le_max_iff]
  refine or_congr_left ⟨fun even => ?_, fun even => (Nat.div_mul_cancel even).ge⟩
  exact Dvd.intro_left _ ((Nat.div_mul_le_self _ _).antisymm even)

/-- A sale leaves a product within the old one and what the cap leaves. -/
theorem sell_product_le_max (x y d cap : ℕ) :
    (x - cappedProceeds x y d cap) * (y + d) ≤ max (x * y) ((x - cap) * (y + d)) := by
  rw [sub_cappedProceeds, ← Nat.mul_max_mul_right]
  exact max_le_max_right _ (Nat.div_mul_le_self _ _)

/-! ### The purchase that a payment buys -/

/-- What paying `s` buys: `y` minus the floor of `x * y / (x + s)`. -/
def purchase (x y s : ℕ) : ℕ := y - x * y / (x + s)

/-- A purchase reaches `t` units exactly when the payment exceeds the price of `t - 1`: the floor
inside rounds the purchase up. -/
theorem le_purchase_iff {x y s t : ℕ} (reserve : 0 < x + s) (positive : 0 < t) :
    t ≤ purchase x y s ↔ (t - 1) * (x + s) < y * s := by
  have bound : purchase x y s ≤ t - 1 ↔ y * s ≤ (t - 1) * (x + s) := by
    rw [purchase, Nat.mul_comm x y]
    exact proceeds_le_iff reserve
  rw [← not_iff_not, not_lt, ← bound]
  omega

/-- A payment covers the charge of `t` units exactly when it covers their price. -/
theorem cost_le_iff_mul {x y s t : ℕ} (room : t < y) :
    cost x y t ≤ s ↔ t * (x + s) ≤ y * s := by
  have split : y * s = s * (y - t) + s * t := by
    rw [← Nat.mul_add, Nat.sub_add_cancel room.le, Nat.mul_comm]
  rw [cost_le_iff room, split, Nat.mul_add, Nat.mul_comm t x, Nat.mul_comm t s]
  omega

/-- The charge and the purchase agree on the pair of a payment and an amount, except where the
amount is the rounding up of the exact purchase `y * s / (x + s)`. -/
theorem cost_purchase_iff {x y s t : ℕ} (room : t < y) (paid : 0 < s) (positive : 0 < t) :
    (cost x y t ≤ s ↔ t ≤ purchase x y s) ↔
      t * (x + s) ≤ y * s ∨ y * s ≤ (t - 1) * (x + s) := by
  have reserve : 0 < x + s := Nat.add_pos_right x paid
  have fewer : (t - 1) * (x + s) < t * (x + s) :=
    Nat.mul_lt_mul_of_pos_right (Nat.sub_one_lt_of_lt positive) reserve
  rw [cost_le_iff_mul room, le_purchase_iff reserve positive]
  constructor
  · intro agree
    by_cases covered : t * (x + s) ≤ y * s
    · exact .inl covered
    · exact .inr (not_lt.mp (mt agree.mpr covered))
  · rintro (covered | large)
    · exact ⟨fun _ => fewer.trans_le covered, fun _ => covered⟩
    · exact ⟨fun covered => fewer.trans_le covered, fun short => absurd large (not_le.mpr short)⟩

/-! ### Orders in parts -/

/-- What buying the amounts one after the other charges in total. -/
def totalCost (x y : ℕ) : List ℕ → ℕ
  | [] => 0
  | d :: rest => cost x y d + totalCost (x + cost x y d) (y - d) rest

/-- Buying in parts never lowers the product. -/
theorem product_le_totalCost {x y : ℕ} {amounts : List ℕ} (room : amounts.sum < y) :
    x * y ≤ (x + totalCost x y amounts) * (y - amounts.sum) := by
  induction amounts generalizing x y with
  | nil => exact le_rfl
  | cons d rest inductionHypothesis =>
    rw [List.sum_cons] at room
    have first := product_le_buy x y d (by omega)
    have later := inductionHypothesis (x := x + cost x y d) (y := y - d) (by omega)
    rw [totalCost, List.sum_cons, ← Nat.add_assoc, ← Nat.sub_sub]
    exact first.trans later

/-- Each part raises the product by less than the reserve before the order. -/
theorem totalCost_product_le {x y : ℕ} {amounts : List ℕ} (room : amounts.sum < y) :
    (x + totalCost x y amounts) * (y - amounts.sum) ≤ x * y + amounts.length * y := by
  induction amounts generalizing x y with
  | nil => exact Nat.le_add_right _ _
  | cons d rest inductionHypothesis =>
    rw [List.sum_cons] at room
    have first := buy_product_lt x y d (by omega)
    have later := inductionHypothesis (x := x + cost x y d) (y := y - d) (by omega)
    have shrunk : rest.length * (y - d) ≤ rest.length * y := Nat.mul_le_mul_left _ (Nat.sub_le y d)
    rw [totalCost, List.sum_cons, List.length_cons, ← Nat.add_assoc, ← Nat.sub_sub, Nat.succ_mul]
    omega

/-- In parts, an order charges at least as much as at once. -/
theorem cost_le_totalCost {x y : ℕ} {amounts : List ℕ} (room : amounts.sum < y) :
    cost x y amounts.sum ≤ totalCost x y amounts :=
  (cost_isLeast room).2 (product_le_totalCost room)

/-- Where no order takes more than a part of the reserve, it charges less than that many units of
the first asset more for each of its parts. -/
theorem totalCost_lt {x y ratio : ℕ} {amounts : List ℕ} (room : amounts.sum < y)
    (ordered : amounts ≠ []) (deep : y < ratio * (y - amounts.sum)) :
    totalCost x y amounts < cost x y amounts.sum + ratio * amounts.length := by
  have positive : 0 < amounts.length := List.length_pos_iff.mpr ordered
  have whole := product_le_buy x y amounts.sum room
  have parts := totalCost_product_le (x := x) room
  refine Nat.lt_of_mul_lt_mul_right (a := y - amounts.sum) ?_
  have spread : amounts.length * y < amounts.length * (ratio * (y - amounts.sum)) :=
    Nat.mul_lt_mul_of_pos_left deep positive
  rw [Nat.add_mul] at whole parts ⊢
  rw [show ratio * amounts.length * (y - amounts.sum) =
    amounts.length * (ratio * (y - amounts.sum)) by ring]
  omega

end ConstantProduct
