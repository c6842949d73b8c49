/-
This file holds the program's curve and fee arithmetic: the three quotes, the
two splits and the fee, each written with the checked operations of the source
in their order, and each followed by the equation its success is equivalent to.
The quotes are thereby connected to the curve arithmetic over naturals.
-/

import Memecoin.State
import Memecoin.Library.ConstantProduct

namespace Memecoin

open Checked ConstantProduct

/-! ### Quotes -/

/-- `tokens_out_for_sol_in`: the tokens that some SOL buys. The new token reserve is floored. -/
def tokensOutForSolIn (virtualSol virtualTokens realSol realTokenReserves solIn : UInt64) :
    Except MemecoinError UInt64 := do
  require (¬ solIn = 0) .zeroBuyAmount
  let x ← okOr (checkedAdd128 virtualSol.toNat realSol.toNat) .mathOverflow
  let y := virtualTokens.toNat
  let k ← okOr (checkedMul128 x y) .mathOverflow
  let newX ← okOr (checkedAdd128 x solIn.toNat) .mathOverflow
  let newY ← okOr (checkedDiv128 k newX) .mathOverflow
  let tokensOut ← okOr (checkedSub128 y newY) .mathUnderflow
  let tokensOutU64 ← okOr (toU64 tokensOut) .mathOverflow
  require (¬ tokensOutU64 > realTokenReserves) .insufficientReserves
  pure tokensOutU64

/-- `sol_in_for_tokens_out`: the SOL that some tokens cost. The new SOL reserve is rounded up. -/
def solInForTokensOut (virtualSol virtualTokens realSol realTokenReserves tokensOut : UInt64) :
    Except MemecoinError UInt64 := do
  require (¬ tokensOut = 0) .zeroBuyAmount
  require (¬ tokensOut > realTokenReserves) .insufficientReserves
  let x ← okOr (checkedAdd128 virtualSol.toNat realSol.toNat) .mathOverflow
  let y := virtualTokens.toNat
  let k ← okOr (checkedMul128 x y) .mathOverflow
  let newY ← okOr (checkedSub128 y tokensOut.toNat) .mathUnderflow
  -- `newX` is the ceiling of `k / newY`
  let roundUp ← okOr (checkedSub128 newY 1) .mathUnderflow
  let dividend ← okOr (checkedAdd128 k roundUp) .mathOverflow
  let newX ← okOr (checkedDiv128 dividend newY) .mathOverflow
  let solIn ← okOr (checkedSub128 newX x) .mathUnderflow
  okOr (toU64 solIn) .mathOverflow

/-- `sol_out_for_tokens_in`: the SOL that some tokens bring, at most what the curve has. The new SOL
reserve is floored. -/
def solOutForTokensIn (virtualSol virtualTokens realSol tokensIn : UInt64) :
    Except MemecoinError UInt64 := do
  require (¬ tokensIn = 0) .zeroSellAmount
  let x ← okOr (checkedAdd128 virtualSol.toNat realSol.toNat) .mathOverflow
  let y := virtualTokens.toNat
  let k ← okOr (checkedMul128 x y) .mathOverflow
  let newY ← okOr (checkedAdd128 y tokensIn.toNat) .mathOverflow
  let newX ← okOr (checkedDiv128 k newY) .mathOverflow
  let solOut ← okOr (checkedSub128 x newX) .mathUnderflow
  let solOutU64 ← okOr (toU64 solOut) .mathOverflow
  pure (min solOutU64 realSol)

theorem toNat_pos_iff {amount : UInt64} : ¬ amount = 0 ↔ 0 < amount.toNat := by
  rw [← UInt64.toNat_inj, UInt64.toNat_zero, Nat.pos_iff_ne_zero]

/-- The sum of two words is a 128-bit intermediate. -/
theorem add_lt_u128 (first second : UInt64) : first.toNat + second.toNat < 2 ^ 128 := by
  have firstBound := first.toNat_lt
  have secondBound := second.toNat_lt
  omega

theorem solInForTokensOut_eq_ok {virtualSol virtualTokens realSol realTokenReserves tokensOut
    solIn : UInt64} :
    solInForTokensOut virtualSol virtualTokens realSol realTokenReserves tokensOut = .ok solIn ↔
      0 < tokensOut.toNat ∧ tokensOut.toNat ≤ realTokenReserves.toNat ∧
        tokensOut.toNat < virtualTokens.toNat ∧
        (virtualSol.toNat + realSol.toNat) * virtualTokens.toNat +
          (virtualTokens.toNat - tokensOut.toNat - 1) < 2 ^ 128 ∧
        solIn.toNat = cost (virtualSol.toNat + realSol.toNat) virtualTokens.toNat
          tokensOut.toNat := by
  simp only [solInForTokensOut, bind_eq_ok, require_eq_ok, okOr_eq_ok, checkedAdd128_eq_some,
    checkedMul128_eq_some, checkedSub128_eq_some, checkedDiv128_eq_some, toU64_eq_some,
    exists_and_left, exists_const, toNat_pos_iff, add_lt_u128, true_and, gt_iff_lt,
    UInt64.not_lt, UInt64.le_iff_toNat_le]
  constructor
  · rintro ⟨positive, available, _, rfl, _, ⟨_, rfl⟩, _, ⟨_, rfl⟩, _, ⟨room, rfl⟩, _, ⟨fits, rfl⟩,
      _, ⟨_, rfl⟩, _, ⟨_, rfl⟩, quoted⟩
    exact ⟨positive, available, by omega, fits, quoted⟩
  · rintro ⟨positive, available, room, fits, quoted⟩
    exact ⟨positive, available, _, rfl, _, ⟨by omega, rfl⟩, _, ⟨room.le, rfl⟩, _,
      ⟨Nat.sub_pos_of_lt room, rfl⟩, _, ⟨fits, rfl⟩, _, ⟨(Nat.sub_pos_of_lt room).ne', rfl⟩, _,
      ⟨le_ceiling _ _ _ room, rfl⟩, quoted⟩

theorem solOutForTokensIn_eq_ok {virtualSol virtualTokens realSol tokensIn solOut : UInt64} :
    solOutForTokensIn virtualSol virtualTokens realSol tokensIn = .ok solOut ↔
      0 < tokensIn.toNat ∧
        (virtualSol.toNat + realSol.toNat) * virtualTokens.toNat < 2 ^ 128 ∧
        proceeds (virtualSol.toNat + realSol.toNat) virtualTokens.toNat tokensIn.toNat < 2 ^ 64 ∧
        solOut.toNat = cappedProceeds (virtualSol.toNat + realSol.toNat) virtualTokens.toNat
          tokensIn.toNat realSol.toNat := by
  simp only [solOutForTokensIn, bind_eq_ok, pure_eq_ok, require_eq_ok, okOr_eq_ok,
    checkedAdd128_eq_some, checkedMul128_eq_some, checkedSub128_eq_some, checkedDiv128_eq_some,
    toU64_eq_some, exists_and_left, exists_const, toNat_pos_iff, add_lt_u128, true_and]
  constructor
  · rintro ⟨positive, _, rfl, _, ⟨fits, rfl⟩, _, rfl, _, ⟨_, rfl⟩, _, ⟨_, rfl⟩, word, quoted, rfl⟩
    refine ⟨positive, fits, ?_, ?_⟩
    · rw [proceeds, ← quoted]
      exact word.toNat_lt
    · rw [UInt64.toNat_min, quoted]
      rfl
  · rintro ⟨positive, fits, small, quoted⟩
    obtain ⟨word, value⟩ := exists_toNat_eq small
    refine ⟨positive, _, rfl, _, ⟨fits, rfl⟩, _, rfl, _, ⟨by omega, rfl⟩, _, ⟨floor_le _ _ _, rfl⟩,
      word, value, ?_⟩
    rw [← UInt64.toNat_inj, UInt64.toNat_min, quoted, value]
    rfl

/-- A positive sale is quoted whenever the product fits its 128-bit intermediate. -/
theorem solOutForTokensIn_total {virtualSol virtualTokens realSol tokensIn : UInt64}
    (positive : 0 < tokensIn.toNat)
    (word : virtualSol.toNat + realSol.toNat < 2 ^ 64)
    (product : (virtualSol.toNat + realSol.toNat) * virtualTokens.toNat < 2 ^ 128) :
    ∃ solOut, solOutForTokensIn virtualSol virtualTokens realSol tokensIn = .ok solOut := by
  have small := proceeds_le (virtualSol.toNat + realSol.toNat) virtualTokens.toNat tokensIn.toNat
  have capped : cappedProceeds (virtualSol.toNat + realSol.toNat) virtualTokens.toNat
      tokensIn.toNat realSol.toNat < 2 ^ 64 :=
    lt_of_le_of_lt (Nat.min_le_right _ _) realSol.toNat_lt
  obtain ⟨solOut, value⟩ := exists_toNat_eq capped
  exact ⟨solOut, solOutForTokensIn_eq_ok.mpr
    ⟨positive, product, lt_of_le_of_lt small word, value⟩⟩

/-! ### Fees -/

/-- The fee expression of `buy`, `sell` and `apply_fee`. -/
def feeOf (amount : UInt64) (feeBps : UInt16) : Except MemecoinError UInt64 := do
  let product ← okOr (checkedMul128 amount.toNat feeBps.toNat) .mathOverflow
  okOr (toU64 (product / 10_000)) .mathOverflow

/-- Returns the fee and the net amount. -/
def applyFee (amount : UInt64) (feeBps : UInt16) : Except MemecoinError (UInt64 × UInt64) := do
  let fee ← feeOf amount feeBps
  let net ← okOr (checkedSub amount fee) .mathUnderflow
  pure (fee, net)

/-- The shares of a trade fee. -/
structure ThreeWaySplit where
  creator : UInt64
  dino : UInt64
  treasury : UInt64

/-- The treasury share is the remainder; the treasury split is never read. -/
def splitThreeWay (amount : UInt64) (creatorBps dinoBps _treasuryBps : UInt16) :
    Except MemecoinError ThreeWaySplit := do
  let creator ← okOr (checkedMul128 amount.toNat creatorBps.toNat) .mathOverflow
  let dino ← okOr (checkedMul128 amount.toNat dinoBps.toNat) .mathOverflow
  let creatorU64 ← okOr (toU64 (creator / 10_000)) .mathOverflow
  let dinoU64 ← okOr (toU64 (dino / 10_000)) .mathOverflow
  let rest ← okOr (checkedSub amount creatorU64) .mathUnderflow
  let treasuryU64 ← okOr (checkedSub rest dinoU64) .mathUnderflow
  pure { creator := creatorU64, dino := dinoU64, treasury := treasuryU64 }

/-- The shares of a creation or graduation fee. -/
structure TwoWaySplit where
  dino : UInt64
  treasury : UInt64

/-- The treasury share is the remainder. -/
def splitTwoWay (amount : UInt64) (dinoBps : UInt16) : Except MemecoinError TwoWaySplit := do
  let dino ← okOr (checkedMul128 amount.toNat dinoBps.toNat) .mathOverflow
  let dinoU64 ← okOr (toU64 (dino / 10_000)) .mathOverflow
  let treasury ← okOr (checkedSub amount dinoU64) .mathUnderflow
  pure { dino := dinoU64, treasury := treasury }

/-- A word times a basis-point value is a 128-bit intermediate. -/
theorem mul_bps_lt_u128 (amount : UInt64) (bps : UInt16) :
    amount.toNat * bps.toNat < 2 ^ 128 :=
  calc amount.toNat * bps.toNat < 2 ^ 64 * 2 ^ 16 :=
        Nat.mul_lt_mul_of_lt_of_le amount.toNat_lt bps.toNat_lt.le (by decide)
    _ ≤ 2 ^ 128 := by decide

theorem feeOf_eq_ok {amount fee : UInt64} {feeBps : UInt16} :
    feeOf amount feeBps = .ok fee ↔ fee.toNat = amount.toNat * feeBps.toNat / 10_000 := by
  simp only [feeOf, bind_eq_ok, okOr_eq_ok, checkedMul128_eq_some, toU64_eq_some,
    mul_bps_lt_u128, true_and, exists_eq_left']

/-- A part of a word, in basis points of at most the whole. -/
theorem bps_le (amount : UInt64) {bps : ℕ} (part : bps ≤ 10_000) :
    amount.toNat * bps / 10_000 ≤ amount.toNat :=
  Nat.div_le_of_le_mul (by
    rw [Nat.mul_comm]
    exact Nat.mul_le_mul_right _ part)

theorem feeOf_total (amount : UInt64) {feeBps : UInt16} (part : feeBps.toNat ≤ 10_000) :
    ∃ fee, feeOf amount feeBps = .ok fee := by
  obtain ⟨fee, value⟩ := exists_toNat_eq (lt_of_le_of_lt (bps_le amount part) amount.toNat_lt)
  exact ⟨fee, feeOf_eq_ok.mpr value⟩

theorem applyFee_eq_ok {amount fee net : UInt64} {feeBps : UInt16} :
    applyFee amount feeBps = .ok (fee, net) ↔
      fee.toNat = amount.toNat * feeBps.toNat / 10_000 ∧ net.toNat + fee.toNat = amount.toNat := by
  simp only [applyFee, bind_eq_ok, pure_eq_ok, okOr_eq_ok, feeOf_eq_ok, checkedSub_eq_some,
    Prod.mk.injEq]
  constructor
  · rintro ⟨_, charged, _, rest, rfl, rfl⟩
    exact ⟨charged, rest⟩
  · rintro ⟨charged, rest⟩
    exact ⟨fee, charged, net, rest, rfl, rfl⟩

theorem splitThreeWay_eq_ok {amount : UInt64} {creatorBps dinoBps treasuryBps : UInt16}
    {shares : ThreeWaySplit} :
    splitThreeWay amount creatorBps dinoBps treasuryBps = .ok shares ↔
      shares.creator.toNat = amount.toNat * creatorBps.toNat / 10_000 ∧
        shares.dino.toNat = amount.toNat * dinoBps.toNat / 10_000 ∧
        shares.creator.toNat + shares.dino.toNat + shares.treasury.toNat = amount.toNat := by
  simp only [splitThreeWay, bind_eq_ok, pure_eq_ok, okOr_eq_ok, checkedMul128_eq_some,
    toU64_eq_some, checkedSub_eq_some, mul_bps_lt_u128, true_and, exists_eq_left']
  constructor
  · rintro ⟨creator, creatorShare, dino, dinoShare, rest, first, treasury, second, rfl⟩
    refine ⟨creatorShare, dinoShare, ?_⟩
    show creator.toNat + dino.toNat + treasury.toNat = amount.toNat
    omega
  · rintro ⟨creatorShare, dinoShare, total⟩
    obtain ⟨rest, value⟩ : ∃ rest : UInt64,
        rest.toNat = shares.dino.toNat + shares.treasury.toNat :=
      exists_toNat_eq (by have bound := amount.toNat_lt; omega)
    exact ⟨_, creatorShare, _, dinoShare, rest, by omega, _, by omega, rfl⟩

/-- Shares of at most the whole leave a treasury share. -/
theorem splitThreeWay_total (amount : UInt64) {creatorBps dinoBps treasuryBps : UInt16}
    (parts : creatorBps.toNat + dinoBps.toNat ≤ 10_000) :
    ∃ shares, splitThreeWay amount creatorBps dinoBps treasuryBps = .ok shares := by
  have both : amount.toNat * creatorBps.toNat / 10_000 + amount.toNat * dinoBps.toNat / 10_000 ≤
      amount.toNat :=
    calc amount.toNat * creatorBps.toNat / 10_000 + amount.toNat * dinoBps.toNat / 10_000 ≤
          (amount.toNat * creatorBps.toNat + amount.toNat * dinoBps.toNat) / 10_000 :=
            Nat.div_add_div_le_add_div
      _ = amount.toNat * (creatorBps.toNat + dinoBps.toNat) / 10_000 := by rw [Nat.mul_add]
      _ ≤ amount.toNat := bps_le amount parts
  have word := amount.toNat_lt
  obtain ⟨creator, creatorShare⟩ : ∃ creator : UInt64,
      creator.toNat = amount.toNat * creatorBps.toNat / 10_000 := exists_toNat_eq (by omega)
  obtain ⟨dino, dinoShare⟩ : ∃ dino : UInt64,
      dino.toNat = amount.toNat * dinoBps.toNat / 10_000 := exists_toNat_eq (by omega)
  obtain ⟨treasury, rest⟩ : ∃ treasury : UInt64,
      treasury.toNat = amount.toNat - creator.toNat - dino.toNat := exists_toNat_eq (by omega)
  refine ⟨⟨creator, dino, treasury⟩, splitThreeWay_eq_ok.mpr ⟨creatorShare, dinoShare, ?_⟩⟩
  show creator.toNat + dino.toNat + treasury.toNat = amount.toNat
  omega

theorem splitTwoWay_eq_ok {amount : UInt64} {dinoBps : UInt16} {shares : TwoWaySplit} :
    splitTwoWay amount dinoBps = .ok shares ↔
      shares.dino.toNat = amount.toNat * dinoBps.toNat / 10_000 ∧
        shares.dino.toNat + shares.treasury.toNat = amount.toNat := by
  simp only [splitTwoWay, bind_eq_ok, pure_eq_ok, okOr_eq_ok, checkedMul128_eq_some,
    toU64_eq_some, checkedSub_eq_some, mul_bps_lt_u128, true_and, exists_eq_left']
  constructor
  · rintro ⟨dino, dinoShare, treasury, total, rfl⟩
    exact ⟨dinoShare, (Nat.add_comm _ _).trans total⟩
  · rintro ⟨dinoShare, total⟩
    exact ⟨_, dinoShare, _, by omega, rfl⟩

theorem splitTwoWay_total (amount : UInt64) {dinoBps : UInt16} (part : dinoBps.toNat ≤ 10_000) :
    ∃ shares, splitTwoWay amount dinoBps = .ok shares := by
  have small := bps_le amount part
  have word := amount.toNat_lt
  obtain ⟨dino, dinoShare⟩ : ∃ dino : UInt64,
      dino.toNat = amount.toNat * dinoBps.toNat / 10_000 := exists_toNat_eq (by omega)
  obtain ⟨treasury, rest⟩ : ∃ treasury : UInt64,
      treasury.toNat = amount.toNat - dino.toNat := exists_toNat_eq (by omega)
  refine ⟨⟨dino, treasury⟩, splitTwoWay_eq_ok.mpr ⟨dinoShare, ?_⟩⟩
  show dino.toNat + treasury.toNat = amount.toNat
  omega

end Memecoin
