/-
This file is about the two quotes for a buy, over all words. The exact-out quote
is the least payment that does not lower the product, wherever it is defined.
The exact-in quote rounds the other way: it can promise one base unit more than
its payment buys through the exact-out quote.
-/

import Memecoin.Curve

namespace Memecoin

open Checked ConstantProduct

/-! ### The exact-out quote -/

variable {virtualSol virtualTokens realSol realTokenReserves : UInt64}

/-- The exact-out quote is the least payment that does not lower the product, for every available
amount whose products fit 128 bits and whose least payment is a word. In every other case it is an
error. -/
theorem solInForTokensOut_least
    (virtualSol virtualTokens realSol realTokenReserves tokensOut : UInt64) :
    (∀ solIn, solInForTokensOut virtualSol virtualTokens realSol realTokenReserves tokensOut =
        .ok solIn ↔
      0 < tokensOut.toNat ∧ tokensOut.toNat ≤ realTokenReserves.toNat ∧
        tokensOut.toNat < virtualTokens.toNat ∧
        (virtualSol.toNat + realSol.toNat) * virtualTokens.toNat +
          (virtualTokens.toNat - tokensOut.toNat) - 1 < 2 ^ 128 ∧
        IsLeast (payments (virtualSol.toNat + realSol.toNat) virtualTokens.toNat tokensOut.toNat)
          solIn.toNat) ∧
    ((∃ error, solInForTokensOut virtualSol virtualTokens realSol realTokenReserves tokensOut =
        .error error) ↔
      ¬ (0 < tokensOut.toNat ∧ tokensOut.toNat ≤ realTokenReserves.toNat ∧
        tokensOut.toNat < virtualTokens.toNat ∧
        (virtualSol.toNat + realSol.toNat) * virtualTokens.toNat +
          (virtualTokens.toNat - tokensOut.toNat) - 1 < 2 ^ 128 ∧
        ∃ least < 2 ^ 64, IsLeast (payments (virtualSol.toNat + realSol.toNat)
          virtualTokens.toNat tokensOut.toNat) least)) := by
  have quoted (solIn : UInt64) :
      solInForTokensOut virtualSol virtualTokens realSol realTokenReserves tokensOut = .ok solIn ↔
      0 < tokensOut.toNat ∧ tokensOut.toNat ≤ realTokenReserves.toNat ∧
        tokensOut.toNat < virtualTokens.toNat ∧
        (virtualSol.toNat + realSol.toNat) * virtualTokens.toNat +
          (virtualTokens.toNat - tokensOut.toNat) - 1 < 2 ^ 128 ∧
        IsLeast (payments (virtualSol.toNat + realSol.toNat) virtualTokens.toNat tokensOut.toNat)
          solIn.toNat := by
    rw [solInForTokensOut_eq_ok]
    refine and_congr_right fun _ => and_congr_right fun _ => and_congr_right fun room => ?_
    rw [Nat.add_sub_assoc (Nat.sub_pos_of_lt room)]
    refine and_congr_right fun _ => ⟨fun charge => ?_, fun least => ?_⟩
    · rw [charge]
      exact cost_isLeast room
    · exact least.unique (cost_isLeast room)
  refine ⟨quoted, ?_, fun undefined => ?_⟩
  · rintro ⟨error, rejected⟩ ⟨positive, available, room, fits, least, word, minimal⟩
    obtain ⟨solIn, rfl⟩ := exists_toNat_eq word
    cases rejected.symm.trans ((quoted solIn).mpr ⟨positive, available, room, fits, minimal⟩)
  · cases result : solInForTokensOut virtualSol virtualTokens realSol realTokenReserves tokensOut with
    | error error => exact ⟨error, rfl⟩
    | ok solIn =>
      obtain ⟨positive, available, room, fits, least⟩ := (quoted solIn).mp result
      exact absurd ⟨positive, available, room, fits, _, solIn.toNat_lt, least⟩ undefined

/-! ### The exact-in quote -/

theorem tokensOutForSolIn_eq_ok {solIn tokensOut : UInt64} :
    tokensOutForSolIn virtualSol virtualTokens realSol realTokenReserves solIn = .ok tokensOut ↔
      0 < solIn.toNat ∧ (virtualSol.toNat + realSol.toNat) * virtualTokens.toNat < 2 ^ 128 ∧
        tokensOut.toNat = purchase (virtualSol.toNat + realSol.toNat) virtualTokens.toNat
          solIn.toNat ∧
        tokensOut.toNat ≤ realTokenReserves.toNat := by
  simp only [tokensOutForSolIn, bind_eq_ok, pure_eq_ok, require_eq_ok, okOr_eq_ok,
    checkedAdd128_eq_some, checkedMul128_eq_some, checkedSub128_eq_some, checkedDiv128_eq_some,
    toU64_eq_some, exists_and_left, exists_const, toNat_pos_iff, add_lt_u128, true_and, gt_iff_lt,
    UInt64.not_lt, UInt64.le_iff_toNat_le]
  constructor
  · rintro ⟨positive, _, rfl, _, ⟨fits, rfl⟩, _, ⟨_, rfl⟩, _, ⟨_, rfl⟩, _, ⟨_, rfl⟩, _, quoted,
      available, rfl⟩
    exact ⟨positive, fits, quoted, available⟩
  · rintro ⟨positive, fits, quoted, available⟩
    have words := virtualSol.toNat_lt
    have words' := realSol.toNat_lt
    have words'' := solIn.toNat_lt
    exact ⟨positive, _, rfl, _, ⟨fits, rfl⟩, _, ⟨by omega, rfl⟩, _, ⟨by omega, rfl⟩, _,
      ⟨Nat.div_le_of_le_mul (Nat.mul_le_mul_right _ (Nat.le_add_right _ _)), rfl⟩, _, quoted,
      available, rfl⟩

/-! ### The two quotes together -/

/-- An amount is affordable under the exact-out quote exactly when it is promised by the exact-in
quote, unless it is the rounding up of the exact purchase `y * s / (x + s)`. -/
theorem quotes_agree_iff {solIn tokensOut promised charged : UInt64}
    (exactIn : tokensOutForSolIn virtualSol virtualTokens realSol realTokenReserves solIn =
      .ok promised)
    (exactOut : solInForTokensOut virtualSol virtualTokens realSol realTokenReserves tokensOut =
      .ok charged) :
    (charged ≤ solIn ↔ tokensOut ≤ promised) ↔
      tokensOut.toNat * (virtualSol.toNat + realSol.toNat + solIn.toNat) ≤
          virtualTokens.toNat * solIn.toNat ∨
        virtualTokens.toNat * solIn.toNat ≤
          (tokensOut.toNat - 1) * (virtualSol.toNat + realSol.toNat + solIn.toNat) := by
  obtain ⟨paid, _, promise, _⟩ := tokensOutForSolIn_eq_ok.mp exactIn
  obtain ⟨positive, _, room, _, charge⟩ := solInForTokensOut_eq_ok.mp exactOut
  rw [UInt64.le_iff_toNat_le, UInt64.le_iff_toNat_le, promise, charge]
  exact cost_purchase_iff room paid positive

/-- At the reserves of a new launch, the amount below the promise of one lamport is affordable. -/
theorem quotes_agree_sample : (1 : UInt64) ≤ 1 ↔ (41_212 : UInt64) ≤ 41_213 :=
  (@quotes_agree_iff TokenLaunch.defaultVirtualSol TokenLaunch.virtualTokenUnits 0
    TokenLaunch.curveAllocationUnits 1 41_212 41_213 1 (by decide +kernel) (by decide +kernel)).mpr
    (.inl (by decide))

/-- At the reserves of a new launch, one lamport is promised 41213 base units, which the exact-out
quote charges two lamports for. -/
theorem promise_unaffordable : ¬ ∀ virtualSol virtualTokens realSol realTokenReserves solIn tokensOut
    promised charged : UInt64, tokensOutForSolIn virtualSol virtualTokens realSol realTokenReserves
      solIn = .ok promised →
    solInForTokensOut virtualSol virtualTokens realSol realTokenReserves tokensOut = .ok charged →
    (charged ≤ solIn ↔ tokensOut ≤ promised) := by
  intro agree
  have affordable := (agree TokenLaunch.defaultVirtualSol TokenLaunch.virtualTokenUnits 0
    TokenLaunch.curveAllocationUnits 1 41_213 41_213 2 (by decide +kernel)
    (by decide +kernel)).mpr (by decide)
  exact absurd affordable (by decide)

end Memecoin
