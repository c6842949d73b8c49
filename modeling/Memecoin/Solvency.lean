/-
This file proves that vaults are solvent. The vault of a launch always holds
what the launch account records, what it holds beyond that never shrinks, and
unless a configured wallet is the vault itself it is exactly what was donated.
Every transfer out of a vault is therefore covered.
-/

import Memecoin.Refinement

namespace Memecoin

open Checked

namespace World

/-- The vault balance of a launch minus the SOL that its account records. -/
def surplus (world : World) (mint : Pubkey) : ℤ :=
  world.lamports (.vault mint) -
    (world.launches (.launch mint)).elim 0 (·.realSolReserves.toNat)

/-- The lamports donated to the vault of a launch by a run. -/
def lamportDonations (world : World) (mint : Pubkey) (actions : List Action) : ℕ :=
  world.tally (fun world action _ => (world.operation mint action).lamportsGiven) actions

/-! ### The surplus -/

theorem Reachable.solvent {world : World} (reachable : world.Reachable) {mint : Pubkey}
    {launch : TokenLaunch} (present : world.launches (.launch mint) = some launch) :
    launch.realSolReserves.toNat ≤ world.lamports (.vault mint) :=
  ((reachable.sound mint).live launch present).solvent

theorem Reachable.surplus_nonneg {world : World} (reachable : world.Reachable)
    (mint : Pubkey) : 0 ≤ world.surplus mint := by
  rw [surplus]
  cases present : world.launches (.launch mint) with
  | none => exact Int.sub_nonneg_of_le (Int.natCast_nonneg _)
  | some launch =>
    have solvent := reachable.solvent present
    rw [Option.elim_some]
    omega

/-- One accepted action adds what the vault receives as a wallet and what is donated. -/
theorem Reachable.surplus_step {world world' : World} {action : Action}
    (reachable : world.Reachable) (accepted : world.execute action = .ok world')
    (mint : Pubkey) : ∃ wallets : ℕ, (¬ world.Feeds mint → wallets = 0) ∧
      world'.surplus mint = world.surplus mint +
        (wallets + (world.operation mint action).lamportsGiven : ℕ) :=
  (reachable.wellFormed.refines accepted mint).surplus

theorem Reachable.surplus_mono {world : World} (reachable : world.Reachable) (mint : Pubkey)
    (later : List Action) : world.surplus mint ≤ (world.run later).surplus mint := by
  refine reachable.run_invariant (fun _ _ => True)
    (fun world' => world.surplus mint ≤ world'.surplus mint) ?_ le_rfl later
    (along_true world later)
  intro state action state' reached _ bound accepted
  obtain ⟨wallets, _, change⟩ := reached.surplus_step accepted mint
  rw [change]
  exact bound.trans (Int.le_add_of_nonneg_right (Int.natCast_nonneg _))

/-- Where no configured wallet is ever the vault, the surplus is what was donated. -/
theorem surplus_eq_donations (unixTimestamp : Int64) (funds : ℕ → ℕ) (actions : List Action)
    (mint : Pubkey) (unfed : (genesis unixTimestamp funds).Along
      (fun world _ => ¬ world.Feeds mint) actions) :
    ((genesis unixTimestamp funds).run actions).surplus mint =
      (genesis unixTimestamp funds).lamportDonations mint actions := by
  refine (genesis_reachable unixTimestamp funds).run_ghost
    (fun world action _ => (world.operation mint action).lamportsGiven)
    (fun world _ => ¬ world.Feeds mint)
    (fun world donations => world.surplus mint = (donations : ℤ)) ?_ rfl actions unfed
  intro state action state' donations reached closed equal accepted
  obtain ⟨wallets, none, change⟩ := reached.surplus_step accepted mint
  rw [change, none closed, equal, Nat.zero_add, Nat.cast_add]

/-! ### Covered transfers -/

/-- A sale pays at most the recorded SOL, so none of its payments finds the vault short. -/
theorem Reachable.sell_covered {world : World} (reachable : world.Reachable)
    (accounts : TradeAccounts) (tokenAmountIn minSolOut : UInt64) :
    Sell.handler accounts world tokenAmountIn minSolOut ≠ .error .insufficientLamports := by
  intro rejected
  rcases bind_eq_error.mp rejected with failed | ⟨⟨config, launch⟩, validated, rejected⟩
  · exact absurd (accounts.validate_failsOnly world _ failed) (by decide)
  have met := TradeAccounts.validate_eq_ok.mp validated
  rcases bind_eq_error.mp rejected with failed | ⟨terms, quoted, rejected⟩
  · exact absurd failed (mapError_ne fun _ => nofun)
  rcases bind_eq_error.mp rejected with failed | ⟨moved, transferred, rejected⟩
  · rcases tokenTransfer_error failed with equal | ⟨equal, _⟩ | equal | equal <;> cases equal
  rcases bind_eq_error.mp rejected with failed | ⟨_, _, rejected⟩
  · obtain ⟨short, _⟩ := payShares_error failed
    obtain ⟨_, _, gross, _, net, _, split⟩ := SellTerms.quote_eq_ok.mp (mapError_eq_ok.mp quoted)
    have payout := (solOutForTokensIn_eq_ok.mp gross).2.2.2
    have shares := (splitThreeWay_eq_ok.mp split).2.2
    have capped : terms.grossSolOut.toNat ≤ launch.realSolReserves.toNat := by
      rw [payout]
      exact Nat.min_le_right _ _
    have solvent := reachable.solvent met.launchPresent
    rw [accounts.owed_salePayments, met.vaultAddress, (tokenTransfer_ok transferred).1] at short
    have short : world.lamports (.vault accounts.mint) < terms.netSolOut.toNat + _ := short
    omega
  rcases bind_eq_error.mp rejected with failed | ⟨_, _, rejected⟩
  · exact absurd failed (mapError_ne fun _ => nofun)
  · cases rejected

/-- Where the guards of `graduate` pass, its saturating subtraction is exact. -/
theorem graduate_remaining {config : Config} {launch : TokenLaunch} {shares : TwoWaySplit}
    (passed : Graduate.feeSplit config launch = .ok shares) :
    (saturatingSub launch.realSolReserves config.graduationFeeLamports).toNat +
      config.graduationFeeLamports.toNat = launch.realSolReserves.toNat := by
  obtain ⟨_, _, _, covered, _, _⟩ := Graduate.feeSplit_eq_ok.mp passed
  rw [saturatingSub_toNat, Nat.sub_add_cancel covered]

/-- The fee shares and the rest together are the recorded SOL, so no payment of a graduation finds
the vault short. The token account is opened and the reserve minted without touching lamports. -/
theorem Reachable.graduate_covered {world : World} (reachable : world.Reachable)
    (accounts : Graduate) : accounts.handler world ≠ .error .insufficientLamports := by
  intro rejected
  rcases bind_eq_error.mp rejected with failed | ⟨⟨config, launch, opened⟩, validated, rejected⟩
  · exact absurd (accounts.validate_failsOnly world _ failed) (by decide)
  obtain ⟨met, opening⟩ := Graduate.validate_eq_ok.mp validated
  have openFrame := (initAssociatedIfNeeded_ok opening).2.1
  have openLamports : opened.lamports = world.lamports := by rw [openFrame]
  have solvent := reachable.solvent met.launchPresent
  rcases bind_eq_error.mp rejected with failed | ⟨shares, passed, rejected⟩
  · exact absurd failed (mapError_ne fun _ => nofun)
  have passed := mapError_eq_ok.mp passed
  have remaining := graduate_remaining passed
  have sharesTotal := (Graduate.feeSplit_eq_ok.mp passed).2.2.2.2.2
  rcases bind_eq_error.mp rejected with failed | ⟨paid, payment, rejected⟩
  · obtain ⟨short, _⟩ := payShares_error failed
    rw [accounts.owed_feePayments, met.vaultAddress, openLamports] at short
    omega
  have left := (payShares_ok payment).lamports accounts.curveVault
  rw [if_pos rfl, accounts.owed_feePayments, met.vaultAddress, openLamports] at left
  rcases bind_eq_error.mp rejected with failed | ⟨reserveAmount, _, rejected⟩
  · exact absurd failed (mapError_ne fun _ => nofun)
  rcases bind_eq_error.mp rejected with failed | ⟨minted, minting, rejected⟩
  · exact mintTo_ne_insufficientLamports failed
  obtain ⟨_, _, _, _, mintFrame, _⟩ := mintTo_ok minting
  have mintLamports : minted.lamports = paid.lamports := by rw [mintFrame]
  rcases bind_eq_error.mp rejected with failed | ⟨_, _, rejected⟩
  · obtain ⟨short, _⟩ := payShares_error failed
    rw [owed_cons, owed_nil, mintLamports, met.vaultAddress] at short
    omega
  · cases rejected

/-! ### Main result -/

/-- Over every run, for every launch: what the vault holds beyond the recorded SOL is never
negative and never shrinks. Where no configured wallet is ever the vault, it is what was donated,
and after graduation that is all the vault holds. No sale and no graduation fails on a transfer out
of the vault, and the rest that a graduation forwards is exact. -/
theorem vault_solvent (unixTimestamp : Int64) (funds : ℕ → ℕ) (actions : List Action)
    (mint : Pubkey) :
    (0 ≤ ((genesis unixTimestamp funds).run actions).surplus mint) ∧
    (∀ later, ((genesis unixTimestamp funds).run actions).surplus mint ≤
      (((genesis unixTimestamp funds).run actions).run later).surplus mint) ∧
    ((genesis unixTimestamp funds).Along (fun world _ => ¬ world.Feeds mint) actions →
      ((genesis unixTimestamp funds).run actions).surplus mint =
          (genesis unixTimestamp funds).lamportDonations mint actions ∧
        ∀ launch, ((genesis unixTimestamp funds).run actions).launches (.launch mint) = some launch →
          launch.graduated = true →
          ((genesis unixTimestamp funds).run actions).lamports (.vault mint) =
            (genesis unixTimestamp funds).lamportDonations mint actions) ∧
    (∀ accounts tokenAmountIn minSolOut, Sell.handler accounts
      ((genesis unixTimestamp funds).run actions) tokenAmountIn minSolOut ≠
        .error .insufficientLamports) ∧
    (∀ accounts : Graduate, accounts.handler ((genesis unixTimestamp funds).run actions) ≠
      .error .insufficientLamports) ∧
    ∀ config launch shares, Graduate.feeSplit config launch = .ok shares →
      (saturatingSub launch.realSolReserves config.graduationFeeLamports).toNat +
        config.graduationFeeLamports.toNat = launch.realSolReserves.toNat := by
  have reachable := (genesis_reachable unixTimestamp funds).run actions
  refine ⟨reachable.surplus_nonneg mint, reachable.surplus_mono mint, fun unfed => ?_,
    reachable.sell_covered, reachable.graduate_covered, fun _ _ _ => graduate_remaining⟩
  have equal := surplus_eq_donations unixTimestamp funds actions mint unfed
  refine ⟨equal, fun launch present graduated => ?_⟩
  have emptied := (((reachable.sound mint).live launch present).closed graduated).emptied
  rw [surplus, present, Option.elim_some, emptied] at equal
  omega

end World

end Memecoin
