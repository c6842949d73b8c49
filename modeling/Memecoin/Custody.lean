/-
This file is about whose money is whose. Lamports are neither made nor lost, in
any run from any state. Who signs nothing loses nothing: entries that take
lamports belong to a signer or to the vault of a launch, and entries that take
tokens belong to an account of a signer or of a launch PDA, so no sequence of
actions of other people, the admin among them, takes anything from a key holder
who does not take part.
-/

import Memecoin.Entries

namespace Memecoin

open Checked

/-- The keys that an action is signed with. -/
def Action.signers : Action → List Pubkey
  | .initializeConfig accounts _ _ => [accounts.admin]
  | .updateConfig accounts _ => [accounts.admin]
  | .setPaused accounts _ => [accounts.admin]
  | .createToken accounts _ _ => [accounts.creator, accounts.mint]
  | .buy accounts _ _ => [accounts.trader]
  | .sell accounts _ _ => [accounts.trader]
  | .graduate accounts => [accounts.caller]
  | .sealGraduation accounts _ => [accounts.graduationAuthority]
  | .transferLamports source _ _ => [source]
  | .openTokenAccount _ _ _ => []
  | .transferTokens _ _ authority _ => [authority]
  | .burnTokens _ authority _ => [authority]
  | .setClock _ => []

/-! ### Conservation -/

namespace World

/-- No run makes or loses lamports, from whatever state and with whatever actions. -/
theorem lamports_conserved (world : World) (actions : List Action) :
    Balances.Conserved world.lamports (world.run actions).lamports := by
  refine Machine.run_invariant execute
    (fun state => Balances.Conserved world.lamports state.lamports)
    (fun state action state' kept accepted => ?_) world (.refl _) actions
  exact kept.trans
    (Balances.conserved_of_entries (execute_lamports accepted) (state.total_lamportEntries action))

/-! ### Who pays -/

variable {world world' : World} {action : Action} {holder : Pubkey}

/-- A valid configuration splits its fees into shares that take nothing. -/
theorem tradeFeeEntries_nonneg {config : Config} (valid : config.Valid) (creator : Pubkey)
    (fee : ℕ) : ∀ entry ∈ config.tradeFeeEntries creator fee, 0 ≤ entry.2 := by
  have split := valid.tradeSplit
  have floors : fee * config.tradeSplitCreatorBps.toNat / 10_000 +
      fee * config.tradeSplitDinoBps.toNat / 10_000 ≤ fee :=
    calc fee * config.tradeSplitCreatorBps.toNat / 10_000 +
          fee * config.tradeSplitDinoBps.toNat / 10_000
        ≤ (fee * config.tradeSplitCreatorBps.toNat + fee * config.tradeSplitDinoBps.toNat) /
            10_000 := by omega
      _ = fee * (config.tradeSplitCreatorBps.toNat + config.tradeSplitDinoBps.toNat) / 10_000 := by
          rw [Nat.mul_add]
      _ ≤ fee * 10_000 / 10_000 :=
          Nat.div_le_div_right (Nat.mul_le_mul_left _ (split ▸ Nat.le_add_right _ _))
      _ = fee := Nat.mul_div_cancel _ (by decide)
  intro entry member
  simp only [Config.tradeFeeEntries, List.mem_cons, List.not_mem_nil, or_false] at member
  rcases member with rfl | rfl | rfl
  · exact Int.natCast_nonneg _
  · exact Int.natCast_nonneg _
  · show 0 ≤ (fee : ℤ) - (_ : ℕ) - (_ : ℕ)
    omega

theorem flatFeeEntries_nonneg {config : Config} {fee : UInt64} {dinoBps : UInt16}
    (part : dinoBps.toNat ≤ 10_000) :
    ∀ entry ∈ config.flatFeeEntries fee dinoBps, 0 ≤ entry.2 := by
  have floor := bps_le fee part
  intro entry member
  simp only [Config.flatFeeEntries, List.mem_cons, List.not_mem_nil, or_false] at member
  rcases member with rfl | rfl
  · exact Int.natCast_nonneg _
  · show 0 ≤ (fee.toNat : ℤ) - (_ : ℕ)
    omega

/-- An accepted action takes lamports from its signers and from vaults only. -/
theorem Reachable.payer (reachable : world.Reachable) (accepted : world.execute action = .ok world')
    {entry : Pubkey × ℤ} (booked : entry ∈ world.lamportEntries action) (taken : entry.2 < 0) :
    entry.1 ∈ action.signers ∨ ∃ mint, entry.1 = .vault mint := by
  have valid := reachable.wellFormed.config
  cases action with
  | createToken accounts params bumps =>
    obtain ⟨config, _, configured, _⟩ := CreateToken.handler_paid accepted
    rw [lamportEntries, configured] at booked
    rcases List.mem_cons.mp booked with rfl | fees
    · exact .inl List.mem_cons_self
    · exact absurd (flatFeeEntries_nonneg (valid _ configured).creationSplit _ fees)
        (not_le.mpr taken)
  | buy accounts tokenAmountOut maxSolIn =>
    obtain ⟨bought⟩ := Buy.execution accepted
    rw [lamportEntries, entriesAt_eq bought.met.configPresent bought.met.launchPresent] at booked
    rcases List.mem_cons.mp booked with rfl | booked
    · exact .inl List.mem_cons_self
    rcases List.mem_cons.mp booked with rfl | fees
    · exact absurd (Int.natCast_nonneg _) (not_le.mpr taken)
    · exact absurd (tradeFeeEntries_nonneg (valid _ bought.met.configPresent) _ _ _ fees)
        (not_le.mpr taken)
  | sell accounts tokenAmountIn minSolOut =>
    obtain ⟨sold⟩ := Sell.execution accepted
    rw [lamportEntries, entriesAt_eq sold.met.configPresent sold.met.launchPresent] at booked
    rcases List.mem_cons.mp booked with rfl | booked
    · exact .inr ⟨_, rfl⟩
    rcases List.mem_cons.mp booked with rfl | fees
    · exact .inl List.mem_cons_self
    · exact absurd (tradeFeeEntries_nonneg (valid _ sold.met.configPresent) _ _ _ fees)
        (not_le.mpr taken)
  | graduate accounts =>
    obtain ⟨graduated⟩ := Graduate.execution accepted
    have configured := graduated.met.configPresent
    rw [lamportEntries, entriesAt_eq configured graduated.met.launchPresent] at booked
    rcases List.mem_cons.mp booked with rfl | booked
    · exact .inr ⟨_, rfl⟩
    rcases List.mem_cons.mp booked with rfl | fees
    · have remaining := graduated.remainingFee
      refine absurd (?_ : (0 : ℤ) ≤ _) (not_le.mpr taken)
      show (0 : ℤ) ≤ graduated.launch.realSolReserves.toNat -
        graduated.config.graduationFeeLamports.toNat
      omega
    · exact absurd (flatFeeEntries_nonneg (valid _ configured).graduationSplit _ fees)
        (not_le.mpr taken)
  | transferLamports source destination amount =>
    rcases List.mem_cons.mp booked with rfl | booked
    · exact .inl List.mem_cons_self
    · obtain rfl := List.mem_singleton.mp booked
      exact absurd (Int.natCast_nonneg _) (not_le.mpr taken)
  | _ => cases booked

/-- An accepted action takes tokens from accounts of its signers and of launch PDAs only. -/
theorem taken_from (accepted : world.execute action = .ok world') {entry : Pubkey × ℤ}
    (booked : entry ∈ action.tokenEntries) (taken : entry.2 < 0) :
    ∃ mint owner, world.tokenAccounts.shape entry.1 = some (mint, owner) ∧
      (owner ∈ action.signers ∨ owner = .launch mint) := by
  have given {address : Pubkey} {amount : ℕ} (single : entry ∈ [(address, (amount : ℤ))]) :
      False := by
    obtain rfl := List.mem_singleton.mp single
    exact not_le.mpr taken (Int.natCast_nonneg _)
  cases action with
  | createToken accounts params bumps => exact (given booked).elim
  | buy accounts tokenAmountOut maxSolIn =>
    obtain ⟨bought⟩ := Buy.execution accepted
    rcases List.mem_cons.mp booked with rfl | booked
    · exact ⟨_, _, bought.met.curveTokenAccount, .inr rfl⟩
    · exact (given booked).elim
  | sell accounts tokenAmountIn minSolOut =>
    obtain ⟨sold⟩ := Sell.execution accepted
    rcases List.mem_cons.mp booked with rfl | booked
    · exact ⟨_, _, sold.met.traderTokenAccount, .inl List.mem_cons_self⟩
    · exact (given booked).elim
  | graduate accounts => exact (given booked).elim
  | transferTokens source destination authority amount =>
    obtain ⟨_, _, transferred⟩ := bind_eq_ok.mp accepted
    obtain ⟨_, _, _, moved⟩ := tokenTransfer_ok transferred
    rcases List.mem_cons.mp booked with rfl | booked
    · exact ⟨_, _, moved.sourceShape, .inl List.mem_cons_self⟩
    · exact (given booked).elim
  | burnTokens address authority amount =>
    obtain ⟨_, _, burned⟩ := bind_eq_ok.mp accepted
    obtain ⟨_, _, _, _, _, debited⟩ := burn_ok burned
    obtain rfl := List.mem_singleton.mp booked
    exact ⟨_, _, debited.sourceShape, .inl List.mem_cons_self⟩
  | _ => cases booked

/-! ### Who signs nothing loses nothing -/

/-- What a key holder has in the second state is no less than in the first, account by account. -/
structure Kept (holder : Pubkey) (world world' : World) : Prop where
  lamports : world.lamports holder ≤ world'.lamports holder
  accounts : ∀ address mint, world.tokenAccounts.shape address = some (mint, holder) →
    world'.tokenAccounts.shape address = some (mint, holder) ∧
      world.tokenAccounts.amountAt address ≤ world'.tokenAccounts.amountAt address

theorem Kept.refl (holder : Pubkey) (world : World) : Kept holder world world :=
  ⟨le_rfl, fun _ _ shape => ⟨shape, le_rfl⟩⟩

theorem Kept.trans {first second third : World} (earlier : Kept holder first second)
    (later : Kept holder second third) : Kept holder first third where
  lamports := earlier.lamports.trans later.lamports
  accounts := fun address mint shape => by
    obtain ⟨between, amount⟩ := earlier.accounts address mint shape
    obtain ⟨after, amount'⟩ := later.accounts address mint between
    exact ⟨after, amount.trans amount'⟩

/-- An account that exists is not opened again under another name. -/
theorem Reachable.shape_kept (reachable : world.Reachable)
    (accepted : world.execute action = .ok world') {address : Pubkey} {shape : Pubkey × Pubkey}
    (present : world.tokenAccounts.shape address = some shape) :
    world'.tokenAccounts.shape address = some shape := by
  have associated := reachable.wellFormed.associated
  rw [execute_shape accepted, present]
  cases action with
  | createToken accounts params bumps =>
    by_cases named : address = .curveAccount accounts.mint
    · rw [named] at present
      have owned := associated (.launch accounts.mint) accounts.mint shape present
      rw [Action.opened, if_pos named, owned]
      rfl
    · rw [Action.opened, if_neg named, Option.none_or]
  | graduate accounts =>
    by_cases named : address = .associatedToken accounts.graduationAuthority accounts.mint
    · rw [named] at present
      have owned := associated accounts.graduationAuthority accounts.mint shape present
      rw [Action.opened, if_pos named, owned]
      rfl
    · rw [Action.opened, if_neg named, Option.none_or]
  | openTokenAccount opened mint owner =>
    obtain ⟨_, _, absent, _⟩ := openTokenAccount_ok accepted
    by_cases same : address = opened
    · rw [same, TokenAccounts.shape, absent] at present
      cases present
    · rw [Action.opened, if_neg same, Option.none_or]
  | _ => rfl

theorem Reachable.kept_step (reachable : world.Reachable) (key : holder.canSign)
    (unsigned : holder ∉ action.signers) (accepted : world.execute action = .ok world') :
    Kept holder world world' where
  lamports := by
    have gains : 0 ≤ Balances.net (world.lamportEntries action) holder := by
      refine Balances.net_nonneg fun entry booked named => not_lt.mp fun taken => ?_
      rcases reachable.payer accepted booked taken with signs | ⟨mint, vault⟩
      · exact unsigned (named ▸ signs)
      · exact Pubkey.ne_of_canSign key rfl (named.symm.trans vault)
    have booked := execute_lamports accepted holder
    omega
  accounts := fun address mint shape => by
    refine ⟨reachable.shape_kept accepted shape, ?_⟩
    have gains : 0 ≤ Balances.net action.tokenEntries address := by
      refine Balances.net_nonneg fun entry booked named => not_lt.mp fun taken => ?_
      obtain ⟨_, owner, found, owned⟩ := taken_from accepted booked taken
      rw [named, shape] at found
      obtain ⟨rfl, rfl⟩ := Prod.mk.inj (Option.some.inj found)
      exact owned.elim unsigned (Pubkey.ne_of_canSign key rfl)
    have booked := execute_amounts accepted address
    omega

/-- Over any run of actions that a key holder does not sign, whoever signs them, the holder's
lamports do not decrease, and every token account of the holder stays the holder's with no fewer
tokens. -/
theorem unsigned_keeps (reachable : world.Reachable) (key : holder.canSign) (later : List Action)
    (unsigned : ∀ action ∈ later, holder ∉ action.signers) :
    Kept holder world (world.run later) := by
  refine reachable.run_invariant (fun _ action => holder ∉ action.signers) (Kept holder world)
    (fun state action state' reached met kept accepted =>
      kept.trans (reached.kept_step key met accepted)) (.refl holder world) later ?_
  exact along_of_mem world fun action member _ => unsigned action member

/-- A trader keeps what a purchase has brought while the whale buys and the admin pauses. -/
theorem unsigned_keeps_sample :
    let world := Sample.after Sample.params
      [Sample.endow, .buy (Sample.trading Sample.trader) 1_000_000 1_000_000]
    Kept Sample.trader world (world.run
      [.buy (Sample.trading Sample.whale) 100_000_000_000_000 5_000_000_000,
        .setPaused { admin := Sample.admin, config := .config } true]) :=
  unsigned_keeps (Sample.reachable_after _ _) rfl _ (by decide)

end World

end Memecoin
