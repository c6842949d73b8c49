/-
This file connects the program to the abstract model. Every launch of a world
is seen as a market, every action as an operation on it, and an accepted action
takes the market of every launch through a step of that operation. The markets
of a reachable world are therefore sound.
-/

import Memecoin.Program
import Memecoin.Market

namespace Memecoin

open Checked

/-! ### The market of a launch -/

namespace World

/-- The market of a mint. -/
def market (world : World) (mint : Pubkey) : Market where
  launch := world.launches (.launch mint)
  vault := world.lamports (.vault mint)
  minted := (world.mints mint).elim 0 (·.minted)
  supply := (world.mints mint).elim 0 (·.supply)
  curveTokens := world.curveTokens mint
  otherTokens := world.otherTokens mint
  curveAccount := world.tokenAccounts.amountAt (.curveAccount mint)

/-- What an action is to a launch. -/
def operation (world : World) (mint : Pubkey) : Action → Operation
  | .createToken accounts _ _ => if accounts.mint = mint then .create else .pass
  | .buy accounts tokenAmountOut _ =>
    if accounts.mint = mint then
      .buy tokenAmountOut.toNat (accounts.curveTokenAccount = .curveAccount mint)
    else .pass
  | .sell accounts tokenAmountIn _ =>
    if accounts.mint = mint then
      .sell tokenAmountIn.toNat (accounts.curveTokenAccount = .curveAccount mint)
    else .pass
  | .graduate accounts =>
    if accounts.mint = mint then .graduate (accounts.graduationAuthority = .launch mint)
    else .pass
  | .sealGraduation accounts meteoraLbPair =>
    if accounts.launch = .launch mint then .sealPool meteoraLbPair else .pass
  | .transferLamports _ destination amount =>
    if destination = .vault mint then .giveLamports amount.toNat else .pass
  | .transferTokens _ destination _ amount =>
    if world.tokenAccounts.shape destination = some (mint, .launch mint) then
      .giveTokens amount.toNat (destination = .curveAccount mint)
    else .pass
  | .burnTokens address _ amount =>
    if (world.tokenAccounts.shape address).any (·.1 = mint) then .burn amount.toNat else .pass
  | _ => .pass

/-- Some wallet of the configuration is the vault of the launch. -/
def Feeds (world : World) (mint : Pubkey) : Prop :=
  ∃ config, world.config = some config ∧ (config.dinoBuybackWallet = .vault mint ∨
    config.treasuryWallet = .vault mint ∨ config.graduationAuthority = .vault mint)

/-! ### What other launches see -/

theorem market_pass {world world' : World} {mint : Pubkey} (wallets : ℕ)
    (closed : ¬ world.Feeds mint → wallets = 0)
    (launch : world'.launches (.launch mint) = world.launches (.launch mint))
    (mints : world'.mints mint = world.mints mint)
    (curve : world'.curveTokens mint = world.curveTokens mint)
    (other : world'.otherTokens mint = world.otherTokens mint)
    (account : world'.tokenAccounts.amountAt (.curveAccount mint) =
      world.tokenAccounts.amountAt (.curveAccount mint))
    (vault : world'.lamports (.vault mint) = world.lamports (.vault mint) + wallets) :
    (world.market mint).Step (world.Feeds mint) .pass (world'.market mint) := by
  refine (Market.Step.pass _ wallets closed).of_eq (Market.ext launch vault ?_ ?_ curve other account)
  · exact congrArg (Option.elim · 0 Mint.minted) mints
  · exact congrArg (Option.elim · 0 Mint.supply) mints

/-- A well-formed world where nothing about tokens, launches or the vault changed. -/
theorem market_same {world world' : World} (mint : Pubkey)
    (launches : world'.launches = world.launches) (mints : world'.mints = world.mints)
    (accounts : world'.tokenAccounts = world.tokenAccounts)
    (lamports : world'.lamports (.vault mint) = world.lamports (.vault mint)) :
    (world.market mint).Step (world.Feeds mint) .pass (world'.market mint) :=
  market_pass 0 (fun _ => rfl) (by rw [launches]) (by rw [mints])
    (by rw [curveTokens, curveTokens, accounts]) (by rw [otherTokens, otherTokens, accounts])
    (by rw [accounts]) lamports

/-- The curve account of a mint is no account of another mint. -/
theorem WellFormed.curveAccount_mint {world : World} (wellFormed : world.WellFormed)
    {mint other owner : Pubkey}
    (shape : world.tokenAccounts.shape (.curveAccount mint) = some (other, owner)) :
    other = mint ∧ owner = .launch mint :=
  Prod.mk.inj (wellFormed.associated _ _ _ shape)

end World

namespace TokenAccounts

variable {accounts accounts' : TokenAccounts} {source destination mint sourceOwner
  destinationOwner : Pubkey} {amount : ℕ}

/-- Accounts of other mints keep their amounts. -/
theorem Moved.amountAt_other
    (moved : accounts.Moved source destination amount mint sourceOwner destinationOwner accounts')
    {address : Pubkey} (other : ∀ owner, accounts.shape address ≠ some (mint, owner)) :
    accounts'.amountAt address = accounts.amountAt address := by
  have change := moved.amountAt address
  rw [if_neg, if_neg] at change
  · exact change
  · rintro rfl
    exact other _ moved.destinationShape
  · rintro rfl
    exact other _ moved.sourceShape

theorem Moved.held_other
    (moved : accounts.Moved source destination amount mint sourceOwner destinationOwner accounts')
    {other : Pubkey} (different : mint ≠ other) (owners : Pubkey → Bool) :
    accounts'.held other owners = accounts.held other owners := by
  have change := moved.held other owners
  rwa [if_neg fun both => different both.1, if_neg fun both => different both.1] at change

/-- A group of owners that has both ends of a transfer, or neither, holds as much as before. -/
theorem Moved.held_within
    (moved : accounts.Moved source destination amount mint sourceOwner destinationOwner accounts')
    {other : Pubkey} {owners : Pubkey → Bool}
    (together : owners sourceOwner = owners destinationOwner) :
    accounts'.held other owners = accounts.held other owners := by
  have change := moved.held other owners
  rw [together] at change
  exact Nat.add_right_cancel change

end TokenAccounts

namespace World

theorem WellFormed.moved_curveAccount {world : World} (wellFormed : world.WellFormed)
    {accounts' : TokenAccounts} {source destination mint other sourceOwner destinationOwner : Pubkey}
    {amount : ℕ} (moved : world.tokenAccounts.Moved source destination amount mint sourceOwner
      destinationOwner accounts') (different : mint ≠ other) :
    accounts'.amountAt (.curveAccount other) =
      world.tokenAccounts.amountAt (.curveAccount other) :=
  moved.amountAt_other fun _ shape => different (wellFormed.curveAccount_mint shape).1

/-! ### Trades -/

/-- Only a configured wallet can make the vault a fee recipient: the creator has a key. -/
theorem feePayments_closed {accounts : TradeAccounts} {world : World} {config : Config}
    {launch : TokenLaunch} (met : accounts.Met world config launch)
    (wellFormed : world.WellFormed) (shares : ThreeWaySplit) {mint : Pubkey}
    (unfed : ¬ world.Feeds mint) : receipts (accounts.feePayments shares) (.vault mint) = 0 := by
  refine receipts_eq_zero fun payment member equal => ?_
  simp only [TradeAccounts.feePayments, List.mem_cons, List.not_mem_nil, or_false] at member
  rcases member with rfl | rfl | rfl
  · have signs := wellFormed.creator _ _ met.launchPresent
    rw [← met.creatorWallet, show accounts.creatorWallet = .vault mint from equal.symm] at signs
    cases signs
  · exact unfed ⟨config, met.configPresent, .inl (met.dinoBuybackWallet.symm.trans equal.symm)⟩
  · exact unfed ⟨config, met.configPresent, .inr (.inl (met.treasuryWallet.symm.trans equal.symm))⟩

/-- A signer is not the launch PDA, so a transfer out of an account of the launch PDA to the
signer's account takes its amount from the one side and adds it to the other. -/
theorem curveTokens_moved_out {world world' : World} {source destination mint trader : Pubkey}
    {amount : ℕ} (signs : trader.canSign)
    (moved : world.tokenAccounts.Moved source destination amount mint (.launch mint) trader
      world'.tokenAccounts) :
    world'.curveTokens mint + amount = world.curveTokens mint ∧
      world'.otherTokens mint = world.otherTokens mint + amount := by
  have outsider : trader ≠ .launch mint := Pubkey.ne_of_canSign signs rfl
  have curve := moved.held mint fun owner => owner = .launch mint
  have other := moved.held mint fun owner => ! decide (owner = .launch mint)
  simp only [true_and, decide_true, decide_eq_true_eq, outsider, if_true, if_false, Bool.not_true,
    Bool.false_eq_true, Bool.not_eq_true', decide_eq_false_iff_not, not_false_eq_true,
    Nat.add_zero] at curve other
  exact ⟨curve, other⟩

/-- The transfer in the other direction. -/
theorem curveTokens_moved_in {world world' : World} {source destination mint trader : Pubkey}
    {amount : ℕ} (signs : trader.canSign)
    (moved : world.tokenAccounts.Moved source destination amount mint trader (.launch mint)
      world'.tokenAccounts) :
    world'.curveTokens mint = world.curveTokens mint + amount ∧
      world'.otherTokens mint + amount = world.otherTokens mint := by
  have outsider : trader ≠ .launch mint := Pubkey.ne_of_canSign signs rfl
  have curve := moved.held mint fun owner => owner = .launch mint
  have other := moved.held mint fun owner => ! decide (owner = .launch mint)
  simp only [true_and, decide_true, decide_eq_true_eq, outsider, if_true, if_false, Bool.not_true,
    Bool.false_eq_true, Bool.not_eq_true', decide_eq_false_iff_not, not_false_eq_true,
    Nat.add_zero] at curve other
  exact ⟨curve, other⟩

/-- A signer's token account is not the curve account. -/
theorem WellFormed.ne_curveAccount {world : World} (wellFormed : world.WellFormed)
    {mint address trader : Pubkey} (signs : trader.canSign)
    (shape : world.tokenAccounts.shape address = some (mint, trader)) :
    Pubkey.curveAccount mint ≠ address := by
  rintro rfl
  exact Pubkey.ne_of_canSign signs rfl (wellFormed.curveAccount_mint shape).2

theorem buy_refines {accounts : TradeAccounts} {world world' : World}
    {tokenAmountOut maxSolIn : UInt64} (wellFormed : world.WellFormed)
    (bought : Buy.Execution accounts world tokenAmountOut maxSolIn world') (mint : Pubkey) :
    (world.market mint).Step (world.Feeds mint)
      (world.operation mint (.buy accounts tokenAmountOut maxSolIn)) (world'.market mint) := by
  have met := bought.met
  have closed : ¬ world.Feeds mint → receipts (accounts.feePayments bought.shares) (.vault mint) = 0 :=
    feePayments_closed met wellFormed bought.shares
  have lamports := bought.lamports (.vault mint)
  rw [if_neg (Pubkey.ne_of_canSign met.signer rfl).symm, Nat.add_zero] at lamports
  have mints : world'.mints = world.mints := by rw [bought.frame]
  rw [operation]
  by_cases same : accounts.mint = mint
  · subst same
    rw [if_pos rfl] at lamports ⊢
    obtain ⟨curve, other⟩ := curveTokens_moved_out met.signer bought.tokens
    have account := bought.tokens.amountAt (.curveAccount accounts.mint)
    rw [if_neg (wellFormed.ne_curveAccount met.signer met.traderTokenAccount), Nat.add_zero]
      at account
    refine (Market.Step.buy _ bought.launch bought.launch' _ _ _ _ closed met.launchPresent
      bought.bought ?_ fun named => ?_).of_eq (Market.ext ?_ lamports ?_ ?_ ?_ other ?_)
    · exact Nat.le.intro ((Nat.add_comm _ _).trans curve)
    · rw [if_pos (of_decide_eq_true named).symm] at account
      exact Nat.le.intro ((Nat.add_comm _ _).trans account)
    · show world'.launches _ = _
      exact bought.launch_after
    · exact congrArg (fun mints => (mints accounts.mint).elim 0 Mint.minted) mints
    · exact congrArg (fun mints => (mints accounts.mint).elim 0 Mint.supply) mints
    · exact Nat.eq_sub_of_add_eq curve
    · refine Nat.eq_sub_of_add_eq ?_
      simp only [decide_eq_true_eq, @eq_comm _ accounts.curveTokenAccount]
      exact account
  · rw [if_neg same]
    rw [if_neg fun equal => same (Pubkey.vault.inj equal).symm, Nat.add_zero] at lamports
    refine market_pass _ closed ?_ (congrFun mints mint) (bought.tokens.held_other same _)
      (bought.tokens.held_other same _) (wellFormed.moved_curveAccount bought.tokens same) lamports
    rw [bought.launches, Function.update_of_ne fun equal => same (Pubkey.launch.inj equal).symm]

theorem sell_refines {accounts : TradeAccounts} {world world' : World}
    {tokenAmountIn minSolOut : UInt64} (wellFormed : world.WellFormed)
    (sold : Sell.Execution accounts world tokenAmountIn minSolOut world') (mint : Pubkey) :
    (world.market mint).Step (world.Feeds mint)
      (world.operation mint (.sell accounts tokenAmountIn minSolOut)) (world'.market mint) := by
  have met := sold.met
  have closed : ¬ world.Feeds mint →
      receipts (accounts.feePayments sold.terms.shares) (.vault mint) = 0 :=
    feePayments_closed met wellFormed sold.terms.shares
  have lamports := sold.lamports (.vault mint)
  rw [TradeAccounts.salePayments, receipts_cons,
    if_neg (Pubkey.ne_of_canSign met.signer rfl).symm, Nat.zero_add] at lamports
  have mints : world'.mints = world.mints := by rw [sold.frame]
  rw [operation]
  by_cases same : accounts.mint = mint
  · subst same
    rw [if_pos rfl] at lamports ⊢
    obtain ⟨curve, other⟩ := curveTokens_moved_in met.signer sold.tokens
    have account := sold.tokens.amountAt (.curveAccount accounts.mint)
    rw [if_neg (wellFormed.ne_curveAccount met.signer met.traderTokenAccount), Nat.add_zero]
      at account
    refine (Market.Step.sell _ sold.launch sold.launch' _ _ _ _ closed met.launchPresent
      sold.sold ?_ ?_).of_eq (Market.ext ?_ (Nat.eq_sub_of_add_eq lamports) ?_ ?_ curve ?_ ?_)
    · exact Nat.le.intro ((Nat.add_comm _ _).trans other)
    · exact Nat.le.intro ((Nat.add_comm _ _).trans lamports)
    · show world'.launches _ = _
      exact sold.launch_after
    · exact congrArg (fun mints => (mints accounts.mint).elim 0 Mint.minted) mints
    · exact congrArg (fun mints => (mints accounts.mint).elim 0 Mint.supply) mints
    · exact Nat.eq_sub_of_add_eq other
    · simp only [decide_eq_true_eq, @eq_comm _ accounts.curveTokenAccount]
      exact account
  · rw [if_neg same]
    rw [if_neg fun equal => same (Pubkey.vault.inj equal).symm, Nat.add_zero] at lamports
    refine market_pass _ closed ?_ (congrFun mints mint) (sold.tokens.held_other same _)
      (sold.tokens.held_other same _) (wellFormed.moved_curveAccount sold.tokens same) lamports
    rw [sold.launches, Function.update_of_ne fun equal => same (Pubkey.launch.inj equal).symm]

/-! ### Creation, graduation and sealing -/

/-- The fee list of `create_token` and of `graduate` pays configured wallets only. -/
theorem twoWallets_closed {world : World} {config : Config} {mint : Pubkey}
    (present : world.config = some config) (unfed : ¬ world.Feeds mint) (shares : TwoWaySplit) :
    receipts [(config.dinoBuybackWallet, shares.dino), (config.treasuryWallet, shares.treasury)]
      (.vault mint) = 0 := by
  refine receipts_eq_zero fun payment member equal => ?_
  simp only [List.mem_cons, List.not_mem_nil, or_false] at member
  rcases member with rfl | rfl
  · exact unfed ⟨config, present, .inl equal.symm⟩
  · exact unfed ⟨config, present, .inr (.inl equal.symm)⟩

theorem create_refines {accounts : CreateToken} {world world' : World}
    {params : CreateTokenParams} {bumps : CreateTokenBumps}
    (created : accounts.Execution world bumps world') (mint : Pubkey) :
    (world.market mint).Step (world.Feeds mint)
      (world.operation mint (.createToken accounts params bumps)) (world'.market mint) := by
  have closed : ¬ world.Feeds mint →
      receipts (accounts.feePayments created.shares) (.vault mint) = 0 := fun unfed => by
    rw [CreateToken.feePayments, created.dinoBuybackWallet, created.treasuryWallet]
    exact twoWallets_closed created.configPresent unfed created.shares
  have lamports := created.lamports (.vault mint)
  rw [if_neg (Pubkey.ne_of_canSign created.signer rfl).symm, Nat.add_zero] at lamports
  have account := created.amountAt (.associatedToken (.launch mint) mint)
  rw [operation]
  by_cases same : accounts.mint = mint
  · subst same
    rw [if_pos rfl] at account ⊢
    refine (Market.Step.create _ created.launch' _ closed created.launchFresh
      ⟨accounts, bumps, world.unixTimestamp, created.created⟩).of_eq
      (Market.ext ?_ lamports ?_ ?_ ?_ ?_ account)
    · show world'.launches _ = _
      exact created.launch_after
    · show (world'.mints _).elim _ _ = _
      rw [created.mints, Function.update_self]
      rfl
    · show (world'.mints _).elim _ _ = _
      rw [created.mints, Function.update_self]
      rfl
    · refine (created.held accounts.mint fun owner => owner = .launch accounts.mint).trans ?_
      rw [if_pos ⟨rfl, decide_eq_true rfl⟩]
      rfl
    · refine (created.held accounts.mint fun owner =>
        ! decide (owner = .launch accounts.mint)).trans ?_
      rw [if_neg fun both => absurd both.2 (by simp)]
      rfl
  · rw [if_neg same]
    rw [if_neg fun equal => same (Pubkey.associatedToken.inj equal).2.symm, Nat.add_zero] at account
    have held (owners : Pubkey → Bool) : world'.tokenAccounts.held mint owners =
        world.tokenAccounts.held mint owners := by
      rw [created.held, if_neg fun both => same both.1, Nat.add_zero]
    refine market_pass _ closed ?_ ?_ (held _) (held _) account lamports
    · rw [created.launches, Function.update_of_ne fun equal => same (Pubkey.launch.inj equal).symm]
    · rw [created.mints, Function.update_of_ne fun equal => same equal.symm]

theorem graduate_refines {accounts : Graduate} {world world' : World}
    (graduated : accounts.Execution world world') (mint : Pubkey) :
    (world.market mint).Step (world.Feeds mint)
      (world.operation mint (.graduate accounts)) (world'.market mint) := by
  have closed : ¬ world.Feeds mint → receipts (accounts.feePayments graduated.shares ++
      [(accounts.graduationAuthority, graduated.remaining)]) (.vault mint) = 0 := fun unfed => by
    rw [receipts_append, Graduate.feePayments, graduated.met.dinoBuybackWallet,
      graduated.met.treasuryWallet, twoWallets_closed graduated.met.configPresent unfed, receipts_cons,
      if_neg]
    · rfl
    · exact fun equal => unfed ⟨graduated.config, graduated.met.configPresent,
        .inr (.inr (graduated.met.graduationAuthority.symm.trans equal.symm))⟩
  have lamports := graduated.lamports (.vault mint)
  have account := graduated.amountAt (.associatedToken (.launch mint) mint)
  rw [operation]
  by_cases same : accounts.mint = mint
  · subst same
    rw [if_pos rfl] at lamports ⊢
    refine (Market.Step.graduate _ graduated.launch graduated.remaining _ _ _ closed
      graduated.met.launchPresent graduated.trading graduated.remainingFee ?_).of_eq
      (Market.ext ?_ (Nat.eq_sub_of_add_eq lamports) ?_ ?_ ?_ ?_ ?_)
    · exact Nat.le.intro ((Nat.add_comm _ _).trans lamports)
    · show world'.launches _ = _
      exact graduated.launch_after
    · show (world'.mints _).elim _ _ = (world.mints _).elim _ _ + _
      rw [graduated.mints, Function.update_self, graduated.mintPresent, Option.elim_some,
        Option.elim_some]
    · show (world'.mints _).elim _ _ = (world.mints _).elim _ _ + _
      rw [graduated.mints, Function.update_self, graduated.mintPresent, Option.elim_some,
        Option.elim_some]
    · refine (graduated.held accounts.mint fun owner => owner = .launch accounts.mint).trans ?_
      simp only [true_and, graduated.met.graduationAuthority]
      exact congrArg (_ + ·) rfl
    · refine (graduated.held accounts.mint fun owner =>
        ! decide (owner = .launch accounts.mint)).trans ?_
      simp only [true_and, graduated.met.graduationAuthority]
      refine congrArg (_ + ·) ?_
      cases decide (graduated.config.graduationAuthority = .launch accounts.mint) <;> rfl
    · refine account.trans (congrArg (_ + ·) ?_)
      simp only [graduated.met.graduationAuthority, decide_eq_true_eq, Pubkey.associatedToken.injEq,
        and_true, @eq_comm _ (Pubkey.launch accounts.mint)]
  · rw [if_neg same]
    rw [if_neg fun equal => same (Pubkey.vault.inj equal).symm, Nat.add_zero] at lamports
    rw [if_neg fun equal => same (Pubkey.associatedToken.inj equal).2.symm, Nat.add_zero] at account
    have held (owners : Pubkey → Bool) : world'.tokenAccounts.held mint owners =
        world.tokenAccounts.held mint owners := by
      rw [graduated.held, if_neg fun both => same both.1, Nat.add_zero]
    refine market_pass _ closed ?_ ?_ (held _) (held _) account lamports
    · rw [graduated.launches, Function.update_of_ne fun equal => same (Pubkey.launch.inj equal).symm]
    · rw [graduated.mints, Function.update_of_ne fun equal => same equal.symm]

theorem seal_refines {accounts : SealGraduation} {world world' : World} {meteoraLbPair : Pubkey}
    (accepted : accounts.handler world meteoraLbPair = .ok world') (mint : Pubkey) :
    (world.market mint).Step (world.Feeds mint)
      (world.operation mint (.sealGraduation accounts meteoraLbPair)) (world'.market mint) := by
  obtain ⟨launch, address, present, graduated, unseeded, nonzero, frame⟩ :=
    SealGraduation.handler_ok accepted
  rw [operation, address, frame]
  by_cases same : launch.mint = mint
  · subst same
    rw [if_pos rfl]
    refine (Market.Step.sealPool _ launch meteoraLbPair present graduated unseeded nonzero).of_eq
      (Market.ext ?_ rfl rfl rfl rfl rfl rfl)
    exact Function.update_self _ _ _
  · rw [if_neg fun equal => same (Pubkey.launch.inj equal)]
    refine market_pass 0 (fun _ => rfl) ?_ rfl rfl rfl rfl rfl
    exact Function.update_of_ne (fun equal => same (Pubkey.launch.inj equal).symm) _ _

/-! ### The outside world -/

theorem transferLamports_refines {world world' : World} {source destination : Pubkey}
    {amount : UInt64} (signs : source.canSign)
    (paid : world.Paid source destination amount.toNat world') (mint : Pubkey) :
    (world.market mint).Step (world.Feeds mint)
      (world.operation mint (.transferLamports source destination amount))
      (world'.market mint) := by
  have lamports := paid.lamports (.vault mint)
  rw [if_neg (Pubkey.ne_of_canSign signs rfl).symm, Nat.add_zero] at lamports
  rw [operation]
  by_cases given : destination = .vault mint
  · rw [if_pos given.symm] at lamports
    rw [if_pos given, paid.frame]
    exact (Market.Step.giveLamports _ _).of_eq (Market.ext rfl lamports rfl rfl rfl rfl rfl)
  · rw [if_neg fun equal => given equal.symm, Nat.add_zero] at lamports
    rw [if_neg given, paid.frame]
    exact market_same mint rfl rfl rfl lamports

theorem open_refines {world world' : World} {address token owner : Pubkey}
    (accepted : world.openTokenAccount address token owner = .ok world') (mint : Pubkey) :
    (world.market mint).Step (world.Feeds mint) .pass (world'.market mint) := by
  obtain ⟨_, _, unused, rfl⟩ := openTokenAccount_ok accepted
  exact market_pass 0 (fun _ => rfl) rfl rfl (TokenAccounts.held_open unused _ _ _ _)
    (TokenAccounts.held_open unused _ _ _ _) (TokenAccounts.amountAt_open unused _ _ _) rfl

/-- A transfer between holders who are not the launch PDA moves nothing between the two sides. -/
theorem transferTokens_refines {world world' : World} {source destination authority : Pubkey}
    {amount : UInt64} (wellFormed : world.WellFormed) (signs : authority.canSign)
    (accepted : world.tokenTransfer source destination authority amount = .ok world')
    (mint : Pubkey) :
    (world.market mint).Step (world.Feeds mint)
      (world.operation mint (.transferTokens source destination authority amount))
      (world'.market mint) := by
  obtain ⟨frame, token, owner, moved⟩ := tokenTransfer_ok accepted
  obtain ⟨accounts, rfl⟩ : ∃ tokenAccounts, world' = { world with tokenAccounts } := ⟨_, frame⟩
  rw [operation, moved.destinationShape]
  by_cases same : token = mint
  · subst same
    have account := moved.amountAt (.curveAccount token)
    rw [if_neg (wellFormed.ne_curveAccount signs moved.sourceShape), Nat.add_zero] at account
    by_cases given : owner = .launch token
    · subst given
      obtain ⟨curve, other⟩ : World.curveTokens { world with tokenAccounts := accounts } token =
            world.curveTokens token + amount.toNat ∧
          World.otherTokens { world with tokenAccounts := accounts } token + amount.toNat =
            world.otherTokens token := curveTokens_moved_in signs moved
      rw [if_pos rfl]
      refine (Market.Step.giveTokens _ _ _ ?_).of_eq (Market.ext rfl rfl rfl rfl curve ?_ ?_)
      · exact Nat.le.intro ((Nat.add_comm _ _).trans other)
      · exact Nat.eq_sub_of_add_eq other
      · simp only [decide_eq_true_eq, @eq_comm _ destination]
        exact account
    · rw [if_neg fun equal => given (Prod.mk.inj (Option.some.inj equal)).2]
      have outsider : authority ≠ .launch token := Pubkey.ne_of_canSign signs rfl
      have elsewhere : Pubkey.curveAccount token ≠ destination := by
        rintro rfl
        exact given (wellFormed.curveAccount_mint moved.destinationShape).2
      rw [if_neg elsewhere, Nat.add_zero] at account
      refine market_pass 0 (fun _ => rfl) rfl rfl (moved.held_within ?_) (moved.held_within ?_)
        account rfl <;> simp only [outsider, given]
  · rw [if_neg fun equal => same (Prod.mk.inj (Option.some.inj equal)).1]
    exact market_pass 0 (fun _ => rfl) rfl rfl (moved.held_other same _) (moved.held_other same _)
      (wellFormed.moved_curveAccount moved same) rfl

theorem burn_refines {world world' : World} {address authority : Pubkey} {amount : UInt64}
    (wellFormed : world.WellFormed) (signs : authority.canSign)
    (accepted : world.burn address authority amount = .ok world') (mint : Pubkey) :
    (world.market mint).Step (world.Feeds mint)
      (world.operation mint (.burnTokens address authority amount)) (world'.market mint) := by
  obtain ⟨token, account, present, frame, supplied, debited⟩ := burn_ok accepted
  have outsider : authority ≠ .launch token := Pubkey.ne_of_canSign signs rfl
  have curve := debited.held mint fun owner => owner = .launch mint
  have other := debited.held mint fun owner => ! decide (owner = .launch mint)
  have amountAt := debited.amountAt (.curveAccount mint)
  have elsewhere : Pubkey.curveAccount mint ≠ address := by
    rintro rfl
    obtain ⟨rfl, owner⟩ := wellFormed.curveAccount_mint debited.sourceShape
    exact outsider owner
  rw [if_neg elsewhere, Nat.add_zero] at amountAt
  obtain ⟨accounts, rfl⟩ : ∃ tokenAccounts, world' = { world with
      mints := Function.update world.mints token (some { account with
        supply := account.supply - amount.toNat })
      tokenAccounts } := ⟨_, frame⟩
  rw [operation, debited.sourceShape]
  by_cases same : token = mint
  · subst same
    simp only [outsider, decide_false, Bool.false_eq_true, and_false, if_false, Nat.add_zero,
      Bool.not_false, and_self, if_true] at curve other
    have mintAfter : Function.update world.mints token (some { account with
        supply := account.supply - amount.toNat }) token = some { account with
        supply := account.supply - amount.toNat } := Function.update_self _ _ _
    rw [Option.any_some, if_pos (decide_eq_true rfl)]
    refine (Market.Step.burn _ _ ?_).of_eq (Market.ext rfl rfl ?_ ?_ curve ?_ amountAt)
    · exact Nat.le.intro ((Nat.add_comm _ _).trans other)
    · exact (congrArg (Option.elim · 0 Mint.minted) mintAfter).trans
        (congrArg (Option.elim · 0 Mint.minted) present).symm
    · refine (congrArg (Option.elim · 0 Mint.supply) mintAfter).trans ?_
      exact (congrArg (Option.elim · 0 Mint.supply - amount.toNat) present).symm
    · exact Nat.eq_sub_of_add_eq other
  · rw [if_neg fun both => same both.1, Nat.add_zero] at curve other
    rw [Option.any_some, if_neg fun equal => same (of_decide_eq_true equal)]
    exact market_pass 0 (fun _ => rfl) rfl
      (Function.update_of_ne (fun equal => same equal.symm) _ _) curve other amountAt rfl

/-! ### The refinement -/

/-- An accepted action takes the market of every launch through a step of its operation; the
cases are the actions. -/
theorem WellFormed.refines {world world' : World} {action : Action}
    (wellFormed : world.WellFormed) (accepted : world.execute action = .ok world')
    (mint : Pubkey) :
    (world.market mint).Step (world.Feeds mint) (world.operation mint action)
      (world'.market mint) := by
  cases action with
  | initializeConfig accounts params bump =>
    obtain ⟨_, _, _, _, frame⟩ := InitializeConfig.handler_ok accepted
    rw [frame]
    exact market_same mint rfl rfl rfl rfl
  | updateConfig accounts params =>
    obtain ⟨_, _, _, _, _, _, frame⟩ := UpdateConfig.handler_ok accepted
    rw [frame]
    exact market_same mint rfl rfl rfl rfl
  | setPaused accounts paused =>
    obtain ⟨_, _, _, frame⟩ := SetPaused.handler_ok accepted
    rw [frame]
    exact market_same mint rfl rfl rfl rfl
  | createToken accounts params bumps =>
    obtain ⟨created⟩ := CreateToken.execution accepted
    exact create_refines created mint
  | buy accounts tokenAmountOut maxSolIn =>
    obtain ⟨bought⟩ := Buy.execution accepted
    exact buy_refines wellFormed bought mint
  | sell accounts tokenAmountIn minSolOut =>
    obtain ⟨sold⟩ := Sell.execution accepted
    exact sell_refines wellFormed sold mint
  | graduate accounts =>
    obtain ⟨graduated⟩ := Graduate.execution accepted
    exact graduate_refines graduated mint
  | sealGraduation accounts meteoraLbPair => exact seal_refines accepted mint
  | transferLamports source destination amount =>
    obtain ⟨_, signs, moved⟩ := bind_eq_ok.mp accepted
    exact transferLamports_refines (require_eq_ok.mp signs) (systemTransfer_ok moved) mint
  | openTokenAccount address token owner => exact open_refines accepted mint
  | transferTokens source destination authority amount =>
    obtain ⟨_, signs, transferred⟩ := bind_eq_ok.mp accepted
    exact transferTokens_refines wellFormed (require_eq_ok.mp signs) transferred mint
  | burnTokens address authority amount =>
    obtain ⟨_, signs, burned⟩ := bind_eq_ok.mp accepted
    exact burn_refines wellFormed (require_eq_ok.mp signs) burned mint
  | setClock unixTimestamp =>
    obtain rfl := pure_eq_ok.mp accepted
    exact market_same mint rfl rfl rfl rfl

theorem genesis_sound (unixTimestamp : Int64) (funds : ℕ → ℕ) (mint : Pubkey) :
    ((genesis unixTimestamp funds).market mint).Sound where
  supplied := rfl
  issued := le_rfl
  unborn := fun _ => ⟨rfl, rfl, rfl, rfl, rfl⟩
  live := fun _ present => nomatch present

/-- What one accepted action keeps. -/
theorem sound_execute {world world' : World} {action : Action}
    (sound : world.WellFormed ∧ ∀ mint, (world.market mint).Sound)
    (accepted : world.execute action = .ok world') :
    world'.WellFormed ∧ ∀ mint, (world'.market mint).Sound :=
  ⟨sound.1.execute accepted, fun mint => (sound.2 mint).step (sound.1.refines accepted mint)⟩

theorem Reachable.sound {world : World} (reachable : world.Reachable) (mint : Pubkey) :
    (world.market mint).Sound :=
  (reachable.invariant (fun world => world.WellFormed ∧ ∀ mint, (world.market mint).Sound)
    (fun unixTimestamp funds =>
      ⟨genesis_wellFormed unixTimestamp funds, genesis_sound unixTimestamp funds⟩)
    fun _ _ _ sound accepted => sound_execute sound accepted).2 mint

end World

end Memecoin
