/-
This file is about lamports that nobody sent for. Anybody can transfer lamports
to a vault, or to any other address without a key. The program never looks at
such a balance except to pay out of a vault, and there it never needs more than
it has recorded itself. So two states that differ only in such balances accept
and refuse the same transactions, with the same errors, and differ by the same
lamports ever after: what is donated buys nothing, blocks nothing and never
comes out again. Only rent, which is left out, asks what such an address owns.
-/

import Memecoin.Library.Lockstep
import Memecoin.Solvency

namespace Memecoin

open Checked
open Lockstep

namespace World

/-- The second state is the first with other lamports, and by how much every holder has more. -/
structure Apart (gap : Pubkey → ℤ) (world other : World) : Prop where
  frame : other = { world with lamports := other.lamports }
  lamports : ∀ holder, (other.lamports holder : ℤ) = world.lamports holder + gap holder

/-- Whoever can sign has the same lamports in both states. -/
def Keyless (gap : Pubkey → ℤ) : Prop := ∀ holder : Pubkey, holder.canSign → gap holder = 0

/-- Both states allow the payer the same payments: its balances are equal, or both suffice. -/
def Covers (gap : Pubkey → ℤ) (payer : Pubkey) (amount : ℕ) (world other : World) : Prop :=
  gap payer = 0 ∨ amount ≤ world.lamports payer ∧ amount ≤ other.lamports payer

variable {gap : Pubkey → ℤ} {world other : World}

/-! ### What does not look at lamports -/

/-- An operation that carries lamports along unread. -/
theorem Apart.unread {Value : Type} (apart : Apart gap world other)
    (operation : World → Except ProgramError Value) (put : (Pubkey → ℕ) → Value → Value)
    (blind : ∀ lamports, operation { world with lamports } = (operation world).map (put lamports)) :
    Results (fun value value' => value = put world.lamports value ∧
      value' = put other.lamports value) (operation world) (operation other) := by
  rw [show operation other = (operation world).map (put other.lamports) from
    (congrArg operation apart.frame).trans (blind other.lamports)]
  refine .of_map fun value accepted => ⟨?_, rfl⟩
  have own : operation world = (operation world).map (put world.lamports) := blind world.lamports
  rw [accepted] at own
  exact Except.ok.inj own

/-- Such an operation on the state keeps the states apart. -/
theorem Apart.carried {next next' : World} (apart : Apart gap world other)
    (carried : next = { next with lamports := world.lamports } ∧
      next' = { next with lamports := other.lamports }) : Apart gap next next' := by
  obtain ⟨own, rfl⟩ := carried
  refine ⟨rfl, fun holder => ?_⟩
  rw [own]
  exact apart.lamports holder

theorem Apart.keeps (apart : Apart gap world other)
    (operation : World → Except ProgramError World)
    (blind : ∀ lamports, operation { world with lamports } =
      (operation world).map fun next => { next with lamports }) :
    Results (Apart gap) (operation world) (operation other) :=
  (apart.unread operation _ blind).strengthen fun _ _ _ _ carried => apart.carried carried

theorem tokenTransfer_apart (apart : Apart gap world other)
    (source destination authority : Pubkey) (amount : UInt64) :
    Results (Apart gap) (world.tokenTransfer source destination authority amount)
      (other.tokenTransfer source destination authority amount) :=
  apart.keeps (fun world => world.tokenTransfer source destination authority amount)
    fun lamports => by
      simp only [tokenTransfer, map_bind]
      rfl

theorem mintTo_apart (apart : Apart gap world other) (mint destination authority : Pubkey)
    (amount : UInt64) :
    Results (Apart gap) (world.mintTo mint destination authority amount)
      (other.mintTo mint destination authority amount) :=
  apart.keeps (fun world => world.mintTo mint destination authority amount)
    fun lamports => by
      simp only [mintTo, map_bind]
      rfl

theorem initAssociatedIfNeeded_withLamports (world : World) (lamports : Pubkey → ℕ)
    (address mint owner : Pubkey) :
    { world with lamports }.initAssociatedIfNeeded address mint owner =
      (world.initAssociatedIfNeeded address mint owner).map fun next => { next with lamports } := by
  simp only [initAssociatedIfNeeded, map_bind]
  cases world.tokenAccounts.get? address with
  | none => rfl
  | some account =>
    simp only [map_bind]
    rfl

/-! ### Payments -/

theorem systemTransfer_apart (apart : Apart gap world other) {source destination : Pubkey}
    {amount : UInt64} (covers : Covers gap source amount.toNat world other) :
    Results (Apart gap) (world.systemTransfer source destination amount)
      (other.systemTransfer source destination amount) := by
  have same : amount.toNat ≤ other.lamports source ↔ amount.toNat ≤ world.lamports source := by
    have lamports := apart.lamports source
    rcases covers with equal | ⟨enough, enough'⟩
    · omega
    · exact iff_of_true enough' enough
  by_cases enough : amount.toNat ≤ world.lamports source
  · simp only [systemTransfer, require, if_pos enough, if_pos (same.mpr enough)]
    refine .ok ⟨by rw [apart.frame], fun holder => ?_⟩
    have moved := Balances.move_apply world.lamports source destination amount.toNat enough holder
    have moved' := Balances.move_apply other.lamports source destination amount.toNat
      (same.mpr enough) holder
    have lamports := apart.lamports holder
    show (Balances.move other.lamports source destination amount.toNat holder : ℤ) =
      Balances.move world.lamports source destination amount.toNat holder + gap holder
    omega
  · simp only [systemTransfer, require, if_neg enough, if_neg (enough ∘ same.mp)]
    exact .error _

theorem payShare_apart (apart : Apart gap world other) {source destination : Pubkey}
    {share : UInt64} (covers : Covers gap source share.toNat world other) :
    Results (Apart gap) (world.payShare source destination share)
      (other.payShare source destination share) := by
  unfold payShare
  split
  · exact systemTransfer_apart apart covers
  · exact .ok apart

/-- The induction is on the payments; what is left of a covered list stays covered. -/
theorem payShares_apart (apart : Apart gap world other) {payer : Pubkey}
    {payments : List (Pubkey × UInt64)} (covers : Covers gap payer (owed payments) world other) :
    Results (Apart gap) (world.payShares payer payments) (other.payShares payer payments) := by
  induction payments generalizing world other with
  | nil => exact .ok apart
  | cons payment rest inductionHypothesis =>
    obtain ⟨payee, share⟩ := payment
    rw [owed_cons] at covers
    have first : Covers gap payer share.toNat world other :=
      covers.imp_right fun ⟨enough, enough'⟩ =>
        ⟨Nat.le_of_add_right_le enough, Nat.le_of_add_right_le enough'⟩
    refine (payShare_apart apart first).bind fun next next' paid paid' apart' =>
      inductionHypothesis apart' (covers.imp_right fun ⟨enough, enough'⟩ => ?_)
    have left := (payShare_ok paid).lamports payer
    have left' := (payShare_ok paid').lamports payer
    rw [if_pos rfl] at left left'
    exact ⟨by omega, by omega⟩

/-- A sale pays no more out of the vault than is recorded. -/
theorem Reachable.sale_covered (reachable : world.Reachable) {accounts : TradeAccounts}
    {config : Config} {launch : TokenLaunch} {tokenAmountIn minSolOut : UInt64} {terms : SellTerms}
    (met : accounts.Met world config launch)
    (quoted : SellTerms.quote config launch tokenAmountIn minSolOut = .ok terms) :
    owed (accounts.salePayments terms) ≤ world.lamports accounts.curveVault := by
  obtain ⟨_, _, gross, _, net, _, split⟩ := SellTerms.quote_eq_ok.mp quoted
  have payout := (solOutForTokensIn_eq_ok.mp gross).2.2.2
  have shares := (splitThreeWay_eq_ok.mp split).2.2
  have capped : terms.grossSolOut.toNat ≤ launch.realSolReserves.toNat :=
    payout.trans_le (Nat.min_le_right _ _)
  have solvent := reachable.solvent met.launchPresent
  rw [accounts.owed_salePayments, met.vaultAddress]
  omega

/-- A graduation pays out of the vault what is recorded. -/
theorem Reachable.graduation_covered (reachable : world.Reachable) {accounts : Graduate}
    {config : Config} {launch : TokenLaunch} {shares : TwoWaySplit}
    (met : accounts.Met world config launch)
    (passed : Graduate.feeSplit config launch = .ok shares) :
    owed (accounts.feePayments shares) +
      (saturatingSub launch.realSolReserves config.graduationFeeLamports).toNat ≤
        world.lamports accounts.curveVault := by
  have remaining := graduate_remaining passed
  have total := (Graduate.feeSplit_eq_ok.mp passed).2.2.2.2.2
  have solvent := reachable.solvent met.launchPresent
  rw [accounts.owed_feePayments, met.vaultAddress]
  omega

end World

/-! ### Instructions -/

section Instructions

variable {gap : Pubkey → ℤ} {world other : World}

theorem TradeAccounts.validate_apart (apart : World.Apart gap world other)
    (accounts : TradeAccounts) : accounts.validate other = accounts.validate world := by
  rw [apart.frame]
  rfl

theorem CreateToken.handler_apart (apart : World.Apart gap world other)
    (keyless : World.Keyless gap) (accounts : CreateToken) (params : CreateTokenParams)
    (bumps : CreateTokenBumps) :
    Results (World.Apart gap) (accounts.handler world params bumps)
      (accounts.handler other params bumps) := by
  have validated := apart.unread accounts.validate
    (fun lamports read => (read.1, { read.2 with lamports })) fun lamports => by
      simp only [validate, map_bind]
      rfl
  refine validated.bind fun read read' accepted _ carried => ?_
  obtain ⟨config, opened⟩ := read
  obtain ⟨config', opened'⟩ := read'
  obtain ⟨own, other'⟩ := carried
  obtain ⟨rfl, opens'⟩ := Prod.mk.inj other'
  have apart' := apart.carried ⟨(Prod.mk.inj own).2, opens'⟩
  obtain ⟨_, signs, _⟩ := bind_eq_ok.mp accepted
  have covers := keyless _ (require_eq_ok.mp signs)
  refine .bind_same fun _ _ => .bind_same fun _ _ => .bind_same fun _ _ => .bind_same fun _ _ =>
    .bind_same fun shares _ => (World.payShares_apart apart' (.inl covers)).bind
      fun paid paid' _ _ apart' => .bind_same fun amount _ =>
        (World.mintTo_apart apart' _ _ _ _).bind fun minted minted' _ _ apart' =>
          .bind_same fun virtualTokens _ => .ok ?_
  rw [apart'.frame]
  exact ⟨rfl, apart'.lamports⟩

theorem Buy.handler_apart (apart : World.Apart gap world other) (keyless : World.Keyless gap)
    (accounts : TradeAccounts) (tokenAmountOut maxSolIn : UInt64) :
    Results (World.Apart gap) (handler accounts world tokenAmountOut maxSolIn)
      (handler accounts other tokenAmountOut maxSolIn) := by
  rw [handler, handler, accounts.validate_apart apart]
  refine .bind_same fun read validated => ?_
  obtain ⟨config, launch⟩ := read
  have signs := (TradeAccounts.validate_eq_ok.mp validated).signer
  have covers := keyless _ signs
  refine .bind_same fun terms _ => (World.systemTransfer_apart apart (.inl covers)).bind
    fun charged charged' _ _ apart' => .bind_same fun shares _ =>
      (World.payShares_apart apart' (.inl covers)).bind fun paid paid' _ _ apart' =>
        (World.tokenTransfer_apart apart' _ _ _ _).bind fun sent sent' _ _ apart' =>
          .bind_same fun launch' _ => .ok ?_
  rw [apart'.frame]
  exact ⟨rfl, apart'.lamports⟩

theorem Sell.handler_apart (apart : World.Apart gap world other) (reachable : world.Reachable)
    (reachable' : other.Reachable) (accounts : TradeAccounts) (tokenAmountIn minSolOut : UInt64) :
    Results (World.Apart gap) (handler accounts world tokenAmountIn minSolOut)
      (handler accounts other tokenAmountIn minSolOut) := by
  have same := accounts.validate_apart apart
  rw [handler, handler, same]
  refine .bind_same fun read validated => ?_
  obtain ⟨config, launch⟩ := read
  refine .bind_same fun terms quoted => ?_
  have met := TradeAccounts.validate_eq_ok.mp validated
  have met' := TradeAccounts.validate_eq_ok.mp (same.trans validated)
  have enough := reachable.sale_covered met (mapError_eq_ok.mp quoted)
  have enough' := reachable'.sale_covered met' (mapError_eq_ok.mp quoted)
  refine (World.tokenTransfer_apart apart _ _ _ _).bind fun sent sent' sending sending' apart' => ?_
  have covers : World.Covers gap accounts.curveVault (World.owed (accounts.salePayments terms))
      sent sent' := by
    rw [(World.tokenTransfer_ok sending).1, (World.tokenTransfer_ok sending').1]
    exact .inr ⟨enough, enough'⟩
  refine (World.payShares_apart apart' covers).bind fun paid paid' _ _ apart' =>
    .bind_same fun launch' _ => .ok ?_
  rw [apart'.frame]
  exact ⟨rfl, apart'.lamports⟩

theorem Graduate.handler_apart (apart : World.Apart gap world other) (reachable : world.Reachable)
    (reachable' : other.Reachable) (accounts : Graduate) :
    Results (World.Apart gap) (accounts.handler world) (accounts.handler other) := by
  have validated := apart.unread accounts.validate
    (fun lamports read => (read.1, read.2.1, { read.2.2 with lamports })) fun lamports => by
      simp only [validate, map_bind, World.initAssociatedIfNeeded_withLamports]
      cases world.initAssociatedIfNeeded accounts.graduationAuthorityTokenAccount accounts.mint
        accounts.graduationAuthority <;> rfl
  refine validated.bind fun read read' accepted accepted' carried => ?_
  obtain ⟨config, launch, opened⟩ := read
  obtain ⟨config', launch', opened'⟩ := read'
  obtain ⟨own, other'⟩ := carried
  obtain ⟨rfl, opens'⟩ := Prod.mk.inj other'
  obtain ⟨rfl, opens'⟩ := Prod.mk.inj opens'
  have opens := (Prod.mk.inj (Prod.mk.inj own).2).2
  have apart' := apart.carried ⟨opens, opens'⟩
  refine .bind_same fun shares passed => ?_
  have passed := mapError_eq_ok.mp passed
  have enough := reachable.graduation_covered (validate_eq_ok.mp accepted).1 passed
  have enough' := reachable'.graduation_covered (validate_eq_ok.mp accepted').1 passed
  rw [← show opened.lamports = world.lamports by rw [opens]] at enough
  rw [← show opened'.lamports = other.lamports by rw [opens']] at enough'
  refine (World.payShares_apart apart' (.inr ⟨Nat.le_of_add_right_le enough,
    Nat.le_of_add_right_le enough'⟩)).bind fun paid paid' paying paying' apart' =>
      .bind_same fun amount _ => (World.mintTo_apart apart' _ _ _ _).bind
        fun minted minted' minting minting' apart' => ?_
  have covers : World.Covers gap accounts.curveVault (World.owed [(accounts.graduationAuthority,
      saturatingSub launch'.realSolReserves config'.graduationFeeLamports)]) minted minted' := by
    obtain ⟨_, _, _, _, frame, _⟩ := World.mintTo_ok minting
    obtain ⟨_, _, _, _, frame', _⟩ := World.mintTo_ok minting'
    have left := (World.payShares_ok paying).lamports accounts.curveVault
    have left' := (World.payShares_ok paying').lamports accounts.curveVault
    rw [if_pos rfl] at left left'
    have same : minted.lamports = paid.lamports := by rw [frame]
    have same' : minted'.lamports = paid'.lamports := by rw [frame']
    rw [World.Covers, same, same', World.owed_cons, World.owed_nil]
    exact .inr ⟨by omega, by omega⟩
  refine (World.payShares_apart apart' covers).bind fun final final' _ _ apart' => .ok ?_
  rw [apart'.frame]
  exact ⟨rfl, apart'.lamports⟩

end Instructions

/-! ### Main result -/

namespace World

variable {gap : Pubkey → ℤ} {world other : World}

/-- One action; the cases are the actions. -/
theorem execute_apart (apart : Apart gap world other) (keyless : Keyless gap)
    (reachable : world.Reachable) (reachable' : other.Reachable) (action : Action) :
    Results (Apart gap) (world.execute action) (other.execute action) := by
  cases action with
  | initializeConfig accounts params bump =>
    exact apart.keeps (fun world => accounts.handler world params bump)
      fun lamports => by
        simp only [InitializeConfig.handler, map_bind]
        rfl
  | updateConfig accounts params =>
    exact apart.keeps (fun world => UpdateConfig.handler accounts world params)
      fun lamports => by
        simp only [UpdateConfig.handler, map_bind]
        rfl
  | setPaused accounts paused =>
    exact apart.keeps (fun world => SetPaused.handler accounts world paused)
      fun lamports => by
        simp only [SetPaused.handler, map_bind]
        rfl
  | createToken accounts params bumps =>
    exact CreateToken.handler_apart apart keyless accounts params bumps
  | buy accounts tokenAmountOut maxSolIn =>
    exact Buy.handler_apart apart keyless accounts tokenAmountOut maxSolIn
  | sell accounts tokenAmountIn minSolOut =>
    exact Sell.handler_apart apart reachable reachable' accounts tokenAmountIn minSolOut
  | graduate accounts => exact Graduate.handler_apart apart reachable reachable' accounts
  | sealGraduation accounts meteoraLbPair =>
    exact apart.keeps (fun world => accounts.handler world meteoraLbPair)
      fun lamports => by
        simp only [SealGraduation.handler, map_bind]
        rfl
  | transferLamports source destination amount =>
    refine .bind_same fun _ signs => ?_
    exact systemTransfer_apart apart (.inl (keyless _ (require_eq_ok.mp signs)))
  | openTokenAccount address mint owner =>
    exact apart.keeps (fun world => world.openTokenAccount address mint owner)
      fun lamports => by
        simp only [openTokenAccount, map_bind]
        rfl
  | transferTokens source destination authority amount =>
    exact .bind_same fun _ _ => tokenTransfer_apart apart source destination authority amount
  | burnTokens address authority amount =>
    refine .bind_same fun _ _ => ?_
    exact apart.keeps (fun world => world.burn address authority amount)
      fun lamports => by
        simp only [burn, map_bind]
        rfl
  | setClock unixTimestamp => exact .ok ⟨by rw [apart.frame], apart.lamports⟩

/-- A donation to one address, and the same donation to another. -/
theorem donations_apart {base : World} {source first second : Pubkey} {amount : UInt64}
    (accepted : base.execute (.transferLamports source first amount) = .ok world)
    (accepted' : base.execute (.transferLamports source second amount) = .ok other) :
    Apart (fun holder => (if holder = second then (amount.toNat : ℤ) else 0) -
      if holder = first then (amount.toNat : ℤ) else 0) world other := by
  obtain ⟨_, _, moved⟩ := bind_eq_ok.mp accepted
  obtain ⟨_, _, moved'⟩ := bind_eq_ok.mp accepted'
  obtain ⟨_, frame, lamports⟩ := systemTransfer_ok moved
  obtain ⟨_, frame', lamports'⟩ := systemTransfer_ok moved'
  refine ⟨by rw [frame', frame], fun holder => ?_⟩
  have paid := lamports holder
  have paid' := lamports' holder
  split_ifs at paid paid' ⊢ <;> omega

/-- Rent aside, two reachable states that differ only in the lamports of addresses without a key
differ by the same lamports, and in nothing else, after every run; and every action that follows is
accepted in both, or refused in both with the same error. -/
theorem donations_inert (reachable : world.Reachable) (reachable' : other.Reachable)
    (apart : Apart gap world other) (keyless : Keyless gap) (actions : List Action) :
    Apart gap (world.run actions) (other.run actions) ∧ ∀ action,
      Results (Apart gap) ((world.run actions).execute action)
        ((other.run actions).execute action) := by
  have after := run_related execute execute
    (fun world other => Apart gap world other ∧ world.Reachable ∧ other.Reachable)
    (fun world other action related =>
      (execute_apart related.1 keyless related.2.1 related.2.2 action).strengthen
        fun _ _ accepted accepted' apart' =>
          ⟨apart', related.2.1.step accepted, related.2.2.step accepted'⟩)
    ⟨apart, reachable, reachable'⟩ actions
  exact ⟨after.1, fun action =>
    execute_apart after.1 keyless (reachable.run actions) (reachable'.run actions) action⟩

/-- The whale donates to the vault, or to the launch account, before the trader buys and sells. -/
theorem donations_inert_sample :
    let base := Sample.after Sample.params []
    let trades := [.buy (Sample.trading Sample.trader) 100_000_000_000 10_000_000,
      .sell (Sample.trading Sample.trader) 40_000_000_000 0]
    let donated destination := base.run [.transferLamports Sample.whale destination 5_000_000]
    let gap holder : ℤ := (if holder = Pubkey.launch Sample.mint then 5_000_000 else 0) -
      if holder = .vault Sample.mint then 5_000_000 else 0
    Apart gap ((donated (.vault Sample.mint)).run trades)
      ((donated (.launch Sample.mint)).run trades) := by
  intro base trades donated gap
  have accepted (destination : Pubkey)
      (either : destination ∈ [.vault Sample.mint, .launch Sample.mint]) :
      base.execute (.transferLamports Sample.whale destination 5_000_000) =
        .ok (donated destination) := by
    refine execute_run ?_
    revert destination
    decide +kernel
  have reachable (destination : Pubkey) : (donated destination).Reachable :=
    (Sample.reachable_after _ _).run _
  have keyless : Keyless gap := fun holder signs => by
    have launch : holder ≠ .launch Sample.mint := Pubkey.ne_of_canSign signs rfl
    have vault : holder ≠ .vault Sample.mint := Pubkey.ne_of_canSign signs rfl
    show (if _ then _ else _) - (if _ then _ else _) = (0 : ℤ)
    rw [if_neg launch, if_neg vault, sub_zero]
  have apart := donations_apart (accepted (.vault Sample.mint) (by decide))
    (accepted (.launch Sample.mint) (by decide))
  exact (donations_inert (reachable _) (reachable _) apart keyless trades).1

end World

end Memecoin
