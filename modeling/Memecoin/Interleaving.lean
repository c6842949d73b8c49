/-
This file proves that the chain's order of transactions on different launches does
not matter. What the program keeps about a mint is a shard: its launch, its mint,
its token accounts and the events about it. An action on a mint, be it an
instruction, an SPL transfer or a burn, is determined by the configuration, the
clock and the shard it addresses, and leaves every other shard alone; only lamports
are shared, and they move by entries that the shard determines. Two runs that accept
all their actions, that agree mint by mint on the actions of the mint, and that make
the same lamport transfers, therefore end in the same state.
-/

import Memecoin.Library.Shards
import Memecoin.Custody
import Memecoin.Indexer

namespace Memecoin

open Checked

/-! ### Strands -/

/-- The actions that keep the configuration and the clock. -/
def Action.confined : Action → Bool
  | .initializeConfig .. | .updateConfig .. | .setPaused .. | .setClock _ => false
  | _ => true

/-- What has an order of its own: the actions on one mint. A lamport transfer shares a strand only
with transfers equal to it, and a confined action without a mint is refused. -/
inductive Strand
  | mint (mint : Pubkey)
  | payment (source destination : Pubkey) (amount : UInt64)
  | idle
  deriving DecidableEq

namespace World

/-- The mint that an action is about. An SPL transfer or a burn names no mint; its mint is that of
the source account. -/
def mint? (world : World) : Action → Option Pubkey
  | .createToken accounts _ _ => some accounts.mint
  | .buy accounts _ _ => some accounts.mint
  | .sell accounts _ _ => some accounts.mint
  | .graduate accounts => some accounts.mint
  | .sealGraduation accounts _ =>
    match accounts.launch with
    | .launch mint => some mint
    | _ => none
  | .openTokenAccount _ mint _ => some mint
  | .transferTokens source _ _ _ => (world.tokenAccounts.shape source).map Prod.fst
  | .burnTokens address _ _ => (world.tokenAccounts.shape address).map Prod.fst
  | _ => none

/-- The strand of an action in the state that it finds. -/
def strand (world : World) (action : Action) : Strand :=
  match action with
  | .transferLamports source destination amount => .payment source destination amount
  | _ => (world.mint? action).elim .idle .mint

theorem strand_eq_mint {world : World} {action : Action} {mint : Pubkey} :
    world.strand action = .mint mint ↔ world.mint? action = some mint := by
  have named (about : Option Pubkey) : about.elim .idle .mint = Strand.mint mint ↔
      about = some mint := by
    cases about with
    | none => exact ⟨fun equal => (nomatch equal), fun equal => (nomatch equal)⟩
    | some own => exact ⟨fun equal => congrArg some (Strand.mint.inj equal),
        fun equal => congrArg Strand.mint (Option.some.inj equal)⟩
  cases action with
  | transferLamports => exact ⟨fun equal => (nomatch equal), fun equal => (nomatch equal)⟩
  | _ => simp only [strand, named]

end World

/-! ### Shards -/

/-- What the program keeps about a mint. A token account is given by its owner and amount. -/
@[ext]
structure Shard where
  launch : Option TokenLaunch
  mint : Option Mint
  accounts : Pubkey → Option (Pubkey × ℤ)
  events : List Event

/-- The shard of a mint. -/
def World.shardOf (world : World) (mint : Pubkey) : Shard where
  launch := world.launches (.launch mint)
  mint := world.mints mint
  accounts := fun address => (world.tokenAccounts.shape address).bind fun shape =>
    if shape.1 = mint then some (shape.2, (world.tokenAccounts.amountAt address : ℤ)) else none
  events := world.events.filter (·.mint? = some mint)

namespace Shard

/-- Open the accounts that the action opens, then book its entries. -/
def moved (shard : Shard) (action : Action) (address : Pubkey) : Option (Pubkey × ℤ) :=
  ((shard.accounts address).or ((action.opened address).map fun shape => (shape.2, 0))).map
    fun account => (account.1, account.2 + Balances.net action.tokenEntries address)

/-- What an accepted action makes of the shard of its mint. -/
def step (config : Option Config) (unixTimestamp : Int64) (shard : Shard) (action : Action) :
    Except ProgramError Shard :=
  match action with
  | .createToken accounts params bumps => do
    let config ← okOr config .accountNotInitialized
    let shares ← (splitTwoWay config.creationFeeLamports config.creationSplitDinoBps).mapError
      .memecoin
    pure {
      launch := some (accounts.newLaunch bumps unixTimestamp TokenLaunch.curveAllocationUnits
        TokenLaunch.virtualTokenUnits)
      mint := some ⟨.mintAuthority accounts.mint, TokenLaunch.curveAllocationUnits.toNat,
        TokenLaunch.curveAllocationUnits.toNat⟩
      accounts := shard.moved action
      events := shard.events ++
        [accounts.created params config.creationFeeLamports shares unixTimestamp] }
  | .buy accounts tokenAmountOut maxSolIn => do
    let config ← okOr config .accountNotInitialized
    let launch ← okOr shard.launch .accountNotInitialized
    let terms ← (BuyTerms.quote config launch tokenAmountOut maxSolIn).mapError .memecoin
    let shares ← (splitThreeWay terms.fee config.tradeSplitCreatorBps config.tradeSplitDinoBps
      config.tradeSplitTreasuryBps).mapError .memecoin
    let launch' ← (launch.applyBuy terms.solToCurve tokenAmountOut).mapError .memecoin
    pure { shard with
      launch := some launch'
      accounts := shard.moved action
      events := shard.events ++ [terms.executed launch'.mint accounts.trader tokenAmountOut shares
        launch' unixTimestamp] }
  | .sell accounts tokenAmountIn minSolOut => do
    let config ← okOr config .accountNotInitialized
    let launch ← okOr shard.launch .accountNotInitialized
    let terms ← (SellTerms.quote config launch tokenAmountIn minSolOut).mapError .memecoin
    let launch' ← (launch.applySell terms.grossSolOut tokenAmountIn).mapError .memecoin
    pure { shard with
      launch := some launch'
      accounts := shard.moved action
      events := shard.events ++ [terms.executed launch'.mint accounts.trader tokenAmountIn launch'
        unixTimestamp] }
  | .graduate accounts => do
    let config ← okOr config .accountNotInitialized
    let launch ← okOr shard.launch .accountNotInitialized
    let mint ← okOr shard.mint .accountNotInitialized
    let shares ← (Graduate.feeSplit config launch).mapError .memecoin
    let remaining := saturatingSub launch.realSolReserves config.graduationFeeLamports
    pure {
      launch := some (launch.graduate remaining)
      mint := some { mint with
        supply := mint.supply + TokenLaunch.graduationReserveUnits.toNat
        minted := mint.minted + TokenLaunch.graduationReserveUnits.toNat }
      accounts := shard.moved action
      events := shard.events ++ [Graduate.graduated accounts.mint launch.creator config shares
        remaining TokenLaunch.graduationReserveUnits unixTimestamp] }
  | .sealGraduation _ meteoraLbPair => do
    let launch ← okOr shard.launch .accountNotInitialized
    pure { shard with
      launch := some (launch.withPool meteoraLbPair)
      accounts := shard.moved action
      events := shard.events ++
        [.poolSeeded { mint := launch.mint, meteoraLbPair, timestamp := unixTimestamp }] }
  | .burnTokens _ _ amount => do
    let mint ← okOr shard.mint .accountNotInitialized
    pure { shard with
      mint := some { mint with supply := mint.supply - amount.toNat }
      accounts := shard.moved action }
  | _ => pure { shard with accounts := shard.moved action }

end Shard

/-! ### Token accounts, shard by shard -/

namespace World

variable {world world' : World} {action : Action} {mint : Pubkey}

/-- A confined action opens accounts of its mint only. -/
theorem mint_opened (confined : action.confined) {address : Pubkey} {shape : Pubkey × Pubkey}
    (opened : action.opened address = some shape) : world.mint? action = some shape.1 := by
  have of_ite {named : Prop} [Decidable named] {other : Pubkey × Pubkey}
      (found : (if named then some other else none) = some shape) : other = shape := by
    by_cases met : named
    · exact Option.some.inj ((if_pos met).symm.trans found)
    · exact nomatch (if_neg met).symm.trans found
  cases action with
  | createToken accounts params bumps => rw [← of_ite opened]; rfl
  | graduate accounts => rw [← of_ite opened]; rfl
  | openTokenAccount other mint owner => rw [← of_ite opened]; rfl
  | initializeConfig | updateConfig | setPaused | setClock => cases confined
  | _ => cases opened

/-- A confined action books entries of accounts of its mint only. -/
theorem mint_booked (confined : action.confined) (accepted : world.execute action = .ok world')
    {entry : Pubkey × ℤ} (booked : entry ∈ action.tokenEntries) :
    ∃ shape, world'.tokenAccounts.shape entry.1 = some shape ∧
      world.mint? action = some shape.1 := by
  cases action with
  | createToken accounts params bumps =>
    obtain rfl := List.mem_singleton.mp booked
    obtain ⟨created⟩ := CreateToken.execution accepted
    exact ⟨_, (created.shape _).trans (if_pos rfl), rfl⟩
  | buy accounts tokenAmountOut maxSolIn =>
    obtain ⟨bought⟩ := Buy.execution accepted
    rcases List.mem_cons.mp booked with rfl | booked
    · exact ⟨_, (bought.tokens.shape _).trans bought.tokens.sourceShape, rfl⟩
    · obtain rfl := List.mem_singleton.mp booked
      exact ⟨_, (bought.tokens.shape _).trans bought.tokens.destinationShape, rfl⟩
  | sell accounts tokenAmountIn minSolOut =>
    obtain ⟨sold⟩ := Sell.execution accepted
    rcases List.mem_cons.mp booked with rfl | booked
    · exact ⟨_, (sold.tokens.shape _).trans sold.tokens.sourceShape, rfl⟩
    · obtain rfl := List.mem_singleton.mp booked
      exact ⟨_, (sold.tokens.shape _).trans sold.tokens.destinationShape, rfl⟩
  | graduate accounts =>
    obtain rfl := List.mem_singleton.mp booked
    obtain ⟨graduated⟩ := Graduate.execution accepted
    refine ⟨_, (graduated.shape _).trans (if_pos ?_), rfl⟩
    rw [graduated.met.graduationAuthority]
  | transferTokens source destination authority amount =>
    obtain ⟨_, _, transferred⟩ := bind_eq_ok.mp accepted
    obtain ⟨_, token, owner, moved⟩ := tokenTransfer_ok transferred
    have about : world.mint? (.transferTokens source destination authority amount) = some token :=
      congrArg (Option.map Prod.fst) moved.sourceShape
    rcases List.mem_cons.mp booked with rfl | booked
    · exact ⟨_, (moved.shape _).trans moved.sourceShape, about⟩
    · obtain rfl := List.mem_singleton.mp booked
      exact ⟨_, (moved.shape _).trans moved.destinationShape, about⟩
  | burnTokens address authority amount =>
    obtain ⟨_, _, burned⟩ := bind_eq_ok.mp accepted
    obtain ⟨token, _, _, _, _, debited⟩ := burn_ok burned
    obtain rfl := List.mem_singleton.mp booked
    exact ⟨_, (debited.shape _).trans debited.sourceShape,
      congrArg (Option.map Prod.fst) debited.sourceShape⟩
  | initializeConfig | updateConfig | setPaused | setClock => cases confined
  | _ => cases booked

theorem accounts_of_shape {address : Pubkey} {shape : Pubkey × Pubkey}
    (found : world.tokenAccounts.shape address = some shape) (mint : Pubkey) :
    (world.shardOf mint).accounts address =
      if shape.1 = mint then some (shape.2, (world.tokenAccounts.amountAt address : ℤ))
      else none := by
  simp only [shardOf, found, Option.bind_some]

theorem accounts_of_absent {address : Pubkey} (absent : world.tokenAccounts.shape address = none)
    (mint : Pubkey) : (world.shardOf mint).accounts address = none := by
  simp only [shardOf, absent, Option.bind_none]

theorem amountAt_of_absent {address : Pubkey} (absent : world.tokenAccounts.shape address = none) :
    world.tokenAccounts.amountAt address = 0 := by
  rw [TokenAccounts.amountAt, Option.map_eq_none_iff.mp absent]
  rfl

/-- An opened account is new, or it is there already and what it is opened as. -/
theorem Reachable.opened_shape (reachable : world.Reachable)
    (accepted : world.execute action = .ok world') {address : Pubkey}
    {shape opened : Pubkey × Pubkey}
    (found : world.tokenAccounts.shape address = some shape)
    (opening : action.opened address = some opened) : opened = shape := by
  have after := execute_shape accepted address
  rw [reachable.shape_kept accepted found, opening] at after
  exact (Option.some.inj after).symm

/-- The token accounts of the action's mint. -/
theorem Reachable.accounts_own (reachable : world.Reachable) (confined : action.confined)
    (accepted : world.execute action = .ok world') (about : world.mint? action = some mint) :
    (world'.shardOf mint).accounts = (world.shardOf mint).moved action := by
  funext address
  have amount := execute_amounts accepted address
  have shape' := execute_shape accepted address
  rw [Shard.moved]
  cases found : world.tokenAccounts.shape address with
  | some shape =>
    rw [accounts_of_shape (reachable.shape_kept accepted found), accounts_of_shape found, amount]
    by_cases same : shape.1 = mint
    · rw [if_pos same, if_pos same]
      rfl
    · cases opening : action.opened address with
      | some opened =>
        have own := Option.some.inj (about.symm.trans (mint_opened confined opening))
        refine absurd own fun named => ?_
        exact same (reachable.opened_shape accepted found opening ▸ named.symm)
      | none =>
        rw [if_neg same, if_neg same]
        rfl
  | none =>
    rw [accounts_of_absent found]
    cases opening : action.opened address with
    | some opened =>
      rw [opening, found] at shape'
      have named := Option.some.inj (about.symm.trans (mint_opened confined opening))
      rw [accounts_of_shape shape', if_pos named.symm, amount, amountAt_of_absent found]
      rfl
    | none =>
      rw [opening, found] at shape'
      rw [accounts_of_absent shape']
      rfl

/-- The token accounts of other mints. -/
theorem Reachable.accounts_other (reachable : world.Reachable) (confined : action.confined)
    (accepted : world.execute action = .ok world') (different : world.mint? action ≠ some mint) :
    (world'.shardOf mint).accounts = (world.shardOf mint).accounts := by
  funext address
  have shape' := execute_shape accepted address
  cases found : world.tokenAccounts.shape address with
  | some shape =>
    have kept := reachable.shape_kept accepted found
    rw [accounts_of_shape kept, accounts_of_shape found]
    by_cases same : shape.1 = mint
    · have untouched : address ∉ action.tokenEntries.map (·.1) := by
        intro named
        obtain ⟨entry, booked, rfl⟩ := List.mem_map.mp named
        obtain ⟨_, after, about⟩ := mint_booked confined accepted booked
        rw [kept] at after
        obtain rfl := Option.some.inj after
        exact different (same ▸ about)
      rw [execute_amounts accepted address, Balances.net_of_notMem untouched, add_zero]
    · rw [if_neg same, if_neg same]
  | none =>
    rw [accounts_of_absent found]
    cases opening : action.opened address with
    | some opened =>
      rw [opening, found] at shape'
      rw [accounts_of_shape shape', if_neg]
      rintro rfl
      exact different (mint_opened confined opening)
    | none =>
      rw [opening, found] at shape'
      exact accounts_of_absent shape' mint

/-! ### What an accepted action writes -/

/-- The records of the program that an action writes: the launch and the mint of one mint, and
events about it. -/
structure Writes (world : World) (mint : Pubkey) (shard : Shard) (world' : World) : Prop where
  launches : world'.launches = Function.update world.launches (.launch mint) shard.launch
  mints : world'.mints = Function.update world.mints mint shard.mint
  config : world'.config = world.config
  unixTimestamp : world'.unixTimestamp = world.unixTimestamp
  events : ∃ emitted, world'.events = world.events ++ emitted ∧
    shard.events = (world.shardOf mint).events ++ emitted ∧
    ∀ event ∈ emitted, event.mint? = some mint

/-- The written shard is the shard of the next state. -/
theorem Writes.own {shard : Shard} (writes : world.Writes mint shard world')
    (accounts : (world'.shardOf mint).accounts = shard.accounts) : world'.shardOf mint = shard := by
  obtain ⟨emitted, events, written, about⟩ := writes.events
  have kept : emitted.filter (·.mint? = some mint) = emitted :=
    List.filter_eq_self.mpr fun event member => decide_eq_true (about event member)
  refine Shard.ext ?_ ?_ accounts ?_
  · exact (congrFun writes.launches _).trans (Function.update_self _ _ _)
  · exact (congrFun writes.mints _).trans (Function.update_self _ _ _)
  · show world'.events.filter _ = _
    rw [written, events, List.filter_append, kept]
    rfl

/-- Other shards keep their records. -/
theorem Writes.other {shard : Shard} (writes : world.Writes mint shard world') {other : Pubkey}
    (different : other ≠ mint)
    (accounts : (world'.shardOf other).accounts = (world.shardOf other).accounts) :
    world'.shardOf other = world.shardOf other := by
  obtain ⟨emitted, events, _, about⟩ := writes.events
  have dropped : emitted.filter (·.mint? = some other) = [] :=
    List.filter_eq_nil_iff.mpr fun event member => by
      rw [about event member, decide_eq_true_eq, Option.some.injEq]
      exact different.symm
  refine Shard.ext ?_ ?_ accounts ?_
  · exact (congrFun writes.launches _).trans
      (Function.update_of_ne (fun same => different (Pubkey.launch.inj same)) _ _)
  · exact (congrFun writes.mints _).trans (Function.update_of_ne different _ _)
  · show world'.events.filter _ = world.events.filter _
    rw [events, List.filter_append, dropped, List.append_nil]

end World

/-! ### Instructions compute their shard -/

section Instructions

variable {world world' : World}

theorem CreateToken.handler_step {accounts : CreateToken} {params : CreateTokenParams}
    {bumps : CreateTokenBumps} (accepted : accounts.handler world params bumps = .ok world') :
    ∃ shard, Shard.step world.config world.unixTimestamp (world.shardOf accounts.mint)
      (.createToken accounts params bumps) = .ok shard ∧ world.Writes accounts.mint shard world' ∧
      shard.accounts =
        (world.shardOf accounts.mint).moved (.createToken accounts params bumps) := by
  obtain ⟨created⟩ := execution accepted
  obtain ⟨config, shares, configured, split, _, _, events⟩ := handler_paid accepted
  refine ⟨_, bind_eq_ok.mpr ⟨config, okOr_eq_ok.mpr configured, bind_eq_ok.mpr ⟨shares,
    mapError_eq_ok.mpr split, pure_eq_ok.mpr rfl⟩⟩, ?_, rfl⟩
  refine ⟨?_, created.mints, by rw [created.frame], by rw [created.frame], ⟨_, events, rfl, ?_⟩⟩
  · rw [created.launches, created.created]
  · intro event member
    rw [List.mem_singleton.mp member]
    rfl

theorem Buy.handler_step {accounts : TradeAccounts} {tokenAmountOut maxSolIn : UInt64}
    (accepted : Buy.handler accounts world tokenAmountOut maxSolIn = .ok world') :
    ∃ shard, Shard.step world.config world.unixTimestamp (world.shardOf accounts.mint)
      (.buy accounts tokenAmountOut maxSolIn) = .ok shard ∧
      world.Writes accounts.mint shard world' ∧ shard.accounts =
        (world.shardOf accounts.mint).moved (.buy accounts tokenAmountOut maxSolIn) := by
  simp only [handler, bind_eq_ok, pure_eq_ok, mapError_eq_ok, Prod.exists,
    TradeAccounts.validate_eq_ok] at accepted
  obtain ⟨config, launch, met, terms, quoted, paid, first, shares, split, shared, second, moved,
    third, launch', applied, rfl⟩ := accepted
  have frame := (World.tokenTransfer_ok third).1
  rw [(World.payShares_ok second).frame, (World.systemTransfer_ok first).frame] at frame
  have mint : launch'.mint = accounts.mint := by
    obtain ⟨_, _, _, _, _, applied⟩ := TokenLaunch.applyBuy_eq_ok.mp applied
    rw [applied, met.hasOne]
  refine ⟨_, bind_eq_ok.mpr ⟨config, okOr_eq_ok.mpr met.configPresent, bind_eq_ok.mpr ⟨launch,
    okOr_eq_ok.mpr met.launchPresent, bind_eq_ok.mpr ⟨terms, mapError_eq_ok.mpr quoted,
    bind_eq_ok.mpr ⟨shares, mapError_eq_ok.mpr split, bind_eq_ok.mpr ⟨launch',
    mapError_eq_ok.mpr applied, pure_eq_ok.mpr rfl⟩⟩⟩⟩⟩, ?_, rfl⟩
  rw [frame, met.launchAddress]
  refine ⟨rfl, (Function.update_eq_self _ _).symm, rfl, rfl, ⟨_, rfl, rfl, ?_⟩⟩
  intro event member
  rw [List.mem_singleton.mp member]
  exact congrArg some mint

theorem Sell.handler_step {accounts : TradeAccounts} {tokenAmountIn minSolOut : UInt64}
    (accepted : Sell.handler accounts world tokenAmountIn minSolOut = .ok world') :
    ∃ shard, Shard.step world.config world.unixTimestamp (world.shardOf accounts.mint)
      (.sell accounts tokenAmountIn minSolOut) = .ok shard ∧
      world.Writes accounts.mint shard world' ∧ shard.accounts =
        (world.shardOf accounts.mint).moved (.sell accounts tokenAmountIn minSolOut) := by
  simp only [handler, bind_eq_ok, pure_eq_ok, mapError_eq_ok, Prod.exists,
    TradeAccounts.validate_eq_ok] at accepted
  obtain ⟨config, launch, met, terms, quoted, moved, first, paid, second, launch', applied,
    rfl⟩ := accepted
  have frame := (World.payShares_ok second).frame
  rw [(World.tokenTransfer_ok first).1] at frame
  have mint : launch'.mint = accounts.mint := by
    obtain ⟨_, _, _, _, applied⟩ := TokenLaunch.applySell_eq_ok.mp applied
    rw [applied, met.hasOne]
  refine ⟨_, bind_eq_ok.mpr ⟨config, okOr_eq_ok.mpr met.configPresent, bind_eq_ok.mpr ⟨launch,
    okOr_eq_ok.mpr met.launchPresent, bind_eq_ok.mpr ⟨terms, mapError_eq_ok.mpr quoted,
    bind_eq_ok.mpr ⟨launch', mapError_eq_ok.mpr applied, pure_eq_ok.mpr rfl⟩⟩⟩⟩, ?_, rfl⟩
  rw [frame, met.launchAddress]
  refine ⟨rfl, (Function.update_eq_self _ _).symm, rfl, rfl, ⟨_, rfl, rfl, ?_⟩⟩
  intro event member
  rw [List.mem_singleton.mp member]
  exact congrArg some mint

theorem Graduate.handler_step {accounts : Graduate}
    (accepted : accounts.handler world = .ok world') :
    ∃ shard, Shard.step world.config world.unixTimestamp (world.shardOf accounts.mint)
      (.graduate accounts) = .ok shard ∧ world.Writes accounts.mint shard world' ∧
      shard.accounts = (world.shardOf accounts.mint).moved (.graduate accounts) := by
  simp only [handler, bind_eq_ok, pure_eq_ok, mapError_eq_ok, Prod.exists, validate_eq_ok,
    TokenLaunch.toBaseUnits_graduationReserve, Except.ok.injEq, exists_eq_left'] at accepted
  obtain ⟨config, launch, opened, ⟨met, opening⟩, shares, split, paid, first, minted, second,
    forwarded, third, rfl⟩ := accepted
  obtain ⟨_, openFrame, _⟩ := World.initAssociatedIfNeeded_ok opening
  obtain ⟨mintAccount, present, _, _, mintFrame, _⟩ := World.mintTo_ok second
  have paidFrame := (World.payShares_ok first).frame
  rw [openFrame] at paidFrame
  rw [paidFrame] at present mintFrame
  have frame := (World.payShares_ok third).frame
  rw [mintFrame] at frame
  refine ⟨_, bind_eq_ok.mpr ⟨config, okOr_eq_ok.mpr met.configPresent, bind_eq_ok.mpr ⟨launch,
    okOr_eq_ok.mpr met.launchPresent, bind_eq_ok.mpr ⟨mintAccount, okOr_eq_ok.mpr present,
    bind_eq_ok.mpr ⟨shares, mapError_eq_ok.mpr split, pure_eq_ok.mpr rfl⟩⟩⟩⟩, ?_, rfl⟩
  rw [frame, met.launchAddress]
  refine ⟨rfl, rfl, rfl, rfl, ⟨_, rfl, ?_, ?_⟩⟩
  · rw [← met.hasOne]
    rfl
  · intro event member
    rw [List.mem_singleton.mp member]
    exact congrArg some met.hasOne

theorem SealGraduation.handler_step {accounts : SealGraduation} {meteoraLbPair mint : Pubkey}
    (accepted : accounts.handler world meteoraLbPair = .ok world')
    (address : accounts.launch = .launch mint) :
    ∃ shard, Shard.step world.config world.unixTimestamp (world.shardOf mint)
      (.sealGraduation accounts meteoraLbPair) = .ok shard ∧ world.Writes mint shard world' ∧
      shard.accounts = (world.shardOf mint).moved (.sealGraduation accounts meteoraLbPair) := by
  have events := handler_events accepted address
  obtain ⟨launch, named, present, _, _, _, frame⟩ := handler_ok accepted
  obtain rfl := Pubkey.launch.inj (address.symm.trans named)
  refine ⟨_, bind_eq_ok.mpr ⟨launch, okOr_eq_ok.mpr present, pure_eq_ok.mpr rfl⟩, ?_, rfl⟩
  refine ⟨by rw [frame], ?_, by rw [frame], by rw [frame], ⟨_, events, rfl, ?_⟩⟩
  · rw [frame]
    exact (Function.update_eq_self _ _).symm
  · intro event member
    rw [List.mem_singleton.mp member]
    rfl

end Instructions

/-! ### Any order -/

namespace World

variable {world world' : World} {action : Action} {mint : Pubkey}

/-- An action of the token program writes at most the mint, and logs nothing. -/
theorem Writes.tokenProgram {shard : Shard} {mints : Pubkey → Option Mint}
    {tokenAccounts : TokenAccounts} (written : mints = Function.update world.mints mint shard.mint)
    (launch : shard.launch = (world.shardOf mint).launch)
    (events : shard.events = (world.shardOf mint).events) :
    world.Writes mint shard { world with mints, tokenAccounts } where
  launches := by
    rw [launch]
    exact (Function.update_eq_self _ _).symm
  mints := written
  config := rfl
  unixTimestamp := rfl
  events := ⟨[], (List.append_nil _).symm, events.trans (List.append_nil _).symm,
    fun _ member => nomatch member⟩

/-- A confined action on a mint writes the shard that `Shard.step` computes. -/
theorem execute_step (confined : action.confined) (accepted : world.execute action = .ok world')
    (about : world.mint? action = some mint) :
    ∃ shard, Shard.step world.config world.unixTimestamp (world.shardOf mint) action = .ok shard ∧
      world.Writes mint shard world' ∧ shard.accounts = (world.shardOf mint).moved action := by
  cases action with
  | createToken accounts params bumps =>
    obtain rfl := Option.some.inj about
    exact CreateToken.handler_step accepted
  | buy accounts tokenAmountOut maxSolIn =>
    obtain rfl := Option.some.inj about
    exact Buy.handler_step accepted
  | sell accounts tokenAmountIn minSolOut =>
    obtain rfl := Option.some.inj about
    exact Sell.handler_step accepted
  | graduate accounts =>
    obtain rfl := Option.some.inj about
    exact Graduate.handler_step accepted
  | sealGraduation accounts meteoraLbPair =>
    obtain ⟨launch, named, _⟩ := SealGraduation.handler_ok accepted
    rw [mint?, named] at about
    obtain rfl := Option.some.inj about
    exact SealGraduation.handler_step accepted named
  | openTokenAccount address mint owner =>
    obtain rfl := Option.some.inj about
    obtain ⟨_, _, _, rfl⟩ := openTokenAccount_ok accepted
    exact ⟨_, rfl, .tokenProgram (Function.update_eq_self _ _).symm rfl rfl, rfl⟩
  | transferTokens source destination authority amount =>
    obtain ⟨_, _, transferred⟩ := bind_eq_ok.mp accepted
    obtain ⟨frame, _⟩ := tokenTransfer_ok transferred
    refine ⟨_, rfl, ?_, rfl⟩
    rw [frame]
    exact .tokenProgram (Function.update_eq_self _ _).symm rfl rfl
  | burnTokens address authority amount =>
    obtain ⟨_, _, burned⟩ := bind_eq_ok.mp accepted
    obtain ⟨token, account, present, frame, _, debited⟩ := burn_ok burned
    obtain rfl : token = mint := by
      rw [mint?, debited.sourceShape] at about
      exact Option.some.inj about
    refine ⟨_, bind_eq_ok.mpr ⟨account, okOr_eq_ok.mpr present, pure_eq_ok.mpr rfl⟩, ?_, rfl⟩
    rw [frame]
    exact .tokenProgram rfl rfl rfl
  | initializeConfig | updateConfig | setPaused | setClock => cases confined
  | transferLamports => cases about

/-- The own shard is computed. -/
theorem Reachable.shardOf_own (reachable : world.Reachable) (confined : action.confined)
    (accepted : world.execute action = .ok world') (about : world.mint? action = some mint) :
    Shard.step world.config world.unixTimestamp (world.shardOf mint) action =
      .ok (world'.shardOf mint) := by
  obtain ⟨shard, computed, writes, accounts⟩ := execute_step confined accepted about
  rw [computed, writes.own ((reachable.accounts_own confined accepted about).trans accounts.symm)]

/-- A confined action without a mint is a lamport transfer. -/
theorem transferLamports_frame (confined : action.confined)
    (accepted : world.execute action = .ok world') (about : world.mint? action = none) :
    world' = { world with lamports := world'.lamports } := by
  cases action with
  | transferLamports source destination amount =>
    obtain ⟨_, _, moved⟩ := bind_eq_ok.mp accepted
    exact (systemTransfer_ok moved).frame
  | sealGraduation accounts meteoraLbPair =>
    obtain ⟨launch, named, _⟩ := SealGraduation.handler_ok accepted
    rw [mint?, named] at about
    cases about
  | transferTokens source destination authority amount =>
    obtain ⟨_, _, transferred⟩ := bind_eq_ok.mp accepted
    obtain ⟨_, _, _, moved⟩ := tokenTransfer_ok transferred
    rw [mint?, moved.sourceShape] at about
    cases about
  | burnTokens address authority amount =>
    obtain ⟨_, _, burned⟩ := bind_eq_ok.mp accepted
    obtain ⟨_, _, _, _, _, debited⟩ := burn_ok burned
    rw [mint?, debited.sourceShape] at about
    cases about
  | initializeConfig | updateConfig | setPaused | setClock => cases confined
  | _ => cases about

/-- Other shards are left alone. -/
theorem Reachable.shardOf_other (reachable : world.Reachable) (confined : action.confined)
    (accepted : world.execute action = .ok world') (different : world.mint? action ≠ some mint) :
    world'.shardOf mint = world.shardOf mint := by
  cases about : world.mint? action with
  | none =>
    rw [transferLamports_frame confined accepted about]
    rfl
  | some own =>
    obtain ⟨shard, _, writes, _⟩ := execute_step confined accepted about
    refine writes.other ?_ (reachable.accounts_other confined accepted different)
    rintro rfl
    exact different about

theorem confined_context (confined : action.confined)
    (accepted : world.execute action = .ok world') :
    world'.config = world.config ∧ world'.unixTimestamp = world.unixTimestamp := by
  cases about : world.mint? action with
  | none =>
    rw [transferLamports_frame confined accepted about]
    exact ⟨rfl, rfl⟩
  | some own =>
    obtain ⟨_, _, writes, _⟩ := execute_step confined accepted about
    exact ⟨writes.config, writes.unixTimestamp⟩

/-- What moves lamports is in the configuration and the shard of the action's mint. -/
theorem lamportEntries_congr {other : World} (config : world.config = other.config)
    (same : ∀ mint, world.mint? action = some mint → world.shardOf mint = other.shardOf mint) :
    world.lamportEntries action = other.lamportEntries action := by
  have entries {mint : Pubkey} (about : world.mint? action = some mint)
      (entries : TokenLaunch → Config → List (Pubkey × ℤ)) :
      world.entriesAt mint entries = other.entriesAt mint entries := by
    have launch : world.launches (.launch mint) = other.launches (.launch mint) :=
      congrArg Shard.launch (same mint about)
    rw [entriesAt, entriesAt, config, launch]
  cases action with
  | createToken => rw [lamportEntries, lamportEntries, config]
  | buy | sell | graduate => exact entries rfl _
  | _ => rfl

/-- The shard that a strand works on; a lamport transfer has none. -/
def cell (world : World) : Strand → Option Shard
  | .mint mint => some (world.shardOf mint)
  | _ => none

theorem execute_sharded : Shards.Sharded execute (fun action => action.confined = true) Reachable
    (fun world => (world.config, world.unixTimestamp)) strand cell
    (fun world holder => (world.lamports holder : ℤ)) where
  preserved := fun world action world' reachable confined accepted => by
    obtain ⟨config, unixTimestamp⟩ := confined_context confined accepted
    exact ⟨reachable.step accepted, Prod.ext config unixTimestamp⟩
  others := fun world action world' other reachable confined accepted different => by
    cases other with
    | mint mint =>
      refine congrArg some (reachable.shardOf_other confined accepted fun about => ?_)
      exact different (strand_eq_mint.mpr about).symm
    | _ => rfl
  determined := fun world other action world' other' own reachable reachable' together confined
      concerned concerned' found accepted accepted' => by
    obtain ⟨config, unixTimestamp⟩ := Prod.mk.inj together
    have same (mint : Pubkey) (about : world.mint? action = some mint) :
        world.shardOf mint = other.shardOf mint := by
      obtain rfl : own = .mint mint := concerned.symm.trans (strand_eq_mint.mpr about)
      exact Option.some.inj found
    refine ⟨?_, fun holder => ?_⟩
    · cases own with
      | mint mint =>
        have about := strand_eq_mint.mp concerned
        have computed := reachable.shardOf_own confined accepted about
        have computed' :=
          reachable'.shardOf_own confined accepted' (strand_eq_mint.mp concerned')
        rw [config, unixTimestamp, same mint about, computed'] at computed
        exact congrArg some (Except.ok.inj computed).symm
      | _ => rfl
    · rw [execute_lamports accepted holder, execute_lamports accepted' holder,
        lamportEntries_congr config same, add_sub_cancel_left, add_sub_cancel_left]

/-! ### The state from its shards -/

theorem get?_of_shardOf {address : Pubkey} {account : TokenAccount}
    (found : world.tokenAccounts.get? address = some account) :
    (world.shardOf account.mint).accounts address = some (account.owner, (account.amount : ℤ)) := by
  have shape : world.tokenAccounts.shape address = some (account.mint, account.owner) := by
    rw [TokenAccounts.shape, found, Option.map_some]
  rw [accounts_of_shape shape, if_pos rfl, TokenAccounts.amountAt_of_get? found]

/-- A token account is known from the shard of its mint. -/
theorem get?_of_accounts {address owner : Pubkey} {amount : ℕ}
    (found : (world.shardOf mint).accounts address = some (owner, (amount : ℤ))) :
    world.tokenAccounts.get? address = some ⟨mint, owner, amount⟩ := by
  cases present : world.tokenAccounts.get? address with
  | none =>
    rw [accounts_of_absent (Option.map_eq_none_iff.mpr present)] at found
    cases found
  | some account =>
    have shape : world.tokenAccounts.shape address = some (account.mint, account.owner) := by
      rw [TokenAccounts.shape, present, Option.map_some]
    rw [accounts_of_shape shape, TokenAccounts.amountAt_of_get? present] at found
    by_cases same : account.mint = mint
    · rw [if_pos same] at found
      obtain ⟨rfl, amounts⟩ := Prod.mk.inj (Option.some.inj found)
      rw [← same, ← Int.ofNat_inj.mp amounts]
    · rw [if_neg same] at found
      cases found

theorem tokenAccounts_of_shards {other : World}
    (same : ∀ mint, world.shardOf mint = other.shardOf mint) (address : Pubkey) :
    world.tokenAccounts.get? address = other.tokenAccounts.get? address := by
  have transfer {first second : World} (same : ∀ mint, first.shardOf mint = second.shardOf mint)
      (account : TokenAccount) (found : first.tokenAccounts.get? address = some account) :
      second.tokenAccounts.get? address = some account :=
    get?_of_accounts (same account.mint ▸ get?_of_shardOf found)
  exact Option.ext fun account =>
    ⟨transfer same account, transfer (fun mint => (same mint).symm) account⟩

theorem Reachable.launches_of_shards {other : World} (reachable : world.Reachable)
    (reachable' : other.Reachable) (same : ∀ mint, world.shardOf mint = other.shardOf mint) :
    world.launches = other.launches := by
  have transfer {first second : World} (reachable : first.Reachable)
      (same : ∀ mint, first.shardOf mint = second.shardOf mint) {address : Pubkey}
      {launch : TokenLaunch} (found : first.launches address = some launch) :
      second.launches address = some launch := by
    have named := reachable.wellFormed.launchAddress address launch found
    have launches : first.launches (.launch launch.mint) = second.launches (.launch launch.mint) :=
      congrArg Shard.launch (same launch.mint)
    rw [named] at found ⊢
    rw [← launches, found]
  funext address
  exact Option.ext fun launch =>
    ⟨transfer reachable same, transfer reachable' fun mint => (same mint).symm⟩

/-- Rent aside, two runs of confined actions from one reachable state, in which every action is
accepted, which agree for every mint on the actions about the mint, in their order, and which make
the same lamport transfers, in any order, reach the same launches, mints, token accounts and
balances, and log the same events about every mint. -/
theorem order_irrelevant (reachable : world.Reachable) {first second : List Action}
    (accepted : Shards.Sharded.Accepted execute (fun action => action.confined = true) world first)
    (accepted' : Shards.Sharded.Accepted execute (fun action => action.confined = true) world
      second)
    (projected : ∀ own, Shards.selected execute strand own world first =
      Shards.selected execute strand own world second) :
    (world.run first).config = (world.run second).config ∧
    (world.run first).unixTimestamp = (world.run second).unixTimestamp ∧
    (world.run first).launches = (world.run second).launches ∧
    (world.run first).mints = (world.run second).mints ∧
    (∀ address, (world.run first).tokenAccounts.get? address =
      (world.run second).tokenAccounts.get? address) ∧
    (world.run first).lamports = (world.run second).lamports ∧
    ∀ mint, (world.run first).events.filter (·.mint? = some mint) =
      (world.run second).events.filter (·.mint? = some mint) := by
  obtain ⟨cells, balances⟩ := execute_sharded.interleaving reachable accepted accepted' projected
  have same (mint : Pubkey) : (world.run first).shardOf mint = (world.run second).shardOf mint :=
    Option.some.inj (cells (.mint mint))
  have context := (execute_sharded.run_preserved reachable accepted).2.trans
    (execute_sharded.run_preserved reachable accepted').2.symm
  exact ⟨congrArg Prod.fst context, congrArg Prod.snd context,
    (reachable.run first).launches_of_shards (reachable.run second) same,
    funext fun mint => congrArg Shard.mint (same mint), tokenAccounts_of_shards same,
    funext fun holder => Int.ofNat_inj.mp (balances holder),
    fun mint => congrArg Shard.events (same mint)⟩

/-- Tokens bought before are sent to another trader, who sells them; meanwhile another token is
created and lamports are paid. The same actions run in two orders. -/
theorem order_irrelevant_sample :
    let world := Sample.after Sample.params
      [.buy (Sample.trading Sample.trader) 100_000_000_000 10_000_000]
    let other : Pubkey := .external 8
    let creation : CreateToken := { Sample.creation with
      mint := other
      mintAuthority := .mintAuthority other
      launch := .launch other
      curveVault := .vault other
      curveTokenAccount := .curveAccount other }
    let send := Action.transferTokens (.associatedToken Sample.trader Sample.mint)
      (.associatedToken Sample.whale Sample.mint) Sample.trader 40_000_000_000
    let sell := Action.sell (Sample.trading Sample.whale) 40_000_000_000 0
    let create := Action.createToken creation { name := "Cat", symbol := "CAT", uri := "" }
      { launch := 252, curveVault := 251, mintAuthority := 250 }
    let pay := Action.transferLamports Sample.trader Sample.creator 1_000_000_000
    let repay := Action.transferLamports Sample.creator Sample.trader 500_000_000
    let first := [send, pay, sell, create, repay]
    let second := [repay, create, pay, send, sell]
    (world.run first).launches = (world.run second).launches ∧
      (world.run first).mints = (world.run second).mints ∧
      (world.run first).lamports = (world.run second).lamports := by
  intro world other creation send sell create pay repay first second
  have projected := Shards.selected_eq_of_met
    (show ∀ own ∈ Shards.keysAlong execute strand world first ++
        Shards.keysAlong execute strand world second,
      Shards.selected execute strand own world first =
        Shards.selected execute strand own world second from by decide +kernel)
  obtain ⟨_, _, launches, mints, _, lamports, _⟩ := order_irrelevant (Sample.reachable_after _ _)
    (show Shards.Sharded.Accepted _ _ world first from by decide +kernel)
    (show Shards.Sharded.Accepted _ _ world second from by decide +kernel) projected
  exact ⟨launches, mints, lamports⟩

end World

end Memecoin
