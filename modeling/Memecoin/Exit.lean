/-
This file is about leaving a launch before it graduates. As long as the program
is not paused, nobody has to be early: whoever holds tokens sells them, in
whatever order the holders come, and no sale of one holder can make a sale of
another fail. When all that was sold has come back, the curve has paid out what
it recorded, up to one lamport for every buy there has been. Rent is aside here:
the runtime also refuses a sale that leaves the vault with less than the
rent-exempt minimum, but with something.
-/

import Memecoin.Progress
import Memecoin.Routes

namespace Memecoin

open Checked ConstantProduct

/-- A holder's sale of some tokens, for whatever they bring. -/
structure Exit where
  accounts : TradeAccounts
  amount : UInt64

/-- The sale, without a lower limit. -/
def Exit.action (exit : Exit) : Action := .sell exit.accounts exit.amount 0

/-- What the exits take out of a token account. -/
def Exit.taken (exits : List Exit) (address : Pubkey) : ℕ :=
  (exits.map fun exit =>
    if exit.accounts.traderTokenAccount = address then exit.amount.toNat else 0).sum

/-- What the exits return to the curve. -/
def Exit.returned (exits : List Exit) : ℕ := (exits.map (·.amount.toNat)).sum

namespace World

/-- Holders of a launch that trades, with the tokens they sell. -/
structure Leavers (world : World) (mint : Pubkey) (config : Config) (launch : TokenLaunch)
    (exits : List Exit) : Prop where
  launchPresent : world.launches (.launch mint) = some launch
  notPaused : config.paused = false
  trading : launch.graduated = false
  met : ∀ exit ∈ exits, exit.accounts.mint = mint ∧ exit.accounts.Met world config launch
  positive : ∀ exit ∈ exits, 0 < exit.amount.toNat
  held : ∀ address, Exit.taken exits address ≤ world.tokenAccounts.amountAt address

variable {world : World} {mint : Pubkey} {config : Config} {launch launch' : TokenLaunch}
  {exit : Exit} {exits : List Exit}

/-- The holders may come in another order. -/
theorem Leavers.perm {order : List Exit} (leavers : world.Leavers mint config launch exits)
    (same : order.Perm exits) : world.Leavers mint config launch order where
  launchPresent := leavers.launchPresent
  notPaused := leavers.notPaused
  trading := leavers.trading
  met := fun exit member => leavers.met exit (same.mem_iff.mp member)
  positive := fun exit member => leavers.positive exit (same.mem_iff.mp member)
  held := fun address => ((same.map _).sum_nat.trans_le (leavers.held address))

/-! ### One exit -/

/-- A sale leaves the accounts of other sales as they have to be. -/
theorem met_after_sale {sale other : TradeAccounts} {tokenAmountIn minSolOut : UInt64}
    {world' : World} (sold : Sell.Execution sale world tokenAmountIn minSolOut world')
    (sameMint : other.mint = sale.mint) (met : other.Met world sold.config sold.launch) :
    other.Met world' sold.config sold.launch' where
  signer := met.signer
  configAddress := met.configAddress
  configPresent := (congrArg World.config sold.frame).trans met.configPresent
  launchAddress := met.launchAddress
  launchPresent := by rw [sold.launches, sameMint]; exact Function.update_self _ _ _
  hasOne := by rw [sold.sold.frame]; exact met.hasOne
  mintPresent := congrArg World.mints sold.frame ▸ met.mintPresent
  vaultAddress := met.vaultAddress
  curveTokenAccount := (sold.tokens.shape _).trans met.curveTokenAccount
  traderTokenAccount := (sold.tokens.shape _).trans met.traderTokenAccount
  creatorWallet := by rw [sold.sold.frame]; exact met.creatorWallet
  dinoBuybackWallet := met.dinoBuybackWallet
  treasuryWallet := met.treasuryWallet

/-- The first holder sells, and the others still can. -/
theorem Leavers.first (reachable : world.Reachable)
    (leavers : world.Leavers mint config launch (exit :: exits)) :
    ∃ world' launch', world.execute exit.action = .ok world' ∧
      world'.Leavers mint config launch' exits ∧ launch'.y = launch.y + exit.amount.toNat := by
  obtain ⟨rfl, met⟩ := leavers.met exit List.mem_cons_self
  have held (address : Pubkey) : (if exit.accounts.traderTokenAccount = address then
      exit.amount.toNat else 0) + Exit.taken exits address ≤
        world.tokenAccounts.amountAt address := leavers.held address
  have covered := held exit.accounts.traderTokenAccount
  rw [if_pos rfl] at covered
  obtain ⟨world', accepted⟩ : ∃ world', Sell.handler exit.accounts world exit.amount 0 =
      .ok world' := (reachable.sell_accepted_iff met).mpr
    ⟨leavers.notPaused, leavers.trading, leavers.positive exit List.mem_cons_self, Nat.zero_le _,
      (Nat.le_add_right _ _).trans covered⟩
  obtain ⟨sold⟩ := Sell.execution accepted
  obtain rfl := Option.some.inj (met.configPresent.symm.trans sold.met.configPresent)
  obtain rfl := Option.some.inj (met.launchPresent.symm.trans sold.met.launchPresent)
  refine ⟨world', sold.launch', accepted, ?_, sold.sold.virtualTokens⟩
  exact {
    launchPresent := by rw [sold.launches]; exact Function.update_self _ _ _
    notPaused := leavers.notPaused
    trading := by rw [sold.sold.frame]; exact leavers.trading
    met := fun other member => by
      obtain ⟨same, met'⟩ := leavers.met other (List.mem_cons_of_mem _ member)
      exact ⟨same, met_after_sale sold same met'⟩
    positive := fun other member => leavers.positive other (List.mem_cons_of_mem _ member)
    held := fun address => by
      have moved := sold.tokens.amountAt address
      have before := held address
      simp only [eq_comm (b := address)] at before
      split_ifs at moved before <;> omega }

/-! ### All exits -/

/-- The induction is on the holders who are left. -/
theorem Leavers.accepts (reachable : world.Reachable)
    (leavers : world.Leavers mint config launch exits) :
    world.Accepts (exits.map Exit.action) ∧
      ∃ launch', (world.run (exits.map Exit.action)).launches (.launch mint) = some launch' ∧
        launch'.graduated = false ∧ launch'.y = launch.y + Exit.returned exits := by
  induction exits generalizing world launch with
  | nil => exact ⟨trivial, launch, leavers.launchPresent, leavers.trading, rfl⟩
  | cons exit exits inductionHypothesis =>
    obtain ⟨world', between, accepted, others, returned⟩ := leavers.first reachable
    obtain ⟨accepts, launch', present, trading, total⟩ :=
      inductionHypothesis (reachable.step accepted) others
    refine ⟨accepts_cons accepted accepts, launch', ?_, trading, ?_⟩
    · rw [List.map_cons, run_ok accepted]
      exact present
    · rw [total, returned, Exit.returned, Exit.returned, List.map_cons, List.sum_cons,
        Nat.add_assoc]

/-! ### Main result -/

/-- Rent aside, as long as the program is not paused, the holders of a launch that trades can all
sell what they hold, in every order. Once all that was sold has come back, no more than a lamport
for every buy of the whole run is left of the recorded SOL. -/
theorem everyone_can_leave {unixTimestamp : Int64} {funds : ℕ → ℕ} {actions : List Action}
    (leavers : ((genesis unixTimestamp funds).run actions).Leavers mint config launch exits)
    {order : List Exit} (same : order.Perm exits) :
    let steps := order.map Exit.action
    ((genesis unixTimestamp funds).run actions).Accepts steps ∧
      ∃ launch', ((genesis unixTimestamp funds).run (actions ++ steps)).launches (.launch mint) =
          some launch' ∧
        launch'.tokensSold.toNat + Exit.returned exits = launch.tokensSold.toNat ∧
        (Exit.returned exits = launch.tokensSold.toNat → launch'.realSolReserves.toNat ≤
          (genesis unixTimestamp funds).tally (buyCount mint) (actions ++ steps)) := by
  intro steps
  have reachable := (genesis_reachable unixTimestamp funds).run actions
  obtain ⟨accepts, launch', present', trading', returned⟩ := (leavers.perm same).accepts reachable
  have total : Exit.returned order = Exit.returned exits := (same.map _).sum_nat
  rw [← run_append] at present'
  have before := (reachable.trading leavers.launchPresent leavers.trading).y_add_tokensSold
  have reachable' := (genesis_reachable unixTimestamp funds).run (actions ++ steps)
  have after := (reachable'.trading present' trading').y_add_tokensSold
  refine ⟨accepts, launch', present', by omega, fun everything => ?_⟩
  have product := le_startingProduct_count present' trading'
  have whole : launch'.y = TokenLaunch.virtualTokenUnits.toNat := by omega
  rw [TokenLaunch.k, TokenLaunch.x, (reachable'.live present').virtualSol, whole,
    TokenLaunch.startingProduct, ← Nat.add_mul] at product
  exact Nat.le_of_add_le_add_left (Nat.le_of_mul_le_mul_right product (by decide))

/-- The trader and the whale buy, and both leave, the whale first. The vault has been endowed, so
that it stays rent-exempt. -/
theorem everyone_can_leave_sample :
    let purchases := Sample.opening Sample.params ++
      [Sample.endow, .buy (Sample.trading Sample.trader) 100_000_000_000 10_000_000,
        .buy (Sample.trading Sample.whale) 100_000_000_000_000 5_000_000_000]
    let sales := [Action.sell (Sample.trading Sample.whale) 100_000_000_000_000 0,
      .sell (Sample.trading Sample.trader) 100_000_000_000 0]
    ∃ launch', (Sample.start.run (purchases ++ sales)).launches (.launch Sample.mint) =
        some launch' ∧
      launch'.realSolReserves.toNat ≤
        Sample.start.tally (buyCount Sample.mint) (purchases ++ sales) := by
  intro purchases sales
  have bought : ((Sample.start.run purchases).launches (.launch Sample.mint)).map
      (fun launch => (launch.graduated, launch.tokensSold.toNat)) =
      some (false, 100_100_000_000_000) := by decide +kernel
  have read (holder : Pubkey) (either : holder ∈ [Sample.whale, Sample.trader]) :
      ((Sample.trading holder).validate (Sample.start.run purchases)).toOption.map
        (fun read => read.1.paused) = some false := by
    revert holder
    decide +kernel
  have amounts : (Sample.start.run purchases).tokenAccounts.amountAt
        (.associatedToken Sample.whale Sample.mint) = 100_000_000_000_000 ∧
      (Sample.start.run purchases).tokenAccounts.amountAt
        (.associatedToken Sample.trader Sample.mint) = 100_000_000_000 := by decide +kernel
  obtain ⟨launch, present, fields⟩ := Option.map_eq_some_iff.mp bought
  obtain ⟨trading, tokensSold⟩ := Prod.mk.inj fields
  have met (holder : Pubkey) (either : holder ∈ [Sample.whale, Sample.trader]) : ∃ config,
      (Sample.trading holder).Met (Sample.start.run purchases) config launch ∧
        config.paused = false := by
    have found := read holder either
    cases validated : (Sample.trading holder).validate (Sample.start.run purchases) with
    | error _ =>
      rw [validated] at found
      cases found
    | ok accounts =>
      rw [validated] at found
      have met := TradeAccounts.validate_eq_ok.mp validated
      obtain rfl := Option.some.inj (present.symm.trans met.launchPresent)
      exact ⟨accounts.1, met, Option.some.inj found⟩
  obtain ⟨config, first, notPaused⟩ := met Sample.whale (by decide)
  obtain ⟨config', second, _⟩ := met Sample.trader (by decide)
  obtain rfl := Option.some.inj (second.configPresent.symm.trans first.configPresent)
  have leavers : ((genesis 0 fun _ => 100_000_000_000).run purchases).Leavers Sample.mint config'
      launch [⟨Sample.trading Sample.whale, 100_000_000_000_000⟩, ⟨Sample.trading Sample.trader,
        100_000_000_000⟩] := {
    launchPresent := present
    notPaused, trading
    met := List.forall_mem_cons.mpr ⟨⟨rfl, first⟩, List.forall_mem_singleton.mpr ⟨rfl, second⟩⟩
    positive := by decide
    held := fun address => by
      rw [Exit.taken, List.map_cons, List.map_cons, List.map_nil, List.sum_cons, List.sum_cons,
        List.sum_nil, Nat.add_zero]
      split_ifs with whale trader trader
      · cases whale.trans trader.symm
      · rw [← whale]
        exact amounts.1.ge
      · rw [← trader, Nat.zero_add]
        exact amounts.2.ge
      · exact Nat.zero_le _ }
  obtain ⟨_, launch', after, _, rest⟩ := everyone_can_leave leavers (.refl _)
  exact ⟨launch', after, rest (tokensSold.symm ▸ rfl)⟩

end World

end Memecoin
