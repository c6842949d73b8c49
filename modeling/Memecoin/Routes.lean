/-
This file proves that there is no cheap way around the curve. Whatever trades a
run is made of and whoever makes them, tokens that leave the curve in total cost
at least what one purchase of them costs, and tokens that return in total pay at
most what one sale of them pays, up to three lamports for every sale in between.
So whoever trades before and after the trade of somebody else, and keeps no
tokens, gains no more than what that somebody pays or loses by the change of
price, which the slippage limit of the trade bounds. And it does not matter by
which route a launch has come to sell what it has sold.
-/

import Memecoin.Lifecycle
import Memecoin.Acceptance

namespace Memecoin

open Checked ConstantProduct

namespace World

variable {world : World} {mint : Pubkey} {launch launch' : TokenLaunch}

/-- What a trade brings its trader in lamports, before the fee. -/
def traderGain (mint : Pubkey) (world : World) (action : Action) (_ : World) : ℤ :=
  match world.operation mint action with
  | .buy tokens _ => - ((world.launches (.launch mint)).elim 0 (·.solToCurve tokens) : ℤ)
  | .sell tokens _ => ((world.launches (.launch mint)).elim 0 (·.grossSolOut tokens) : ℤ)
  | _ => 0

/-! ### From one trading state to another -/

/-- A quantity summed along a run while the launch trades: it is enough to follow the trades. -/
theorem Reachable.trading_from {Count : Type*} [AddMonoid Count] (reachable : world.Reachable)
    (present : world.launches (.launch mint) = some launch)
    (weight : World → Action → World → Count) (holds : TokenLaunch → Count → Prop)
    (start : holds launch 0)
    (idle : ∀ world action world' launch count, (world.operation mint action).isTrade = false →
      holds launch count → holds launch (count + weight world action world'))
    (bought : ∀ world action world' launch launch' tokens cost there count,
      world.operation mint action = .buy tokens there →
      world.launches (.launch mint) = some launch → launch.Bought tokens cost launch' →
      holds launch count → holds launch' (count + weight world action world'))
    (sold : ∀ world action world' launch launch' tokens payout there count,
      world.operation mint action = .sell tokens there →
      world.launches (.launch mint) = some launch → launch.Sold tokens payout launch' →
      (world'.market mint).Live launch' → holds launch count →
      holds launch' (count + weight world action world'))
    (actions : List Action)
    (present' : (world.run actions).launches (.launch mint) = some launch')
    (trading' : launch'.graduated = false) : holds launch' (world.tally weight actions) := by
  have followed := reachable.run_ghost weight (fun _ _ => True)
    (fun state count => ∃ found, state.launches (.launch mint) = some found ∧
      (found.graduated = false → holds found count)) ?_ ⟨launch, present, fun _ => start⟩ actions
    (along_true _ _)
  · obtain ⟨found, after, bound⟩ := followed
    obtain rfl := Option.some.inj (present'.symm.trans after)
    exact bound trading'
  intro state action state' count reached _ ⟨before, found, bound⟩ accepted
  have step := reached.wellFormed.refines accepted mint
  obtain ⟨after, found', _⟩ := step.becomes (reached.sound mint) found
  refine ⟨after, found', fun trades => ?_⟩
  rcases step.trading_cases found' trades with ⟨same, idles⟩ | ⟨creates, _⟩ |
    ⟨earlier, _, _, _, buy, same, trade⟩ | ⟨earlier, _, _, _, sale, same, trade⟩
  · obtain rfl := Option.some.inj (found.symm.trans same)
    exact idle _ _ _ _ _ idles (bound trades)
  · rw [creates] at step
    cases step.absent_of_create.symm.trans found
  · obtain rfl := Option.some.inj (found.symm.trans same)
    exact bought _ _ _ _ _ _ _ _ _ buy found trade (bound trade.trading)
  · obtain rfl := Option.some.inj (found.symm.trans same)
    exact sold _ _ _ _ _ _ _ _ _ sale found trade
      (((reached.step accepted).sound mint).live after found') (bound trade.trading)

/-- The recorded SOL moves by what the traders gain. -/
theorem Reachable.traderGain_eq (reachable : world.Reachable)
    (present : world.launches (.launch mint) = some launch) (actions : List Action)
    (present' : (world.run actions).launches (.launch mint) = some launch')
    (trading' : launch'.graduated = false) :
    (launch'.realSolReserves.toNat : ℤ) + world.tally (traderGain mint) actions =
      launch.realSolReserves.toNat := by
  refine reachable.trading_from present (traderGain mint)
    (fun found gain => (found.realSolReserves.toNat : ℤ) + gain = launch.realSolReserves.toNat)
    (add_zero _) ?_ ?_ ?_ actions present' trading'
  · intro state action state' found gain idles balance
    have nothing : traderGain mint state action state' = 0 := by
      rw [traderGain]
      cases kind : state.operation mint action with
      | buy | sell =>
        rw [kind] at idles
        cases idles
      | _ => rfl
    rw [nothing, add_zero, balance]
  · intro state action state' found found' tokens cost there gain buy before trade balance
    have charge : traderGain mint state action state' = - (cost : ℤ) := by
      rw [traderGain, buy, before, trade.quoted]
      rfl
    rw [charge, trade.realSol, ← balance]
    push_cast
    ring
  · intro state action state' found found' tokens payout there gain sale before trade _ balance
    have paid : traderGain mint state action state' = (payout : ℤ) := by
      rw [traderGain, sale, before, trade.quoted]
      rfl
    rw [paid, ← balance, ← trade.realSol]
    push_cast
    ring

/-- Every sale lowers the product by less than the largest token reserve, and nothing else lowers
it. -/
theorem Reachable.product_le (reachable : world.Reachable)
    (present : world.launches (.launch mint) = some launch) (actions : List Action)
    (present' : (world.run actions).launches (.launch mint) = some launch')
    (trading' : launch'.graduated = false) :
    launch.k ≤ launch'.k + world.tally (sellCount mint) actions *
      TokenLaunch.virtualTokenUnits.toNat := by
  refine reachable.trading_from present (sellCount mint) (fun found count =>
      launch.k ≤ found.k + count * TokenLaunch.virtualTokenUnits.toNat)
    (Nat.le_add_right _ _) ?_ ?_ ?_ actions present' trading'
  · intro state action state' found count _ bound
    exact bound.trans (Nat.add_le_add_left (Nat.mul_le_mul_right _ (Nat.le_add_right _ _)) _)
  · intro state action state' found found' tokens cost there count _ _ trade bound
    exact bound.trans (Nat.add_le_add trade.k_le (Nat.mul_le_mul_right _ (Nat.le_add_right _ _)))
  · intro state action state' found found' tokens payout there count sale _ trade live bound
    have still : found'.graduated = false := by rw [trade.frame, trade.trading]
    have small := (live.trading still).y_le
    have fall := trade.k_lt
    rw [sellCount, sale, Nat.add_mul, Nat.one_mul]
    omega

end World

/-- The largest token reserve of a launch is less than three times the least. -/
theorem Market.Trading.units_le {market : Market} {launch : TokenLaunch}
    (books : market.Trading launch) : TokenLaunch.virtualTokenUnits.toNat ≤ 3 * launch.y := by
  have offset := books.offset
  have units : TokenLaunch.curveAllocationUnits.toNat = 800_000_000_000_000 := rfl
  have virtualUnits : TokenLaunch.virtualTokenUnits.toNat = 1_236_363_636_000_000 := rfl
  omega

namespace World

variable {world : World} {mint : Pubkey} {launch launch' : TokenLaunch}

/-- The product of the first state, in lamports of the last. -/
theorem Reachable.product_le_scaled (reachable : world.Reachable)
    (present : world.launches (.launch mint) = some launch) (actions : List Action)
    (present' : (world.run actions).launches (.launch mint) = some launch')
    (trading' : launch'.graduated = false) :
    launch.x * launch.y ≤
      (launch'.x + 3 * world.tally (sellCount mint) actions) * launch'.y := by
  have bound := reachable.product_le present actions present' trading'
  have books := (reachable.run actions).trading present' trading'
  generalize world.tally (sellCount mint) actions = sells at bound ⊢
  calc launch.x * launch.y ≤ launch'.k + sells * TokenLaunch.virtualTokenUnits.toNat := bound
    _ ≤ launch'.k + sells * (3 * launch'.y) := by
        exact Nat.add_le_add_left (Nat.mul_le_mul_left sells books.units_le) _
    _ = (launch'.x + 3 * sells) * launch'.y := by
        rw [TokenLaunch.k]
        ring

/-- Tokens that have left the curve were paid for as one purchase, up to three lamports a sale. -/
theorem Reachable.tokens_out (reachable : world.Reachable)
    (present : world.launches (.launch mint) = some launch) (actions : List Action)
    (present' : (world.run actions).launches (.launch mint) = some launch')
    (trading' : launch'.graduated = false) {tokens : ℕ} (left : launch'.y + tokens = launch.y) :
    launch.realSolReserves.toNat + launch.solToCurve tokens ≤
      launch'.realSolReserves.toNat + 3 * world.tally (sellCount mint) actions := by
  have books := (reachable.run actions).trading present' trading'
  have offset := books.offset
  have units : TokenLaunch.curveAllocationUnits.toNat < TokenLaunch.virtualTokenUnits.toNat := by
    decide
  have rest : launch.y - tokens = launch'.y := by omega
  have paid := add_cost_le (show tokens < launch.y by omega)
    (rest ▸ reachable.product_le_scaled present actions present' trading')
  have virtualSol := (reachable.live present).virtualSol
  have virtualSol' := ((reachable.run actions).live present').virtualSol
  rw [TokenLaunch.solToCurve]
  rw [TokenLaunch.x, TokenLaunch.x, virtualSol, virtualSol'] at paid
  rw [TokenLaunch.x, virtualSol]
  omega

/-- Tokens that have returned to the curve were paid for as one sale, up to three lamports a
sale. -/
theorem Reachable.tokens_in (reachable : world.Reachable)
    (present : world.launches (.launch mint) = some launch) (actions : List Action)
    (present' : (world.run actions).launches (.launch mint) = some launch')
    (trading' : launch'.graduated = false) {tokens : ℕ} (returned : launch'.y = launch.y + tokens) :
    launch.realSolReserves.toNat ≤ launch'.realSolReserves.toNat + launch.grossSolOut tokens +
      3 * world.tally (sellCount mint) actions := by
  have paid := le_add_proceeds
    (returned ▸ reachable.product_le_scaled present actions present' trading')
  have virtualSol := (reachable.live present).virtualSol
  have virtualSol' := ((reachable.run actions).live present').virtualSol
  rw [TokenLaunch.grossSolOut, cappedProceeds]
  rw [TokenLaunch.x, TokenLaunch.x, virtualSol, virtualSol'] at paid
  rw [TokenLaunch.x, virtualSol]
  omega

/-! ### Main results -/

/-- In every run between two states in which a launch trades, all traders together gain no more than
by one trade: tokens that left the curve cost them at least what buying them at once would have
cost, and tokens that returned brought them at most what selling them at once would have brought,
up to three lamports for every sale of the run. -/
theorem no_cheaper_route (reachable : world.Reachable)
    (present : world.launches (.launch mint) = some launch) (actions : List Action)
    (present' : (world.run actions).launches (.launch mint) = some launch')
    (trading' : launch'.graduated = false) :
    (∀ tokens, launch'.y + tokens = launch.y →
      world.tally (traderGain mint) actions ≤
        - (launch.solToCurve tokens : ℤ) + 3 * world.tally (sellCount mint) actions) ∧
    ∀ tokens, launch'.y = launch.y + tokens →
      world.tally (traderGain mint) actions ≤
        launch.grossSolOut tokens + 3 * world.tally (sellCount mint) actions := by
  have gained := reachable.traderGain_eq present actions present' trading'
  refine ⟨fun tokens left => ?_, fun tokens returned => ?_⟩
  · have bound := reachable.tokens_out present actions present' trading' left
    omega
  · have bound := reachable.tokens_in present actions present' trading' returned
    omega

/-- A round trip of one of two base units bought. -/
theorem no_cheaper_route_sample :
    let world := Sample.after Sample.params [Sample.endow]
    let actions := [.buy (Sample.trading Sample.whale) 2 10,
      .sell (Sample.trading Sample.whale) 1 0]
    ∃ launch, world.launches (.launch Sample.mint) = some launch ∧
      world.tally (traderGain Sample.mint) actions ≤
        - (launch.solToCurve 1 : ℤ) + 3 * world.tally (sellCount Sample.mint) actions := by
  intro world actions
  have before : (world.launches (.launch Sample.mint)).map TokenLaunch.y =
      some 1_236_363_636_000_000 := by decide +kernel
  have after : ((world.run actions).launches (.launch Sample.mint)).map
      (fun launch => (launch.graduated, launch.y)) = some (false, 1_236_363_635_999_999) := by
    decide +kernel
  obtain ⟨launch, present, reserve⟩ := Option.map_eq_some_iff.mp before
  obtain ⟨launch', present', found⟩ := Option.map_eq_some_iff.mp after
  obtain ⟨trading', reserve'⟩ := Prod.mk.inj found
  exact ⟨launch, present, (no_cheaper_route (Sample.reachable_after _ _) present actions present'
    trading').1 1 (by rw [reserve, reserve'])⟩

/-- One for a buy from the launch. -/
def buyCount (mint : Pubkey) (world : World) (action : Action) (_ : World) : ℕ :=
  match world.operation mint action with
  | .buy _ _ => 1
  | _ => 0

/-- A buy raises the product by less than the largest reserve, and a sale raises it no further than
to where it started. -/
theorem le_startingProduct_count {unixTimestamp : Int64} {funds : ℕ → ℕ} {actions : List Action}
    (present : ((genesis unixTimestamp funds).run actions).launches (.launch mint) = some launch)
    (trading : launch.graduated = false) : launch.k ≤ TokenLaunch.startingProduct +
      (genesis unixTimestamp funds).tally (buyCount mint) actions *
        TokenLaunch.virtualTokenUnits.toNat := by
  refine (trading_ghost (buyCount mint) (fun launch count =>
      launch.y ≤ TokenLaunch.virtualTokenUnits.toNat ∧ launch.k ≤ TokenLaunch.startingProduct +
        count * TokenLaunch.virtualTokenUnits.toNat)
    (fun _ _ _ bound => ⟨bound.1, bound.2.trans (Nat.add_le_add_left
      (Nat.mul_le_mul_right _ (Nat.le_add_right _ _)) _)⟩) ?_ ?_ ?_ _ _ _ _ present trading).2
  · intro launch count created
    refine ⟨?_, created.k_eq ▸ Nat.le_add_right _ _⟩
    obtain ⟨accounts, bumps, createdAt, rfl⟩ := created
    exact le_rfl
  · intro world action world' launch launch' tokens cost there count buy _ bought bound
    have rise := bought.k_lt
    have fewer := bought.virtualTokens
    rw [buyCount, buy, Nat.add_mul, Nat.one_mul]
    omega
  · intro world action world' launch launch' tokens payout there count sale _ sold live bound
    have still : launch'.graduated = false := by rw [sold.frame, sold.trading]
    have capped : launch.virtualSolReserves.toNat * launch'.y ≤ TokenLaunch.startingProduct := by
      rw [← sold.virtualSol, live.virtualSol]
      exact Nat.mul_le_mul_left _ (live.trading still).y_le
    have rise := sold.k_le_max
    refine ⟨(live.trading still).y_le, ?_⟩
    rw [buyCount, sale, Nat.add_zero]
    omega

/-- Two launches that trade and have sold as many tokens have the same token reserves, and what the
first has recorded more than the second is at most three lamports for every buy of the first and
every sale of the second, whatever happened in the two runs. -/
theorem path_independent {unixTimestamp unixTimestamp' : Int64} {funds funds' : ℕ → ℕ}
    {actions actions' : List Action} {mint' : Pubkey}
    (present : ((genesis unixTimestamp funds).run actions).launches (.launch mint) = some launch)
    (present' : ((genesis unixTimestamp' funds').run actions').launches (.launch mint') =
      some launch')
    (trading : launch.graduated = false) (trading' : launch'.graduated = false)
    (same : launch.tokensSold = launch'.tokensSold) :
    launch.realTokenReserves = launch'.realTokenReserves ∧
      launch.virtualTokenReserves = launch'.virtualTokenReserves ∧
      launch.realSolReserves.toNat ≤ launch'.realSolReserves.toNat +
        3 * ((genesis unixTimestamp funds).tally (buyCount mint) actions +
          (genesis unixTimestamp' funds').tally (sellCount mint') actions') := by
  have reachable := (genesis_reachable unixTimestamp funds).run actions
  have reachable' := (genesis_reachable unixTimestamp' funds').run actions'
  have books := reachable.trading present trading
  have books' := reachable'.trading present' trading'
  have allocation := books.allocation
  have allocation' := books'.allocation
  have tokens : launch.realTokenReserves.toNat = launch'.realTokenReserves.toNat := by
    rw [same] at allocation
    omega
  have reserve : launch.y = launch'.y := by
    have offset := books.offset
    have offset' := books'.offset
    omega
  refine ⟨UInt64.toNat_inj.mp tokens, UInt64.toNat_inj.mp reserve, ?_⟩
  have above := le_startingProduct_count present trading
  have below := startingProduct_le_count present' trading'
  generalize (genesis unixTimestamp funds).tally (buyCount mint) actions = buys at above ⊢
  generalize (genesis unixTimestamp' funds').tally (sellCount mint') actions' = sells at below ⊢
  have scaled : launch.x * launch.y ≤ (launch'.x + 3 * (buys + sells)) * launch.y :=
    calc launch.x * launch.y
        ≤ launch'.k + (buys + sells) * TokenLaunch.virtualTokenUnits.toNat := by
          rw [TokenLaunch.k] at above
          rw [Nat.add_mul]
          omega
      _ ≤ launch'.k + (buys + sells) * (3 * launch'.y) :=
          Nat.add_le_add_left (Nat.mul_le_mul_left _ books'.units_le) _
      _ = (launch'.x + 3 * (buys + sells)) * launch.y := by
          rw [TokenLaunch.k, reserve]
          ring
  have bound := Nat.le_of_mul_le_mul_right scaled (books.lt_y (Nat.zero_le _))
  rw [TokenLaunch.x, TokenLaunch.x, (reachable.live present).virtualSol,
    (reachable'.live present').virtualSol] at bound
  omega

/-- One purchase, and the same tokens by two purchases and a sale. -/
theorem path_independent_sample :
    let direct := Sample.opening Sample.params ++
      [Sample.endow, .buy (Sample.trading Sample.trader) 3_000_000 1_000_000]
    let detour := Sample.opening Sample.params ++
      [Sample.endow, .buy (Sample.trading Sample.whale) 4_000_000 1_000_000,
        .buy (Sample.trading Sample.trader) 1_000_000 1_000_000,
        .sell (Sample.trading Sample.whale) 2_000_000 0]
    ∃ launch launch', (Sample.start.run direct).launches (.launch Sample.mint) = some launch ∧
      (Sample.start.run detour).launches (.launch Sample.mint) = some launch' ∧
      launch.realSolReserves.toNat ≤ launch'.realSolReserves.toNat +
        3 * (Sample.start.tally (buyCount Sample.mint) direct +
          Sample.start.tally (sellCount Sample.mint) detour) := by
  intro direct detour
  have first : ((Sample.start.run direct).launches (.launch Sample.mint)).map
      (fun launch => (launch.graduated, launch.tokensSold)) = some (false, 3_000_000) := by
    decide +kernel
  have second : ((Sample.start.run detour).launches (.launch Sample.mint)).map
      (fun launch => (launch.graduated, launch.tokensSold)) = some (false, 3_000_000) := by
    decide +kernel
  obtain ⟨launch, present, found⟩ := Option.map_eq_some_iff.mp first
  obtain ⟨launch', present', found'⟩ := Option.map_eq_some_iff.mp second
  obtain ⟨trading, tokensSold⟩ := Prod.mk.inj found
  obtain ⟨trading', tokensSold'⟩ := Prod.mk.inj found'
  exact ⟨launch, launch', present, present', (path_independent present present' trading trading'
    (tokensSold.trans tokensSold'.symm)).2.2⟩

end World

end Memecoin
