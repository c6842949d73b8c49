/-
This file says what one launch is for, away from accounts and signatures. A
market is the launch record with the amounts that back it: the lamports of its
vault, what was minted and what exists of its token, what the launch PDA's
accounts hold, what everybody else holds, and what the one account made by
`create_token` holds. Its operations are those of the curve and of the outside
world; `pass` is any action that concerns other launches. A wallet of the
configuration may be the vault itself, so every paying operation may also feed
the vault; `fed` says whether that is the case.

`Sound` is the invariant that carries all results about the books of a launch.
-/

import Memecoin.Trade
import Memecoin.Launching
import Memecoin.Graduation

namespace Memecoin

/-! ### Markets and their operations -/

/-- One launch with its vault, what was minted and is in supply of its token, the tokens of its PDA
and of everybody else, and the amount on the curve token account. -/
@[ext] structure Market where
  launch : Option TokenLaunch
  vault : ℕ
  minted : ℕ
  supply : ℕ
  curveTokens : ℕ
  otherTokens : ℕ
  curveAccount : ℕ

/-- What can happen to a market. -/
inductive Operation
  | pass
  | create
  | buy (tokens : ℕ) (fromCurveAccount : Bool)
  | sell (tokens : ℕ) (toCurveAccount : Bool)
  | graduate (toLaunch : Bool)
  | sealPool (meteoraLbPair : Pubkey)
  | giveLamports (amount : ℕ)
  | giveTokens (amount : ℕ) (toCurveAccount : Bool)
  | burn (amount : ℕ)
  deriving DecidableEq

namespace Operation

/-- Buys and sales. -/
def isTrade : Operation → Bool
  | .buy _ _ => true
  | .sell _ _ => true
  | _ => false

/-- The lamports an operation donates to the vault. -/
def lamportsGiven : Operation → ℕ
  | .giveLamports amount => amount
  | _ => 0

/-- The base units an operation donates to accounts of the launch PDA. -/
def tokensGiven : Operation → ℕ
  | .giveTokens amount _ => amount
  | _ => 0

/-- What an operation does to the curve token account beyond what it does to the recorded
reserve: purchases served by other accounts of the launch PDA and donations leave it more, sales
into other accounts leave it less. -/
def accountDrift : Operation → ℤ
  | .buy tokens fromCurveAccount => if fromCurveAccount then 0 else tokens
  | .sell tokens toCurveAccount => if toCurveAccount then 0 else - tokens
  | .giveTokens amount toCurveAccount => if toCurveAccount then amount else 0
  | _ => 0

end Operation

/-- The launch account as `create_token` writes it. -/
def TokenLaunch.Created (launch : TokenLaunch) : Prop :=
  ∃ accounts bumps createdAt, launch =
    CreateToken.newLaunch accounts bumps createdAt curveAllocationUnits virtualTokenUnits

namespace Market

open TokenLaunch

/-- What an operation does to a market. `wallets` is what the vault receives as a configured
wallet. -/
inductive Step (fed : Prop) : Market → Operation → Market → Prop
  | pass (market : Market) (wallets : ℕ) (closed : ¬ fed → wallets = 0) :
    Step fed market .pass { market with vault := market.vault + wallets }
  | create (market : Market) (launch : TokenLaunch) (wallets : ℕ)
    (closed : ¬ fed → wallets = 0) (absent : market.launch = none) (created : launch.Created) :
    Step fed market .create { market with
      launch := some launch
      vault := market.vault + wallets
      minted := curveAllocationUnits.toNat
      supply := curveAllocationUnits.toNat
      curveTokens := market.curveTokens + curveAllocationUnits.toNat
      curveAccount := market.curveAccount + curveAllocationUnits.toNat }
  | buy (market : Market) (launch launch' : TokenLaunch) (tokens cost wallets : ℕ)
    (fromCurveAccount : Bool) (closed : ¬ fed → wallets = 0)
    (present : market.launch = some launch) (bought : launch.Bought tokens cost launch')
    (held : tokens ≤ market.curveTokens)
    (heldThere : fromCurveAccount = true → tokens ≤ market.curveAccount) :
    Step fed market (.buy tokens fromCurveAccount) { market with
      launch := some launch'
      vault := market.vault + cost + wallets
      curveTokens := market.curveTokens - tokens
      otherTokens := market.otherTokens + tokens
      curveAccount := market.curveAccount - if fromCurveAccount then tokens else 0 }
  | sell (market : Market) (launch launch' : TokenLaunch) (tokens payout wallets : ℕ)
    (toCurveAccount : Bool) (closed : ¬ fed → wallets = 0)
    (present : market.launch = some launch) (sold : launch.Sold tokens payout launch')
    (held : tokens ≤ market.otherTokens) (covered : payout ≤ market.vault + wallets) :
    Step fed market (.sell tokens toCurveAccount) { market with
      launch := some launch'
      vault := market.vault + wallets - payout
      curveTokens := market.curveTokens + tokens
      otherTokens := market.otherTokens - tokens
      curveAccount := market.curveAccount + if toCurveAccount then tokens else 0 }
  | graduate (market : Market) (launch : TokenLaunch) (remaining : UInt64) (fee wallets : ℕ)
    (toLaunch : Bool) (closed : ¬ fed → wallets = 0) (present : market.launch = some launch)
    (trading : launch.graduated = false)
    (split : remaining.toNat + fee = launch.realSolReserves.toNat)
    (covered : launch.realSolReserves.toNat ≤ market.vault + wallets) :
    Step fed market (.graduate toLaunch) { market with
      launch := some (launch.graduate remaining)
      vault := market.vault + wallets - launch.realSolReserves.toNat
      minted := market.minted + graduationReserveUnits.toNat
      supply := market.supply + graduationReserveUnits.toNat
      curveTokens := market.curveTokens + if toLaunch then graduationReserveUnits.toNat else 0
      otherTokens := market.otherTokens + if toLaunch then 0 else graduationReserveUnits.toNat
      curveAccount := market.curveAccount +
        if toLaunch then graduationReserveUnits.toNat else 0 }
  | sealPool (market : Market) (launch : TokenLaunch) (meteoraLbPair : Pubkey)
    (present : market.launch = some launch) (graduated : launch.graduated = true)
    (unseeded : launch.poolSeeded = false) (nonzero : meteoraLbPair ≠ .default) :
    Step fed market (.sealPool meteoraLbPair) { market with
      launch := some (launch.withPool meteoraLbPair) }
  | giveLamports (market : Market) (amount : ℕ) :
    Step fed market (.giveLamports amount) { market with vault := market.vault + amount }
  | giveTokens (market : Market) (amount : ℕ) (toCurveAccount : Bool)
    (held : amount ≤ market.otherTokens) :
    Step fed market (.giveTokens amount toCurveAccount) { market with
      curveTokens := market.curveTokens + amount
      otherTokens := market.otherTokens - amount
      curveAccount := market.curveAccount + if toCurveAccount then amount else 0 }
  | burn (market : Market) (amount : ℕ) (held : amount ≤ market.otherTokens) :
    Step fed market (.burn amount) { market with
      supply := market.supply - amount
      otherTokens := market.otherTokens - amount }

theorem Step.of_eq {fed : Prop} {market after market' : Market} {operation : Operation}
    (step : Step fed market operation after) (same : market' = after) :
    Step fed market operation market' := same ▸ step

/-! ### The books -/

/-- The recorded SOL of a market; none before the launch exists. -/
def realSol (market : Market) : ℕ := market.launch.elim 0 (·.realSolReserves.toNat)

/-- What the vault holds beyond the recorded SOL. -/
def surplus (market : Market) : ℤ := market.vault - market.realSol

/-- A launch that trades: the counters agree with each other and with the tokens. -/
structure Trading (market : Market) (launch : TokenLaunch) : Prop where
  minted : market.minted = curveAllocationUnits.toNat
  allocation : launch.realTokenReserves.toNat + launch.tokensSold.toNat =
    curveAllocationUnits.toNat
  offset : launch.y + curveAllocationUnits.toNat =
    launch.realTokenReserves.toNat + virtualTokenUnits.toNat
  capped : launch.realSolReserves.toNat ≤ maxRealSolReserves.toNat
  backed : launch.realTokenReserves.toNat ≤ market.curveTokens
  outstanding : market.otherTokens ≤ launch.tokensSold.toNat
  unseeded : launch.poolSeeded = false
  unpaired : launch.meteoraLbPair = .default

/-- A launch that has graduated. -/
structure Closed (market : Market) (launch : TokenLaunch) : Prop where
  minted : market.minted = totalSupplyUnits.toNat
  emptied : launch.realSolReserves.toNat = 0
  paired : launch.meteoraLbPair ≠ .default ↔ launch.poolSeeded = true

/-- A launch in either phase. -/
structure Live (market : Market) (launch : TokenLaunch) : Prop where
  solvent : launch.realSolReserves.toNat ≤ market.vault
  virtualSol : launch.virtualSolReserves = defaultVirtualSol
  trading : launch.graduated = false → market.Trading launch
  closed : launch.graduated = true → market.Closed launch

/-- Before a launch exists, nothing of its token does. -/
structure Unborn (market : Market) : Prop where
  minted : market.minted = 0
  supply : market.supply = 0
  curveTokens : market.curveTokens = 0
  otherTokens : market.otherTokens = 0
  curveAccount : market.curveAccount = 0

/-- The invariant of a market. -/
structure Sound (market : Market) : Prop where
  supplied : market.supply = market.curveTokens + market.otherTokens
  issued : market.supply ≤ market.minted
  unborn : market.launch = none → market.Unborn
  live : ∀ launch, market.launch = some launch → market.Live launch

/-! ### Every operation keeps the books -/

/-- More lamports, and tokens that move to the curve or vanish, leave a launch as live as it
was. -/
theorem Live.mono {market market' : Market} {launch : TokenLaunch} (live : market.Live launch)
    (vault : market.vault ≤ market'.vault) (minted : market'.minted = market.minted)
    (curve : market.curveTokens ≤ market'.curveTokens)
    (other : market'.otherTokens ≤ market.otherTokens) : market'.Live launch where
  solvent := live.solvent.trans vault
  virtualSol := live.virtualSol
  trading := fun trades => by
    have books := live.trading trades
    exact { books with
      minted := minted.trans books.minted
      backed := books.backed.trans curve
      outstanding := other.trans books.outstanding }
  closed := fun graduated => by
    have books := live.closed graduated
    exact { books with minted := minted.trans books.minted }

theorem live_created {market : Market} {launch : TokenLaunch} (created : launch.Created)
    (minted : market.minted = curveAllocationUnits.toNat)
    (curve : curveAllocationUnits.toNat ≤ market.curveTokens) (other : market.otherTokens = 0) :
    market.Live launch := by
  obtain ⟨accounts, bumps, createdAt, rfl⟩ := created
  refine ⟨Nat.zero_le _, rfl, fun _ => ?_, fun graduated => nomatch graduated⟩
  exact ⟨minted, Nat.add_zero _, Nat.add_comm _ _, Nat.zero_le _, curve, other.le, rfl, rfl⟩

theorem Live.buy {market market' : Market} {launch launch' : TokenLaunch} {tokens cost : ℕ}
    (live : market.Live launch) (bought : launch.Bought tokens cost launch')
    (vault : market.vault + cost ≤ market'.vault) (minted : market'.minted = market.minted)
    (curve : market.curveTokens ≤ market'.curveTokens + tokens)
    (other : market'.otherTokens ≤ market.otherTokens + tokens) : market'.Live launch' := by
  have books := live.trading bought.trading
  have still : launch'.graduated = false := by rw [bought.frame, bought.trading]
  refine ⟨?_, ?_, fun _ => ?_, fun graduated => absurd (still.symm.trans graduated) (by decide)⟩
  · rw [bought.realSol]
    exact (Nat.add_le_add_right live.solvent cost).trans vault
  · rw [bought.virtualSol, live.virtualSol]
  · obtain ⟨mintedBefore, allocation, offset, _, backed, outstanding, unseeded, unpaired⟩ := books
    have realTokens := bought.realTokens
    have virtualTokens := bought.virtualTokens
    have tokensSold := bought.tokensSold
    refine ⟨minted.trans mintedBefore, ?_, ?_, bought.capped, ?_, ?_, ?_, ?_⟩
    · omega
    · omega
    · omega
    · omega
    · rw [bought.frame, unseeded]
    · rw [bought.frame, unpaired]

/-- Nobody can sell more than was sold to them: the counter does not clip. -/
theorem Trading.sold_le {market : Market} {launch : TokenLaunch} (books : market.Trading launch)
    {tokens : ℕ} (held : tokens ≤ market.otherTokens) : tokens ≤ launch.tokensSold.toNat :=
  held.trans books.outstanding

theorem Live.sell {market market' : Market} {launch launch' : TokenLaunch} {tokens payout : ℕ}
    (live : market.Live launch) (sold : launch.Sold tokens payout launch')
    (held : tokens ≤ market.otherTokens) (vault : market.vault ≤ market'.vault + payout)
    (minted : market'.minted = market.minted)
    (curve : market.curveTokens + tokens ≤ market'.curveTokens)
    (other : market'.otherTokens + tokens ≤ market.otherTokens) : market'.Live launch' := by
  have books := live.trading sold.trading
  have still : launch'.graduated = false := by rw [sold.frame, sold.trading]
  have covered := books.sold_le held
  have realSol := sold.realSol
  have solvent := live.solvent
  refine ⟨by omega, ?_, fun _ => ?_, fun graduated => absurd (still.symm.trans graduated) (by decide)⟩
  · rw [sold.virtualSol, live.virtualSol]
  · obtain ⟨mintedBefore, allocation, offset, capped, backed, outstanding, unseeded, unpaired⟩ :=
      books
    have realTokens := sold.realTokens
    have virtualTokens := sold.virtualTokens
    have tokensSold := sold.tokensSold
    refine ⟨minted.trans mintedBefore, ?_, ?_, ?_, ?_, ?_, ?_, ?_⟩
    · omega
    · omega
    · omega
    · omega
    · omega
    · rw [sold.frame, unseeded]
    · rw [sold.frame, unpaired]

theorem Live.graduate {market market' : Market} {launch : TokenLaunch} {remaining : UInt64}
    (live : market.Live launch) (trades : launch.graduated = false)
    (minted : market'.minted = market.minted + graduationReserveUnits.toNat) :
    market'.Live (launch.graduate remaining) := by
  have books := live.trading trades
  refine ⟨Nat.zero_le _, live.virtualSol, fun trading => (nomatch trading), fun _ => ⟨?_, rfl, ?_⟩⟩
  · rw [minted, books.minted]
    rfl
  · exact ⟨fun paired => absurd rfl paired, fun seeded => nomatch seeded⟩

theorem Live.sealPool {market market' : Market} {launch : TokenLaunch} {meteoraLbPair : Pubkey}
    (live : market.Live launch) (graduated : launch.graduated = true)
    (nonzero : meteoraLbPair ≠ .default) (vault : market'.vault = market.vault)
    (minted : market'.minted = market.minted) :
    market'.Live (launch.withPool meteoraLbPair) := by
  have books := live.closed graduated
  refine ⟨live.solvent.trans vault.ge, live.virtualSol,
    fun trading => absurd (graduated.symm.trans trading) (by decide), fun _ => ?_⟩
  exact ⟨minted.trans books.minted, books.emptied, fun _ => rfl, fun _ => nonzero⟩

/-- One operation; the cases are the operations. -/
theorem Sound.step {fed : Prop} {market market' : Market} {operation : Operation}
    (sound : market.Sound) (step : Step fed market operation market') : market'.Sound := by
  obtain ⟨supplied, issued, unborn, live⟩ := sound
  cases step with
  | pass wallets _ =>
    refine ⟨supplied, issued, fun absent => ?_, fun launch present => ?_⟩
    · exact { unborn absent with }
    · exact (live launch present).mono (Nat.le_add_right _ _) rfl le_rfl le_rfl
  | create launch wallets _ absent created =>
    obtain ⟨minted, supply, curve, other, account⟩ := unborn absent
    refine ⟨?_, le_rfl, fun absent => (nomatch absent), fun launch present => ?_⟩
    · show curveAllocationUnits.toNat = market.curveTokens + _ + market.otherTokens
      rw [curve, other, Nat.zero_add, Nat.add_zero]
    · obtain rfl := Option.some.inj present
      exact live_created created rfl (Nat.le_add_left _ _) other
  | buy launch launch' tokens cost wallets fromCurveAccount _ present bought held heldThere =>
    refine ⟨?_, issued, fun absent => (nomatch absent), fun other found => ?_⟩
    · show market.supply = market.curveTokens - tokens + (market.otherTokens + tokens)
      omega
    · obtain rfl := Option.some.inj found
      exact (live launch present).buy bought (Nat.le_add_right _ _) rfl le_tsub_add le_rfl
  | sell launch launch' tokens payout wallets toCurveAccount _ present sold held covered =>
    refine ⟨?_, issued, fun absent => (nomatch absent), fun other found => ?_⟩
    · show market.supply = market.curveTokens + tokens + (market.otherTokens - tokens)
      omega
    · obtain rfl := Option.some.inj found
      refine (live launch present).sell sold held ?_ rfl le_rfl (Nat.sub_add_cancel held).le
      show market.vault ≤ market.vault + wallets - payout + payout
      omega
  | graduate launch remaining fee wallets toLaunch _ present trading split covered =>
    refine ⟨?_, Nat.add_le_add_right issued _, fun absent => (nomatch absent), fun other found => ?_⟩
    · show market.supply + _ = market.curveTokens + _ + (market.otherTokens + _)
      cases toLaunch <;> simp only [Bool.false_eq_true, if_true, if_false] <;> omega
    · obtain rfl := Option.some.inj found
      exact (live launch present).graduate trading rfl
  | sealPool launch meteoraLbPair present graduated unseeded nonzero =>
    refine ⟨supplied, issued, fun absent => (nomatch absent), fun other found => ?_⟩
    obtain rfl := Option.some.inj found
    exact (live launch present).sealPool graduated nonzero rfl rfl
  | giveLamports amount =>
    refine ⟨supplied, issued, fun absent => { unborn absent with }, fun launch present => ?_⟩
    exact (live launch present).mono (Nat.le_add_right _ _) rfl le_rfl le_rfl
  | giveTokens amount toCurveAccount held =>
    refine ⟨?_, issued, fun absent => ?_, fun launch present => ?_⟩
    · show market.supply = market.curveTokens + amount + (market.otherTokens - amount)
      omega
    · -- nobody holds a token that does not exist, so nothing was given
      obtain ⟨minted, supply, curve, other, account⟩ := unborn absent
      obtain rfl : amount = 0 := by omega
      refine ⟨minted, supply, curve, other, ?_⟩
      show market.curveAccount + _ = 0
      rw [account, ite_self]
    · exact (live launch present).mono le_rfl rfl (Nat.le_add_right _ _) (Nat.sub_le _ _)
  | burn amount held =>
    refine ⟨?_, (Nat.sub_le _ _).trans issued, fun absent => ?_, fun launch present => ?_⟩
    · show market.supply - amount = market.curveTokens + (market.otherTokens - amount)
      omega
    · obtain ⟨minted, supply, curve, other, account⟩ := unborn absent
      refine ⟨minted, ?_, curve, ?_, account⟩
      · show market.supply - amount = 0
        rw [supply, Nat.zero_sub]
      · show market.otherTokens - amount = 0
        rw [other, Nat.zero_sub]
    · exact (live launch present).mono le_rfl rfl le_rfl (Nat.sub_le _ _)

/-- What a trade did to the launch. -/
theorem Step.trade {fed : Prop} {market market' : Market} {operation : Operation}
    (step : Step fed market operation market') (trade : operation.isTrade = true) :
    ∃ launch launch', market.launch = some launch ∧ market'.launch = some launch' ∧
      ((∃ tokens cost there, operation = .buy tokens there ∧ launch.Bought tokens cost launch') ∨
        ∃ tokens payout there, operation = .sell tokens there ∧
          launch.Sold tokens payout launch') := by
  cases step with
  | buy launch launch' tokens cost wallets there _ present bought held heldThere =>
    exact ⟨launch, launch', present, rfl, .inl ⟨tokens, cost, there, rfl, bought⟩⟩
  | sell launch launch' tokens payout wallets there _ present sold held covered =>
    exact ⟨launch, launch', present, rfl, .inr ⟨tokens, payout, there, rfl, sold⟩⟩
  | _ => cases trade

/-- What the last operation was, seen from a launch that trades. -/
theorem Step.trading_cases {fed : Prop} {market market' : Market} {operation : Operation}
    (step : Step fed market operation market') {launch' : TokenLaunch}
    (present : market'.launch = some launch') (trading : launch'.graduated = false) :
    (market.launch = some launch' ∧ operation.isTrade = false) ∨
      (operation = .create ∧ launch'.Created) ∨
      (∃ launch tokens cost there, operation = .buy tokens there ∧
        market.launch = some launch ∧ launch.Bought tokens cost launch') ∨
      ∃ launch tokens payout there, operation = .sell tokens there ∧
        market.launch = some launch ∧ launch.Sold tokens payout launch' := by
  cases step with
  | pass wallets _ => exact .inl ⟨present, rfl⟩
  | create launch wallets _ absent created =>
    obtain rfl := Option.some.inj present
    exact .inr (.inl ⟨rfl, created⟩)
  | buy launch launch' tokens cost wallets there _ earlier bought held heldThere =>
    obtain rfl := Option.some.inj present
    exact .inr (.inr (.inl ⟨launch, tokens, cost, there, rfl, earlier, bought⟩))
  | sell launch launch' tokens payout wallets there _ earlier sold held covered =>
    obtain rfl := Option.some.inj present
    exact .inr (.inr (.inr ⟨launch, tokens, payout, there, rfl, earlier, sold⟩))
  | graduate launch remaining fee wallets toLaunch _ earlier trades split covered =>
    obtain rfl := Option.some.inj present
    cases trading
  | sealPool launch meteoraLbPair earlier graduated unseeded nonzero =>
    obtain rfl := Option.some.inj present
    cases graduated.symm.trans trading
  | giveLamports amount => exact .inl ⟨present, rfl⟩
  | giveTokens amount there held => exact .inl ⟨present, rfl⟩
  | burn amount held => exact .inl ⟨present, rfl⟩

/-! ### What operations add up to -/

/-- The vault and the recorded SOL move together, up to what the vault receives as a wallet and
what is donated to it. -/
theorem Step.balance {fed : Prop} {market market' : Market} {operation : Operation}
    (step : Step fed market operation market') :
    ∃ wallets : ℕ, (¬ fed → wallets = 0) ∧ market'.vault + market.realSol =
      market.vault + market'.realSol + (wallets + operation.lamportsGiven) := by
  cases step with
  | pass wallets closed => exact ⟨wallets, closed, Nat.add_right_comm _ _ _⟩
  | create launch wallets closed absent created =>
    obtain ⟨accounts, bumps, createdAt, rfl⟩ := created
    refine ⟨wallets, closed, ?_⟩
    rw [realSol, absent]
    exact Nat.add_right_comm _ _ _
  | buy launch launch' tokens cost wallets fromCurveAccount closed present bought held heldThere =>
    refine ⟨wallets, closed, ?_⟩
    have realSolAfter := bought.realSol
    simp only [realSol, present, Option.elim_some, Operation.lamportsGiven]
    omega
  | sell launch launch' tokens payout wallets toCurveAccount closed present sold held covered =>
    refine ⟨wallets, closed, ?_⟩
    have realSolAfter := sold.realSol
    simp only [realSol, present, Option.elim_some, Operation.lamportsGiven]
    omega
  | graduate launch remaining fee wallets toLaunch closed present trading split covered =>
    refine ⟨wallets, closed, ?_⟩
    have emptied : (launch.graduate remaining).realSolReserves.toNat = 0 := rfl
    simp only [realSol, present, Option.elim_some, Operation.lamportsGiven, emptied]
    omega
  | sealPool launch meteoraLbPair present graduated unseeded nonzero =>
    refine ⟨0, fun _ => rfl, ?_⟩
    rw [realSol, present]
    rfl
  | giveLamports amount =>
    refine ⟨0, fun _ => rfl, ?_⟩
    rw [Nat.zero_add]
    exact Nat.add_right_comm _ _ _
  | giveTokens amount toCurveAccount held => exact ⟨0, fun _ => rfl, rfl⟩
  | burn amount held => exact ⟨0, fun _ => rfl, rfl⟩

theorem Step.surplus {fed : Prop} {market market' : Market} {operation : Operation}
    (step : Step fed market operation market') :
    ∃ wallets : ℕ, (¬ fed → wallets = 0) ∧
      market'.surplus = market.surplus + (wallets + operation.lamportsGiven : ℕ) := by
  obtain ⟨wallets, closed, balance⟩ := step.balance
  refine ⟨wallets, closed, ?_⟩
  simp only [Market.surplus]
  omega

/-- Until graduation the launch PDA's accounts hold the recorded reserve and the donations. -/
def ReserveHeld (market : Market) (given : ℕ) : Prop :=
  (market.launch = none → given = 0) ∧
    ∀ launch, market.launch = some launch → launch.graduated = false →
      market.curveTokens = launch.realTokenReserves.toNat + given

theorem Step.reserveHeld {fed : Prop} {market market' : Market} {operation : Operation}
    (step : Step fed market operation market') (sound : market.Sound) {given : ℕ}
    (held : market.ReserveHeld given) :
    market'.ReserveHeld (given + operation.tokensGiven) := by
  obtain ⟨absence, equation⟩ := held
  cases step with
  | pass | giveLamports | burn => exact ⟨absence, equation⟩
  | create launch wallets closed absent created =>
    obtain ⟨accounts, bumps, createdAt, rfl⟩ := created
    refine ⟨fun absent => (nomatch absent), fun launch present _ => ?_⟩
    obtain rfl := Option.some.inj present
    rw [absence absent]
    show market.curveTokens + _ = _
    rw [(sound.unborn absent).curveTokens, Nat.zero_add]
    rfl
  | buy launch launch' tokens cost wallets fromCurveAccount closed present bought held heldThere =>
    refine ⟨fun absent => (nomatch absent), fun other found _ => ?_⟩
    obtain rfl := Option.some.inj found
    have before := equation launch present bought.trading
    have realTokens := bought.realTokens
    show market.curveTokens - tokens = launch'.realTokenReserves.toNat + given
    omega
  | sell launch launch' tokens payout wallets toCurveAccount closed present sold held covered =>
    refine ⟨fun absent => (nomatch absent), fun other found _ => ?_⟩
    obtain rfl := Option.some.inj found
    have before := equation launch present sold.trading
    have realTokens := sold.realTokens
    show market.curveTokens + tokens = launch'.realTokenReserves.toNat + given
    omega
  | graduate launch remaining fee wallets toLaunch closed present trading split covered =>
    refine ⟨fun absent => (nomatch absent), fun other found trades => ?_⟩
    obtain rfl := Option.some.inj found
    cases trades
  | sealPool launch meteoraLbPair present graduated unseeded nonzero =>
    refine ⟨fun absent => (nomatch absent), fun other found trades => ?_⟩
    obtain rfl := Option.some.inj found
    cases graduated.symm.trans trades
  | giveTokens amount toCurveAccount held =>
    refine ⟨fun absent => ?_, fun launch present trades => ?_⟩
    · have nothing := (sound.unborn absent).otherTokens
      show given + amount = 0
      rw [absence absent]
      omega
    · show market.curveTokens + amount = _ + (given + amount)
      rw [equation launch present trades, Nat.add_assoc]

/-- Until graduation the curve token account holds the recorded reserve up to the drift. -/
def AccountHeld (market : Market) (drift : ℤ) : Prop :=
  (market.launch = none → drift = 0) ∧
    ∀ launch, market.launch = some launch → launch.graduated = false →
      (market.curveAccount : ℤ) = launch.realTokenReserves.toNat + drift

theorem Step.accountHeld {fed : Prop} {market market' : Market} {operation : Operation}
    (step : Step fed market operation market') (sound : market.Sound) {drift : ℤ}
    (held : market.AccountHeld drift) :
    market'.AccountHeld (drift + operation.accountDrift) := by
  obtain ⟨absence, equation⟩ := held
  cases step with
  | pass | giveLamports | burn =>
    show AccountHeld _ (drift + 0)
    rw [add_zero]
    exact ⟨absence, equation⟩
  | create launch wallets closed absent created =>
    obtain ⟨accounts, bumps, createdAt, rfl⟩ := created
    refine ⟨fun absent => (nomatch absent), fun launch present _ => ?_⟩
    obtain rfl := Option.some.inj present
    rw [absence absent]
    show ((market.curveAccount + _ : ℕ) : ℤ) = _
    rw [(sound.unborn absent).curveAccount, Nat.zero_add]
    rfl
  | buy launch launch' tokens cost wallets fromCurveAccount closed present bought held heldThere =>
    refine ⟨fun absent => (nomatch absent), fun other found _ => ?_⟩
    obtain rfl := Option.some.inj found
    have before := equation launch present bought.trading
    have realTokens := bought.realTokens
    show ((market.curveAccount - (if fromCurveAccount then tokens else 0) : ℕ) : ℤ) =
      launch'.realTokenReserves.toNat + _
    cases fromCurveAccount with
    | false =>
      simp only [Bool.false_eq_true, if_false, Operation.accountDrift]
      omega
    | true =>
      have covered := heldThere rfl
      simp only [if_true, Operation.accountDrift]
      omega
  | sell launch launch' tokens payout wallets toCurveAccount closed present sold held covered =>
    refine ⟨fun absent => (nomatch absent), fun other found _ => ?_⟩
    obtain rfl := Option.some.inj found
    have before := equation launch present sold.trading
    have realTokens := sold.realTokens
    show ((market.curveAccount + (if toCurveAccount then tokens else 0) : ℕ) : ℤ) =
      launch'.realTokenReserves.toNat + _
    cases toCurveAccount <;>
      simp only [Bool.false_eq_true, if_true, if_false, Operation.accountDrift] <;> omega
  | graduate launch remaining fee wallets toLaunch closed present trading split covered =>
    refine ⟨fun absent => (nomatch absent), fun other found trades => ?_⟩
    obtain rfl := Option.some.inj found
    cases trades
  | sealPool launch meteoraLbPair present graduated unseeded nonzero =>
    refine ⟨fun absent => (nomatch absent), fun other found trades => ?_⟩
    obtain rfl := Option.some.inj found
    cases graduated.symm.trans trades
  | giveTokens amount toCurveAccount held =>
    refine ⟨fun absent => ?_, fun launch present trades => ?_⟩
    · obtain rfl : amount = 0 := by
        have nothing := (sound.unborn absent).otherTokens
        omega
      rw [absence absent]
      cases toCurveAccount <;> rfl
    · have before := equation launch present trades
      show ((market.curveAccount + (if toCurveAccount then amount else 0) : ℕ) : ℤ) = _
      cases toCurveAccount <;>
        simp only [Bool.false_eq_true, if_true, if_false, Operation.accountDrift] <;> omega

end Market

end Memecoin
