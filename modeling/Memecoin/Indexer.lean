/-
This file proves that the event log determines the launches. An indexer that
knows the reserves of a new launch and folds the events of its mint holds, after
every transaction, the values that the launch account records: no handler clamps,
resets or rounds anything that its event does not report. The indexer keeps signed
numbers, so nothing it does can hide a drift.
-/

import Memecoin.Library.EventLog
import Memecoin.Acceptance

namespace Memecoin

open Checked EventLog

/-! ### The indexer -/

/-- The mint whose launch an event is about. -/
def Event.mint? : Event → Option Pubkey
  | .tokenCreated event => some event.mint
  | .tradeExecuted event => some event.mint
  | .tokenGraduated event => some event.mint
  | .poolSeeded event => some event.mint
  | .configInitialized _ | .configUpdated _ => none

/-- What an indexer keeps of a launch. -/
@[ext]
structure IndexedLaunch where
  realSolReserves : ℤ
  realTokenReserves : ℤ
  virtualTokenReserves : ℤ
  tokensSold : ℤ
  graduated : Bool
  poolSeeded : Bool
  meteoraLbPair : Pubkey
  graduationSolLamports : UInt64
  graduationTokenAmount : UInt64
  deriving DecidableEq

namespace IndexedLaunch

/-- The fixed reserves of a new launch. -/
def created : IndexedLaunch where
  realSolReserves := 0
  realTokenReserves := TokenLaunch.curveAllocationUnits.toNat
  virtualTokenReserves := TokenLaunch.virtualTokenUnits.toNat
  tokensSold := 0
  graduated := false
  poolSeeded := false
  meteoraLbPair := .default
  graduationSolLamports := 0
  graduationTokenAmount := 0

/-- SOL that came to the curve for tokens that left it; in a sale both are negative. -/
def exchange (indexed : IndexedLaunch) (sol tokens : ℤ) : IndexedLaunch :=
  { indexed with
    realSolReserves := indexed.realSolReserves + sol
    realTokenReserves := indexed.realTokenReserves - tokens
    virtualTokenReserves := indexed.virtualTokenReserves - tokens
    tokensSold := indexed.tokensSold + tokens }

/-- A buy or a sale. -/
def trade (indexed : IndexedLaunch) (event : TradeExecuted) : IndexedLaunch :=
  if event.isBuy then indexed.exchange event.solAmount.toNat event.tokenAmount.toNat
  else indexed.exchange (-event.solAmount.toNat) (-event.tokenAmount.toNat)

/-- The reserves are emptied and the amounts of the event recorded. -/
def graduate (indexed : IndexedLaunch) (event : TokenGraduated) : IndexedLaunch :=
  { indexed with
    realSolReserves := 0
    realTokenReserves := 0
    graduated := true
    graduationSolLamports := event.finalSolReserves
    graduationTokenAmount := event.finalTokenReserves }

/-- The pool is recorded. -/
def sealPool (indexed : IndexedLaunch) (event : PoolSeeded) : IndexedLaunch :=
  { indexed with poolSeeded := true, meteoraLbPair := event.meteoraLbPair }

/-- One event of the mint. -/
def apply (indexed : Option IndexedLaunch) : Event → Option IndexedLaunch
  | .tokenCreated _ => some created
  | .tradeExecuted event => indexed.map (·.trade event)
  | .tokenGraduated event => indexed.map (·.graduate event)
  | .poolSeeded event => indexed.map (·.sealPool event)
  | .configInitialized _ | .configUpdated _ => indexed

end IndexedLaunch

/-- What an indexer of one mint makes of a log. -/
def indexMint (mint : Pubkey) (log : List Event) : Option IndexedLaunch :=
  replay (fun event => event.mint? = some mint) IndexedLaunch.apply none log

theorem indexMint_concat {mint : Pubkey} {event : Event} (concerned : event.mint? = some mint)
    (log : List Event) :
    indexMint mint (log ++ [event]) = IndexedLaunch.apply (indexMint mint log) event :=
  replay_concat (by exact decide_eq_true concerned) log

theorem indexMint_concat_of_ne {mint : Pubkey} {event : Event} (unconcerned : event.mint? ≠ some mint)
    (log : List Event) : indexMint mint (log ++ [event]) = indexMint mint log :=
  replay_concat_of_not (by rwa [decide_eq_true_eq]) log

/-- What the account of a launch says about the indexed values. -/
def TokenLaunch.indexed (launch : TokenLaunch) : IndexedLaunch where
  realSolReserves := launch.realSolReserves.toNat
  realTokenReserves := launch.realTokenReserves.toNat
  virtualTokenReserves := launch.virtualTokenReserves.toNat
  tokensSold := launch.tokensSold.toNat
  graduated := launch.graduated
  poolSeeded := launch.poolSeeded
  meteoraLbPair := launch.meteoraLbPair
  graduationSolLamports := launch.graduationSolLamports
  graduationTokenAmount := launch.graduationTokenAmount

theorem CreateToken.indexed_newLaunch (accounts : CreateToken) (bumps : CreateTokenBumps)
    (createdAt : Int64) :
    (accounts.newLaunch bumps createdAt TokenLaunch.curveAllocationUnits
      TokenLaunch.virtualTokenUnits).indexed = .created := rfl

namespace TokenLaunch

variable {launch launch' : TokenLaunch}

theorem Bought.indexed {tokens charge : ℕ} (bought : launch.Bought tokens charge launch') :
    launch'.indexed = launch.indexed.exchange charge tokens := by
  have realSol := bought.realSol
  have realTokens := bought.realTokens
  have virtualTokens : launch'.virtualTokenReserves.toNat + tokens =
    launch.virtualTokenReserves.toNat := bought.virtualTokens
  have tokensSold := bought.tokensSold
  ext : 1
  case realSolReserves => exact congrArg Nat.cast realSol
  case realTokenReserves => exact eq_sub_of_add_eq (congrArg Nat.cast realTokens)
  case virtualTokenReserves => exact eq_sub_of_add_eq (congrArg Nat.cast virtualTokens)
  case tokensSold => exact congrArg Nat.cast tokensSold
  all_goals
    rw [bought.frame]
    rfl

/-- A sale of no more than was sold is not clamped. -/
theorem Sold.indexed {tokens payout : ℕ} (sold : launch.Sold tokens payout launch')
    (outstanding : tokens ≤ launch.tokensSold.toNat) :
    launch'.indexed = launch.indexed.exchange (-payout) (-tokens) := by
  have realSol := sold.realSol
  have virtualTokens : launch'.virtualTokenReserves.toNat =
    launch.virtualTokenReserves.toNat + tokens := sold.virtualTokens
  have tokensSold : launch'.tokensSold.toNat + tokens = launch.tokensSold.toNat := by
    rw [sold.tokensSold, Nat.sub_add_cancel outstanding]
  ext : 1
  case realSolReserves => exact eq_add_neg_of_add_eq (congrArg Nat.cast realSol)
  case realTokenReserves =>
    show (launch'.realTokenReserves.toNat : ℤ) = launch.realTokenReserves.toNat - -tokens
    rw [sold.realTokens, Nat.cast_add, sub_neg_eq_add]
  case virtualTokenReserves =>
    show (launch'.virtualTokenReserves.toNat : ℤ) = launch.virtualTokenReserves.toNat - -tokens
    rw [virtualTokens, Nat.cast_add, sub_neg_eq_add]
  case tokensSold => exact eq_add_neg_of_add_eq (congrArg Nat.cast tokensSold)
  all_goals
    rw [sold.frame]
    rfl

/-- The handler clears the pool of the launch, which was clear before. -/
theorem indexed_graduate {event : TokenGraduated} (unseeded : launch.poolSeeded = false)
    (unpaired : launch.meteoraLbPair = .default)
    (reserve : event.finalTokenReserves = graduationReserveUnits) :
    (launch.graduate event.finalSolReserves).indexed = launch.indexed.graduate event := by
  ext : 1
  case poolSeeded => exact unseeded.symm
  case meteoraLbPair => exact unpaired.symm
  case graduationTokenAmount => exact reserve.symm
  all_goals rfl

end TokenLaunch

/-! ### What the events say -/

namespace Event

/-- The shares of an event sum to its fee. -/
def SharesTotal : Event → Prop
  | .tokenCreated event =>
    event.dinoShare.toNat + event.treasuryShare.toNat = event.creationFeePaid.toNat
  | .tradeExecuted event => event.creatorShare.toNat + event.dinoShare.toNat +
      event.treasuryShare.toNat = event.feePaid.toNat
  | .tokenGraduated event =>
    event.dinoShare.toNat + event.treasuryShare.toNat = event.graduationFeePaid.toNat
  | .poolSeeded _ | .configInitialized _ | .configUpdated _ => True

/-- A trade states the reserves that its indexer holds after it, a graduation divides up what its
indexer held before it. -/
def Restates (log : List Event) : Event → Prop
  | .tradeExecuted event =>
    ∃ indexed, indexMint event.mint (log ++ [.tradeExecuted event]) = some indexed ∧
      indexed.realSolReserves = event.newRealSolReserves.toNat ∧
      indexed.realTokenReserves = event.newRealTokenReserves.toNat
  | .tokenGraduated event => ∃ indexed, indexMint event.mint log = some indexed ∧
      indexed.realSolReserves = event.finalSolReserves.toNat + event.graduationFeePaid.toNat
  | _ => True

end Event

/-! ### One transaction -/

namespace World

/-- The indexers hold what the accounts record, and every event of the log agrees with them. -/
structure Indexed (world : World) : Prop where
  launches : ∀ mint, indexMint mint world.events =
    (world.launches (.launch mint)).map TokenLaunch.indexed
  sharesTotal : ∀ event ∈ world.events, event.SharesTotal
  restates : Each Event.Restates world.events

theorem genesis_indexed (unixTimestamp : Int64) (funds : ℕ → ℕ) :
    (genesis unixTimestamp funds).Indexed where
  launches := fun _ => rfl
  sharesTotal := fun _ member => absurd member List.not_mem_nil
  restates := each_nil

variable {world world' : World}

/-- A transaction that neither writes a launch nor emits an event. -/
theorem Indexed.silent (indexed : world.Indexed) (events : world'.events = world.events)
    (launches : world'.launches = world.launches) : world'.Indexed where
  launches := by rw [events, launches]; exact indexed.launches
  sharesTotal := by rw [events]; exact indexed.sharesTotal
  restates := by rw [events]; exact indexed.restates

/-- A transaction that emits one event, which takes every indexer to the new accounts. -/
theorem Indexed.emit (indexed : world.Indexed) {event : Event}
    (events : world'.events = world.events ++ [event])
    (launches : ∀ mint, indexMint mint (world.events ++ [event]) =
      (world'.launches (.launch mint)).map TokenLaunch.indexed)
    (sharesTotal : event.SharesTotal) (restates : event.Restates world.events) :
    world'.Indexed where
  launches := by rw [events]; exact launches
  sharesTotal := by
    rw [events]
    intro other member
    rcases List.mem_append.mp member with earlier | last
    · exact indexed.sharesTotal other earlier
    · rwa [List.mem_singleton.mp last]
  restates := by rw [events]; exact indexed.restates.concat restates

/-- The indexers after an event of a mint, when its launch changes as the event says. -/
theorem Indexed.launches_concat (indexed : world.Indexed) {event : Event} {mint : Pubkey}
    {launch' : TokenLaunch} (concerned : event.mint? = some mint)
    (applied : IndexedLaunch.apply ((world.launches (.launch mint)).map TokenLaunch.indexed) event =
      some launch'.indexed)
    (launches : world'.launches =
      Function.update world.launches (.launch mint) (some launch')) (other : Pubkey) :
    indexMint other (world.events ++ [event]) =
      (world'.launches (.launch other)).map TokenLaunch.indexed := by
  rw [launches]
  by_cases same : other = mint
  · subst same
    rw [Function.update_self, Option.map_some, ← applied, ← indexed.launches,
      indexMint_concat concerned]
  · have unconcerned : event.mint? ≠ some other := by
      rw [concerned]
      exact fun equal => same (Option.some.inj equal).symm
    rw [Function.update_of_ne fun equal => same (Pubkey.launch.inj equal), ← indexed.launches,
      indexMint_concat_of_ne unconcerned]

/-- The indexers after an event of no mint. -/
theorem Indexed.launches_concat_of_none (indexed : world.Indexed) {event : Event}
    (unconcerned : event.mint? = none) (launches : world'.launches = world.launches)
    (other : Pubkey) : indexMint other (world.events ++ [event]) =
      (world'.launches (.launch other)).map TokenLaunch.indexed := by
  rw [launches, ← indexed.launches, indexMint_concat_of_ne (unconcerned ▸ nofun)]

theorem Indexed.createToken (indexed : world.Indexed) {accounts : CreateToken}
    {params : CreateTokenParams} {bumps : CreateTokenBumps}
    (accepted : accounts.handler world params bumps = .ok world') : world'.Indexed := by
  obtain ⟨created⟩ := CreateToken.execution accepted
  obtain ⟨_, _, total, events⟩ := CreateToken.handler_events accepted
  refine indexed.emit events (indexed.launches_concat rfl ?_ created.launches) total trivial
  rw [created.created, CreateToken.indexed_newLaunch]
  rfl

/-- A trade that takes the indexer of its mint to the new account. -/
theorem Indexed.trade (indexed : world.Indexed) {launch launch' : TokenLaunch}
    {event : TradeExecuted} (events : world'.events = world.events ++ [.tradeExecuted event])
    (present : world.launches (.launch event.mint) = some launch)
    (traded : launch.indexed.trade event = launch'.indexed)
    (launches : world'.launches =
      Function.update world.launches (.launch event.mint) (some launch'))
    (sharesTotal : (Event.tradeExecuted event).SharesTotal)
    (realSol : event.newRealSolReserves = launch'.realSolReserves)
    (realTokens : event.newRealTokenReserves = launch'.realTokenReserves) : world'.Indexed := by
  have concerned : (Event.tradeExecuted event).mint? = some event.mint := rfl
  have after := indexed.launches_concat concerned (by rw [present, ← traded]; rfl) launches
  refine indexed.emit events after sharesTotal ⟨launch'.indexed, ?_, ?_, ?_⟩
  · rw [after, launches, Function.update_self, Option.map_some]
  · rw [realSol]
    rfl
  · rw [realTokens]
    rfl

theorem Indexed.buy (indexed : world.Indexed) {accounts : TradeAccounts}
    {tokenAmountOut maxSolIn : UInt64}
    (bought : Buy.Execution accounts world tokenAmountOut maxSolIn world') : world'.Indexed :=
  indexed.trade bought.events bought.met.launchPresent bought.bought.indexed.symm bought.launches
    bought.sharesTotal rfl rfl

theorem Indexed.sell (indexed : world.Indexed) (reachable : world.Reachable)
    {accounts : TradeAccounts} {tokenAmountIn minSolOut : UInt64}
    (sold : Sell.Execution accounts world tokenAmountIn minSolOut world') : world'.Indexed :=
  indexed.trade sold.events sold.met.launchPresent
    (sold.sold.indexed (reachable.sold_le sold)).symm sold.launches sold.sharesTotal rfl rfl

theorem Indexed.graduate (indexed : world.Indexed) (reachable : world.Reachable)
    {accounts : Graduate} (graduated : accounts.Execution world world') : world'.Indexed := by
  have present := graduated.met.launchPresent
  have books := reachable.trading present graduated.trading
  refine indexed.emit graduated.events (indexed.launches_concat rfl ?_ graduated.launches)
    graduated.sharesTotal ⟨graduated.launch.indexed, ?_, ?_⟩
  · rw [present, Option.map_some]
    exact congrArg some (TokenLaunch.indexed_graduate books.unseeded books.unpaired rfl).symm
  · rw [indexed.launches, present, Option.map_some]
  · exact (congrArg Nat.cast graduated.remainingFee).symm

theorem Indexed.sealPool (indexed : world.Indexed) {accounts : SealGraduation}
    {meteoraLbPair : Pubkey} (accepted : accounts.handler world meteoraLbPair = .ok world') :
    world'.Indexed := by
  obtain ⟨launch, address, present, _, _, _, frame⟩ := SealGraduation.handler_ok accepted
  refine indexed.emit (SealGraduation.handler_events accepted address)
    (indexed.launches_concat rfl ?_ (by rw [frame])) trivial trivial
  rw [present]
  rfl

/-- One accepted transaction; the cases are the actions. -/
theorem Indexed.execute {action : Action} (indexed : world.Indexed) (reachable : world.Reachable)
    (accepted : world.execute action = .ok world') : world'.Indexed := by
  cases action with
  | initializeConfig accounts params bump =>
    obtain ⟨_, _, _, _, frame⟩ := InitializeConfig.handler_ok accepted
    exact indexed.emit (InitializeConfig.handler_events accepted)
      (indexed.launches_concat_of_none rfl (by rw [frame])) trivial trivial
  | updateConfig accounts params =>
    obtain ⟨_, _, _, _, _, _, frame⟩ := UpdateConfig.handler_ok accepted
    exact indexed.emit (UpdateConfig.handler_events accepted)
      (indexed.launches_concat_of_none rfl (by rw [frame])) trivial trivial
  | setPaused accounts paused =>
    obtain ⟨_, _, _, frame⟩ := SetPaused.handler_ok accepted
    exact indexed.silent (by rw [frame]) (by rw [frame])
  | createToken accounts params bumps => exact indexed.createToken accepted
  | buy accounts tokenAmountOut maxSolIn =>
    obtain ⟨bought⟩ := Buy.execution accepted
    exact indexed.buy bought
  | sell accounts tokenAmountIn minSolOut =>
    obtain ⟨sold⟩ := Sell.execution accepted
    exact indexed.sell reachable sold
  | graduate accounts =>
    obtain ⟨graduated⟩ := Graduate.execution accepted
    exact indexed.graduate reachable graduated
  | sealGraduation accounts meteoraLbPair => exact indexed.sealPool accepted
  | transferLamports | openTokenAccount | transferTokens | burnTokens | setClock =>
    obtain ⟨_, launches, events⟩ := execute_outside rfl accepted
    exact indexed.silent events launches

/-! ### Every run -/

theorem Reachable.indexed (reachable : world.Reachable) : world.Indexed := by
  obtain ⟨unixTimestamp, funds, actions, rfl⟩ := reachable
  exact (genesis_reachable unixTimestamp funds).run_invariant (fun _ _ => True) Indexed
    (fun _ _ _ reached _ indexed accepted => indexed.execute reached accepted)
    (genesis_indexed unixTimestamp funds) actions (along_true _ _)

/-- After every run, an indexer of any mint holds what the launch account records, the shares of
every event sum to its fee, every trade states the reserves that its indexer holds after it, and
every graduation divides up what its indexer held before it. -/
theorem events_determine (unixTimestamp : Int64) (funds : ℕ → ℕ) (actions : List Action) :
    let world := (genesis unixTimestamp funds).run actions
    (∀ mint, indexMint mint world.events =
      (world.launches (.launch mint)).map TokenLaunch.indexed) ∧
    (∀ event ∈ world.events, event.SharesTotal) ∧
    (∀ (before : List Event) (event : TradeExecuted),
      before ++ [.tradeExecuted event] <+: world.events →
      ∃ indexed, indexMint event.mint (before ++ [.tradeExecuted event]) = some indexed ∧
        indexed.realSolReserves = event.newRealSolReserves.toNat ∧
        indexed.realTokenReserves = event.newRealTokenReserves.toNat) ∧
    ∀ (before : List Event) (event : TokenGraduated),
      before ++ [.tokenGraduated event] <+: world.events →
      ∃ indexed, indexMint event.mint before = some indexed ∧
        indexed.realSolReserves =
          event.finalSolReserves.toNat + event.graduationFeePaid.toNat := by
  intro world
  have indexed : world.Indexed := ((genesis_reachable unixTimestamp funds).run actions).indexed
  refine ⟨indexed.launches, indexed.sharesTotal, ?_, ?_⟩
  · intro before event earlier
    exact indexed.restates before (.tradeExecuted event) earlier
  · intro before event earlier
    exact indexed.restates before (.tokenGraduated event) earlier

end World

end Memecoin
