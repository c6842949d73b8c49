/-
This file puts the eight instructions and the outside world together into one
transactional machine. The outside world moves lamports, opens token accounts
for any owner, transfers and burns tokens, and advances the clock; it acts only
with keys that exist, so never as a program-derived address, and it neither
closes token accounts nor hands them to other owners. A failed action changes
nothing. What keeps the account graph in shape is one invariant, `WellFormed`:
addresses, owners and authorities are what the seeds say they are.
-/

import Memecoin.Library.Machine
import Memecoin.Settings
import Memecoin.Trade
import Memecoin.Launching
import Memecoin.Graduation

namespace Memecoin

open Checked

/-! ### Actions -/

/-- A transaction: an instruction of the program with its accounts and arguments, or a step of the
outside world. -/
inductive Action
  | initializeConfig (accounts : InitializeConfig) (params : InitializeConfigParams) (bump : UInt8)
  | updateConfig (accounts : AdminAccounts) (params : UpdateConfigParams)
  | setPaused (accounts : AdminAccounts) (paused : Bool)
  | createToken (accounts : CreateToken) (params : CreateTokenParams) (bumps : CreateTokenBumps)
  | buy (accounts : TradeAccounts) (tokenAmountOut maxSolIn : UInt64)
  | sell (accounts : TradeAccounts) (tokenAmountIn minSolOut : UInt64)
  | graduate (accounts : Graduate)
  | sealGraduation (accounts : SealGraduation) (meteoraLbPair : Pubkey)
  | transferLamports (source destination : Pubkey) (amount : UInt64)
  | openTokenAccount (address mint owner : Pubkey)
  | transferTokens (source destination authority : Pubkey) (amount : UInt64)
  | burnTokens (address authority : Pubkey) (amount : UInt64)
  | setClock (unixTimestamp : Int64)
  deriving DecidableEq

/-- The actions of the outside world. -/
def Action.outside : Action → Bool
  | .transferLamports .. | .openTokenAccount .. | .transferTokens .. | .burnTokens .. => true
  | .setClock _ => true
  | _ => false

namespace World

/-- A token account lives at a key of its own or at the associated address of its owner and
mint. -/
def openTokenAccount (world : World) (address mint owner : Pubkey) :
    Except ProgramError World := do
  require ((world.mints mint).isSome) .accountNotInitialized
  require (address.canSign ∨ address = .associatedToken owner mint) .constraintSeeds
  require (¬ world.inUse address) .accountAlreadyInUse
  pure (world.initTokenAccount address mint owner)

/-- One transaction. The outside world needs the signature of the address it acts for. -/
def execute (world : World) : Action → Except ProgramError World
  | .initializeConfig accounts params bump => accounts.handler world params bump
  | .updateConfig accounts params => UpdateConfig.handler accounts world params
  | .setPaused accounts paused => SetPaused.handler accounts world paused
  | .createToken accounts params bumps => accounts.handler world params bumps
  | .buy accounts tokenAmountOut maxSolIn => Buy.handler accounts world tokenAmountOut maxSolIn
  | .sell accounts tokenAmountIn minSolOut => Sell.handler accounts world tokenAmountIn minSolOut
  | .graduate accounts => accounts.handler world
  | .sealGraduation accounts meteoraLbPair => accounts.handler world meteoraLbPair
  | .transferLamports source destination amount => do
    require (source.canSign) .accountNotSigner
    world.systemTransfer source destination amount
  | .openTokenAccount address mint owner => world.openTokenAccount address mint owner
  | .transferTokens source destination authority amount => do
    require (authority.canSign) .accountNotSigner
    world.tokenTransfer source destination authority amount
  | .burnTokens address authority amount => do
    require (authority.canSign) .accountNotSigner
    world.burn address authority amount
  | .setClock unixTimestamp => pure { world with unixTimestamp }

/-- A run of transactions; a failed one is rolled back. -/
def run (world : World) (actions : List Action) : World := Machine.run execute world actions

/-- Before the program is used: external addresses own lamports, nothing else exists. -/
def genesis (unixTimestamp : Int64) (funds : ℕ → ℕ) : World where
  unixTimestamp := unixTimestamp
  lamports := fun address =>
    match address with
    | .external index => funds index
    | _ => 0
  mints := fun _ => none
  tokenAccounts := .empty
  config := none
  launches := fun _ => none
  events := []

/-- The state is reached by some run from some beginning. -/
def Reachable (world : World) : Prop :=
  ∃ (unixTimestamp : Int64) (funds : ℕ → ℕ) (actions : List Action),
    world = (genesis unixTimestamp funds).run actions

theorem run_append (world : World) (first second : List Action) :
    world.run (first ++ second) = (world.run first).run second :=
  Machine.run_append execute world first second

theorem Reachable.run {world : World} (reachable : world.Reachable) (actions : List Action) :
    (world.run actions).Reachable := by
  obtain ⟨unixTimestamp, funds, earlier, rfl⟩ := reachable
  exact ⟨unixTimestamp, funds, earlier ++ actions, (run_append _ earlier actions).symm⟩

/-- An accepted first action. -/
theorem run_ok {world world' : World} {action : Action}
    (accepted : world.execute action = .ok world') (later : List Action) :
    world.run (action :: later) = world'.run later := by
  rw [run, Machine.run_cons, Machine.step_of_ok execute accepted, run]

/-- A rejected first action. -/
theorem run_error {world : World} {action : Action} {error : ProgramError}
    (rejected : world.execute action = .error error) (later : List Action) :
    world.run (action :: later) = world.run later := by
  rw [run, Machine.run_cons, Machine.step_of_error execute rejected, run]

theorem Reachable.step {world world' : World} {action : Action} (reachable : world.Reachable)
    (accepted : world.execute action = .ok world') : world'.Reachable := by
  have after := reachable.run [action]
  rwa [run_ok accepted] at after

/-- An invariant of accepted actions that holds at the beginning holds in every reachable
state. -/
theorem Reachable.invariant {world : World} (reachable : world.Reachable)
    (holds : World → Prop) (start : ∀ unixTimestamp funds, holds (genesis unixTimestamp funds))
    (preserved : ∀ world action world', holds world → world.execute action = .ok world' →
      holds world') : holds world := by
  obtain ⟨unixTimestamp, funds, actions, rfl⟩ := reachable
  exact Machine.run_invariant execute holds preserved _ (start unixTimestamp funds) actions

/-- The sum of a weight over the accepted actions of a run. -/
def tally {Count : Type*} [AddMonoid Count] (weight : World → Action → World → Count)
    (world : World) (actions : List Action) : Count :=
  Machine.tally execute weight world actions

/-- Every action of the run meets the condition in the state it finds. -/
def Along (condition : World → Action → Prop) (world : World) (actions : List Action) : Prop :=
  Machine.Along execute condition world actions

instance (condition : World → Action → Prop) [∀ world action, Decidable (condition world action)]
    (world : World) (actions : List Action) : Decidable (world.Along condition actions) :=
  Machine.decidableAlong execute condition world actions

/-- The induction rule for runs: a relation between the state and a quantity summed along the
run, where each step may use that the state is reachable. -/
theorem Reachable.run_ghost {Count : Type*} [AddMonoid Count] {world : World}
    (reachable : world.Reachable) (weight : World → Action → World → Count)
    (condition : World → Action → Prop) (holds : World → Count → Prop)
    (preserved : ∀ world action world' count, world.Reachable → condition world action →
      holds world count → world.execute action = .ok world' →
      holds world' (count + weight world action world'))
    (start : holds world 0) (actions : List Action) (along : world.Along condition actions) :
    holds (world.run actions) (world.tally weight actions) := by
  have final := Machine.run_ghost_along execute weight condition
    (fun world count => world.Reachable ∧ holds world count)
    (fun world action world' count met kept accepted =>
      ⟨kept.1.step accepted, preserved world action world' count kept.1 met kept.2 accepted⟩)
    world 0 ⟨reachable, start⟩ actions along
  rw [zero_add] at final
  exact final.2

/-- The rule without a quantity. -/
theorem Reachable.run_invariant {world : World} (reachable : world.Reachable)
    (condition : World → Action → Prop) (holds : World → Prop)
    (preserved : ∀ world action world', world.Reachable → condition world action → holds world →
      world.execute action = .ok world' → holds world')
    (start : holds world) (actions : List Action) (along : world.Along condition actions) :
    holds (world.run actions) :=
  reachable.run_ghost (fun _ _ _ => (0 : ℕ)) condition (fun world _ => holds world)
    (fun world action world' _ => preserved world action world') start actions along

theorem Reachable.along_congr {world : World} (reachable : world.Reachable)
    {first second : World → Action → Prop}
    (agree : ∀ world action, world.Reachable → (first world action ↔ second world action))
    (actions : List Action) : world.Along first actions ↔ world.Along second actions :=
  Machine.along_congr execute Reachable (fun _ _ _ reached accepted => reached.step accepted)
    agree world reachable actions

theorem along_and {first second : World → Action → Prop} {world : World} {actions : List Action}
    (left : world.Along first actions) (right : world.Along second actions) :
    world.Along (fun world action => first world action ∧ second world action) actions :=
  Machine.along_and execute left right

theorem along_of_mem {condition : World → Action → Prop} (world : World) {actions : List Action}
    (met : ∀ action ∈ actions, ∀ world, condition world action) : world.Along condition actions :=
  Machine.along_of_mem execute world met

theorem along_true (world : World) (actions : List Action) :
    world.Along (fun _ _ => True) actions :=
  Machine.along_true execute world actions

theorem genesis_reachable (unixTimestamp : Int64) (funds : ℕ → ℕ) :
    (genesis unixTimestamp funds).Reachable :=
  ⟨unixTimestamp, funds, [], rfl⟩

/-- An accepted action leads to the state after its one-action run. -/
theorem execute_run {world : World} {action : Action} (accepted : (world.execute action).isOk) :
    world.execute action = .ok (world.run [action]) := by
  cases result : world.execute action with
  | error _ =>
    rw [result] at accepted
    cases accepted
  | ok world' =>
    rw [run_ok result]
    rfl

/-- The sum along a run whose first action is accepted. -/
theorem tally_ok {Count : Type*} [AddMonoid Count] (weight : World → Action → World → Count)
    {world world' : World} {action : Action} (accepted : world.execute action = .ok world')
    (later : List Action) :
    world.tally weight (action :: later) = weight world action world' + world'.tally weight later :=
  Machine.tally_of_ok execute weight accepted later

theorem tally_append {Count : Type*} [AddMonoid Count] (weight : World → Action → World → Count)
    (world : World) (first second : List Action) :
    world.tally weight (first ++ second) =
      world.tally weight first + (world.run first).tally weight second :=
  Machine.tally_append execute weight world first second

theorem along_ok {condition : World → Action → Prop} {world world' : World} {action : Action}
    (accepted : world.execute action = .ok world') (later : List Action) :
    world.Along condition (action :: later) ↔
      condition world action ∧ world'.Along condition later :=
  Machine.along_of_ok execute accepted later

theorem openTokenAccount_ok {world world' : World} {address mint owner : Pubkey}
    (accepted : world.openTokenAccount address mint owner = .ok world') :
    (world.mints mint).isSome ∧ (address.canSign ∨ address = .associatedToken owner mint) ∧
      world.tokenAccounts.get? address = none ∧
      world' = world.initTokenAccount address mint owner := by
  simp only [openTokenAccount, bind_eq_ok, pure_eq_ok, require_eq_ok, exists_const,
    not_inUse] at accepted
  obtain ⟨present, placed, unused, rfl⟩ := accepted
  exact ⟨present, placed, unused.2.1, rfl⟩

/-- The outside world does not write the accounts of the program, and emits none of its events. -/
theorem execute_outside {world world' : World} {action : Action} (outside : action.outside)
    (accepted : world.execute action = .ok world') :
    world'.config = world.config ∧ world'.launches = world.launches ∧
      world'.events = world.events := by
  cases action with
  | transferLamports source destination amount =>
    obtain ⟨_, _, moved⟩ := bind_eq_ok.mp accepted
    rw [(systemTransfer_ok moved).frame]
    exact ⟨rfl, rfl, rfl⟩
  | openTokenAccount address mint owner =>
    obtain ⟨_, _, _, rfl⟩ := openTokenAccount_ok accepted
    exact ⟨rfl, rfl, rfl⟩
  | transferTokens source destination authority amount =>
    obtain ⟨_, _, transferred⟩ := bind_eq_ok.mp accepted
    obtain ⟨frame, _⟩ := tokenTransfer_ok transferred
    rw [frame]
    exact ⟨rfl, rfl, rfl⟩
  | burnTokens address authority amount =>
    obtain ⟨_, _, burned⟩ := bind_eq_ok.mp accepted
    obtain ⟨_, _, _, frame, _⟩ := burn_ok burned
    rw [frame]
    exact ⟨rfl, rfl, rfl⟩
  | setClock unixTimestamp =>
    obtain rfl := pure_eq_ok.mp accepted
    exact ⟨rfl, rfl, rfl⟩
  | _ => cases outside

end World

/-! ### Well-formed states -/

/-- The fields of a launch that no instruction after `create_token` writes. -/
def TokenLaunch.identity (launch : TokenLaunch) :
    Pubkey × Pubkey × Int64 × UInt64 × UInt8 × UInt8 × UInt8 :=
  (launch.mint, launch.creator, launch.createdAt, launch.virtualSolReserves, launch.bump,
    launch.vaultBump, launch.mintAuthorityBump)

theorem TokenLaunch.Bought.identity {launch launch' : TokenLaunch} {tokens cost : ℕ}
    (bought : launch.Bought tokens cost launch') : launch'.identity = launch.identity := by
  rw [bought.frame]
  rfl

theorem TokenLaunch.Sold.identity {launch launch' : TokenLaunch} {tokens payout : ℕ}
    (sold : launch.Sold tokens payout launch') : launch'.identity = launch.identity := by
  rw [sold.frame]
  rfl

namespace World

/-- The account graph is what the seeds say: launches sit at the address of their mint, exactly
the launched mints exist, under the authority of their PDA, each with the launch PDA's
associated token account; associated addresses hold what their name says. -/
structure WellFormed (world : World) : Prop where
  config : ∀ config, world.config = some config → config.Valid
  launchAddress : ∀ address launch, world.launches address = some launch →
    address = .launch launch.mint
  creator : ∀ address launch, world.launches address = some launch → launch.creator.canSign
  mintAuthority : ∀ mint account, world.mints mint = some account →
    account.mintAuthority = .mintAuthority mint
  mintLaunched : ∀ mint, (world.mints mint).isSome ↔ (world.launches (.launch mint)).isSome
  curveAccount : ∀ mint, (world.mints mint).isSome →
    world.tokenAccounts.shape (.associatedToken (.launch mint) mint) = some (mint, .launch mint)
  accountMint : ∀ address mint owner, world.tokenAccounts.shape address = some (mint, owner) →
    (world.mints mint).isSome
  associated : ∀ owner mint shape,
    world.tokenAccounts.shape (.associatedToken owner mint) = some shape → shape = (mint, owner)

theorem genesis_wellFormed (unixTimestamp : Int64) (funds : ℕ → ℕ) :
    (genesis unixTimestamp funds).WellFormed where
  config := fun _ present => nomatch present
  launchAddress := fun _ _ present => nomatch present
  creator := fun _ _ present => nomatch present
  mintAuthority := fun _ _ present => nomatch present
  mintLaunched := fun _ => Iff.rfl
  curveAccount := fun _ present => absurd present Bool.false_ne_true
  accountMint := fun _ _ _ present => nomatch present
  associated := fun _ _ _ present => nomatch present

/-- What every action but `create_token` keeps: who the launches are, who may mint, and what
token accounts there are, up to newly opened ones. -/
structure Keeps (world world' : World) : Prop where
  config : ∀ config, world'.config = some config → config.Valid
  identity : ∀ address, (world'.launches address).map TokenLaunch.identity =
    (world.launches address).map TokenLaunch.identity
  mintAuthority : ∀ mint, (world'.mints mint).map (·.mintAuthority) =
    (world.mints mint).map (·.mintAuthority)
  accounts : ∀ address shape, world.tokenAccounts.shape address = some shape →
    world'.tokenAccounts.shape address = some shape
  opened : ∀ address mint owner, world'.tokenAccounts.shape address = some (mint, owner) →
    world.tokenAccounts.shape address = some (mint, owner) ∨
      (world.mints mint).isSome ∧
        ∀ named other, address = .associatedToken named other → (other, named) = (mint, owner)

theorem Keeps.launch {world world' : World} (keeps : world.Keeps world') {address : Pubkey}
    {launch' : TokenLaunch} (present : world'.launches address = some launch') :
    ∃ launch, world.launches address = some launch ∧ launch.identity = launch'.identity := by
  have same := keeps.identity address
  rw [present, Option.map_some] at same
  obtain ⟨launch, found, equal⟩ := Option.map_eq_some_iff.mp same.symm
  exact ⟨launch, found, equal⟩

theorem Keeps.isSome_launches {world world' : World} (keeps : world.Keeps world')
    (address : Pubkey) : (world'.launches address).isSome = (world.launches address).isSome := by
  rw [← Option.isSome_map (f := TokenLaunch.identity), keeps.identity, Option.isSome_map]

theorem Keeps.isSome_mints {world world' : World} (keeps : world.Keeps world') (mint : Pubkey) :
    (world'.mints mint).isSome = (world.mints mint).isSome := by
  rw [← Option.isSome_map (f := Mint.mintAuthority), keeps.mintAuthority, Option.isSome_map]

theorem WellFormed.keeps {world world' : World} (wellFormed : world.WellFormed)
    (keeps : world.Keeps world') : world'.WellFormed where
  config := keeps.config
  launchAddress := fun address launch' present => by
    obtain ⟨launch, found, equal⟩ := keeps.launch present
    rw [← (Prod.mk.inj equal).1]
    exact wellFormed.launchAddress address launch found
  creator := fun address launch' present => by
    obtain ⟨launch, found, equal⟩ := keeps.launch present
    rw [← (Prod.mk.inj (Prod.mk.inj equal).2).1]
    exact wellFormed.creator address launch found
  mintAuthority := fun mint account present => by
    have same := keeps.mintAuthority mint
    rw [present, Option.map_some] at same
    obtain ⟨earlier, found, equal⟩ := Option.map_eq_some_iff.mp same.symm
    rw [← equal]
    exact wellFormed.mintAuthority mint earlier found
  mintLaunched := fun mint => by
    rw [keeps.isSome_mints, keeps.isSome_launches]
    exact wellFormed.mintLaunched mint
  curveAccount := fun mint present => by
    rw [keeps.isSome_mints] at present
    exact keeps.accounts _ _ (wellFormed.curveAccount mint present)
  accountMint := fun address mint owner present => by
    rw [keeps.isSome_mints]
    rcases keeps.opened address mint owner present with earlier | ⟨launched, _⟩
    · exact wellFormed.accountMint address mint owner earlier
    · exact launched
  associated := fun owner mint shape present => by
    obtain ⟨shapeMint, shapeOwner⟩ := shape
    rcases keeps.opened _ shapeMint shapeOwner present with earlier | ⟨_, named⟩
    · exact wellFormed.associated owner mint _ earlier
    · exact (named owner mint rfl).symm

/-- Rewriting one entry of a map to one that looks the same. -/
theorem map_update_eq {Key Value View : Type*} [DecidableEq Key] {entries : Key → Option Value}
    {key : Key} {old new : Value} {view : Value → View} (present : entries key = some old)
    (same : view new = view old) (other : Key) :
    (Function.update entries key (some new) other).map view = (entries other).map view := by
  rw [Function.update_apply]
  split_ifs with equal
  · rw [equal, present, Option.map_some, Option.map_some, same]
  · rfl

/-- An action that writes neither token accounts nor mints, and keeps the launches. -/
theorem WellFormed.keeps_of_same {world world' : World} (wellFormed : world.WellFormed)
    (config : world'.config = world.config) (mints : world'.mints = world.mints)
    (shape : ∀ address, world'.tokenAccounts.shape address = world.tokenAccounts.shape address)
    (identity : ∀ address, (world'.launches address).map TokenLaunch.identity =
      (world.launches address).map TokenLaunch.identity) : world.Keeps world' where
  config := fun found present => wellFormed.config found (config ▸ present)
  identity := identity
  mintAuthority := fun mint => by rw [mints]
  accounts := fun address _ present => (shape address).trans present
  opened := fun address _ _ present => .inl ((shape address).symm.trans present)

/-- An action that only replaces the configuration, by a valid one. -/
theorem keeps_of_config {world world' : World} {config : Config} (valid : config.Valid)
    (frame : world' = { world with config := some config, events := world'.events }) :
    world.Keeps world' := by
  rw [frame]
  exact {
    config := fun _ present => Option.some.inj present ▸ valid
    identity := fun _ => rfl
    mintAuthority := fun _ => rfl
    accounts := fun _ _ present => present
    opened := fun _ _ _ present => .inl present }

/-! ### Every action keeps states well formed -/

theorem WellFormed.keeps_buy {accounts : TradeAccounts} {world world' : World}
    {tokenAmountOut maxSolIn : UInt64} (wellFormed : world.WellFormed)
    (bought : Buy.Execution accounts world tokenAmountOut maxSolIn world') :
    world.Keeps world' := by
  refine wellFormed.keeps_of_same ?_ ?_ bought.tokens.shape fun address => ?_
  · rw [bought.frame]
  · rw [bought.frame]
  · rw [bought.launches]
    exact map_update_eq bought.met.launchPresent bought.bought.identity address

theorem WellFormed.keeps_sell {accounts : TradeAccounts} {world world' : World}
    {tokenAmountIn minSolOut : UInt64} (wellFormed : world.WellFormed)
    (sold : Sell.Execution accounts world tokenAmountIn minSolOut world') :
    world.Keeps world' := by
  refine wellFormed.keeps_of_same ?_ ?_ sold.tokens.shape fun address => ?_
  · rw [sold.frame]
  · rw [sold.frame]
  · rw [sold.launches]
    exact map_update_eq sold.met.launchPresent sold.sold.identity address

theorem WellFormed.keeps_graduate {accounts : Graduate} {world world' : World}
    (wellFormed : world.WellFormed) (graduated : accounts.Execution world world') :
    world.Keeps world' where
  config := fun config present => by
    rw [graduated.frame] at present
    exact wellFormed.config config present
  identity := fun address => by
    rw [graduated.launches]
    exact map_update_eq graduated.met.launchPresent (by rfl) address
  mintAuthority := fun mint => by
    rw [graduated.mints]
    exact map_update_eq graduated.mintPresent (by rfl) mint
  accounts := fun address shape present => by
    rw [graduated.shape]
    split_ifs with named
    · rw [named] at present
      rw [wellFormed.associated _ _ _ present]
    · exact present
  opened := fun address mint owner present => by
    rw [graduated.shape] at present
    split_ifs at present with named
    · refine .inr ⟨?_, fun holder other equal => ?_⟩
      · rw [← (Prod.mk.inj (Option.some.inj present)).1, graduated.mintPresent, Option.isSome_some]
      · obtain ⟨rfl, rfl⟩ := Pubkey.associatedToken.inj (named.symm.trans equal)
        exact Option.some.inj present
    · exact .inl present

theorem WellFormed.keeps_seal {accounts : SealGraduation} {world world' : World}
    {meteoraLbPair : Pubkey} (wellFormed : world.WellFormed)
    (accepted : accounts.handler world meteoraLbPair = .ok world') : world.Keeps world' := by
  obtain ⟨launch, _, present, _, _, _, frame⟩ := SealGraduation.handler_ok accepted
  rw [frame]
  exact wellFormed.keeps_of_same rfl rfl (fun _ => rfl) (map_update_eq present rfl)

theorem WellFormed.keeps_open {world world' : World} {address mint owner : Pubkey}
    (wellFormed : world.WellFormed)
    (accepted : world.openTokenAccount address mint owner = .ok world') : world.Keeps world' := by
  obtain ⟨launched, placed, unused, rfl⟩ := openTokenAccount_ok accepted
  have shape (other : Pubkey) :
      (world.initTokenAccount address mint owner).tokenAccounts.shape other =
        if other = address then some (mint, owner) else world.tokenAccounts.shape other :=
    TokenAccounts.shape_set _ _ _ _
  refine ⟨wellFormed.config, fun _ => rfl, fun _ => rfl, fun other old present => ?_,
    fun other otherMint otherOwner present => ?_⟩
  · rw [shape]
    split_ifs with same
    · rw [same, TokenAccounts.shape, unused] at present
      cases present
    · exact present
  · rw [shape] at present
    split_ifs at present with same
    · obtain ⟨rfl, rfl⟩ := Prod.mk.inj (Option.some.inj present)
      refine .inr ⟨launched, fun named other equal => ?_⟩
      rcases placed with signs | associated
      · rw [← same, equal] at signs
        cases signs
      · obtain ⟨rfl, rfl⟩ := Pubkey.associatedToken.inj (equal.symm.trans (same.trans associated))
        rfl
    · exact .inl present

theorem WellFormed.keeps_burn {world world' : World} {address authority : Pubkey}
    {amount : UInt64} (wellFormed : world.WellFormed)
    (accepted : world.burn address authority amount = .ok world') : world.Keeps world' := by
  obtain ⟨mint, account, present, frame, _, debited⟩ := burn_ok accepted
  refine ⟨fun config found => wellFormed.config config ?_, fun other => ?_, fun other => ?_,
    fun other _ present => (debited.shape other).trans present,
    fun other _ _ present => .inl ((debited.shape other).symm.trans present)⟩
  · rw [frame] at found
    exact found
  · rw [frame]
  · rw [frame]
    exact map_update_eq present (by rfl) other

/-- Creating a token adds one launch with its mint and its curve account. -/
theorem WellFormed.createToken {accounts : CreateToken} {world world' : World}
    {bumps : CreateTokenBumps} (wellFormed : world.WellFormed)
    (created : accounts.Execution world bumps world') : world'.WellFormed where
  config := fun config present => by
    rw [created.frame] at present
    exact wellFormed.config config present
  launchAddress := fun address launch present => by
    rw [created.launches, Function.update_apply] at present
    split_ifs at present with same
    · rw [same, ← Option.some.inj present, created.created]
      rfl
    · exact wellFormed.launchAddress address launch present
  creator := fun address launch present => by
    rw [created.launches, Function.update_apply] at present
    split_ifs at present with same
    · rw [← Option.some.inj present, created.created]
      exact created.signer
    · exact wellFormed.creator address launch present
  mintAuthority := fun mint account present => by
    rw [created.mints, Function.update_apply] at present
    split_ifs at present with same
    · rw [same, ← Option.some.inj present]
    · exact wellFormed.mintAuthority mint account present
  mintLaunched := fun mint => by
    rw [created.mints, created.launches]
    by_cases same : mint = accounts.mint
    · rw [same, Function.update_self, Function.update_self]
      exact Iff.rfl
    · rw [Function.update_of_ne same,
        Function.update_of_ne fun equal => same (Pubkey.launch.inj equal)]
      exact wellFormed.mintLaunched mint
  curveAccount := fun mint present => by
    rw [created.mints, Function.update_apply] at present
    rw [created.shape]
    split_ifs at present with same
    · rw [same, if_pos rfl]
    · rw [if_neg fun equal => same (Pubkey.associatedToken.inj equal).2]
      exact wellFormed.curveAccount mint present
  accountMint := fun address mint owner present => by
    rw [created.shape] at present
    rw [created.mints, Function.update_apply]
    split_ifs at present with named
    · rw [if_pos (Prod.mk.inj (Option.some.inj present)).1.symm, Option.isSome_some]
    · split_ifs
      · rfl
      · exact wellFormed.accountMint address mint owner present
  associated := fun owner mint shape present => by
    rw [created.shape] at present
    split_ifs at present with named
    · obtain ⟨rfl, rfl⟩ := Pubkey.associatedToken.inj named
      exact (Option.some.inj present).symm
    · exact wellFormed.associated owner mint shape present

/-- One accepted action; the cases are the actions. -/
theorem WellFormed.execute {world world' : World} {action : Action}
    (wellFormed : world.WellFormed) (accepted : world.execute action = .ok world') :
    world'.WellFormed := by
  cases action with
  | initializeConfig accounts params bump =>
    obtain ⟨_, valid, _, _, frame⟩ := InitializeConfig.handler_ok accepted
    exact wellFormed.keeps (keeps_of_config valid frame)
  | updateConfig accounts params =>
    obtain ⟨_, _, _, valid, _, _, frame⟩ := UpdateConfig.handler_ok accepted
    exact wellFormed.keeps (keeps_of_config valid frame)
  | setPaused accounts paused =>
    obtain ⟨config, present, _, frame⟩ := SetPaused.handler_ok accepted
    have valid := wellFormed.config config present
    exact wellFormed.keeps (keeps_of_config (valid.setPaused paused) (by rw [frame]))
  | createToken accounts params bumps =>
    obtain ⟨created⟩ := CreateToken.execution accepted
    exact wellFormed.createToken created
  | buy accounts tokenAmountOut maxSolIn =>
    obtain ⟨bought⟩ := Buy.execution accepted
    exact wellFormed.keeps (wellFormed.keeps_buy bought)
  | sell accounts tokenAmountIn minSolOut =>
    obtain ⟨sold⟩ := Sell.execution accepted
    exact wellFormed.keeps (wellFormed.keeps_sell sold)
  | graduate accounts =>
    obtain ⟨graduated⟩ := Graduate.execution accepted
    exact wellFormed.keeps (wellFormed.keeps_graduate graduated)
  | sealGraduation accounts meteoraLbPair => exact wellFormed.keeps (wellFormed.keeps_seal accepted)
  | transferLamports source destination amount =>
    obtain ⟨_, _, moved⟩ := bind_eq_ok.mp accepted
    rw [(systemTransfer_ok moved).frame]
    exact wellFormed.keeps (wellFormed.keeps_of_same rfl rfl (fun _ => rfl) fun _ => rfl)
  | openTokenAccount address mint owner => exact wellFormed.keeps (wellFormed.keeps_open accepted)
  | transferTokens source destination authority amount =>
    obtain ⟨_, _, transferred⟩ := bind_eq_ok.mp accepted
    obtain ⟨frame, _, _, moved⟩ := tokenTransfer_ok transferred
    refine wellFormed.keeps (wellFormed.keeps_of_same ?_ ?_ moved.shape fun _ => ?_) <;> rw [frame]
  | burnTokens address authority amount =>
    obtain ⟨_, _, burned⟩ := bind_eq_ok.mp accepted
    exact wellFormed.keeps (wellFormed.keeps_burn burned)
  | setClock unixTimestamp =>
    obtain rfl := pure_eq_ok.mp accepted
    exact wellFormed.keeps (wellFormed.keeps_of_same rfl rfl (fun _ => rfl) fun _ => rfl)

theorem Reachable.wellFormed {world : World} (reachable : world.Reachable) : world.WellFormed :=
  reachable.invariant WellFormed genesis_wellFormed
    fun _ _ _ wellFormed accepted => wellFormed.execute accepted

end World

/-! ### A concrete beginning

One configuration, one launch and two traders with token accounts, for witnesses
and counterexamples. -/

namespace Sample

/-- The admin. -/
def admin : Pubkey := .external 0

/-- The buyback wallet. -/
def dinoBuybackWallet : Pubkey := .external 1

/-- The treasury wallet. -/
def treasuryWallet : Pubkey := .external 2

/-- The graduation authority. -/
def graduationAuthority : Pubkey := .external 3

/-- The creator of the token. -/
def creator : Pubkey := .external 4

/-- The token. -/
def mint : Pubkey := .external 5

/-- A trader. -/
def trader : Pubkey := .external 6

/-- Another trader. -/
def whale : Pubkey := .external 7

/-- The default parameters with the wallets filled in. -/
def params : InitializeConfigParams :=
  { InitializeConfigParams.default with dinoBuybackWallet, treasuryWallet, graduationAuthority }

/-- The accounts with which the token is created. -/
def creation : CreateToken where
  creator := creator
  config := .config
  dinoBuybackWallet := dinoBuybackWallet
  treasuryWallet := treasuryWallet
  mint := mint
  mintAuthority := .mintAuthority mint
  launch := .launch mint
  curveVault := .vault mint
  curveTokenAccount := .curveAccount mint

/-- The accounts with which a trader trades through the curve token account. -/
def trading (trader : Pubkey) : TradeAccounts where
  trader := trader
  config := .config
  launch := .launch mint
  mint := mint
  curveVault := .vault mint
  curveTokenAccount := .curveAccount mint
  traderTokenAccount := .associatedToken trader mint
  creatorWallet := creator
  dinoBuybackWallet := dinoBuybackWallet
  treasuryWallet := treasuryWallet

/-- The accounts with which a caller graduates the launch. -/
def graduation (caller : Pubkey) : Graduate where
  caller := caller
  config := .config
  launch := .launch mint
  mint := mint
  curveVault := .vault mint
  mintAuthority := .mintAuthority mint
  graduationAuthority := graduationAuthority
  graduationAuthorityTokenAccount := .associatedToken graduationAuthority mint
  dinoBuybackWallet := dinoBuybackWallet
  treasuryWallet := treasuryWallet

/-- The configuration, the token, and a token account for either trader. -/
def opening (params : InitializeConfigParams) : List Action :=
  [.initializeConfig { admin, config := .config } params 255,
    .createToken creation { name := "Dog", symbol := "DOG", uri := "" }
      { launch := 255, curveVault := 254, mintAuthority := 253 },
    .openTokenAccount (.associatedToken trader mint) mint trader,
    .openTokenAccount (.associatedToken whale mint) mint whale]

/-- A donation that keeps the vault rent-exempt, however small the first trades are. -/
def endow : Action := .transferLamports admin (.vault mint) 890_880

/-- Everybody starts with 100 SOL. -/
def start : World := World.genesis 0 fun _ => 100_000_000_000

/-- The opening followed by some actions. -/
def after (params : InitializeConfigParams) (actions : List Action) : World :=
  start.run (opening params ++ actions)

theorem reachable_after (params : InitializeConfigParams) (actions : List Action) :
    (after params actions).Reachable :=
  (World.genesis_reachable _ _).run _

end Sample

end Memecoin
