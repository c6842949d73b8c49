/-
This file audits the program from its event log alone. An auditor who reads the
log from the beginning knows the wallets that `ConfigInitialized` names and the
creators that `TokenCreated` names, and books the amounts of every event: what
the parties paid and received in lamports, and the tokens that changed hands.
The books match the balances after every run, up to the transfers of the outside
world; for lamports rent aside, and as long as no configuration is updated, since
`ConfigUpdated` does not say what it has changed.
-/

import Memecoin.Entries

namespace Memecoin

open Checked

/-! ### The auditor -/

/-- What an auditor knows: wallets and creators, and for each holder what the events add up to. -/
structure Audit where
  dinoBuybackWallet : Pubkey
  treasuryWallet : Pubkey
  creator : Pubkey → Pubkey
  lamports : Pubkey → ℤ
  tokens : Pubkey → Pubkey → ℤ

namespace Audit

/-- An empty log. -/
def start : Audit where
  dinoBuybackWallet := .default
  treasuryWallet := .default
  creator := fun _ => .default
  lamports := fun _ => 0
  tokens := fun _ _ => 0

/-- Book entries, of lamports and of the tokens of a mint. -/
def book (audit : Audit) (mint : Pubkey) (lamports tokens : List (Pubkey × ℤ)) : Audit :=
  { audit with
    lamports := fun holder => audit.lamports holder + Balances.net lamports holder
    tokens := fun other holder =>
      audit.tokens other holder + if other = mint then Balances.net tokens holder else 0 }

/-- The entries of the two wallets. -/
def wallets (audit : Audit) (dinoShare treasuryShare : UInt64) : List (Pubkey × ℤ) :=
  [(audit.dinoBuybackWallet, (dinoShare.toNat : ℤ)),
    (audit.treasuryWallet, (treasuryShare.toNat : ℤ))]

/-- The creator pays the fee, and the launch PDA receives the allocation. -/
def create (audit : Audit) (event : TokenCreated) : Audit :=
  { audit with creator := Function.update audit.creator event.mint event.creator }.book event.mint
    ((event.creator, - (event.creationFeePaid.toNat : ℤ)) ::
      audit.wallets event.dinoShare event.treasuryShare)
    [(.launch event.mint, (TokenLaunch.curveAllocationUnits.toNat : ℤ))]

/-- The trader and the vault exchange SOL for tokens; the trader also pays the fee. -/
def trade (audit : Audit) (event : TradeExecuted) : Audit :=
  let fee := (audit.creator event.mint, (event.creatorShare.toNat : ℤ)) ::
    audit.wallets event.dinoShare event.treasuryShare
  let sol : ℤ := event.solAmount.toNat
  let tokens : ℤ := event.tokenAmount.toNat
  if event.isBuy then
    audit.book event.mint
      ((event.trader, - (sol + event.feePaid.toNat)) :: (.vault event.mint, sol) :: fee)
      [(.launch event.mint, - tokens), (event.trader, tokens)]
  else
    audit.book event.mint
      ((.vault event.mint, - sol) :: (event.trader, sol - event.feePaid.toNat) :: fee)
      [(event.trader, - tokens), (.launch event.mint, tokens)]

/-- The vault pays the fee and the authority, which receives the reserve as well. -/
def graduate (audit : Audit) (event : TokenGraduated) : Audit :=
  audit.book event.mint
    ((.vault event.mint, - (event.finalSolReserves.toNat + event.graduationFeePaid.toNat : ℤ)) ::
      (event.graduationAuthority, (event.finalSolReserves.toNat : ℤ)) ::
      audit.wallets event.dinoShare event.treasuryShare)
    [(event.graduationAuthority, (event.finalTokenReserves.toNat : ℤ))]

/-- What one event says about balances. -/
def apply (audit : Audit) : Event → Audit
  | .configInitialized event => { audit with
      dinoBuybackWallet := event.dinoBuybackWallet
      treasuryWallet := event.treasuryWallet }
  | .configUpdated _ => audit
  | .tokenCreated event => audit.create event
  | .tradeExecuted event => audit.trade event
  | .tokenGraduated event => audit.graduate event
  | .poolSeeded _ => audit

/-- What a whole log says. -/
def ofLog (log : List Event) : Audit := log.foldl apply start

theorem ofLog_concat (log : List Event) (event : Event) :
    ofLog (log ++ [event]) = (ofLog log).apply event := by
  rw [ofLog, List.foldl_append]
  rfl

end Audit

/-! ### Transfers of the outside world -/

/-- The entries of token accounts as entries of their owners, for the accounts of one mint. -/
def World.ownerEntries (world : World) (mint : Pubkey) (entries : List (Pubkey × ℤ)) :
    List (Pubkey × ℤ) :=
  entries.filterMap fun entry => (world.tokenAccounts.shape entry.1).bind fun shape =>
    if mint = shape.1 then some (shape.2, entry.2) else none

namespace World

/-- What the outside world gives to a holder in lamports. -/
def outsideLamports (holder : Pubkey) (world : World) (action : Action) (_ : World) : ℤ :=
  if action.outside then Balances.net (world.lamportEntries action) holder else 0

/-- What the outside world gives to a holder in tokens. -/
def outsideTokens (mint holder : Pubkey) (world : World) (action : Action) (_ : World) : ℤ :=
  if action.outside then Balances.net (world.ownerEntries mint action.tokenEntries) holder else 0

/-! ### The lamports in the log -/

/-- What an auditor of a log without `ConfigUpdated` knows of a state. -/
structure Audited (funds : Pubkey → ℕ) (holder : Pubkey) (world : World) (outside : ℤ) : Prop where
  wallets : ∀ config, world.config = some config →
    (Audit.ofLog world.events).dinoBuybackWallet = config.dinoBuybackWallet ∧
      (Audit.ofLog world.events).treasuryWallet = config.treasuryWallet
  creator : ∀ mint launch, world.launches (.launch mint) = some launch →
    (Audit.ofLog world.events).creator mint = launch.creator
  lamports : (world.lamports holder : ℤ) =
    funds holder + (Audit.ofLog world.events).lamports holder + outside

variable {funds : Pubkey → ℕ} {holder : Pubkey} {world world' : World} {outside : ℤ}

theorem Audited.wallets_eq (audited : Audited funds holder world outside) {config : Config}
    (configured : world.config = some config) (dinoShare treasuryShare : UInt64) :
    (Audit.ofLog world.events).wallets dinoShare treasuryShare =
      [(config.dinoBuybackWallet, (dinoShare.toNat : ℤ)),
        (config.treasuryWallet, (treasuryShare.toNat : ℤ))] := by
  obtain ⟨dino, treasury⟩ := audited.wallets config configured
  rw [Audit.wallets, dino, treasury]

/-- An action that emits nothing, and leaves wallets and creators alone. -/
theorem Audited.silent (audited : Audited funds holder world outside) {amount : ℤ}
    (events : world'.events = world.events)
    (wallets : ∀ config', world'.config = some config' → ∃ config, world.config = some config ∧
      config'.dinoBuybackWallet = config.dinoBuybackWallet ∧
      config'.treasuryWallet = config.treasuryWallet)
    (launches : world'.launches = world.launches)
    (lamports : (world'.lamports holder : ℤ) = world.lamports holder + amount) :
    Audited funds holder world' (outside + amount) where
  wallets := fun config' configured => by
    obtain ⟨config, before, dino, treasury⟩ := wallets config' configured
    rw [events, dino, treasury]
    exact audited.wallets config before
  creator := fun mint launch present => by
    rw [launches] at present
    rw [events]
    exact audited.creator mint launch present
  lamports := by
    rw [lamports, audited.lamports, events, add_assoc _ outside]

/-- An event that is booked with the entries of its action. -/
theorem Audited.booked (audited : Audited funds holder world outside) {mint : Pubkey}
    {launch' : TokenLaunch} {after : Audit} {entries : List (Pubkey × ℤ)}
    (events : Audit.ofLog world'.events = after) (config : world'.config = world.config)
    (launches : world'.launches =
      Function.update world.launches (.launch mint) (some launch'))
    (booked : Balances.Booked entries world.lamports world'.lamports)
    (dino : after.dinoBuybackWallet = (Audit.ofLog world.events).dinoBuybackWallet)
    (treasury : after.treasuryWallet = (Audit.ofLog world.events).treasuryWallet)
    (creator : after.creator mint = launch'.creator)
    (others : ∀ other, other ≠ mint →
      after.creator other = (Audit.ofLog world.events).creator other)
    (lamports : after.lamports holder =
      (Audit.ofLog world.events).lamports holder + Balances.net entries holder) :
    Audited funds holder world' outside where
  wallets := fun found configured => by
    rw [config] at configured
    rw [events, dino, treasury]
    exact audited.wallets found configured
  creator := fun other launch present => by
    rw [launches] at present
    rw [events]
    by_cases same : other = mint
    · rw [same, Function.update_self] at present
      rw [same, creator, Option.some.inj present]
    · rw [Function.update_of_ne fun equal => same (Pubkey.launch.inj equal)] at present
      rw [others other same]
      exact audited.creator other launch present
  lamports := by
    rw [booked holder, audited.lamports, events, lamports]
    ring

theorem Audited.createToken (audited : Audited funds holder world outside) {accounts : CreateToken}
    {params : CreateTokenParams} {bumps : CreateTokenBumps}
    (accepted : accounts.handler world params bumps = .ok world') :
    Audited funds holder world' outside := by
  obtain ⟨created⟩ := CreateToken.execution accepted
  obtain ⟨config, shares, configured, _, entries, booked, events⟩ :=
    CreateToken.handler_paid accepted
  have config : world'.config = world.config := by rw [created.frame]
  refine audited.booked ((congrArg Audit.ofLog events).trans (Audit.ofLog_concat _ _))
    config created.launches booked rfl rfl ?_
    (fun other different => Function.update_of_ne different _ _) ?_
  · rw [created.created]
    exact Function.update_self _ _ _
  · rw [entries, ← audited.wallets_eq configured]
    rfl

theorem Audited.buy (audited : Audited funds holder world outside) {accounts : TradeAccounts}
    {tokenAmountOut maxSolIn : UInt64}
    (bought : Buy.Execution accounts world tokenAmountOut maxSolIn world') :
    Audited funds holder world' outside := by
  have creator := audited.creator _ _ bought.met.launchPresent
  have config : world'.config = world.config := by rw [bought.frame]
  refine audited.booked ((congrArg Audit.ofLog bought.events).trans (Audit.ofLog_concat _ _))
    config bought.launches bought.booked rfl rfl ?_
    (fun _ _ => rfl) ?_
  · rw [bought.bought.frame]
    exact creator
  · obtain ⟨charge, fee, total⟩ := bought.terms_eq
    rw [TokenLaunch.buyEntries, ← total, ← fee, ← charge, bought.met.hasOne,
      bought.launch.tradeFeeEntries_eq bought.creatorShare bought.dinoShare bought.sharesTotal,
      TokenLaunch.feeRoles, ← audited.wallets_eq bought.met.configPresent, ← creator, Nat.cast_add]
    rfl

theorem Audited.sell (audited : Audited funds holder world outside) {accounts : TradeAccounts}
    {tokenAmountIn minSolOut : UInt64}
    (sold : Sell.Execution accounts world tokenAmountIn minSolOut world') :
    Audited funds holder world' outside := by
  have creator := audited.creator _ _ sold.met.launchPresent
  have config : world'.config = world.config := by rw [sold.frame]
  refine audited.booked ((congrArg Audit.ofLog sold.events).trans (Audit.ofLog_concat _ _))
    config sold.launches sold.booked rfl rfl ?_ (fun _ _ => rfl) ?_
  · rw [sold.sold.frame]
    exact creator
  · obtain ⟨payout, fee, _⟩ := sold.terms_eq
    rw [TokenLaunch.sellEntries, ← fee, ← payout, sold.met.hasOne,
      sold.launch.tradeFeeEntries_eq sold.creatorShare sold.dinoShare sold.sharesTotal,
      TokenLaunch.feeRoles, ← audited.wallets_eq sold.met.configPresent, ← creator]
    rfl

theorem Audited.graduate (audited : Audited funds holder world outside) {accounts : Graduate}
    (graduated : accounts.Execution world world') : Audited funds holder world' outside := by
  have creator := audited.creator _ _ graduated.met.launchPresent
  have config : world'.config = world.config := by rw [graduated.frame]
  refine audited.booked ((congrArg Audit.ofLog graduated.events).trans (Audit.ofLog_concat _ _))
    config graduated.launches graduated.paid rfl rfl creator
    (fun _ _ => rfl) ?_
  rw [← audited.wallets_eq graduated.met.configPresent]
  rfl

/-- The log only grows. -/
theorem execute_events {action : Action} (accepted : world.execute action = .ok world') :
    world.events <+: world'.events := by
  have grows {emitted : List Event} (events : world'.events = world.events ++ emitted) :
      world.events <+: world'.events := ⟨emitted, events.symm⟩
  cases action with
  | initializeConfig => exact grows (InitializeConfig.handler_events accepted)
  | updateConfig => exact grows (UpdateConfig.handler_events accepted)
  | setPaused =>
    obtain ⟨_, _, _, frame⟩ := SetPaused.handler_ok accepted
    rw [frame]
  | createToken =>
    obtain ⟨_, _, _, _, _, _, events⟩ := CreateToken.handler_paid accepted
    exact grows events
  | buy =>
    obtain ⟨bought⟩ := Buy.execution accepted
    exact grows bought.events
  | sell =>
    obtain ⟨sold⟩ := Sell.execution accepted
    exact grows sold.events
  | graduate =>
    obtain ⟨graduated⟩ := Graduate.execution accepted
    exact grows graduated.events
  | sealGraduation =>
    obtain ⟨_, address, _⟩ := SealGraduation.handler_ok accepted
    exact grows (SealGraduation.handler_events accepted address)
  | transferLamports | openTokenAccount | transferTokens | burnTokens | setClock =>
    rw [(execute_outside rfl accepted).2.2]

/-- One accepted action; the cases are the actions. -/
theorem Audited.execute (audited : Audited funds holder world outside) {action : Action}
    (accepted : world.execute action = .ok world')
    (unchanged : ∀ event, .configUpdated event ∉ world'.events) :
    Audited funds holder world' (outside + outsideLamports holder world action world') := by
  have inside (inner : action.outside = false) (after : Audited funds holder world' outside) :
      Audited funds holder world' (outside + outsideLamports holder world action world') := by
    rwa [outsideLamports, inner, if_neg Bool.false_ne_true, add_zero]
  cases action with
  | initializeConfig accounts params bump =>
    obtain ⟨_, _, _, _, frame⟩ := InitializeConfig.handler_ok accepted
    have log : Audit.ofLog world'.events = (Audit.ofLog world.events).apply _ :=
      (congrArg Audit.ofLog (InitializeConfig.handler_events accepted)).trans
        (Audit.ofLog_concat _ _)
    refine inside rfl ⟨fun config configured => ?_, fun mint launch present => ?_, ?_⟩
    · rw [frame] at configured
      rw [log, ← Option.some.inj configured]
      exact ⟨rfl, rfl⟩
    · rw [frame] at present
      rw [log]
      exact audited.creator mint launch present
    · rw [log, frame]
      exact audited.lamports
  | updateConfig accounts params =>
    refine absurd ?_ (unchanged { admin := accounts.admin })
    rw [UpdateConfig.handler_events accepted]
    exact List.mem_append_right _ (List.mem_singleton_self _)
  | setPaused accounts paused =>
    obtain ⟨config, before, _, frame⟩ := SetPaused.handler_ok accepted
    refine audited.silent (by rw [frame]) (fun config' configured => ?_) (by rw [frame]) ?_
    · rw [frame] at configured
      exact ⟨config, before, Option.some.inj configured ▸ ⟨rfl, rfl⟩⟩
    · rw [frame]
      exact (add_zero _).symm
  | createToken accounts params bumps => exact inside rfl (audited.createToken accepted)
  | buy accounts tokenAmountOut maxSolIn =>
    obtain ⟨bought⟩ := Buy.execution accepted
    exact inside rfl (audited.buy bought)
  | sell accounts tokenAmountIn minSolOut =>
    obtain ⟨sold⟩ := Sell.execution accepted
    exact inside rfl (audited.sell sold)
  | graduate accounts =>
    obtain ⟨graduated⟩ := Graduate.execution accepted
    exact inside rfl (audited.graduate graduated)
  | sealGraduation accounts meteoraLbPair =>
    obtain ⟨launch, address, present, _, _, _, frame⟩ := SealGraduation.handler_ok accepted
    have log := (congrArg Audit.ofLog (SealGraduation.handler_events accepted address)).trans
      (Audit.ofLog_concat _ _)
    have launches : world'.launches = Function.update world.launches (.launch launch.mint)
        (some (launch.withPool meteoraLbPair)) := by
      rw [frame]
    have creator := audited.creator _ _ present
    refine inside rfl (audited.booked log (by rw [frame]) launches (execute_lamports accepted) rfl
      rfl creator (fun _ _ => rfl) ?_)
    exact (add_zero _).symm
  | transferLamports | openTokenAccount | transferTokens | burnTokens | setClock =>
    obtain ⟨config, launches, events⟩ := execute_outside rfl accepted
    exact audited.silent events (fun config' configured => ⟨config', config ▸ configured, rfl, rfl⟩)
      launches (execute_lamports accepted holder)

/-- Rent aside, which no event records, from any beginning, and after any run whose log has no
`ConfigUpdated`, the log alone accounts for the lamports of every holder, up to what the outside
world transferred. -/
theorem log_audits_lamports (unixTimestamp : Int64) (funds : ℕ → ℕ) (actions : List Action)
    (unchanged : ∀ event, .configUpdated event ∉
      ((genesis unixTimestamp funds).run actions).events) (holder : Pubkey) :
    (((genesis unixTimestamp funds).run actions).lamports holder : ℤ) =
      (genesis unixTimestamp funds).lamports holder +
        (Audit.ofLog ((genesis unixTimestamp funds).run actions).events).lamports holder +
        (genesis unixTimestamp funds).tally (outsideLamports holder) actions := by
  refine ((genesis_reachable unixTimestamp funds).run_ghost (outsideLamports holder)
    (fun _ _ => True) (fun world outside => (∀ event, .configUpdated event ∉ world.events) →
      Audited (genesis unixTimestamp funds).lamports holder world outside) ?_ ?_ actions
    (along_true _ _) unchanged).lamports
  · intro state action state' outside _ _ audited accepted unchanged
    obtain ⟨emitted, events⟩ := execute_events accepted
    exact (audited fun event member =>
      unchanged event (events ▸ List.mem_append_left _ member)).execute accepted unchanged
  · intro _
    exact ⟨fun _ absent => (nomatch absent), fun _ _ absent => (nomatch absent), rfl⟩

/-- What the treasury of the sample owns after two trades. -/
theorem log_audits_lamports_sample :
    let actions := Sample.opening Sample.params ++
      [.buy (Sample.trading Sample.whale) 100_000_000_000_000 5_000_000_000,
        .transferLamports Sample.whale Sample.treasuryWallet 7,
        .sell (Sample.trading Sample.whale) 1_000_000_000 0]
    ((Sample.start.run actions).lamports Sample.treasuryWallet : ℤ) =
      Sample.start.lamports Sample.treasuryWallet +
        (Audit.ofLog (Sample.start.run actions).events).lamports Sample.treasuryWallet +
        Sample.start.tally (outsideLamports Sample.treasuryWallet) actions := by
  intro actions
  have emitted : (Sample.start.run actions).events.all
      (fun event => match event with | .configUpdated _ => false | _ => true) = true := by
    decide +kernel
  refine log_audits_lamports _ _ _ (fun event member => ?_) _
  cases List.all_eq_true.mp emitted _ member

/-! ### The tokens in the log -/

theorem holderTokens_moved {source destination mint sourceOwner destinationOwner : Pubkey}
    {amount : ℕ} (moved : world.tokenAccounts.Moved source destination amount mint sourceOwner
      destinationOwner world'.tokenAccounts) (other holder : Pubkey) :
    (world'.holderTokens other holder : ℤ) = world.holderTokens other holder +
      if other = mint then Balances.net [(sourceOwner, - (amount : ℤ)),
        (destinationOwner, (amount : ℤ))] holder else 0 := by
  have change := moved.held other fun owner => owner = holder
  simp only [decide_eq_true_eq] at change
  rw [holderTokens, holderTokens, Balances.net_cons, Balances.net_cons, Balances.net_nil]
  by_cases same : other = mint
  · subst same
    simp only [true_and] at change
    simp only [if_true, @eq_comm _ holder]
    split_ifs at change ⊢ <;> omega
  · rw [if_neg fun both => same both.1.symm, if_neg fun both => same both.1.symm] at change
    rw [if_neg same]
    omega

theorem ownerEntries_eq {mint other owner address : Pubkey} {amount : ℤ}
    {rest : List (Pubkey × ℤ)} (shape : world.tokenAccounts.shape address = some (other, owner)) :
    world.ownerEntries mint ((address, amount) :: rest) =
      (if mint = other then [(owner, amount)] else []) ++ world.ownerEntries mint rest := by
  rw [ownerEntries, List.filterMap_cons, shape, Option.bind_some]
  split_ifs <;> rfl

/-- The books of the auditor match the tokens of a holder, up to the outside world. -/
def TokensAudited (mint holder : Pubkey) (world : World) (outside : ℤ) : Prop :=
  (world.holderTokens mint holder : ℤ) =
    (Audit.ofLog world.events).tokens mint holder + outside

variable {mint : Pubkey}

/-- An event is booked with the tokens of its action. -/
theorem TokensAudited.booked (audited : TokensAudited mint holder world outside)
    {before after : Audit} {other : Pubkey} {entries : List (Pubkey × ℤ)}
    (log : Audit.ofLog world.events = before) (log' : Audit.ofLog world'.events = after)
    (books : after.tokens mint holder = before.tokens mint holder +
      if mint = other then Balances.net entries holder else 0)
    (held : (world'.holderTokens mint holder : ℤ) = world.holderTokens mint holder +
      if mint = other then Balances.net entries holder else 0) :
    TokensAudited mint holder world' outside := by
  rw [TokensAudited, log] at audited
  rw [TokensAudited, held, audited, log', books]
  ring

theorem TokensAudited.silent (audited : TokensAudited mint holder world outside) {amount : ℤ}
    (books : (Audit.ofLog world'.events).tokens mint holder =
      (Audit.ofLog world.events).tokens mint holder)
    (held : (world'.holderTokens mint holder : ℤ) = world.holderTokens mint holder + amount) :
    TokensAudited mint holder world' (outside + amount) := by
  rw [TokensAudited] at audited ⊢
  rw [held, audited, books, add_assoc]

/-- One accepted action; the cases are the actions. -/
theorem TokensAudited.execute (audited : TokensAudited mint holder world outside)
    {action : Action} (accepted : world.execute action = .ok world') :
    TokensAudited mint holder world'
      (outside + outsideTokens mint holder world action world') := by
  have inside (inner : action.outside = false) (after : TokensAudited mint holder world' outside) :
      TokensAudited mint holder world'
        (outside + outsideTokens mint holder world action world') := by
    rwa [outsideTokens, inner, if_neg Bool.false_ne_true, add_zero]
  have idle (books : (Audit.ofLog world'.events).tokens mint holder =
        (Audit.ofLog world.events).tokens mint holder)
      (tokens : world'.tokenAccounts = world.tokenAccounts) :
      TokensAudited mint holder world' outside := by
    have after := audited.silent books
      (show (world'.holderTokens mint holder : ℤ) = _ + 0 by
        rw [holderTokens, tokens, add_zero, holderTokens])
    rwa [add_zero] at after
  have added {tokens : ℕ} {owner other : Pubkey} (held : world'.holderTokens mint holder =
      world.holderTokens mint holder +
        if other = mint ∧ decide (owner = holder) then tokens else 0) :
      (world'.holderTokens mint holder : ℤ) = world.holderTokens mint holder +
        if mint = other then Balances.net [(owner, (tokens : ℤ))] holder else 0 := by
    rw [held, Balances.net_cons, Balances.net_nil, add_zero]
    simp only [decide_eq_true_eq, @eq_comm _ other mint, @eq_comm _ owner holder, ite_and]
    split_ifs <;> simp
  cases action with
  | initializeConfig accounts params bump =>
    obtain ⟨_, _, _, _, frame⟩ := InitializeConfig.handler_ok accepted
    refine inside rfl (idle ?_ (by rw [frame]))
    rw [InitializeConfig.handler_events accepted, Audit.ofLog_concat]
    rfl
  | updateConfig accounts params =>
    obtain ⟨_, _, _, _, _, _, frame⟩ := UpdateConfig.handler_ok accepted
    refine inside rfl (idle ?_ (by rw [frame]))
    rw [UpdateConfig.handler_events accepted, Audit.ofLog_concat]
    rfl
  | setPaused accounts paused =>
    obtain ⟨_, _, _, frame⟩ := SetPaused.handler_ok accepted
    exact inside rfl (idle (by rw [frame]) (by rw [frame]))
  | createToken accounts params bumps =>
    obtain ⟨created⟩ := CreateToken.execution accepted
    obtain ⟨_, _, _, _, _, _, events⟩ := CreateToken.handler_paid accepted
    exact inside rfl (audited.booked rfl ((congrArg Audit.ofLog events).trans
      (Audit.ofLog_concat _ _)) rfl (added (created.held mint fun owner => owner = holder)))
  | buy accounts tokenAmountOut maxSolIn =>
    obtain ⟨bought⟩ := Buy.execution accepted
    exact inside rfl (audited.booked rfl ((congrArg Audit.ofLog bought.events).trans
      (Audit.ofLog_concat _ _)) rfl (holderTokens_moved bought.tokens mint holder))
  | sell accounts tokenAmountIn minSolOut =>
    obtain ⟨sold⟩ := Sell.execution accepted
    exact inside rfl (audited.booked rfl ((congrArg Audit.ofLog sold.events).trans
      (Audit.ofLog_concat _ _)) rfl (holderTokens_moved sold.tokens mint holder))
  | graduate accounts =>
    obtain ⟨graduated⟩ := Graduate.execution accepted
    exact inside rfl (audited.booked rfl ((congrArg Audit.ofLog graduated.events).trans
      (Audit.ofLog_concat _ _)) rfl (added (graduated.held mint fun owner => owner = holder)))
  | sealGraduation accounts meteoraLbPair =>
    obtain ⟨_, address, _, _, _, _, frame⟩ := SealGraduation.handler_ok accepted
    refine inside rfl (idle ?_ (by rw [frame]))
    rw [SealGraduation.handler_events accepted address, Audit.ofLog_concat]
    rfl
  | transferLamports source destination amount =>
    obtain ⟨_, _, paid⟩ := bind_eq_ok.mp accepted
    rw [(systemTransfer_ok paid).frame]
    exact audited.silent rfl (add_zero _).symm
  | openTokenAccount address opened owner =>
    obtain ⟨_, _, absent, rfl⟩ := openTokenAccount_ok accepted
    refine audited.silent rfl ?_
    rw [holderTokens, initTokenAccount, TokenAccounts.held_open absent]
    exact (add_zero _).symm
  | transferTokens source destination authority amount =>
    obtain ⟨_, _, transferred⟩ := bind_eq_ok.mp accepted
    obtain ⟨_, token, owner, moved⟩ := tokenTransfer_ok transferred
    refine audited.silent (by rw [(execute_outside rfl accepted).2.2]) ?_
    show _ = _ + Balances.net (world.ownerEntries mint [(source, - (amount.toNat : ℤ)),
      (destination, (amount.toNat : ℤ))]) holder
    rw [holderTokens_moved moved mint holder, ownerEntries_eq moved.sourceShape,
      ownerEntries_eq moved.destinationShape]
    split_ifs <;> rfl
  | burnTokens address authority amount =>
    obtain ⟨_, _, burned⟩ := bind_eq_ok.mp accepted
    obtain ⟨token, _, _, _, _, debited⟩ := burn_ok burned
    refine audited.silent (by rw [(execute_outside rfl accepted).2.2]) ?_
    have change := debited.held mint fun owner => owner = holder
    show ((world'.tokenAccounts.held mint _ : ℕ) : ℤ) = (world.tokenAccounts.held mint _ : ℕ) +
      Balances.net (world.ownerEntries mint [(address, - (amount.toNat : ℤ))]) holder
    rw [ownerEntries_eq debited.sourceShape, ← change, ite_and]
    simp only [decide_eq_true_eq, @eq_comm _ token mint, @eq_comm _ authority holder]
    split_ifs with same owned
    · simp [owned, ownerEntries]
    · simp [owned, ownerEntries]
    · simp [ownerEntries]
  | setClock unixTimestamp =>
    obtain rfl := pure_eq_ok.mp accepted
    exact audited.silent rfl (add_zero _).symm

/-- From any beginning, and after any run, the log alone accounts for the tokens of every holder, up
to what the outside world transferred and burned. -/
theorem log_audits_tokens (unixTimestamp : Int64) (funds : ℕ → ℕ) (actions : List Action)
    (mint holder : Pubkey) :
    (((genesis unixTimestamp funds).run actions).holderTokens mint holder : ℤ) =
      (Audit.ofLog ((genesis unixTimestamp funds).run actions).events).tokens mint holder +
        (genesis unixTimestamp funds).tally (outsideTokens mint holder) actions :=
  (genesis_reachable unixTimestamp funds).run_ghost (outsideTokens mint holder) (fun _ _ => True)
    (TokensAudited mint holder) (fun _ _ _ _ _ _ audited accepted => audited.execute accepted) rfl
    actions (along_true _ _)

end World

end Memecoin
