/-
This file follows a launch through its life. It is created once, graduates at
most once and is sealed at most once, and none of this is ever undone. What
`create_token` fixed stays fixed; after graduation only the seal still writes,
and the vault is never paid out of again.
-/

import Memecoin.Solvency
import Memecoin.Books

namespace Memecoin

open Checked

namespace TokenLaunch

/-- What can become of a launch. -/
structure Becomes (launch launch' : TokenLaunch) : Prop where
  identity : launch'.identity = launch.identity
  graduated : launch.graduated = true → launch'.graduated = true
  seeded : launch.poolSeeded = true →
    launch'.poolSeeded = true ∧ launch'.meteoraLbPair = launch.meteoraLbPair
  frozen : launch.graduated = true → launch' = { launch with
    poolSeeded := launch'.poolSeeded
    meteoraLbPair := launch'.meteoraLbPair }

theorem Becomes.refl (launch : TokenLaunch) : launch.Becomes launch :=
  ⟨rfl, id, fun seeded => ⟨seeded, rfl⟩, fun _ => rfl⟩

theorem Becomes.trans {first second third : TokenLaunch} (earlier : first.Becomes second)
    (later : second.Becomes third) : first.Becomes third where
  identity := later.identity.trans earlier.identity
  graduated := later.graduated ∘ earlier.graduated
  seeded := fun seeded => by
    obtain ⟨between, pair⟩ := earlier.seeded seeded
    obtain ⟨after, pair'⟩ := later.seeded between
    exact ⟨after, pair'.trans pair⟩
  frozen := fun graduated => by
    have between := earlier.frozen graduated
    have after := later.frozen (earlier.graduated graduated)
    rw [after, between]

end TokenLaunch

namespace Market

theorem Step.born {fed : Prop} {market market' : Market} {operation : Operation}
    (step : Step fed market operation market') (absent : market.launch = none)
    {launch : TokenLaunch} (present : market'.launch = some launch) : operation = .create := by
  cases step with
  | create => rfl
  | pass | giveLamports | giveTokens | burn => cases absent.symm.trans present
  | buy _ _ _ _ _ _ _ found | sell _ _ _ _ _ _ _ found | graduate _ _ _ _ _ _ found
  | sealPool _ _ found => cases absent.symm.trans found

theorem Step.absent_of_create {fed : Prop} {market market' : Market}
    (step : Step fed market .create market') : market.launch = none := by
  cases step with
  | create _ _ _ absent _ => exact absent

/-- One operation; a launch that trades is not sealed. -/
theorem Step.becomes {fed : Prop} {market market' : Market} {operation : Operation}
    (step : Step fed market operation market') (sound : market.Sound) {launch : TokenLaunch}
    (present : market.launch = some launch) :
    ∃ launch', market'.launch = some launch' ∧ launch.Becomes launch' := by
  cases step with
  | pass wallets _ => exact ⟨launch, present, .refl launch⟩
  | create created wallets _ absent _ => cases absent.symm.trans present
  | buy before launch' tokens cost wallets there _ found bought held heldThere =>
    obtain rfl := Option.some.inj (present.symm.trans found)
    refine ⟨launch', rfl, bought.identity, fun graduated => ?_, fun seeded => ?_, fun graduated => ?_⟩
    · cases bought.trading.symm.trans graduated
    · rw [bought.frame]
      exact ⟨seeded, rfl⟩
    · cases bought.trading.symm.trans graduated
  | sell before launch' tokens payout wallets there _ found sold held covered =>
    obtain rfl := Option.some.inj (present.symm.trans found)
    refine ⟨launch', rfl, sold.identity, fun graduated => ?_, fun seeded => ?_, fun graduated => ?_⟩
    · cases sold.trading.symm.trans graduated
    · rw [sold.frame]
      exact ⟨seeded, rfl⟩
    · cases sold.trading.symm.trans graduated
  | graduate before remaining fee wallets toLaunch _ found trading split covered =>
    obtain rfl := Option.some.inj (present.symm.trans found)
    have unseeded := ((sound.live launch present).trading trading).unseeded
    refine ⟨launch.graduate remaining, rfl, rfl, fun _ => rfl, fun seeded => ?_, fun graduated => ?_⟩
    · cases unseeded.symm.trans seeded
    · cases trading.symm.trans graduated
  | sealPool before meteoraLbPair found graduated unseeded nonzero =>
    obtain rfl := Option.some.inj (present.symm.trans found)
    refine ⟨_, rfl, rfl, id, fun seeded => ?_, fun _ => rfl⟩
    cases unseeded.symm.trans seeded
  | giveLamports amount => exact ⟨launch, present, .refl launch⟩
  | giveTokens amount there held => exact ⟨launch, present, .refl launch⟩
  | burn amount held => exact ⟨launch, present, .refl launch⟩

/-- The operations that pay out of the vault need a launch that trades. -/
theorem Step.closed {fed : Prop} {market market' : Market} {operation : Operation}
    (step : Step fed market operation market') {launch : TokenLaunch}
    (present : market.launch = some launch) (graduated : launch.graduated = true) :
    operation.isTrade = false ∧ ∀ toLaunch, operation ≠ .graduate toLaunch := by
  cases step with
  | buy before launch' tokens cost wallets there _ found bought held heldThere =>
    obtain rfl := Option.some.inj (present.symm.trans found)
    cases bought.trading.symm.trans graduated
  | sell before launch' tokens payout wallets there _ found sold held covered =>
    obtain rfl := Option.some.inj (present.symm.trans found)
    cases sold.trading.symm.trans graduated
  | graduate before remaining fee wallets toLaunch _ found trading split covered =>
    obtain rfl := Option.some.inj (present.symm.trans found)
    cases trading.symm.trans graduated
  | pass | create | sealPool | giveLamports | giveTokens | burn =>
    exact ⟨rfl, fun _ equal => nomatch equal⟩

end Market

/-- The fee that a graduation pays and the SOL that it snapshots are the SOL that was recorded. -/
theorem Graduate.Execution.accounted {accounts : Graduate} {world world' : World}
    (graduated : accounts.Execution world world') :
    ∃ launch' event, world'.launches (.launch accounts.mint) = some launch' ∧
      world'.events = world.events ++ [.tokenGraduated event] ∧
      launch'.graduationSolLamports.toNat + event.graduationFeePaid.toNat =
        graduated.launch.realSolReserves.toNat ∧
      event.dinoShare.toNat + event.treasuryShare.toNat = event.graduationFeePaid.toNat := by
  refine ⟨graduated.launch.graduate graduated.remaining, _, ?_, graduated.events,
    graduated.remainingFee, graduated.sharesTotal⟩
  exact graduated.launch_after

namespace World

variable {world : World} {mint : Pubkey} {launch : TokenLaunch}

/-- A launch is never lost, and becomes what a launch can become. -/
theorem Reachable.becomes (reachable : world.Reachable)
    (present : world.launches (.launch mint) = some launch) (later : List Action) :
    ∃ launch', (world.run later).launches (.launch mint) = some launch' ∧
      launch.Becomes launch' := by
  refine reachable.run_invariant (fun _ _ => True) (fun world' => ∃ launch',
    world'.launches (.launch mint) = some launch' ∧ launch.Becomes launch') ?_
    ⟨launch, present, .refl launch⟩ later (along_true world later)
  rintro state action state' reached _ ⟨between, found, earlier⟩ accepted
  have step := reached.wellFormed.refines accepted mint
  obtain ⟨launch', after, last⟩ := step.becomes (reached.sound mint) found
  exact ⟨launch', after, earlier.trans last⟩

/-- Only `create_token` makes a launch. -/
theorem operation_eq_create {action : Action} (creates : world.operation mint action = .create) :
    ∃ accounts params bumps, action = .createToken accounts params bumps ∧ accounts.mint = mint := by
  cases action with
  | createToken accounts params bumps =>
    rw [operation] at creates
    split_ifs at creates with same
    exact ⟨accounts, params, bumps, rfl, same⟩
  | initializeConfig | updateConfig | setPaused | openTokenAccount | setClock => cases creates
  | _ =>
    rw [operation] at creates
    split_ifs at creates

/-- The mint of a launch has signed for its creation, so its address has a key. -/
theorem Reachable.mint_signs (reachable : world.Reachable)
    (launched : (world.launches (.launch mint)).isSome) : mint.canSign := by
  refine (reachable.invariant (fun world => world.WellFormed ∧
    ((world.launches (.launch mint)).isSome → mint.canSign))
    (fun unixTimestamp funds => ⟨genesis_wellFormed unixTimestamp funds, fun absent => nomatch absent⟩)
    fun world action world' kept accepted => ⟨kept.1.execute accepted, fun found => ?_⟩).2 launched
  cases before : world.launches (.launch mint) with
  | some launch => exact kept.2 (before ▸ rfl)
  | none =>
    obtain ⟨launch, present⟩ := Option.isSome_iff_exists.mp found
    obtain ⟨accounts, params, bumps, rfl, rfl⟩ :=
      operation_eq_create ((kept.1.refines accepted mint).born before present)
    obtain ⟨created⟩ := CreateToken.execution accepted
    exact created.mintSigner

/-- After graduation the vault is never paid out of. -/
theorem Reachable.vault_mono (reachable : world.Reachable)
    (present : world.launches (.launch mint) = some launch) (graduated : launch.graduated = true)
    (later : List Action) :
    world.lamports (.vault mint) ≤ (world.run later).lamports (.vault mint) := by
  obtain ⟨launch', after, becomes⟩ := reachable.becomes present later
  have emptied := ((reachable.live present).closed graduated).emptied
  have emptied' := (((reachable.run later).live after).closed (becomes.graduated graduated)).emptied
  have mono := reachable.surplus_mono mint later
  rw [surplus, surplus, present, after, Option.elim_some, Option.elim_some, emptied, emptied'] at mono
  omega

/-- What was ever minted of a launch's token, in either phase. -/
theorem Reachable.minted (reachable : world.Reachable)
    (present : world.launches (.launch mint) = some launch) :
    ∃ account, world.mints mint = some account ∧ account.minted =
      if launch.graduated then TokenLaunch.totalSupplyUnits.toNat
      else TokenLaunch.curveAllocationUnits.toNat := by
  have launched : (world.mints mint).isSome := by
    rw [reachable.wellFormed.mintLaunched, present, Option.isSome_some]
  obtain ⟨account, found⟩ := Option.isSome_iff_exists.mp launched
  have live := reachable.live present
  have minted : (world.market mint).minted = account.minted := by
    rw [market, found, Option.elim_some]
  refine ⟨account, found, ?_⟩
  cases phase : launch.graduated with
  | false =>
    rw [← minted, (live.trading phase).minted]
    rfl
  | true =>
    rw [← minted, (live.closed phase).minted]
    rfl

/-- A pool is recorded only on a graduated launch, and is recorded exactly when it is seeded. -/
theorem Reachable.seeded (reachable : world.Reachable)
    (present : world.launches (.launch mint) = some launch) :
    (launch.poolSeeded = true → launch.graduated = true) ∧
      (launch.meteoraLbPair ≠ .default ↔ launch.poolSeeded = true) := by
  have live := reachable.live present
  cases phase : launch.graduated with
  | false =>
    have books := live.trading phase
    refine ⟨fun seeded => ?_, ?_⟩
    · cases books.unseeded.symm.trans seeded
    · rw [books.unseeded, books.unpaired]
      exact ⟨fun paired => absurd rfl paired, fun seeded => nomatch seeded⟩
  | true => exact ⟨fun _ => rfl, (live.closed phase).paired⟩

/-! ### Main result -/

/-- Over every run, for every launch: the whole allocation and nothing else is minted before
graduation, the total supply after it; graduation, the seal and the pool are never taken back;
a graduated launch neither trades nor graduates again, and its vault is not paid out of; what a
graduation snapshots and the fee it pays are the recorded SOL. -/
theorem one_way_lifecycle {unixTimestamp : Int64} {funds : ℕ → ℕ} {actions : List Action}
    {mint : Pubkey} {launch : TokenLaunch}
    (present : ((genesis unixTimestamp funds).run actions).launches (.launch mint) = some launch) :
    (∃ account, ((genesis unixTimestamp funds).run actions).mints mint = some account ∧
      account.minted = if launch.graduated then TokenLaunch.totalSupplyUnits.toNat
        else TokenLaunch.curveAllocationUnits.toNat) ∧
    (launch.poolSeeded = true → launch.graduated = true) ∧
    (launch.meteoraLbPair ≠ .default ↔ launch.poolSeeded = true) ∧
    (∀ later, ∃ launch', (((genesis unixTimestamp funds).run actions).run later).launches
        (.launch mint) = some launch' ∧ launch.Becomes launch' ∧
      (launch.graduated = true → ((genesis unixTimestamp funds).run actions).lamports
        (.vault mint) ≤ (((genesis unixTimestamp funds).run actions).run later).lamports
          (.vault mint))) ∧
    (launch.graduated = true → ∀ action world',
      ((genesis unixTimestamp funds).run actions).execute action = .ok world' →
        (((genesis unixTimestamp funds).run actions).operation mint action).isTrade = false ∧
          ∀ toLaunch, ((genesis unixTimestamp funds).run actions).operation mint action ≠
            .graduate toLaunch) ∧
    ∀ (accounts : Graduate) world', accounts.mint = mint →
      accounts.handler ((genesis unixTimestamp funds).run actions) = .ok world' →
      ∃ launch' event, world'.launches (.launch mint) = some launch' ∧
        world'.events =
          ((genesis unixTimestamp funds).run actions).events ++ [.tokenGraduated event] ∧
        launch'.graduationSolLamports.toNat + event.graduationFeePaid.toNat =
          launch.realSolReserves.toNat ∧
        event.dinoShare.toNat + event.treasuryShare.toNat = event.graduationFeePaid.toNat := by
  have reachable := (genesis_reachable unixTimestamp funds).run actions
  obtain ⟨sealed, paired⟩ := reachable.seeded present
  refine ⟨reachable.minted present, sealed, paired, fun later => ?_, ?_, ?_⟩
  · obtain ⟨launch', after, becomes⟩ := reachable.becomes present later
    exact ⟨launch', after, becomes, fun graduated => reachable.vault_mono present graduated later⟩
  · intro graduated action world' accepted
    exact (reachable.wellFormed.refines accepted mint).closed present graduated
  · rintro accounts world' rfl accepted
    obtain ⟨graduated⟩ := Graduate.execution accepted
    obtain rfl := Option.some.inj (present.symm.trans graduated.met.launchPresent)
    exact graduated.accounted

/-- The sample launch reaches the threshold, graduates, and has its whole supply minted. -/
theorem one_way_lifecycle_sample :
    let actions := [.buy (Sample.trading Sample.whale) 100_000_000_000_000 5_000_000_000,
      .graduate (Sample.graduation Sample.trader)]
    ∃ account, (Sample.after lowThreshold actions).mints Sample.mint = some account ∧
      account.minted = TokenLaunch.totalSupplyUnits.toNat := by
  intro actions
  have found : ((Sample.after lowThreshold actions).launches (.launch Sample.mint)).map
      TokenLaunch.graduated = some true := by decide +kernel
  obtain ⟨launch, present, graduated⟩ := Option.map_eq_some_iff.mp found
  obtain ⟨account, minted, total⟩ := (one_way_lifecycle present).1
  rw [if_pos graduated] at total
  exact ⟨account, minted, total⟩

end World

end Memecoin
