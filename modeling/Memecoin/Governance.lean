/-
This file is about graduation and the configuration that governs it. A
graduation whose guards pass is accepted: no arithmetic, payment or mint of it
fails. The guards, however, compare the recorded SOL with a threshold and a fee
that `update_config` sets independently, at any time. A fee above the threshold
makes launches that reach the threshold wait; a threshold lowered to what a
launch has recorded lets the admin graduate it at once.
-/

import Memecoin.Lifecycle

namespace Memecoin

open Checked

/-! ### Accepted graduations -/

/-- The accounts that a graduation has to name, and its guards, in a state that passes them all. -/
structure Graduate.Ready (accounts : Graduate) (world : World) (config : Config)
    (launch : TokenLaunch) : Prop where
  met : accounts.Met world config launch
  named : accounts.graduationAuthorityTokenAccount =
    .associatedToken config.graduationAuthority accounts.mint
  notPaused : config.paused = false
  trading : launch.graduated = false
  threshold : config.graduationThresholdLamports ≤ launch.realSolReserves
  fee : config.graduationFeeLamports ≤ launch.realSolReserves

namespace World

variable {world world' : World} {mint : Pubkey} {launch : TokenLaunch}

/-- An associated token account can always be opened, or is there already. -/
theorem WellFormed.initAssociated (wellFormed : world.WellFormed) (mint owner : Pubkey) :
    ∃ opened, world.initAssociatedIfNeeded (.associatedToken owner mint) mint owner =
      .ok opened := by
  simp only [initAssociatedIfNeeded, bind_eq_ok, require_eq_ok, exists_const, true_and]
  cases found : world.tokenAccounts.get? (.associatedToken owner mint) with
  | none => exact ⟨_, rfl⟩
  | some account =>
    have shape := wellFormed.associated owner mint (account.mint, account.owner)
      (TokenAccounts.shape_eq_some.mpr ⟨account, found, rfl, rfl⟩)
    obtain ⟨sameMint, sameOwner⟩ := Prod.mk.inj shape
    refine ⟨world, bind_eq_ok.mpr ⟨(), require_eq_ok.mpr sameMint, ?_⟩⟩
    exact bind_eq_ok.mpr ⟨(), require_eq_ok.mpr sameOwner, rfl⟩

/-- Before graduation, the supply leaves room for the reserve. -/
theorem Reachable.supply_le (reachable : world.Reachable)
    (present : world.launches (.launch mint) = some launch) (trades : launch.graduated = false)
    {account : Mint} (found : world.mints mint = some account) :
    account.supply ≤ TokenLaunch.curveAllocationUnits.toNat := by
  have issued := (reachable.sound mint).issued
  rw [(reachable.trading present trades).minted, market, found] at issued
  exact issued

/-- Where the guards pass, a graduation could fail only on a payment out of the vault. -/
theorem Reachable.graduate_failsOnly (reachable : world.Reachable) {accounts : Graduate}
    {config : Config} (ready : accounts.Ready world config launch) :
    FailsOnly (· = .insufficientLamports) (accounts.handler world) := by
  intro error rejected
  have wellFormed := reachable.wellFormed
  obtain ⟨opened, opening⟩ := wellFormed.initAssociated accounts.mint config.graduationAuthority
  rw [← ready.named, ← ready.met.graduationAuthority] at opening
  obtain ⟨_, openFrame, openShape, _⟩ := initAssociatedIfNeeded_ok opening
  have validated := Graduate.validate_eq_ok.mpr ⟨ready.met, opening⟩
  have valid := wellFormed.config config ready.met.configPresent
  obtain ⟨shares, split⟩ := splitTwoWay_total config.graduationFeeLamports valid.graduationSplit
  obtain ⟨dino, total⟩ := splitTwoWay_eq_ok.mp split
  have passed := Graduate.feeSplit_eq_ok.mpr ⟨ready.notPaused, ready.trading,
    UInt64.le_iff_toNat_le.mp ready.threshold, UInt64.le_iff_toNat_le.mp ready.fee, dino, total⟩
  have rejected := rest_eq_error rejected validated
  have rejected := rest_eq_error rejected (mapError_eq_ok.mpr passed)
  rcases bind_eq_error.mp rejected with failed | ⟨paid, payment, rejected⟩
  · exact (payShares_error failed).2
  have rejected := rest_eq_error rejected
    (mapError_eq_ok.mpr TokenLaunch.toBaseUnits_graduationReserve)
  rcases bind_eq_error.mp rejected with failed | ⟨_, _, rejected⟩
  · obtain ⟨account, found⟩ := Option.isSome_iff_exists.mp ready.met.mintPresent
    have present : paid.mints accounts.mint = some account := by
      rw [(payShares_ok payment).frame, openFrame, found]
    have authorised : account.mintAuthority = accounts.mintAuthority :=
      (wellFormed.mintAuthority _ _ found).trans ready.met.mintAuthority.symm
    have shape : paid.tokenAccounts.shape accounts.graduationAuthorityTokenAccount =
        some (accounts.mint, accounts.graduationAuthority) := by
      rw [(payShares_ok payment).frame, openShape, if_pos rfl]
    have supply := reachable.supply_le ready.met.launchPresent ready.trading found
    have overflow := (mintTo_error failed present authorised shape).1
    have room : TokenLaunch.curveAllocationUnits.toNat +
      TokenLaunch.graduationReserveUnits.toNat < 2 ^ 64 := by decide
    omega
  rcases bind_eq_error.mp rejected with failed | ⟨_, _, rejected⟩
  · exact (payShares_error failed).2
  · cases rejected

/-- A graduation is accepted exactly when it names the right accounts and its guards pass. -/
theorem Reachable.graduate_accepted_iff (reachable : world.Reachable) {accounts : Graduate} :
    (∃ world', accounts.handler world = .ok world') ↔
      ∃ config launch, accounts.Ready world config launch := by
  constructor
  · rintro ⟨world', accepted⟩
    obtain ⟨⟨config, launch, opened⟩, validated, accepted⟩ := bind_eq_ok.mp accepted
    obtain ⟨met, opening⟩ := Graduate.validate_eq_ok.mp validated
    obtain ⟨shares, passed, _⟩ := bind_eq_ok.mp accepted
    obtain ⟨notPaused, trading, threshold, fee, _⟩ :=
      Graduate.feeSplit_eq_ok.mp (mapError_eq_ok.mp passed)
    have named := (initAssociatedIfNeeded_ok opening).1
    rw [met.graduationAuthority] at named
    exact ⟨config, launch, met, named, notPaused, trading, UInt64.le_iff_toNat_le.mpr threshold,
      UInt64.le_iff_toNat_le.mpr fee⟩
  · rintro ⟨config, launch, ready⟩
    cases result : accounts.handler world with
    | ok world' => exact ⟨world', rfl⟩
    | error error =>
      have short := reachable.graduate_failsOnly ready error result
      rw [short] at result
      exact absurd result (reachable.graduate_covered accounts)

/-- A launch that has reached the threshold can be graduated exactly when the graduation fee is at
most its recorded SOL. -/
theorem graduation_available_iff {unixTimestamp : Int64} {funds : ℕ → ℕ} {actions : List Action}
    {accounts : Graduate} {config : Config} {launch : TokenLaunch}
    (met : accounts.Met ((genesis unixTimestamp funds).run actions) config launch)
    (named : accounts.graduationAuthorityTokenAccount =
      .associatedToken config.graduationAuthority accounts.mint)
    (notPaused : config.paused = false) (trading : launch.graduated = false)
    (threshold : config.graduationThresholdLamports ≤ launch.realSolReserves) :
    (∃ world', accounts.handler ((genesis unixTimestamp funds).run actions) = .ok world') ↔
      config.graduationFeeLamports ≤ launch.realSolReserves := by
  rw [((genesis_reachable unixTimestamp funds).run actions).graduate_accepted_iff]
  constructor
  · rintro ⟨config', launch', ready⟩
    obtain rfl := Option.some.inj (met.configPresent.symm.trans ready.met.configPresent)
    obtain rfl := Option.some.inj (met.launchPresent.symm.trans ready.met.launchPresent)
    exact ready.fee
  · intro fee
    exact ⟨config, launch, met, named, notPaused, trading, threshold, fee⟩

/-- The sample launch after one buy, with the accounts of its graduation. -/
theorem readyLaunch {params : InitializeConfigParams}
    (wallets : (params.graduationAuthority, params.dinoBuybackWallet, params.treasuryWallet) =
      (Sample.graduationAuthority, Sample.dinoBuybackWallet, Sample.treasuryWallet))
    (configured : (Sample.after params readyActions).config =
      some (params.toConfig Sample.admin 255))
    (minted : ((Sample.after params readyActions).mints Sample.mint).isSome)
    (found : ((Sample.after params readyActions).launches (.launch Sample.mint)).map
      (fun launch => (launch.mint, launch.graduated, launch.realSolReserves)) =
        some (Sample.mint, false, 2_640_000_001)) :
    ∃ launch, (Sample.graduation Sample.trader).Met (Sample.after params readyActions)
        (params.toConfig Sample.admin 255) launch ∧
      launch.graduated = false ∧ launch.realSolReserves = 2_640_000_001 := by
  obtain ⟨authority, rest⟩ := Prod.mk.inj wallets
  obtain ⟨dino, treasury⟩ := Prod.mk.inj rest
  obtain ⟨launch, present, fields⟩ := Option.map_eq_some_iff.mp found
  obtain ⟨hasOne, rest⟩ := Prod.mk.inj fields
  obtain ⟨trading, recorded⟩ := Prod.mk.inj rest
  exact ⟨launch, ⟨rfl, rfl, configured, rfl, present, hasOne, minted, rfl, rfl, authority.symm,
    dino.symm, treasury.symm⟩, trading, recorded⟩

/-- It can be graduated: it has recorded more than the fee of one SOL. -/
theorem graduation_available_sample :
    ∃ world', (Sample.graduation Sample.trader).handler (Sample.after lowThreshold readyActions) =
      .ok world' := by
  obtain ⟨launch, met, trading, recorded⟩ := @readyLaunch lowThreshold rfl
    (by decide +kernel) (by decide +kernel) (by decide +kernel)
  refine (graduation_available_iff met rfl rfl trading ?_).mpr ?_
  · rw [recorded]
    decide
  · rw [recorded]
    decide

/-- A threshold of one SOL with a graduation fee of six, more than a launch can ever record. -/
def largeFee : InitializeConfigParams :=
  { lowThreshold with graduationFeeLamports := 6_000_000_000 }

/-- With that configuration the launch has met the threshold and cannot be graduated. -/
theorem large_fee_blocks_graduation : ¬ ∀ world (accounts : Graduate) config launch,
    World.Reachable world → accounts.Met world config launch →
    accounts.graduationAuthorityTokenAccount =
      .associatedToken config.graduationAuthority accounts.mint →
    config.paused = false → launch.graduated = false →
    config.graduationThresholdLamports ≤ launch.realSolReserves →
    ∃ world', accounts.handler world = .ok world' := by
  intro available
  obtain ⟨launch, met, trading, recorded⟩ := @readyLaunch largeFee rfl
    (by decide +kernel) (by decide +kernel) (by decide +kernel)
  obtain ⟨world', accepted⟩ := available (Sample.after largeFee readyActions) _ _ launch
    (Sample.reachable_after _ _) met rfl rfl trading (by rw [recorded]; decide)
  have refused : errorOf ((Sample.graduation Sample.trader).handler
      (Sample.after largeFee readyActions)) = some (.memecoin .insufficientReserves) := by
    decide +kernel
  rw [accepted] at refused
  cases refused

/-- Under a fee beyond the cap on the recorded SOL, no launch at all can be graduated. -/
theorem Reachable.graduation_locked (reachable : world.Reachable) {config : Config}
    (configured : world.config = some config)
    (large : TokenLaunch.maxRealSolReserves < config.graduationFeeLamports)
    (accounts : Graduate) : ¬ ∃ world', accounts.handler world = .ok world' := by
  rw [reachable.graduate_accepted_iff]
  rintro ⟨config', launch, ready⟩
  obtain rfl := Option.some.inj (configured.symm.trans ready.met.configPresent)
  have capped := (reachable.trading ready.met.launchPresent ready.trading).capped
  have beyond := UInt64.lt_of_lt_of_le large ready.fee
  exact absurd (UInt64.lt_iff_toNat_lt.mp beyond) (Nat.not_lt_of_le capped)

end World

/-! ### Sequences of administrative instructions -/

/-- The instructions in question, signed with one key only. -/
def Action.signedBy (admin : Pubkey) : Action → Bool
  | .updateConfig accounts _ => accounts.admin = admin
  | .setPaused accounts _ => accounts.admin = admin
  | .graduate accounts => accounts.caller = admin
  | _ => false

theorem Market.Step.of_pass {fed : Prop} {market market' : Market}
    (step : Market.Step fed market .pass market') :
    market'.launch = market.launch ∧ market.vault ≤ market'.vault := by
  cases step with
  | pass wallets _ => exact ⟨rfl, Nat.le_add_right _ _⟩

namespace World

variable {world world' : World} {mint admin : Pubkey} {launch : TokenLaunch} {action : Action}

/-- The action is not a graduation of the launch that its guards let pass. -/
def Spares (mint : Pubkey) (world : World) (action : Action) : Prop :=
  ∀ accounts config launch, action = .graduate accounts → accounts.mint = mint →
    ¬ accounts.Ready world config launch

/-- An update that supplies a threshold supplies one above the given amount. -/
def ThresholdAbove (amount : UInt64) (_ : World) (action : Action) : Prop :=
  ∀ accounts params threshold, action = .updateConfig accounts params →
    params.graduationThresholdLamports = some threshold → amount < threshold

/-- An administrative instruction that spares the launch leaves it as it is. -/
theorem Reachable.spared_step (reachable : world.Reachable) (signed : action.signedBy admin)
    (spares : world.Spares mint action) (accepted : world.execute action = .ok world') :
    world'.launches (.launch mint) = world.launches (.launch mint) ∧
      world.lamports (.vault mint) ≤ world'.lamports (.vault mint) := by
  have step := reachable.wellFormed.refines accepted mint
  have pass : world.operation mint action = .pass := by
    cases action with
    | updateConfig | setPaused => rfl
    | graduate accounts =>
      refine if_neg fun same => ?_
      obtain ⟨config, launch, ready⟩ := reachable.graduate_accepted_iff.mp ⟨world', accepted⟩
      exact spares accounts config launch rfl same ready
    | _ => cases signed
  rw [pass] at step
  exact step.of_pass

/-- The threshold in force stays above the amount. -/
theorem threshold_step {amount : UInt64} (signed : action.signedBy admin)
    (above : world.ThresholdAbove amount action) (accepted : world.execute action = .ok world')
    (holds : ∃ config, world.config = some config ∧ amount < config.graduationThresholdLamports) :
    ∃ config, world'.config = some config ∧ amount < config.graduationThresholdLamports := by
  obtain ⟨config, configured, below⟩ := holds
  cases action with
  | updateConfig accounts params =>
    obtain ⟨config', present, _, _, _, _, frame⟩ := UpdateConfig.handler_ok accepted
    obtain rfl := Option.some.inj (configured.symm.trans present)
    refine ⟨config.update params, by rw [frame], ?_⟩
    cases supplied : params.graduationThresholdLamports with
    | none =>
      rw [Config.update, supplied]
      exact below
    | some threshold =>
      rw [Config.update, supplied]
      exact above accounts params threshold rfl supplied
  | setPaused accounts paused =>
    obtain ⟨config', present, _, frame⟩ := SetPaused.handler_ok accepted
    obtain rfl := Option.some.inj (configured.symm.trans present)
    exact ⟨{ config with paused }, by rw [frame], below⟩
  | graduate accounts =>
    obtain ⟨graduated⟩ := Graduate.execution accepted
    exact ⟨config, by rw [graduated.frame, configured], below⟩
  | _ => cases signed

/-- Where every instruction of a sequence spares the launch, its recorded SOL and its vault do not
decrease; the launch account does not change at all. -/
theorem Reachable.spared (reachable : world.Reachable) {later : List Action}
    (along : world.Along (fun state action => action.signedBy admin ∧ state.Spares mint action)
      later) :
    (world.run later).launches (.launch mint) = world.launches (.launch mint) ∧
      world.lamports (.vault mint) ≤ (world.run later).lamports (.vault mint) := by
  refine reachable.run_invariant _ (fun state =>
    state.launches (.launch mint) = world.launches (.launch mint) ∧
      world.lamports (.vault mint) ≤ state.lamports (.vault mint)) ?_ ⟨rfl, le_rfl⟩ later along
  rintro state action state' reached ⟨signed, spares⟩ ⟨same, bound⟩ accepted
  obtain ⟨kept, more⟩ := reached.spared_step signed spares accepted
  exact ⟨kept.trans same, bound.trans more⟩

/-- A threshold that stays above the recorded SOL spares the launch. -/
theorem Reachable.spared_of_threshold (reachable : world.Reachable)
    (present : world.launches (.launch mint) = some launch) {config : Config}
    (configured : world.config = some config)
    (below : launch.realSolReserves < config.graduationThresholdLamports) {later : List Action}
    (along : world.Along (fun state action => action.signedBy admin ∧
      state.ThresholdAbove launch.realSolReserves action) later) :
    (world.run later).launches (.launch mint) = some launch ∧
      world.lamports (.vault mint) ≤ (world.run later).lamports (.vault mint) := by
  refine (reachable.run_invariant _ (fun state =>
    (state.launches (.launch mint) = some launch ∧
      world.lamports (.vault mint) ≤ state.lamports (.vault mint)) ∧
    ∃ config, state.config = some config ∧
      launch.realSolReserves < config.graduationThresholdLamports) ?_
    ⟨⟨present, le_rfl⟩, config, configured, below⟩ later along).1
  rintro state action state' reached ⟨signed, above⟩ ⟨⟨found, bound⟩, holds⟩ accepted
  have spares : state.Spares mint action := by
    rintro accounts config' launch' rfl rfl ready
    obtain ⟨config, configured, below⟩ := holds
    obtain rfl := Option.some.inj (found.symm.trans ready.met.launchPresent)
    obtain rfl := Option.some.inj (configured.symm.trans ready.met.configPresent)
    exact absurd ready.threshold (UInt64.not_le.mpr below)
  obtain ⟨kept, more⟩ := reached.spared_step signed spares accepted
  exact ⟨⟨kept.trans found, bound.trans more⟩, threshold_step signed above accepted holds⟩

/-- An accepted graduation empties the launch account for good. -/
theorem Reachable.graduate_empties (reachable : world.Reachable) {accounts : Graduate}
    (accepted : accounts.handler world = .ok world') (later : List Action) :
    ∃ launch', (world'.run later).launches (.launch accounts.mint) = some launch' ∧
      launch'.realSolReserves.toNat = 0 := by
  have executed : world.execute (.graduate accounts) = .ok world' := accepted
  have reached := reachable.step executed
  obtain ⟨graduated⟩ := Graduate.execution accepted
  have after : world'.launches (.launch accounts.mint) =
      some (graduated.launch.graduate graduated.remaining) := by
    exact graduated.launch_after
  obtain ⟨launch', final, becomes⟩ := reached.becomes after later
  exact ⟨launch', final, (((reached.run later).live final).closed (becomes.graduated rfl)).emptied⟩

/-- Conversely, where the recorded SOL has not decreased, every instruction spared the launch: a
graduation that is let through empties it, and a threshold is never zero. -/
theorem Reachable.spares (reachable : world.Reachable)
    (present : world.launches (.launch mint) = some launch) {later : List Action}
    (signed : ∀ action ∈ later, action.signedBy admin)
    (kept : ∃ launch', (world.run later).launches (.launch mint) = some launch' ∧
      launch.realSolReserves ≤ launch'.realSolReserves) :
    world.Along (Spares mint) later := by
  induction later generalizing world with
  | nil => trivial
  | cons action later inductionHypothesis =>
    have spares : world.Spares mint action := by
      rintro accounts config launch₁ rfl rfl ready
      obtain rfl := Option.some.inj (present.symm.trans ready.met.launchPresent)
      obtain ⟨world', accepted⟩ := reachable.graduate_accepted_iff.mpr ⟨config, launch, ready⟩
      have executed : world.execute (.graduate accounts) = .ok world' := accepted
      obtain ⟨launch₂, final, emptied⟩ := reachable.graduate_empties accepted later
      obtain ⟨launch', last, kept⟩ := kept
      rw [run_ok executed] at last
      obtain rfl := Option.some.inj (final.symm.trans last)
      have positive := (reachable.wellFormed.config config ready.met.configPresent).thresholdPositive
      have reaches := UInt64.le_iff_toNat_le.mp (UInt64.le_trans ready.threshold kept)
      rw [emptied] at reaches
      exact absurd positive (Nat.not_lt_of_le reaches)
    refine ⟨spares, ?_⟩
    have rest : ∀ other ∈ later, other.signedBy admin :=
      fun other member => signed other (List.mem_cons_of_mem _ member)
    cases result : world.execute action with
    | ok world' =>
      rw [run_ok result] at kept
      rw [Machine.step_of_ok execute result]
      have same := (reachable.spared_step (signed action List.mem_cons_self) spares result).1
      exact inductionHypothesis (reachable.step result) (same.trans present) rest kept
    | error error =>
      rw [run_error result] at kept
      rw [Machine.step_of_error execute result]
      exact inductionHypothesis reachable present rest kept

/-- Over every sequence of administrative instructions signed with the admin key, a launch below
the threshold keeps its recorded SOL and its vault exactly when each graduation of it in the
sequence is refused by its guards, so whenever no update supplies a threshold that the launch has
already reached. -/
theorem admin_keeps_funds_iff {unixTimestamp : Int64} {funds : ℕ → ℕ} {actions later : List Action}
    {mint : Pubkey} {launch : TokenLaunch} {config : Config}
    (present : ((genesis unixTimestamp funds).run actions).launches (.launch mint) = some launch)
    (configured : ((genesis unixTimestamp funds).run actions).config = some config)
    (below : launch.realSolReserves < config.graduationThresholdLamports)
    (signed : ∀ action ∈ later, action.signedBy config.admin) :
    ((∃ launch', (((genesis unixTimestamp funds).run actions).run later).launches
          (.launch mint) = some launch' ∧ launch.realSolReserves ≤ launch'.realSolReserves ∧
        ((genesis unixTimestamp funds).run actions).lamports (.vault mint) ≤
          (((genesis unixTimestamp funds).run actions).run later).lamports (.vault mint)) ↔
      ((genesis unixTimestamp funds).run actions).Along (Spares mint) later) ∧
    ((∀ accounts params threshold, .updateConfig accounts params ∈ later →
        params.graduationThresholdLamports = some threshold →
        launch.realSolReserves < threshold) →
      ((genesis unixTimestamp funds).run actions).Along (Spares mint) later) := by
  have reachable := (genesis_reachable unixTimestamp funds).run actions
  have signatures := along_of_mem ((genesis unixTimestamp funds).run actions)
    fun action member _ => signed action member
  refine ⟨⟨?_, fun spares => ?_⟩, fun supplied => ?_⟩
  · rintro ⟨launch', final, kept, _⟩
    exact reachable.spares present signed ⟨launch', final, kept⟩
  · obtain ⟨same, bound⟩ := reachable.spared (along_and signatures spares)
    exact ⟨launch, same.trans present, UInt64.le_refl _, bound⟩
  · have above : ((genesis unixTimestamp funds).run actions).Along
        (ThresholdAbove launch.realSolReserves) later :=
      along_of_mem _ fun _ member _ accounts params threshold equal =>
        supplied accounts params threshold (equal ▸ member)
    obtain ⟨same, _⟩ := reachable.spared_of_threshold present configured below
      (along_and signatures above)
    exact reachable.spares present signed ⟨launch, same, UInt64.le_refl _⟩

/-- The admin pauses, resumes, lowers the threshold to four SOL and tries to graduate a launch that
has recorded less; nothing is lost. -/
theorem admin_keeps_funds_sample :
    let world := Sample.after Sample.params readyActions
    let later := [.setPaused ⟨Sample.admin, .config⟩ true, .setPaused ⟨Sample.admin, .config⟩ false,
      .updateConfig ⟨Sample.admin, .config⟩
        { UpdateConfigParams.default with graduationThresholdLamports := some 4_000_000_000 },
      .graduate (Sample.graduation Sample.admin)]
    ∃ launch launch', world.launches (.launch Sample.mint) = some launch ∧
      (world.run later).launches (.launch Sample.mint) = some launch' ∧
      launch.realSolReserves ≤ launch'.realSolReserves ∧
      world.lamports (.vault Sample.mint) ≤ (world.run later).lamports (.vault Sample.mint) := by
  intro world later
  have configured : world.config = some (Sample.params.toConfig Sample.admin 255) := by
    decide +kernel
  have found : (world.launches (.launch Sample.mint)).map TokenLaunch.realSolReserves =
      some 2_640_000_001 := by decide +kernel
  obtain ⟨launch, present, recorded⟩ := Option.map_eq_some_iff.mp found
  have kept := @admin_keeps_funds_iff _ _ _ later _ _ _ present configured
    (by rw [recorded]; decide) (by decide)
  refine ⟨launch, (kept.1.mpr (kept.2 ?_)).imp fun launch' after => ⟨present, after⟩⟩
  intro accounts params threshold member supplied
  simp only [later, List.mem_cons, reduceCtorEq, Action.updateConfig.injEq, List.not_mem_nil,
    or_false, false_or] at member
  rw [member.2] at supplied
  obtain rfl := Option.some.inj supplied
  rw [recorded]
  decide

/-- The admin names itself as graduation authority, lowers the threshold to one SOL, and graduates
a launch that was below the threshold of five: all it had recorded is gone. -/
theorem admin_takes_funds : ¬ ∀ world mint launch config later, World.Reachable world →
    world.launches (.launch mint) = some launch → launch.graduated = false →
    world.config = some config → launch.realSolReserves < config.graduationThresholdLamports →
    (∀ action ∈ later, Action.signedBy config.admin action) →
    ∃ launch', (world.run later).launches (.launch mint) = some launch' ∧
      launch.realSolReserves ≤ launch'.realSolReserves ∧
      world.lamports (.vault mint) ≤ (world.run later).lamports (.vault mint) := by
  intro keeps
  let world := Sample.after Sample.params readyActions
  let later : List Action := [.updateConfig ⟨Sample.admin, .config⟩ { UpdateConfigParams.default with
      graduationAuthority := some Sample.admin
      graduationThresholdLamports := some 1_000_000_000 },
    .graduate { Sample.graduation Sample.admin with
      graduationAuthority := Sample.admin
      graduationAuthorityTokenAccount := .associatedToken Sample.admin Sample.mint }]
  have configured : world.config = some (Sample.params.toConfig Sample.admin 255) := by
    decide +kernel
  have found : (world.launches (.launch Sample.mint)).map
      (fun launch => (launch.graduated, launch.realSolReserves)) = some (false, 2_640_000_001) := by
    decide +kernel
  obtain ⟨launch, present, fields⟩ := Option.map_eq_some_iff.mp found
  obtain ⟨trades, recorded⟩ := Prod.mk.inj fields
  obtain ⟨launch', after, kept, _⟩ := keeps world Sample.mint launch _ later
    (Sample.reachable_after _ _) present trades configured (by rw [recorded]; decide) (by decide)
  have emptied : ((world.run later).launches (.launch Sample.mint)).map
      TokenLaunch.realSolReserves = some 0 := by decide +kernel
  rw [after, Option.map_some, Option.some.injEq] at emptied
  rw [emptied, recorded] at kept
  exact absurd kept (by decide)

end World

end Memecoin
