/-
This file runs the scripts of the test driver one after the other: the
configuration, a token, the buys, the graduation and the seal. The scripts that
buy and graduate have the addresses of four wallets written into them, while the
others read the key files. Started where there is no configuration yet, with
key pairs that can pay, the five scripts complete the life of a launch exactly
when the key files are those of the written addresses; with freshly generated
keys a script fails.
-/

import Memecoin.Admission
import Memecoin.Driver
import Memecoin.Progress

namespace Memecoin.Driver

open Checked
open Wire (CurveState)

/-! ### The scripts -/

/-- The key files, and the two keys that scripts generate: the mint, and one in place of the
pool. -/
structure Keys where
  deployer : Pubkey
  dinoBuyback : Pubkey
  treasury : Pubkey
  graduationAuthority : Pubkey
  creator : Pubkey
  buyers : Fin 5 → Pubkey
  mint : Pubkey
  mockLbPair : Pubkey

/-- The addresses in the text of the scripts: of the creator in the third, the others in the
fourth. -/
structure Written where
  creator : Pubkey
  gradAuth : Pubkey
  dinoBuyback : Pubkey
  treasury : Pubkey

namespace Keys

/-- What the scripts would have to say for these keys. -/
def written (keys : Keys) : Written where
  creator := keys.creator
  gradAuth := keys.graduationAuthority
  dinoBuyback := keys.dinoBuyback
  treasury := keys.treasury

/-- The parameters that `01-init-config.mjs` sends. -/
def params (keys : Keys) : InitializeConfigParams where
  dinoBuybackWallet := keys.dinoBuyback
  treasuryWallet := keys.treasury
  graduationAuthority := keys.graduationAuthority
  tradeFeeBps := 100
  tradeSplitCreatorBps := 3333
  tradeSplitDinoBps := 3333
  tradeSplitTreasuryBps := 3334
  creationFeeLamports := 20_000_000
  creationSplitDinoBps := 5000
  graduationFeeLamports := 1_000_000_000
  graduationSplitDinoBps := 5000
  graduationThresholdLamports := 5 * 1_000_000_000

/-- `01-init-config.mjs`. -/
def initConfig (keys : Keys) (bump : UInt8) (world : World) : Except DriverError World :=
  (world.execute (.initializeConfig { admin := keys.deployer, config := .config } keys.params
    bump)).mapError .rejected

/-- The accounts that `02-create-token.mjs` names. -/
def creation (keys : Keys) : CreateToken where
  creator := keys.creator
  config := .config
  dinoBuybackWallet := keys.dinoBuyback
  treasuryWallet := keys.treasury
  mint := keys.mint
  mintAuthority := .mintAuthority keys.mint
  launch := .launch keys.mint
  curveVault := .vault keys.mint
  curveTokenAccount := .curveAccount keys.mint

/-- The texts that `02-create-token.mjs` sends. -/
def texts : CreateTokenParams where
  name := "Devnet Deni"
  symbol := "DDENI"
  uri := "https://example.com/ddeni.json"

/-- `02-create-token.mjs`; the two wallets are those of `state.params`. -/
def createToken (keys : Keys) (bumps : CreateTokenBumps) (world : World) :
    Except DriverError World :=
  (world.execute (.createToken keys.creation texts bumps)).mapError .rejected

/-- The session of the third script for a creator. -/
def session (keys : Keys) (creator : Pubkey) : Session where
  mint := keys.mint
  creator := creator
  dinoBuyback := keys.dinoBuyback
  treasury := keys.treasury
  buyers := keys.buyers

/-- `03-buy.mjs`: only an exception stops it. -/
def buy (keys : Keys) (written : Written) (world : World) : Except DriverError World :=
  match (keys.session written.creator).drive world with
  | (.failed error, _) => .error error
  | (_, world) => .ok world

/-- The accounts that `04-graduate.mjs` names: the first buyer calls. -/
def graduation (keys : Keys) (written : Written) : Graduate where
  caller := keys.buyers ⟨0, Nat.zero_lt_succ 4⟩
  config := .config
  launch := .launch keys.mint
  mint := keys.mint
  curveVault := .vault keys.mint
  mintAuthority := .mintAuthority keys.mint
  graduationAuthority := written.gradAuth
  graduationAuthorityTokenAccount := .associatedToken written.gradAuth keys.mint
  dinoBuybackWallet := written.dinoBuyback
  treasuryWallet := written.treasury

/-- `04-graduate.mjs`. -/
def graduate (keys : Keys) (written : Written) (world : World) : Except DriverError World :=
  (world.execute (.graduate (keys.graduation written))).mapError .rejected

/-- The accounts that `05-seal-graduation.mjs` names. -/
def sealing (keys : Keys) : SealGraduation where
  graduationAuthority := keys.graduationAuthority
  config := .config
  launch := .launch keys.mint

/-- `05-seal-graduation.mjs`. -/
def sealGraduation (keys : Keys) (world : World) : Except DriverError World :=
  (world.execute (.sealGraduation keys.sealing keys.mockLbPair)).mapError .rejected

/-- The lifecycle of the README: the five scripts in order. -/
def lifecycle (keys : Keys) (written : Written) (bump : UInt8) (bumps : CreateTokenBumps)
    (world : World) : Except DriverError World := do
  let world ← keys.initConfig bump world
  let world ← keys.createToken bumps world
  let world ← keys.buy written world
  let world ← keys.graduate written world
  keys.sealGraduation world

/-! ### The first two scripts -/

/-- Where the lifecycle starts: there is no configuration, the keys are key pairs and the mint is
new, and the creator and the buyers have the SOL of the fee and of the buys. -/
structure Start (keys : Keys) (world : World) : Prop where
  reachable : world.Reachable
  absent : world.config = none
  deployer : keys.deployer.canSign
  dinoBuyback : keys.dinoBuyback.canSign
  treasury : keys.treasury.canSign
  graduationAuthority : keys.graduationAuthority.canSign
  creator : keys.creator.canSign
  buyers : ∀ turn, (keys.buyers turn).canSign
  mint : keys.mint.canSign
  mockLbPair : keys.mockLbPair.canSign
  mintFree : ¬ world.inUse keys.mint
  fee : 20_000_000 ≤ world.lamports keys.creator
  funded : ∀ turn, 10_020_000_200 ≤ world.lamports (keys.buyers turn)

variable {keys : Keys} {written : Written} {world : World}

theorem requireWallet_eq_ok {wallet : Pubkey} (signs : wallet.canSign) :
    requireWallet wallet = .ok () :=
  require_eq_ok.mpr ⟨Pubkey.ne_of_canSign signs rfl, Pubkey.ne_of_canSign signs rfl⟩

theorem Start.initConfig_eq (start : keys.Start world) (bump : UInt8) :
    ∃ world', keys.initConfig bump world = .ok world' ∧ world'.Reachable ∧
      world'.config = some (keys.params.toConfig keys.deployer bump) ∧
      ¬ world'.inUse keys.mint ∧ world'.lamports = world.lamports := by
  have valid : (keys.params.toConfig keys.deployer bump).Valid := {
    tradeFee := (by decide : (100 : UInt16).toNat ≤ 1000)
    tradeSplit := rfl
    creationSplit := (by decide : (5000 : UInt16).toNat ≤ 10_000)
    graduationSplit := (by decide : (5000 : UInt16).toNat ≤ 10_000)
    thresholdPositive := (by decide : 0 < (5 * 1_000_000_000 : UInt64).toNat)
    thresholdCapped := le_rfl
    graduationAuthority := Pubkey.ne_of_canSign start.graduationAuthority rfl }
  have accepted : world.execute (.initializeConfig { admin := keys.deployer, config := .config }
      keys.params bump) = .ok _ :=
    bind_eq_ok.mpr ⟨(), require_eq_ok.mpr start.deployer, bind_eq_ok.mpr ⟨(),
      require_eq_ok.mpr rfl, bind_eq_ok.mpr ⟨(),
      require_eq_ok.mpr (start.reachable.config_free start.absent), bind_eq_ok.mpr ⟨(),
      requireWallet_eq_ok start.dinoBuyback, bind_eq_ok.mpr ⟨(),
      requireWallet_eq_ok start.treasury, bind_eq_ok.mpr ⟨(),
      requireWallet_eq_ok start.graduationAuthority, bind_eq_ok.mpr ⟨(),
      mapError_eq_ok.mpr (Config.validate_eq_ok.mpr valid), pure_eq_ok.mpr rfl⟩⟩⟩⟩⟩⟩⟩
  refine ⟨_, mapError_eq_ok.mpr accepted, start.reachable.step accepted, rfl, ?_, rfl⟩
  obtain ⟨mints, accounts, launches, _⟩ := World.not_inUse.mp start.mintFree
  exact World.not_inUse.mpr ⟨mints, accounts, launches, fun equal =>
    absurd equal (Pubkey.ne_of_canSign start.mint rfl)⟩

/-- The first two scripts succeed, and leave a session of the right creator ready. -/
theorem Start.created (start : keys.Start world) (bump : UInt8) (bumps : CreateTokenBumps) :
    ∃ between world' launch, keys.initConfig bump world = .ok between ∧
      keys.createToken bumps between = .ok world' ∧ launch.Created ∧
      (keys.session keys.creator).Ready world' (keys.params.toConfig keys.deployer bump)
        launch := by
  obtain ⟨between, first, reachable, configured, mintFree, lamports⟩ := start.initConfig_eq bump
  have fee := start.fee
  rw [← lamports] at fee
  have ready : keys.creation.Ready between (keys.params.toConfig keys.deployer bump) texts := {
    met := ⟨start.creator, rfl, configured, rfl, rfl, start.mint, mintFree, rfl, rfl, rfl, rfl⟩
    notPaused := rfl
    name := by decide
    symbol := by decide
    uri := by decide
    firstShare := (by decide :
      (20_000_000 : UInt64).toNat * (5000 : UInt16).toNat / 10_000 ≤ 20_000_000).trans fee
    bothShares := Nat.le_add_right_of_le fee }
  obtain ⟨world', accepted⟩ := reachable.create_accepted ready bumps
  have second : between.execute (.createToken keys.creation texts bumps) = .ok world' := accepted
  obtain ⟨created⟩ := CreateToken.execution accepted
  have sameConfig := Option.some.inj (created.configPresent.symm.trans configured)
  have total := created.sharesTotal
  rw [sameConfig] at total
  have launchPresent : world'.launches (.launch keys.mint) = some created.launch' := by
    rw [created.launches]
    exact Function.update_self _ _ _
  have new := created.created
  refine ⟨between, world', created.launch', first, mapError_eq_ok.mpr second, ⟨_, _, _, new⟩, {
    reachable := reachable.step second
    configPresent := by rw [created.frame]; exact configured
    launchPresent
    notPaused := rfl
    tradeFee := (by decide : (100 : UInt16).toNat ≤ 100)
    trading := by rw [new]; rfl
    creator := by rw [new]; rfl
    dinoBuyback := rfl
    treasury := rfl
    signs := start.buyers
    funded := fun turn => ?_
    backed := ?_ }⟩
  · have owed : World.owed (keys.creation.feePayments created.shares) = 20_000_000 := total
    have booked := created.lamports (keys.buyers turn)
    have funds := start.funded turn
    rw [owed, lamports] at booked
    have bound : 2 * (threshold - created.launch'.realSolReserves.toNat) + 200 ≤
        10_000_000_200 :=
      Nat.add_le_add_right (Nat.mul_le_mul_left 2 (Nat.sub_le threshold _)) 200
    refine bound.trans (show 10_000_000_200 ≤ world'.lamports (keys.buyers turn) from ?_)
    split_ifs at booked <;> omega
  · have amount : world'.tokenAccounts.amountAt (.curveAccount keys.mint) =
        between.tokenAccounts.amountAt (.curveAccount keys.mint) +
          TokenLaunch.curveAllocationUnits.toNat :=
      (created.amountAt _).trans (congrArg (_ + ·) (if_pos rfl))
    rw [new]
    exact (Nat.le_add_left _ _).trans amount.ge

/-! ### The last three scripts -/

/-- A buy that goes through names the creator of the launch. -/
theorem doBuy_creator {session : Session} {idx chunk : ℕ} {world' : World}
    (bought : session.doBuy idx chunk world = .ok world') :
    ∃ launch, world.launches (.launch session.mint) = some launch ∧
      session.creator = launch.creator := by
  obtain ⟨_, _, bought⟩ := bind_eq_ok.mp bought
  obtain ⟨_, _, bought⟩ := bind_eq_ok.mp bought
  obtain ⟨opened, opening, bought⟩ := bind_eq_ok.mp bought
  obtain ⟨_, _, bought⟩ := bind_eq_ok.mp bought
  obtain ⟨_, _, bought⟩ := bind_eq_ok.mp bought
  obtain ⟨execution⟩ := Buy.execution (mapError_eq_ok.mp bought)
  have launches : opened.launches = world.launches := by
    unfold Session.ensureBuyerAta at opening
    split at opening
    · rw [← pure_eq_ok.mp opening]
    · rw [(World.openTokenAccount_ok (mapError_eq_ok.mp opening)).2.2.2]
      rfl
  exact ⟨execution.launch, launches ▸ execution.met.launchPresent, execution.met.creatorWallet⟩

/-- A first buy that is refused ends the loop. -/
theorem drive_of_refused {session : Session} {curve : CurveState} {chunk : ℕ} {error : DriverError}
    (read : session.getCurveState world = .ok curve) (below : curve.realSol < threshold)
    (remaining : 1_000_000_000 < curve.realTok) (chosen : chooseChunk curve = .ok chunk)
    (large : 500_000 ≤ chunk) (refused : session.doBuy 0 chunk world = .error error) :
    session.drive world = (.failed error, world) := by
  unfold Session.drive loop
  simp only [read, if_neg (Nat.not_le_of_lt below), if_neg (Nat.not_le_of_lt remaining), chosen,
    if_neg (Nat.not_lt_of_le large), refused]

section Launched

variable {config : Config} {launch : TokenLaunch}
  (ready : (keys.session keys.creator).Ready world config launch) (created : launch.Created)

include ready created

theorem buy_creator {world' : World} (accepted : keys.buy written world = .ok world') :
    written.creator = keys.creator := by
  have read : (keys.session written.creator).getCurveState world = .ok fresh := by
    obtain ⟨accounts, bumps, createdAt, rfl⟩ := created
    exact ready.getCurveState_eq
  cases bought : (keys.session written.creator).doBuy 0 fullChunk world with
  | ok next =>
    obtain ⟨launch', present, named⟩ := doBuy_creator bought
    obtain rfl := Option.some.inj (ready.launchPresent.symm.trans present)
    exact named.trans ready.creator.symm
  | error error =>
    have stopped := drive_of_refused read (by decide) (by decide) (by decide +kernel) (by decide)
      bought
    unfold buy at accepted
    rw [stopped] at accepted
    cases accepted

theorem buy_eq (written : Written) (named : written.creator = keys.creator) :
    ∃ world' launch', keys.buy written world = .ok world' ∧
      (keys.session keys.creator).Ready world' config launch' ∧
      launch'.realSolReserves.toNat = 5_000_000_000 := by
  obtain ⟨launch', after, ends⟩ := ready.drive_spec
  have outcome := ready.drive_created created
  rw [outcome] at ends
  refine ⟨_, launch', ?_, after, ?_⟩
  · unfold buy
    rw [named]
    split
    · next stopped =>
      rw [stopped] at outcome
      cases outcome
    · next ended => rw [ended]
  · cases ends with
    | thresholdReached reached => exact reached

end Launched

/-! ### Main result -/

/-- What the last script leaves. -/
def Completed (keys : Keys) (world : World) : Prop :=
  ∃ launch, world.launches (.launch keys.mint) = some launch ∧ launch.graduated = true ∧
    launch.poolSeeded = true ∧ launch.meteoraLbPair = keys.mockLbPair ∧
    launch.graduationSolLamports.toNat = 4_000_000_000 ∧
    launch.graduationTokenAmount = TokenLaunch.graduationReserveUnits

/-- The last two scripts, of the written addresses that are right. -/
theorem Start.completes (start : keys.Start world) {between : World} {bump : UInt8}
    {launch : TokenLaunch} (ready : (keys.session keys.creator).Ready between
      (keys.params.toConfig keys.deployer bump) launch)
    (reached : launch.realSolReserves.toNat = 5_000_000_000) :
    ∃ graduated final, keys.graduate keys.written between = .ok graduated ∧
      keys.sealGraduation graduated = .ok final ∧ keys.Completed final := by
  have fee : (keys.params.toConfig keys.deployer bump).graduationFeeLamports.toNat =
      1_000_000_000 := rfl
  obtain ⟨accepts, launch', present, graduated, seeded, pool, lamports, tokens⟩ :=
    ready.reachable.graduates_and_seals ready.configPresent rfl ready.launchPresent ready.trading
      (UInt64.le_iff_toNat_le.mpr reached.ge)
      (UInt64.le_iff_toNat_le.mpr (by rw [reached, fee]; decide)) (start.buyers _)
      start.graduationAuthority (Pubkey.ne_of_canSign start.mockLbPair rfl)
  obtain ⟨next, first, later⟩ := accepts.cons_inv
  obtain ⟨final, second, _⟩ := later.cons_inv
  rw [World.run_ok first, World.run_ok second] at present
  rw [reached, fee] at lamports
  exact ⟨next, final, mapError_eq_ok.mpr first, mapError_eq_ok.mpr second, launch', present,
    graduated, seeded, pool, by omega, tokens⟩

/-- Rent aside, the five scripts run through exactly when the addresses written into them are those
of the key files, and then they complete the launch. -/
theorem lifecycle_completes_iff (start : keys.Start world) (written : Written) (bump : UInt8)
    (bumps : CreateTokenBumps) :
    ((∃ final, keys.lifecycle written bump bumps world = .ok final) ↔ written = keys.written) ∧
      ∀ final, keys.lifecycle written bump bumps world = .ok final → keys.Completed final := by
  obtain ⟨configured, launched, launch, first, second, created, ready⟩ := start.created bump bumps
  have course {final : World} : keys.lifecycle written bump bumps world = .ok final ↔
      ∃ traded, keys.buy written launched = .ok traded ∧
        ∃ graduated, keys.graduate written traded = .ok graduated ∧
          keys.sealGraduation graduated = .ok final := by
    simp only [lifecycle, first, second, bind_eq_ok, Except.ok.injEq, exists_eq_left']
  have right (final : World) (completed : keys.lifecycle written bump bumps world = .ok final) :
      written = keys.written := by
    obtain ⟨traded, bought, graduated, graduation, _⟩ := course.mp completed
    have creator := buy_creator ready created bought
    obtain ⟨traded', _, bought', after, _⟩ := buy_eq ready created written creator
    obtain rfl := Except.ok.inj (bought.symm.trans bought')
    obtain ⟨execution⟩ := Graduate.execution (mapError_eq_ok.mp graduation)
    have met := execution.met
    rw [Option.some.inj (met.configPresent.symm.trans after.configPresent)] at met
    obtain ⟨_, _, _, _⟩ := written
    obtain rfl := creator
    obtain rfl := met.graduationAuthority
    obtain rfl := met.dinoBuybackWallet
    obtain rfl := met.treasuryWallet
    rfl
  have complete : ∃ final, keys.lifecycle keys.written bump bumps world = .ok final ∧
      keys.Completed final := by
    obtain ⟨traded, _, bought, after, reached⟩ := buy_eq ready created keys.written rfl
    obtain ⟨graduated, final, graduation, sealed, completed⟩ := start.completes after reached
    refine ⟨final, ?_, completed⟩
    simp only [lifecycle, first, second, bind_eq_ok, Except.ok.injEq, exists_eq_left']
    exact ⟨traded, bought, graduated, graduation, sealed⟩
  obtain ⟨final, completes, completed⟩ := complete
  refine ⟨⟨fun ⟨final, completed⟩ => right final completed, ?_⟩, fun final' completes' => ?_⟩
  · rintro rfl
    exact ⟨final, completes⟩
  · rw [right final' completes', completes] at completes'
    exact Except.ok.inj completes' ▸ completed

/-- Ten key files and two generated keys. -/
def sample : Keys where
  deployer := Sample.admin
  dinoBuyback := Sample.dinoBuybackWallet
  treasury := Sample.treasuryWallet
  graduationAuthority := Sample.graduationAuthority
  creator := Sample.creator
  buyers := fun turn => .external (10 + turn)
  mint := Sample.mint
  mockLbPair := .external 9

/-- With a new key of the creator the scripts no longer run through. -/
theorem lifecycle_completes_iff_sample :
    (∃ final, sample.lifecycle sample.written 255 ⟨255, 254, 253⟩ Sample.start = .ok final) ∧
      ¬ ∃ final, sample.lifecycle { sample.written with creator := .external 8 } 255
        ⟨255, 254, 253⟩ Sample.start = .ok final := by
  have start : sample.Start Sample.start := {
    reachable := World.genesis_reachable _ _
    absent := rfl
    deployer := rfl
    dinoBuyback := rfl
    treasury := rfl
    graduationAuthority := rfl
    creator := rfl
    buyers := fun _ => rfl
    mint := rfl
    mockLbPair := rfl
    mintFree := by decide
    fee := by decide
    funded := by decide }
  refine ⟨(lifecycle_completes_iff start _ _ _).1.mpr rfl, fun completed => ?_⟩
  have creator := congrArg Written.creator ((lifecycle_completes_iff start _ _ _).1.mp completed)
  cases creator

end Keys

end Memecoin.Driver
