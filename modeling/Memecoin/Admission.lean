/-
This file says exactly when a launch can be created. In every reachable state the
accounts of a new launch are free as soon as its mint address is: token accounts
live only at addresses with a key or at associated addresses, and nothing of a
mint exists before its launch. So nobody can block a creation by taking one of
the addresses derived from its mint, and a creation is refused only for what its
caller supplies, for the pause, or for a creator who cannot pay.
-/

import Memecoin.Entries
import Memecoin.Lifecycle

namespace Memecoin

open Checked

namespace World

/-! ### Payments -/

theorem payShare_accepted_iff {world : World} {source destination : Pubkey} {share : UInt64} :
    (∃ world', world.payShare source destination share = .ok world') ↔
      share.toNat ≤ world.lamports source := by
  constructor
  · rintro ⟨world', accepted⟩
    exact (payShare_ok accepted).covered
  · intro covered
    cases result : world.payShare source destination share with
    | ok world' => exact ⟨world', rfl⟩
    | error error => exact absurd covered (Nat.not_le_of_lt (payShare_error result).1)

/-- Two shares are paid one after the other; a payer who receives the first has it back for the
second. -/
theorem payShares_accepted_iff {world : World} {payer first second : Pubkey}
    {share share' : UInt64} :
    (∃ world', world.payShares payer [(first, share), (second, share')] = .ok world') ↔
      share.toNat ≤ world.lamports payer ∧
        share'.toNat + (if payer = first then 0 else share.toNat) ≤ world.lamports payer := by
  constructor
  · rintro ⟨world', accepted⟩
    obtain ⟨paid, head, later⟩ := bind_eq_ok.mp accepted
    obtain ⟨_, tail, _⟩ := bind_eq_ok.mp later
    have balance := (payShare_ok head).lamports payer
    have covered := (payShare_ok tail).covered
    refine ⟨(payShare_ok head).covered, ?_⟩
    rw [if_pos rfl] at balance
    split_ifs at balance ⊢ <;> omega
  · rintro ⟨covered, rest⟩
    obtain ⟨paid, head⟩ : ∃ paid, world.payShare payer first share = .ok paid :=
      payShare_accepted_iff.mpr covered
    have balance := (payShare_ok head).lamports payer
    rw [if_pos rfl] at balance
    have covered' : share'.toNat ≤ paid.lamports payer := by
      split_ifs at balance rest <;> omega
    obtain ⟨world', tail⟩ := payShare_accepted_iff.mpr covered'
    exact ⟨world', bind_eq_ok.mpr ⟨paid, head, bind_eq_ok.mpr ⟨world', tail, rfl⟩⟩⟩

/-! ### Free addresses -/

variable {world : World}

theorem absent_of_shape {address : Pubkey}
    (shapeless : ∀ shape, world.tokenAccounts.shape address ≠ some shape) :
    world.tokenAccounts.get? address = none :=
  Option.map_eq_none_iff.mp (Option.eq_none_iff_forall_ne_some.mpr shapeless)

/-- Where token accounts live. -/
theorem Reachable.tokenAccount_address (reachable : world.Reachable) {address : Pubkey}
    {shape : Pubkey × Pubkey} (present : world.tokenAccounts.shape address = some shape) :
    address.canSign ∨ ∃ owner mint, address = .associatedToken owner mint := by
  refine reachable.invariant (fun world => ∀ address shape,
    world.tokenAccounts.shape address = some shape →
      address.canSign ∨ ∃ owner mint, address = .associatedToken owner mint)
    (fun _ _ _ _ absent => nomatch absent) ?_ address shape present
  intro world action world' placed accepted address shape present
  rw [execute_shape accepted] at present
  cases opening : action.opened address with
  | none =>
    rw [opening, Option.none_or] at present
    exact placed address shape present
  | some opened =>
    have named {other : Pubkey} {found : Pubkey × Pubkey}
        (hit : (if address = other then some found else none) = some opened) : address = other := by
      by_contra different
      rw [if_neg different] at hit
      cases hit
    cases action with
    | createToken => exact .inr ⟨_, _, named opening⟩
    | graduate => exact .inr ⟨_, _, named opening⟩
    | openTokenAccount other mint owner =>
      rw [named opening]
      exact (openTokenAccount_ok accepted).2.1.imp_right fun associated => ⟨_, _, associated⟩
    | _ => cases opening

theorem Reachable.mints_keyless (reachable : world.Reachable) {address : Pubkey}
    (keyless : address.canSign = false) : world.mints address = none := by
  by_contra present
  have launched :=
    (reachable.wellFormed.mintLaunched address).mp (Option.isSome_iff_ne_none.mpr present)
  rw [reachable.mint_signs launched] at keyless
  cases keyless

theorem Reachable.tokenAccounts_keyless (reachable : world.Reachable) {address : Pubkey}
    (keyless : address.canSign = false)
    (other : ∀ owner mint, address ≠ .associatedToken owner mint) :
    world.tokenAccounts.get? address = none := by
  refine absent_of_shape fun shape present => ?_
  rcases reachable.tokenAccount_address present with signs | ⟨owner, mint, associated⟩
  · rw [keyless] at signs
    cases signs
  · exact other owner mint associated

/-- The address of the configuration is free until there is one. -/
theorem Reachable.config_free (reachable : world.Reachable) (absent : world.config = none) :
    ¬ world.inUse .config := by
  refine not_inUse.mpr ⟨reachable.mints_keyless rfl,
    reachable.tokenAccounts_keyless rfl fun _ _ equal => (nomatch equal), ?_, fun _ => absent⟩
  refine Option.eq_none_iff_forall_ne_some.mpr fun launch present => ?_
  cases reachable.wellFormed.launchAddress _ _ present

/-- What is derived from a free mint address is free. -/
theorem Reachable.derived_free (reachable : world.Reachable) {mint : Pubkey}
    (free : ¬ world.inUse mint) :
    ¬ world.inUse (.launch mint) ∧ ¬ world.inUse (.curveAccount mint) := by
  have wellFormed := reachable.wellFormed
  have absent := (not_inUse.mp free).1
  have launchAbsent : world.launches (.launch mint) = none := by
    by_contra present
    have minted := (wellFormed.mintLaunched mint).mpr (Option.isSome_iff_ne_none.mpr present)
    rw [absent] at minted
    cases minted
  have accountAbsent : world.tokenAccounts.get? (.curveAccount mint) = none := by
    refine absent_of_shape fun shape present => ?_
    obtain rfl := wellFormed.associated _ _ _ present
    have minted := wellFormed.accountMint _ _ _ present
    rw [absent] at minted
    cases minted
  refine ⟨not_inUse.mpr ⟨reachable.mints_keyless rfl,
      reachable.tokenAccounts_keyless rfl fun _ _ equal => (nomatch equal), launchAbsent,
      fun equal => nomatch equal⟩,
    not_inUse.mpr ⟨reachable.mints_keyless rfl, accountAbsent, ?_, fun equal => nomatch equal⟩⟩
  refine Option.eq_none_iff_forall_ne_some.mpr fun launch present => ?_
  cases wellFormed.launchAddress _ _ present

end World

/-! ### The conditions of a creation -/

/-- The account constraints of `create_token`, met, up to the derived addresses being free. -/
structure CreateToken.Met (accounts : CreateToken) (world : World) (config : Config) : Prop where
  signer : accounts.creator.canSign
  configAddress : accounts.config = .config
  configPresent : world.config = some config
  dinoBuybackWallet : accounts.dinoBuybackWallet = config.dinoBuybackWallet
  treasuryWallet : accounts.treasuryWallet = config.treasuryWallet
  mintSigner : accounts.mint.canSign
  mintFree : ¬ world.inUse accounts.mint
  mintAuthority : accounts.mintAuthority = .mintAuthority accounts.mint
  launchAddress : accounts.launch = .launch accounts.mint
  vaultAddress : accounts.curveVault = .vault accounts.mint
  curveTokenAccount : accounts.curveTokenAccount = .curveAccount accounts.mint

/-- No reason to refuse a creation applies. The fee is paid in two shares; a creator who is the
first wallet has its share back when the second is due. -/
structure CreateToken.Ready (accounts : CreateToken) (world : World) (config : Config)
    (params : CreateTokenParams) : Prop where
  met : accounts.Met world config
  notPaused : config.paused = false
  name : params.name.utf8ByteSize ≤ 32
  symbol : params.symbol.utf8ByteSize ≤ 10
  uri : params.uri.utf8ByteSize ≤ 200
  firstShare : config.creationFeeLamports.toNat * config.creationSplitDinoBps.toNat / 10_000 ≤
    world.lamports accounts.creator
  bothShares : config.creationFeeLamports.toNat ≤ world.lamports accounts.creator +
    if accounts.creator = config.dinoBuybackWallet then
      config.creationFeeLamports.toNat * config.creationSplitDinoBps.toNat / 10_000
    else 0

namespace World

variable {world : World} {accounts : CreateToken} {config : Config}

theorem Reachable.create_validated (reachable : world.Reachable) (met : accounts.Met world config) :
    accounts.validate world = .ok (config, (world.initMint accounts.mint
      accounts.mintAuthority).initTokenAccount accounts.curveTokenAccount accounts.mint
      accounts.launch) := by
  obtain ⟨launchFree, accountFree⟩ := reachable.derived_free met.mintFree
  simp only [CreateToken.validate, bind_eq_ok, pure_eq_ok, require_eq_ok, loadConfig_eq_ok,
    exists_const, Prod.mk.injEq]
  exact ⟨met.signer, config, ⟨met.configAddress, met.configPresent⟩, met.dinoBuybackWallet,
    met.treasuryWallet, met.mintSigner, met.mintFree, met.mintAuthority, met.launchAddress,
    met.launchAddress ▸ launchFree, met.vaultAddress,
    met.curveTokenAccount.trans (by rw [met.launchAddress]; rfl),
    met.curveTokenAccount ▸ accountFree, rfl, trivial⟩

/-- The payments go through by the two conditions on the balance, and the mint is new, so its supply
has room for the curve's tokens. -/
theorem Reachable.create_accepted (reachable : world.Reachable) {params : CreateTokenParams}
    (ready : accounts.Ready world config params) (bumps : CreateTokenBumps) :
    ∃ world', accounts.handler world params bumps = .ok world' := by
  have met := ready.met
  have valid := reachable.wellFormed.config config met.configPresent
  obtain ⟨shares, split⟩ := splitTwoWay_total config.creationFeeLamports valid.creationSplit
  obtain ⟨dino, total⟩ := splitTwoWay_eq_ok.mp split
  have first := ready.firstShare
  have both := ready.bothShares
  rw [← dino] at first both
  have validated := reachable.create_validated met
  generalize opening : (world.initMint accounts.mint accounts.mintAuthority).initTokenAccount
    accounts.curveTokenAccount accounts.mint accounts.launch = opened at validated
  have lamports : opened.lamports = world.lamports := by rw [← opening]; rfl
  obtain ⟨paid, payment⟩ : ∃ paid, opened.payShares accounts.creator
      (accounts.feePayments shares) = .ok paid := by
    refine payShares_accepted_iff.mpr ⟨lamports ▸ first, ?_⟩
    rw [lamports, met.dinoBuybackWallet]
    split_ifs at both ⊢ <;> omega
  have frame := (payShares_ok payment).frame
  have present : paid.mints accounts.mint = some ⟨accounts.mintAuthority, 0, 0⟩ := by
    rw [frame, ← opening]
    exact Function.update_self _ _ _
  have shape : paid.tokenAccounts.shape accounts.curveTokenAccount =
      some (accounts.mint, accounts.launch) := by
    rw [frame, ← opening]
    exact (TokenAccounts.shape_set _ _ _ _).trans (if_pos rfl)
  obtain ⟨minted, minting⟩ : ∃ minted, paid.mintTo accounts.mint accounts.curveTokenAccount
      accounts.mintAuthority TokenLaunch.curveAllocationUnits = .ok minted := by
    cases result : paid.mintTo accounts.mint accounts.curveTokenAccount accounts.mintAuthority
      TokenLaunch.curveAllocationUnits with
    | ok minted => exact ⟨minted, rfl⟩
    | error error =>
      have fits : ¬ 2 ^ 64 ≤ 0 + TokenLaunch.curveAllocationUnits.toNat := by decide
      exact absurd (mintTo_error result present rfl shape).1 fits
  have notPaused : ¬ config.paused = true := by
    rw [ready.notPaused]
    exact Bool.false_ne_true
  exact ⟨_, bind_eq_ok.mpr ⟨(config, opened), validated,
    bind_eq_ok.mpr ⟨(), require_eq_ok.mpr notPaused,
    bind_eq_ok.mpr ⟨(), require_eq_ok.mpr ready.name,
    bind_eq_ok.mpr ⟨(), require_eq_ok.mpr ready.symbol,
    bind_eq_ok.mpr ⟨(), require_eq_ok.mpr ready.uri,
    bind_eq_ok.mpr ⟨shares, mapError_eq_ok.mpr split,
    bind_eq_ok.mpr ⟨paid, payment,
    bind_eq_ok.mpr ⟨_, mapError_eq_ok.mpr TokenLaunch.toBaseUnits_curveAllocation,
    bind_eq_ok.mpr ⟨minted, minting,
    bind_eq_ok.mpr ⟨_, mapError_eq_ok.mpr TokenLaunch.toBaseUnits_defaultVirtualTokens,
    pure_eq_ok.mpr rfl⟩⟩⟩⟩⟩⟩⟩⟩⟩⟩⟩

end World

end Memecoin
