/-
This file holds the program's data model: addresses, errors, the `Config` and
`TokenLaunch` accounts with their constants and checks, and the emitted events.

Addresses are free terms. The seeds of a program-derived address determine it,
distinct seeds give distinct addresses, and nobody holds its key; an associated
token address is determined by its owner and mint. Every other address is
`external` and is the only kind that can sign. The accounts' `_reserved` bytes
are left out.
-/

import Memecoin.Library.Checked

namespace Memecoin

open Checked

/-! ### Addresses -/

/-- An address. -/
inductive Pubkey
  | zero
  | external (index : ℕ)
  | config
  | launch (mint : Pubkey)
  | vault (mint : Pubkey)
  | mintAuthority (mint : Pubkey)
  | associatedToken (owner mint : Pubkey)
  deriving DecidableEq, Repr

/-- `Pubkey::default()`. -/
def Pubkey.default : Pubkey := .zero

/-- `system_program::ID`, whose bytes are all zero as well. -/
def systemProgramId : Pubkey := .zero

/-- Derived addresses are off the curve: only an external address has a key. -/
def Pubkey.canSign : Pubkey → Bool
  | .external _ => true
  | _ => false

theorem Pubkey.ne_of_canSign {signer address : Pubkey} (signs : signer.canSign)
    (derived : address.canSign = false) : signer ≠ address := by
  rintro rfl
  rw [derived] at signs
  exact absurd signs Bool.false_ne_true

/-- The token account that `create_token` makes: the associated one of the launch PDA. -/
def Pubkey.curveAccount (mint : Pubkey) : Pubkey := .associatedToken (.launch mint) mint

/-! ### Errors -/

/-- The errors of the program. -/
inductive MemecoinError
  | paused
  | unauthorized
  | invalidFeeSplit
  | feeBpsTooHigh
  | alreadyGraduated
  | notReadyToGraduate
  | slippageExceeded
  | insufficientSolOut
  | insufficientReserves
  | mathOverflow
  | mathUnderflow
  | zeroBuyAmount
  | zeroSellAmount
  | nameTooLong
  | symbolTooLong
  | uriTooLong
  | invalidWallet
  | invalidThreshold
  | notGraduated
  | poolAlreadySeeded
  | invalidPoolAddress
  | betaCapExceeded
  deriving DecidableEq, Repr

/-- What an instruction fails with: an error of this program, of the account constraints, of
the system program (`insufficientLamports`), or of the token program (the last four). -/
inductive ProgramError
  | memecoin (error : MemecoinError)
  | accountNotSigner
  | accountNotInitialized
  | accountAlreadyInUse
  | constraintSeeds
  | constraintHasOne
  | constraintTokenMint
  | constraintTokenOwner
  | constraintAssociated
  | insufficientLamports
  | insufficientFunds
  | mintMismatch
  | ownerMismatch
  | supplyOverflow
  deriving DecidableEq, Repr

/-- The errors of the account constraints, which are checked before a handler runs. -/
def ProgramError.ofConstraints : ProgramError → Bool
  | .accountNotSigner | .accountNotInitialized | .accountAlreadyInUse | .constraintSeeds
  | .constraintHasOne | .constraintTokenMint | .constraintTokenOwner | .constraintAssociated
  | .memecoin .invalidWallet => true
  | _ => false

/-! ### The launch account -/

/-- `launch.meteora_lb_pair` is the default key until the pool is seeded. -/
structure TokenLaunch where
  mint : Pubkey
  creator : Pubkey
  createdAt : Int64
  realSolReserves : UInt64
  realTokenReserves : UInt64
  virtualSolReserves : UInt64
  virtualTokenReserves : UInt64
  tokensSold : UInt64
  graduated : Bool
  poolSeeded : Bool
  meteoraLbPair : Pubkey
  graduationSolLamports : UInt64
  graduationTokenAmount : UInt64
  bump : UInt8
  vaultBump : UInt8
  mintAuthorityBump : UInt8
  deriving DecidableEq

namespace TokenLaunch

/-- `TOTAL_SUPPLY`, in whole tokens. -/
def totalSupply : UInt64 := 1_000_000_000

/-- `CURVE_ALLOCATION`, in whole tokens. -/
def curveAllocation : UInt64 := 800_000_000

/-- `GRADUATION_RESERVE`, in whole tokens. -/
def graduationReserve : UInt64 := 200_000_000

/-- `DEFAULT_VIRTUAL_SOL`: 30 SOL. -/
def defaultVirtualSol : UInt64 := 30 * 1_000_000_000

/-- `DEFAULT_VIRTUAL_TOKENS`, in whole tokens. -/
def defaultVirtualTokens : UInt64 := 1_236_363_636

/-- `DECIMALS` of the mint. -/
def decimals : UInt8 := 6

/-- `MAX_REAL_SOL_RESERVES`, the beta cap: 5 SOL. -/
def maxRealSolReserves : UInt64 := 5 * 1_000_000_000

/-- A constant given in whole tokens, in base units. -/
def toBaseUnits (whole : UInt64) : Except MemecoinError UInt64 :=
  okOr (checkedMul whole (UInt64.ofNat (10 ^ decimals.toNat))) .mathOverflow

/-- The first asset of the curve, `x`. -/
def x (launch : TokenLaunch) : ℕ :=
  launch.virtualSolReserves.toNat + launch.realSolReserves.toNat

/-- The second asset of the curve, `y`. -/
def y (launch : TokenLaunch) : ℕ := launch.virtualTokenReserves.toNat

/-- The curve product. -/
def k (launch : TokenLaunch) : ℕ := launch.x * launch.y

/-- The curve allocation in base units. -/
def curveAllocationUnits : UInt64 := 800_000_000_000_000

/-- The graduation reserve in base units. -/
def graduationReserveUnits : UInt64 := 200_000_000_000_000

/-- The total supply in base units. -/
def totalSupplyUnits : UInt64 := 1_000_000_000_000_000

/-- The starting virtual token reserves in base units. -/
def virtualTokenUnits : UInt64 := 1_236_363_636_000_000

theorem toBaseUnits_totalSupply : toBaseUnits totalSupply = .ok totalSupplyUnits := by decide

theorem toBaseUnits_curveAllocation :
    toBaseUnits curveAllocation = .ok curveAllocationUnits := by decide

theorem toBaseUnits_graduationReserve :
    toBaseUnits graduationReserve = .ok graduationReserveUnits := by decide

theorem toBaseUnits_defaultVirtualTokens :
    toBaseUnits defaultVirtualTokens = .ok virtualTokenUnits := by decide

end TokenLaunch

/-! ### The configuration account -/

/-- The configuration account; fees and splits are in basis points. -/
structure Config where
  admin : Pubkey
  dinoBuybackWallet : Pubkey
  treasuryWallet : Pubkey
  graduationAuthority : Pubkey
  tradeFeeBps : UInt16
  tradeSplitCreatorBps : UInt16
  tradeSplitDinoBps : UInt16
  tradeSplitTreasuryBps : UInt16
  creationFeeLamports : UInt64
  creationSplitDinoBps : UInt16
  graduationFeeLamports : UInt64
  graduationSplitDinoBps : UInt16
  graduationThresholdLamports : UInt64
  paused : Bool
  bump : UInt8
  deriving DecidableEq

namespace Config

/-- The sum of the trade splits is taken in 32 bits, where three 16-bit values fit. -/
def validate (config : Config) : Except MemecoinError Unit := do
  require (¬ config.tradeFeeBps > 1000) .feeBpsTooHigh
  require (config.tradeSplitCreatorBps.toNat + config.tradeSplitDinoBps.toNat +
    config.tradeSplitTreasuryBps.toNat = 10_000) .invalidFeeSplit
  require (¬ (config.creationSplitDinoBps > 10_000 ∨ config.graduationSplitDinoBps > 10_000))
    .invalidFeeSplit
  require (¬ config.graduationThresholdLamports = 0) .invalidThreshold
  require (¬ config.graduationThresholdLamports > TokenLaunch.maxRealSolReserves) .betaCapExceeded
  require (¬ config.graduationAuthority = .default) .invalidWallet

/-- What `validate` establishes. -/
structure Valid (config : Config) : Prop where
  tradeFee : config.tradeFeeBps.toNat ≤ 1000
  tradeSplit : config.tradeSplitCreatorBps.toNat + config.tradeSplitDinoBps.toNat +
    config.tradeSplitTreasuryBps.toNat = 10_000
  creationSplit : config.creationSplitDinoBps.toNat ≤ 10_000
  graduationSplit : config.graduationSplitDinoBps.toNat ≤ 10_000
  thresholdPositive : 0 < config.graduationThresholdLamports.toNat
  thresholdCapped :
    config.graduationThresholdLamports.toNat ≤ TokenLaunch.maxRealSolReserves.toNat
  graduationAuthority : config.graduationAuthority ≠ .default

theorem validate_eq_ok {config : Config} {done : Unit} :
    config.validate = .ok done ↔ config.Valid := by
  have positive : ¬ config.graduationThresholdLamports = 0 ↔
      0 < config.graduationThresholdLamports.toNat := by
    rw [← UInt64.toNat_inj, UInt64.toNat_zero, Nat.pos_iff_ne_zero]
  simp only [validate, bind_eq_ok, require_eq_ok, exists_and_left, exists_const, positive, not_or,
    gt_iff_lt, UInt16.not_lt, UInt64.not_lt, UInt16.le_iff_toNat_le, UInt64.le_iff_toNat_le]
  constructor
  · rintro ⟨fee, split, ⟨creation, graduation⟩, nonzero, capped, authority⟩
    exact ⟨fee, split, creation, graduation, nonzero, capped, authority⟩
  · intro valid
    exact ⟨valid.tradeFee, valid.tradeSplit, ⟨valid.creationSplit, valid.graduationSplit⟩,
      valid.thresholdPositive, valid.thresholdCapped, valid.graduationAuthority⟩

end Config

/-! ### Events -/

/-- Logged by `initialize_config`. -/
structure ConfigInitialized where
  admin : Pubkey
  dinoBuybackWallet : Pubkey
  treasuryWallet : Pubkey
  deriving DecidableEq

/-- Logged by `update_config`. -/
structure ConfigUpdated where
  admin : Pubkey
  deriving DecidableEq

/-- Logged by `create_token`. -/
structure TokenCreated where
  mint : Pubkey
  creator : Pubkey
  name : String
  symbol : String
  uri : String
  creationFeePaid : UInt64
  dinoShare : UInt64
  treasuryShare : UInt64
  timestamp : Int64
  deriving DecidableEq

/-- Logged by `buy` and `sell`. The SOL amount is the cost, or the gross payout. -/
structure TradeExecuted where
  mint : Pubkey
  trader : Pubkey
  isBuy : Bool
  solAmount : UInt64
  tokenAmount : UInt64
  feePaid : UInt64
  creatorShare : UInt64
  dinoShare : UInt64
  treasuryShare : UInt64
  newRealSolReserves : UInt64
  newRealTokenReserves : UInt64
  timestamp : Int64
  deriving DecidableEq

/-- Logged by `graduate`. The final reserves are the SOL forwarded and the tokens minted. -/
structure TokenGraduated where
  mint : Pubkey
  creator : Pubkey
  finalSolReserves : UInt64
  finalTokenReserves : UInt64
  graduationFeePaid : UInt64
  dinoShare : UInt64
  treasuryShare : UInt64
  graduationAuthority : Pubkey
  timestamp : Int64
  deriving DecidableEq

/-- Logged by `seal_graduation`. -/
structure PoolSeeded where
  mint : Pubkey
  meteoraLbPair : Pubkey
  timestamp : Int64
  deriving DecidableEq

/-- An event of the program. -/
inductive Event
  | configInitialized (event : ConfigInitialized)
  | configUpdated (event : ConfigUpdated)
  | tokenCreated (event : TokenCreated)
  | tradeExecuted (event : TradeExecuted)
  | tokenGraduated (event : TokenGraduated)
  | poolSeeded (event : PoolSeeded)
  deriving DecidableEq

end Memecoin
