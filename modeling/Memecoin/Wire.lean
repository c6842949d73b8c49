/-
This file models what the program reads off the wire: the data of its eight
instructions and the data of its two account types, in the Borsh layout that the
derives give them, each behind an eight-byte discriminator. It also models how
the test driver writes instruction data into buffers and reads the curve state
back at fixed offsets. Public keys and discriminators stand for code outside the
repository and are parameters.
-/

import Memecoin.Library.Codec
import Memecoin.Program

namespace Memecoin.Wire

open Codec

/-! ### Records -/

section Records

-- how a public key is written
variable (key : Codec Pubkey)

/-- `InitializeConfigParams`, field by field. -/
def initializeConfigParams : Codec InitializeConfigParams :=
  (key.pair (key.pair (key.pair (u16.pair (u16.pair (u16.pair (u16.pair (u64.pair (u16.pair
    (u64.pair (u16.pair u64))))))))))).iso
    (fun (dino, treasury, authority, fee, creator, tradeDino, tradeTreasury, creationFee,
      creationDino, graduationFee, graduationDino, threshold) =>
      ⟨dino, treasury, authority, fee, creator, tradeDino, tradeTreasury, creationFee, creationDino,
        graduationFee, graduationDino, threshold⟩)
    (fun params => (params.dinoBuybackWallet, params.treasuryWallet, params.graduationAuthority,
      params.tradeFeeBps, params.tradeSplitCreatorBps, params.tradeSplitDinoBps,
      params.tradeSplitTreasuryBps, params.creationFeeLamports, params.creationSplitDinoBps,
      params.graduationFeeLamports, params.graduationSplitDinoBps,
      params.graduationThresholdLamports))
    (fun _ => rfl) (fun _ => rfl)

/-- `UpdateConfigParams`, field by field, each an option. -/
def updateConfigParams : Codec UpdateConfigParams :=
  (key.option.pair (key.option.pair (key.option.pair (key.option.pair (u16.option.pair
    (u16.option.pair (u16.option.pair (u16.option.pair (u64.option.pair (u16.option.pair
    (u64.option.pair (u16.option.pair u64.option)))))))))))).iso
    (fun (admin, dino, treasury, authority, fee, creator, tradeDino, tradeTreasury, creationFee,
      creationDino, graduationFee, graduationDino, threshold) =>
      ⟨admin, dino, treasury, authority, fee, creator, tradeDino, tradeTreasury, creationFee,
        creationDino, graduationFee, graduationDino, threshold⟩)
    (fun params => (params.newAdmin, params.dinoBuybackWallet, params.treasuryWallet,
      params.graduationAuthority, params.tradeFeeBps, params.tradeSplitCreatorBps,
      params.tradeSplitDinoBps, params.tradeSplitTreasuryBps, params.creationFeeLamports,
      params.creationSplitDinoBps, params.graduationFeeLamports, params.graduationSplitDinoBps,
      params.graduationThresholdLamports))
    (fun _ => rfl) (fun _ => rfl)

/-- `CreateTokenParams`: three texts with their lengths. -/
def createTokenParams : Codec CreateTokenParams :=
  ((text 4).pair ((text 4).pair (text 4))).iso (fun (name, symbol, uri) => ⟨name, symbol, uri⟩)
    (fun params => (params.name, params.symbol, params.uri)) (fun _ => rfl) (fun _ => rfl)

/-- The two amounts of `buy` and of `sell`. -/
def amounts : Codec (UInt64 × UInt64) := u64.pair u64

/-- The account without its reserved bytes, which follow. -/
def tokenLaunch : Codec TokenLaunch :=
  (key.pair (key.pair (i64.pair (u64.pair (u64.pair (u64.pair (u64.pair (u64.pair (bool.pair
    (bool.pair (key.pair (u64.pair (u64.pair (u8.pair (u8.pair u8))))))))))))))).iso
    (fun (mint, creator, createdAt, realSol, realTokens, virtualSol, virtualTokens, sold, graduated,
      seeded, pair, graduationSol, graduationTokens, bump, vaultBump, mintAuthorityBump) =>
      ⟨mint, creator, createdAt, realSol, realTokens, virtualSol, virtualTokens, sold, graduated,
        seeded, pair, graduationSol, graduationTokens, bump, vaultBump, mintAuthorityBump⟩)
    (fun launch => (launch.mint, launch.creator, launch.createdAt, launch.realSolReserves,
      launch.realTokenReserves, launch.virtualSolReserves, launch.virtualTokenReserves,
      launch.tokensSold, launch.graduated, launch.poolSeeded, launch.meteoraLbPair,
      launch.graduationSolLamports, launch.graduationTokenAmount, launch.bump, launch.vaultBump,
      launch.mintAuthorityBump))
    (fun _ => rfl) (fun _ => rfl)

/-- The account without its reserved bytes, which follow. -/
def config : Codec Config :=
  (key.pair (key.pair (key.pair (key.pair (u16.pair (u16.pair (u16.pair (u16.pair (u64.pair
    (u16.pair (u64.pair (u16.pair (u64.pair (bool.pair u8)))))))))))))).iso
    (fun (admin, dino, treasury, authority, fee, creator, tradeDino, tradeTreasury, creationFee,
      creationDino, graduationFee, graduationDino, threshold, paused, bump) =>
      ⟨admin, dino, treasury, authority, fee, creator, tradeDino, tradeTreasury, creationFee,
        creationDino, graduationFee, graduationDino, threshold, paused, bump⟩)
    (fun config => (config.admin, config.dinoBuybackWallet, config.treasuryWallet,
      config.graduationAuthority, config.tradeFeeBps, config.tradeSplitCreatorBps,
      config.tradeSplitDinoBps, config.tradeSplitTreasuryBps, config.creationFeeLamports,
      config.creationSplitDinoBps, config.graduationFeeLamports, config.graduationSplitDinoBps,
      config.graduationThresholdLamports, config.paused, config.bump))
    (fun _ => rfl) (fun _ => rfl)

end Records

/-! ### Discriminators -/

/-- What a discriminator names: an instruction of the program or one of its account types. -/
inductive Name
  | initializeConfig
  | updateConfig
  | setPaused
  | createToken
  | buy
  | sell
  | graduate
  | sealGraduation
  | configAccount
  | tokenLaunchAccount
  deriving DecidableEq

/-- The first eight bytes of a hash of each name; no two names share them. -/
structure Discriminators where
  bytes : Name → List UInt8
  length : ∀ name, (bytes name).length = 8
  injective : Function.Injective bytes

/-- The values of the deployed program. -/
def anchor : Discriminators where
  bytes
    | .initializeConfig => [208, 127, 21, 1, 194, 190, 196, 70]
    | .updateConfig => [29, 158, 252, 191, 10, 83, 219, 99]
    | .setPaused => [91, 60, 125, 192, 176, 225, 166, 218]
    | .createToken => [84, 52, 204, 228, 24, 140, 234, 75]
    | .buy => [102, 6, 61, 18, 1, 218, 235, 234]
    | .sell => [51, 230, 133, 164, 1, 127, 131, 173]
    | .graduate => [45, 235, 225, 181, 17, 218, 64, 130]
    | .sealGraduation => [242, 247, 70, 54, 231, 182, 27, 254]
    | .configAccount => [155, 12, 170, 224, 30, 250, 204, 130]
    | .tokenLaunchAccount => [92, 242, 228, 230, 214, 216, 8, 148]
  length := fun name => by cases name <;> rfl
  injective := fun first second equal => by
    cases first <;> cases second <;> first | rfl | exact absurd equal (by decide)

/-! ### Instructions -/

/-- An instruction with its arguments; the accounts travel separately. -/
inductive Instruction
  | initializeConfig (params : InitializeConfigParams)
  | updateConfig (params : UpdateConfigParams)
  | setPaused (paused : Bool)
  | createToken (params : CreateTokenParams)
  | buy (tokenAmountOut maxSolIn : UInt64)
  | sell (tokenAmountIn minSolOut : UInt64)
  | graduate
  | sealGraduation (meteoraLbPair : Pubkey)
  deriving DecidableEq

/-- The name under which an instruction is called. -/
def Instruction.name : Instruction → Name
  | .initializeConfig _ => .initializeConfig
  | .updateConfig _ => .updateConfig
  | .setPaused _ => .setPaused
  | .createToken _ => .createToken
  | .buy _ _ => .buy
  | .sell _ _ => .sell
  | .graduate => .graduate
  | .sealGraduation _ => .sealGraduation

/-- The names of instructions, in the order of the entry points. -/
def Name.instructions : List Name :=
  [.initializeConfig, .updateConfig, .setPaused, .createToken, .buy, .sell, .graduate,
    .sealGraduation]

section Dispatch

variable (discriminators : Discriminators) (key : Codec Pubkey)

/-- The bytes of the arguments. -/
def Instruction.arguments : Instruction → List UInt8
  | .initializeConfig params => (initializeConfigParams key).encode params
  | .updateConfig params => (updateConfigParams key).encode params
  | .setPaused paused => bool.encode paused
  | .createToken params => createTokenParams.encode params
  | .buy tokenAmountOut maxSolIn => amounts.encode (tokenAmountOut, maxSolIn)
  | .sell tokenAmountIn minSolOut => amounts.encode (tokenAmountIn, minSolOut)
  | .graduate => []
  | .sealGraduation meteoraLbPair => key.encode meteoraLbPair

/-- The arguments can be written. -/
def Instruction.Fits : Instruction → Prop
  | .initializeConfig params => (initializeConfigParams key).Fits params
  | .updateConfig params => (updateConfigParams key).Fits params
  | .setPaused paused => bool.Fits paused
  | .createToken params => createTokenParams.Fits params
  | .buy tokenAmountOut maxSolIn => amounts.Fits (tokenAmountOut, maxSolIn)
  | .sell tokenAmountIn minSolOut => amounts.Fits (tokenAmountIn, minSolOut)
  | .graduate => True
  | .sealGraduation meteoraLbPair => key.Fits meteoraLbPair

/-- The data of an instruction. -/
def Instruction.data (instruction : Instruction) : List UInt8 :=
  discriminators.bytes instruction.name ++ instruction.arguments key

/-- The arguments of a named instruction; what follows them is not looked at. -/
def readArguments : Name → List UInt8 → Option (Instruction × List UInt8)
  | .initializeConfig, bytes => ((initializeConfigParams key).decode bytes).map
    fun (params, rest) => (.initializeConfig params, rest)
  | .updateConfig, bytes => ((updateConfigParams key).decode bytes).map
    fun (params, rest) => (.updateConfig params, rest)
  | .setPaused, bytes => (bool.decode bytes).map fun (paused, rest) => (.setPaused paused, rest)
  | .createToken, bytes => (createTokenParams.decode bytes).map
    fun (params, rest) => (.createToken params, rest)
  | .buy, bytes => (amounts.decode bytes).map
    fun ((tokenAmountOut, maxSolIn), rest) => (.buy tokenAmountOut maxSolIn, rest)
  | .sell, bytes => (amounts.decode bytes).map
    fun ((tokenAmountIn, minSolOut), rest) => (.sell tokenAmountIn minSolOut, rest)
  | .graduate, bytes => some (.graduate, bytes)
  | .sealGraduation, bytes => (key.decode bytes).map
    fun (meteoraLbPair, rest) => (.sealGraduation meteoraLbPair, rest)
  | .configAccount, _ => none
  | .tokenLaunchAccount, _ => none

/-- The instruction that a discriminator names. -/
def instructionNamed (bytes : List UInt8) : Option Name :=
  Name.instructions.find? fun name => discriminators.bytes name = bytes

/-- The entry point of the program, up to the accounts. -/
def dispatch (data : List UInt8) : Option Instruction :=
  (instructionNamed discriminators (data.take 8)).bind fun name =>
    (readArguments key name (data.drop 8)).map Prod.fst

variable {discriminators key}

theorem Instruction.name_mem (instruction : Instruction) :
    instruction.name ∈ Name.instructions := by
  cases instruction <;> simp only [name, Name.instructions, List.mem_cons, true_or, or_true]

theorem readArguments_eq_some {name : Name} {bytes rest : List UInt8} {instruction : Instruction} :
    readArguments key name bytes = some (instruction, rest) ↔
      instruction.name = name ∧ instruction.Fits key ∧
        bytes = instruction.arguments key ++ rest := by
  constructor
  · intro read
    cases name with
    | graduate =>
      obtain ⟨rfl, rfl⟩ := Prod.mk.inj (Option.some.inj read)
      exact ⟨rfl, trivial, rfl⟩
    | configAccount | tokenLaunchAccount => cases read
    | _ =>
      obtain ⟨⟨_, _⟩, decoded, equal⟩ := Option.map_eq_some_iff.mp read
      obtain ⟨rfl, rfl⟩ := Prod.mk.inj equal
      exact ⟨rfl, decode_eq_some.mp decoded⟩
  · rintro ⟨rfl, fits, rfl⟩
    cases instruction with
    | graduate => rfl
    | buy tokenAmountOut maxSolIn =>
      simp only [Instruction.name, Instruction.arguments, readArguments,
        amounts.decode_encode _ _ fits, Option.map_some]
    | sell tokenAmountIn minSolOut =>
      simp only [Instruction.name, Instruction.arguments, readArguments,
        amounts.decode_encode _ _ fits, Option.map_some]
    | _ => exact Option.map_eq_some_iff.mpr ⟨_, decode_eq_some.mpr ⟨fits, rfl⟩, rfl⟩

theorem instructionNamed_eq_some {bytes : List UInt8} {name : Name} :
    instructionNamed discriminators bytes = some name ↔
      name ∈ Name.instructions ∧ discriminators.bytes name = bytes := by
  unfold instructionNamed
  constructor
  · intro found
    have named := List.find?_some found
    exact ⟨List.mem_of_find?_eq_some found, of_decide_eq_true named⟩
  · rintro ⟨member, rfl⟩
    cases result : Name.instructions.find?
        fun other => discriminators.bytes other = discriminators.bytes name with
    | none => exact absurd (decide_eq_true rfl) (List.find?_eq_none.mp result name member)
    | some other =>
      have same := List.find?_some result
      exact congrArg some (discriminators.injective (of_decide_eq_true same))

/-! ### Accounts -/

variable {Value : Type*}

variable (discriminators) in
/-- The data of an account: its discriminator, its record and what is reserved. -/
def accountData (name : Name) (codec : Codec Value) (value : Value) (reserved : List UInt8) :
    List UInt8 :=
  discriminators.bytes name ++ (codec.encode value ++ reserved)

variable (discriminators) in
/-- The record in the data of an account, if the discriminator is right. -/
def loadAccount (name : Name) (codec : Codec Value) (data : List UInt8) : Option Value :=
  if data.take 8 = discriminators.bytes name then (codec.decode (data.drop 8)).map Prod.fst
  else none

theorem discriminated_eq {name : Name} {data rest : List UInt8} :
    (data.take 8 = discriminators.bytes name ∧ data.drop 8 = rest) ↔
      data = discriminators.bytes name ++ rest := by
  constructor
  · rintro ⟨first, later⟩
    rw [← first, ← later, List.take_append_drop]
  · rintro rfl
    exact ⟨List.take_left' (discriminators.length name),
      List.drop_left' (discriminators.length name)⟩

theorem loadAccount_eq_some {name : Name} {codec : Codec Value} {data : List UInt8}
    {value : Value} :
    loadAccount discriminators name codec data = some value ↔
      codec.Fits value ∧
        ∃ reserved, data = accountData discriminators name codec value reserved := by
  rw [loadAccount, Option.ite_none_right_eq_some, Option.map_eq_some_iff]
  constructor
  · rintro ⟨named, ⟨_, reserved⟩, decoded, rfl⟩
    obtain ⟨fits, record⟩ := decode_eq_some.mp decoded
    exact ⟨fits, reserved, discriminated_eq.mp ⟨named, record⟩⟩
  · rintro ⟨fits, reserved, stored⟩
    obtain ⟨named, record⟩ := discriminated_eq.mpr stored
    exact ⟨named, (value, reserved), decode_eq_some.mpr ⟨fits, record⟩, rfl⟩

end Dispatch

/-! ### Main result: instruction data -/

/-- Data is accepted as an instruction exactly when it is the data of that instruction, possibly
with bytes behind it: whatever a client writes is read back, and no data means two
instructions. -/
theorem dispatch_eq_some (discriminators : Discriminators) (key : Codec Pubkey)
    (data : List UInt8) (instruction : Instruction) :
    dispatch discriminators key data = some instruction ↔ instruction.Fits key ∧
      ∃ rest, data = instruction.data discriminators key ++ rest := by
  rw [dispatch, Option.bind_eq_some_iff]
  simp only [instructionNamed_eq_some, Option.map_eq_some_iff, Prod.exists, Instruction.data,
    List.append_assoc, ← discriminated_eq]
  constructor
  · rintro ⟨name, ⟨_, named⟩, _, rest, read, rfl⟩
    obtain ⟨rfl, fits, written⟩ := readArguments_eq_some.mp read
    exact ⟨fits, rest, named.symm, written⟩
  · rintro ⟨fits, rest, named, written⟩
    exact ⟨instruction.name, ⟨instruction.name_mem, named.symm⟩, instruction, rest,
      readArguments_eq_some.mpr ⟨rfl, fits, written⟩, rfl⟩

/-! ### What the test driver writes -/

section Driver

variable (discriminators : Discriminators) (key : Codec Pubkey)

/-- `Buffer.alloc`. -/
def alloc (size : ℕ) : List UInt8 := List.replicate size 0

/-- `encodeInitParams`. -/
def encodeInitParams (params : InitializeConfigParams) : Option (List UInt8) :=
  writeFields (alloc (32 * 3 + (2 + 2 + 2 + 2) + (8 + 2) + (8 + 2) + 8)) 0
    [(32, key.encode params.dinoBuybackWallet),
      (32, key.encode params.treasuryWallet),
      (32, key.encode params.graduationAuthority),
      (2, littleEndianBytes 2 params.tradeFeeBps.toNat),
      (2, littleEndianBytes 2 params.tradeSplitCreatorBps.toNat),
      (2, littleEndianBytes 2 params.tradeSplitDinoBps.toNat),
      (2, littleEndianBytes 2 params.tradeSplitTreasuryBps.toNat),
      (8, littleEndianBytes 8 params.creationFeeLamports.toNat),
      (2, littleEndianBytes 2 params.creationSplitDinoBps.toNat),
      (8, littleEndianBytes 8 params.graduationFeeLamports.toNat),
      (2, littleEndianBytes 2 params.graduationSplitDinoBps.toNat),
      (8, littleEndianBytes 8 params.graduationThresholdLamports.toNat)]

/-- `encStr`; `writeUInt32LE` refuses a length that does not fit. -/
def encStr (value : String) : Option (List UInt8) :=
  let utf := printText value
  if utf.length < 256 ^ 4 then
    writeFields (alloc (4 + utf.length)) 0
      [(4, littleEndianBytes 4 utf.length), (utf.length, utf)]
  else none

/-- `encodeCreateParams`. -/
def encodeCreateParams (name symbol uri : String) : Option (List UInt8) :=
  (encStr name).bind fun name => (encStr symbol).bind fun symbol => (encStr uri).map fun uri =>
    name ++ symbol ++ uri

/-- `new BN(value).toArray('le', 8)`, which refuses a value that does not fit. -/
def toArray (value : ℕ) : Option (List UInt8) :=
  if value < 256 ^ 8 then some (littleEndianBytes 8 value) else none

/-- The data that `01-init-config.mjs` sends. -/
def initData (params : InitializeConfigParams) : Option (List UInt8) :=
  (encodeInitParams key params).map (discriminators.bytes .initializeConfig ++ ·)

/-- The data that `02-create-token.mjs` sends. -/
def createData (name symbol uri : String) : Option (List UInt8) :=
  (encodeCreateParams name symbol uri).map (discriminators.bytes .createToken ++ ·)

/-- The data that `03-buy.mjs` sends. -/
def buyData (tokensOut maxSolIn : ℕ) : Option (List UInt8) :=
  (toArray tokensOut).bind fun tokensOut => (toArray maxSolIn).bind fun maxSolIn =>
    writeFields (alloc 24) 0 [(8, discriminators.bytes .buy), (8, tokensOut), (8, maxSolIn)]

/-- The data that `04-graduate.mjs` sends. -/
def graduateData : List UInt8 := discriminators.bytes .graduate

/-- The data that `05-seal-graduation.mjs` sends. -/
def sealData (meteoraLbPair : Pubkey) : List UInt8 :=
  discriminators.bytes .sealGraduation ++ key.encode meteoraLbPair

/-- The data that `99-set-paused.mjs` sends. -/
def unpauseData : List UInt8 := discriminators.bytes .setPaused ++ [0]

/-- Thirteen options of which only the last is supplied. -/
def lowerThresholdData : List UInt8 :=
  discriminators.bytes .updateConfig ++ ([0, 0, 0, 0] ++ [0, 0, 0, 0] ++ [0] ++ [0] ++ [0] ++ [0] ++
    1 :: littleEndianBytes 8 54_000_000_000)

/-- The update that `99-lower-threshold` asks for. -/
def lowerThreshold : UpdateConfigParams :=
  { UpdateConfigParams.default with graduationThresholdLamports := some 54_000_000_000 }

variable {discriminators key}

theorem encodeInitParams_eq (width : key.Width 32) {params : InitializeConfigParams}
    (fits : (initializeConfigParams key).Fits params) :
    encodeInitParams key params = some ((initializeConfigParams key).encode params) := by
  obtain ⟨dino, treasury, authority, _⟩ := fits
  have written := writeFields_eq
    [(32, key.encode params.dinoBuybackWallet), (32, key.encode params.treasuryWallet),
      (32, key.encode params.graduationAuthority),
      (2, littleEndianBytes 2 params.tradeFeeBps.toNat),
      (2, littleEndianBytes 2 params.tradeSplitCreatorBps.toNat),
      (2, littleEndianBytes 2 params.tradeSplitDinoBps.toNat),
      (2, littleEndianBytes 2 params.tradeSplitTreasuryBps.toNat),
      (8, littleEndianBytes 8 params.creationFeeLamports.toNat),
      (2, littleEndianBytes 2 params.creationSplitDinoBps.toNat),
      (8, littleEndianBytes 8 params.graduationFeeLamports.toNat),
      (2, littleEndianBytes 2 params.graduationSplitDinoBps.toNat),
      (8, littleEndianBytes 8 params.graduationThresholdLamports.toNat)] [] (alloc 132)
    (by simp [width _ dino, width _ treasury, width _ authority]) rfl
  refine written.trans ?_
  simp only [List.map_cons, List.map_nil, List.flatten_cons, List.flatten_nil, List.append_nil,
    List.nil_append]
  rfl

theorem encStr_eq_some {value : String} {bytes : List UInt8} :
    encStr value = some bytes ↔ (text 4).Fits value ∧ bytes = (text 4).encode value := by
  rw [encStr]
  split_ifs with fits
  · have written := writeFields_eq [(4, littleEndianBytes 4 (printText value).length),
      ((printText value).length, printText value)] [] (alloc (4 + (printText value).length))
      (by simp) (by simp [alloc])
    rw [List.nil_append] at written
    rw [show (0 : ℕ) = ([] : List UInt8).length from rfl, written, Option.some.injEq]
    have fields : (([(4, littleEndianBytes 4 (printText value).length),
        ((printText value).length, printText value)] : List (ℕ × List UInt8)).map
          Prod.snd).flatten = (text 4).encode value :=
      congrArg (littleEndianBytes 4 _ ++ ·) (List.append_nil _)
    rw [List.nil_append, fields]
    exact ⟨fun equal => ⟨fits, equal.symm⟩, fun both => both.2.symm⟩
  · exact ⟨fun written => (nomatch written), fun both => absurd both.1 fits⟩

theorem encodeCreateParams_eq_some {params : CreateTokenParams} {bytes : List UInt8} :
    encodeCreateParams params.name params.symbol params.uri = some bytes ↔
      createTokenParams.Fits params ∧ bytes = createTokenParams.encode params := by
  simp only [encodeCreateParams, Option.bind_eq_some_iff, Option.map_eq_some_iff, encStr_eq_some]
  constructor
  · rintro ⟨_, ⟨name, rfl⟩, _, ⟨symbol, rfl⟩, _, ⟨uri, rfl⟩, rfl⟩
    exact ⟨⟨name, symbol, uri⟩, List.append_assoc _ _ _⟩
  · rintro ⟨⟨name, symbol, uri⟩, rfl⟩
    exact ⟨_, ⟨name, rfl⟩, _, ⟨symbol, rfl⟩, _, ⟨uri, rfl⟩, List.append_assoc _ _ _⟩

theorem buyData_eq_some {tokensOut maxSolIn : ℕ} {data : List UInt8} :
    buyData discriminators tokensOut maxSolIn = some data ↔
      tokensOut < 2 ^ 64 ∧ maxSolIn < 2 ^ 64 ∧
        data = (Instruction.buy (UInt64.ofNat tokensOut) (UInt64.ofNat maxSolIn)).data
          discriminators key := by
  have word {value : ℕ} (fits : value < 2 ^ 64) :
      littleEndianBytes 8 value = u64.encode (UInt64.ofNat value) := by
    show _ = littleEndianBytes 8 (UInt64.ofNat value).toNat
    rw [UInt64.toNat_ofNat', Nat.mod_eq_of_lt fits]
  have filled (first second : List UInt8) (firstWidth : first.length = 8)
      (secondWidth : second.length = 8) : writeFields (alloc 24) 0
        [(8, discriminators.bytes .buy), (8, first), (8, second)] =
      some (discriminators.bytes .buy ++ (first ++ second)) := by
    refine (writeFields_eq [(8, discriminators.bytes .buy), (8, first), (8, second)] [] (alloc 24)
      (by simp [discriminators.length, firstWidth, secondWidth]) rfl).trans ?_
    simp only [List.map_cons, List.map_nil, List.flatten_cons, List.flatten_nil, List.append_nil,
      List.nil_append]
  simp only [buyData, toArray, Option.bind_eq_some_iff, Option.ite_none_right_eq_some,
    Option.some.injEq]
  constructor
  · rintro ⟨_, ⟨tokensFit, rfl⟩, _, ⟨maxFits, rfl⟩, written⟩
    rw [filled _ _ (length_littleEndianBytes _ _) (length_littleEndianBytes _ _), word tokensFit,
      word maxFits] at written
    exact ⟨tokensFit, maxFits, (Option.some.inj written).symm⟩
  · rintro ⟨tokensFit, maxFits, rfl⟩
    refine ⟨_, ⟨tokensFit, rfl⟩, _, ⟨maxFits, rfl⟩, ?_⟩
    rw [filled _ _ (length_littleEndianBytes _ _) (length_littleEndianBytes _ _), word tokensFit,
      word maxFits]
    rfl

/-- The data of an instruction that fits is read back as the instruction. -/
theorem dispatch_data {instruction : Instruction} (fits : instruction.Fits key) :
    dispatch discriminators key (instruction.data discriminators key) = some instruction :=
  (dispatch_eq_some discriminators key _ instruction).mpr ⟨fits, [], (List.append_nil _).symm⟩

/-- Only the keys can fail to fit. -/
theorem initializeConfigParams_fits {params : InitializeConfigParams}
    (dino : key.Fits params.dinoBuybackWallet) (treasury : key.Fits params.treasuryWallet)
    (authority : key.Fits params.graduationAuthority) :
    (initializeConfigParams key).Fits params :=
  ⟨dino, treasury, authority, fits_u16 _, fits_u16 _, fits_u16 _, fits_u16 _, fits_u64 _,
    fits_u16 _, fits_u64 _, fits_u16 _, fits_u64 _⟩

theorem lowerThresholdData_eq :
    lowerThresholdData discriminators =
      (Instruction.updateConfig lowerThreshold).data discriminators key := rfl

/-- The one update that the driver's script asks for is above the cap: no state accepts it. -/
theorem lowerThreshold_refused {accounts : AdminAccounts} {world world' : World} :
    UpdateConfig.handler accounts world lowerThreshold ≠ .ok world' := by
  intro accepted
  obtain ⟨config, _, _, valid, _⟩ := UpdateConfig.handler_ok accepted
  have capped : (54_000_000_000 : ℕ) ≤ 5_000_000_000 := valid.thresholdCapped
  omega

end Driver

/-! ### What the test driver reads -/

/-- The four reserves that the driver reads. -/
structure CurveState where
  realSol : ℕ
  realTok : ℕ
  virtSol : ℕ
  virtTok : ℕ
  deriving DecidableEq

/-- `getCurveState`: four words behind the discriminator, two keys and the creation time. -/
def getCurveState (raw : List UInt8) : Option CurveState :=
  let off := 8 + 32 + 32 + 8
  (readWord 8 raw off).bind fun realSol =>
    (readWord 8 raw (off + 8)).bind fun realTok =>
    (readWord 8 raw (off + 16)).bind fun virtSol =>
    (readWord 8 raw (off + 24)).map fun virtTok => ⟨realSol, realTok, virtSol, virtTok⟩

/-- The words the driver reads are the reserves of the launch. -/
def CurveState.ofLaunch (launch : TokenLaunch) : CurveState where
  realSol := launch.realSolReserves.toNat
  realTok := launch.realTokenReserves.toNat
  virtSol := launch.virtualSolReserves.toNat
  virtTok := launch.virtualTokenReserves.toNat

/-- Four consecutive words are read back in order. -/
theorem getCurveState_words (before rest : List UInt8) (at80 : before.length = 80)
    (first second third fourth : UInt64) :
    getCurveState (before ++ (u64.encode first ++ (u64.encode second ++ (u64.encode third ++
      (u64.encode fourth ++ rest))))) =
      some ⟨first.toNat, second.toNat, third.toNat, fourth.toNat⟩ := by
  have word (before : List UInt8) (value : UInt64) (after : List UInt8) {offset : ℕ}
      (located : before.length = offset) :
      readWord 8 (before ++ (u64.encode value ++ after)) offset = some value.toNat := by
    rw [← located]
    exact readWord_littleEndian value.toNat_lt before after
  have width (value : UInt64) : (u64.encode value).length = 8 := length_littleEndianBytes 8 _
  rw [getCurveState, word before first _ at80, Option.bind_some, ← List.append_assoc,
    word _ second _ (by rw [List.length_append, at80, width]), Option.bind_some,
    ← List.append_assoc,
    word _ third _ (by simp only [List.length_append, at80, width]), Option.bind_some,
    ← List.append_assoc,
    word _ fourth _ (by simp only [List.length_append, at80, width]), Option.map_some]

/-! ### Main results: the driver against the program -/

/-- Every script of the driver writes data that the program reads as the instruction the script
means: the initial parameters field by field, the three texts, the two amounts (refused when they
are no words), the pool, the bare `graduate`, `set_paused(false)` and the update of the threshold,
which asks for more than the cap and so is refused in every state. -/
theorem driver_understood (discriminators : Discriminators) (key : Codec Pubkey)
    (width : key.Width 32) :
    (∀ params : InitializeConfigParams, key.Fits params.dinoBuybackWallet →
      key.Fits params.treasuryWallet → key.Fits params.graduationAuthority →
      (initData discriminators key params).bind (dispatch discriminators key) =
        some (.initializeConfig params)) ∧
    (∀ params instruction,
      (createData discriminators params.name params.symbol params.uri).bind
          (dispatch discriminators key) = some instruction ↔
        createTokenParams.Fits params ∧ instruction = .createToken params) ∧
    (∀ tokensOut maxSolIn instruction,
      (buyData discriminators tokensOut maxSolIn).bind (dispatch discriminators key) =
          some instruction ↔ tokensOut < 2 ^ 64 ∧ maxSolIn < 2 ^ 64 ∧
        instruction = .buy (UInt64.ofNat tokensOut) (UInt64.ofNat maxSolIn)) ∧
    (∀ meteoraLbPair, key.Fits meteoraLbPair →
      dispatch discriminators key (sealData discriminators key meteoraLbPair) =
        some (.sealGraduation meteoraLbPair)) ∧
    dispatch discriminators key (graduateData discriminators) = some .graduate ∧
    dispatch discriminators key (unpauseData discriminators) = some (.setPaused false) ∧
    dispatch discriminators key (lowerThresholdData discriminators) =
      some (.updateConfig lowerThreshold) ∧
    ∀ accounts world world', UpdateConfig.handler accounts world lowerThreshold ≠ .ok world' := by
  refine ⟨fun params dino treasury authority => ?_, fun params instruction => ?_,
    fun tokensOut maxSolIn instruction => ?_, fun meteoraLbPair fits => ?_, ?_, ?_, ?_,
    fun _ _ _ => lowerThreshold_refused⟩
  · have fits := initializeConfigParams_fits dino treasury authority
    rw [initData, encodeInitParams_eq width fits, Option.map_some, Option.bind_some]
    exact @dispatch_data discriminators key (.initializeConfig params) fits
  · simp only [createData, Option.bind_eq_some_iff, Option.map_eq_some_iff,
      encodeCreateParams_eq_some]
    constructor
    · rintro ⟨_, ⟨_, ⟨fits, rfl⟩, rfl⟩, read⟩
      have written := @dispatch_data discriminators key (.createToken params) fits
      exact ⟨fits, Option.some.inj (read.symm.trans written)⟩
    · rintro ⟨fits, rfl⟩
      exact ⟨_, ⟨_, ⟨fits, rfl⟩, rfl⟩, @dispatch_data discriminators key (.createToken params) fits⟩
  · have fits : (Instruction.buy (UInt64.ofNat tokensOut) (UInt64.ofNat maxSolIn)).Fits key :=
      ⟨fits_u64 _, fits_u64 _⟩
    have written := @dispatch_data discriminators key _ fits
    simp only [Option.bind_eq_some_iff, @buyData_eq_some discriminators key]
    constructor
    · rintro ⟨_, ⟨tokensFit, maxFits, rfl⟩, read⟩
      exact ⟨tokensFit, maxFits, Option.some.inj (read.symm.trans written)⟩
    · rintro ⟨tokensFit, maxFits, rfl⟩
      exact ⟨_, ⟨tokensFit, maxFits, rfl⟩, written⟩
  · exact @dispatch_data discriminators key (.sealGraduation meteoraLbPair) fits
  · have written := @dispatch_data discriminators key .graduate trivial
    rwa [Instruction.data, Instruction.arguments, List.append_nil] at written
  · exact @dispatch_data discriminators key (.setPaused false) (by decide : 0 < 256 ^ 1)
  · rw [@lowerThresholdData_eq discriminators key]
    exact dispatch_data ⟨fits_none, fits_none, fits_none, fits_none, fits_none, fits_none,
      fits_none, fits_none, fits_none, fits_none, fits_none, fits_none,
      fun threshold _ => fits_u64 threshold⟩

/-- Keys of their own, written as their numbers after the default key. -/
def numbered : Codec Pubkey :=
  (littleEndian 32).via
    (fun
      | 0 => some .zero
      | index + 1 => some (.external index))
    (fun
      | .zero => 0
      | .external index => index + 1
      | _ => 256 ^ 32)
    (fun key fits => by
      cases key with
      | zero | external => rfl
      | _ => exact absurd fits (Nat.lt_irrefl _))
    (fun index key _ parsed => by cases index <;> rw [← Option.some.inj parsed])

theorem width_numbered : numbered.Width 32 := fun _ _ => length_littleEndianBytes 32 _

/-- The driver's initialisation, with the values of the deployed program. -/
theorem driver_understood_sample :
    (initData anchor numbered Sample.params).bind (dispatch anchor numbered) =
      some (.initializeConfig Sample.params) :=
  (driver_understood anchor numbered width_numbered).1 Sample.params
    (by decide : 2 < 256 ^ 32) (by decide : 3 < 256 ^ 32) (by decide : 4 < 256 ^ 32)

theorem tokenLaunch_fits {key : Codec Pubkey} {launch : TokenLaunch} (mint : key.Fits launch.mint)
    (creator : key.Fits launch.creator) (pool : key.Fits launch.meteoraLbPair) :
    (tokenLaunch key).Fits launch :=
  ⟨mint, creator, fits_i64 _, fits_u64 _, fits_u64 _, fits_u64 _, fits_u64 _, fits_u64 _,
    fits_bool _, fits_bool _, pool, fits_u64 _, fits_u64 _, fits_u8 _, fits_u8 _, fits_u8 _⟩

/-- The account data of a launch is loaded as that launch by the program, which loads nothing else
from it, and the driver reads its four reserves from it. -/
theorem launch_data_read {discriminators : Discriminators} {key : Codec Pubkey}
    (width : key.Width 32) {launch : TokenLaunch} (mint : key.Fits launch.mint)
    (creator : key.Fits launch.creator) (pool : key.Fits launch.meteoraLbPair)
    (reserved : List UInt8) :
    let data := accountData discriminators .tokenLaunchAccount (tokenLaunch key) launch reserved
    loadAccount discriminators .tokenLaunchAccount (tokenLaunch key) data = some launch ∧
      loadAccount discriminators .configAccount (config key) data = none ∧
      getCurveState data = some (CurveState.ofLaunch launch) := by
  intro data
  have fits := tokenLaunch_fits mint creator pool
  refine ⟨loadAccount_eq_some.mpr ⟨fits, reserved, rfl⟩, ?_, ?_⟩
  · rw [Option.eq_none_iff_forall_ne_some]
    intro stored loaded
    obtain ⟨_, _, same⟩ := loadAccount_eq_some.mp loaded
    have named := (discriminated_eq.mpr same).1.symm.trans (discriminated_eq.mpr (rfl : data = _)).1
    cases discriminators.injective named
  · obtain ⟨rest, record⟩ : ∃ rest, (tokenLaunch key).encode launch = key.encode launch.mint ++
        (key.encode launch.creator ++ (i64.encode launch.createdAt ++
        (u64.encode launch.realSolReserves ++ (u64.encode launch.realTokenReserves ++
        (u64.encode launch.virtualSolReserves ++ (u64.encode launch.virtualTokenReserves ++
        rest)))))) := ⟨_, rfl⟩
    have layout : data = (discriminators.bytes .tokenLaunchAccount ++ (key.encode launch.mint ++
        (key.encode launch.creator ++ i64.encode launch.createdAt))) ++
        (u64.encode launch.realSolReserves ++ (u64.encode launch.realTokenReserves ++
        (u64.encode launch.virtualSolReserves ++ (u64.encode launch.virtualTokenReserves ++
        (rest ++ reserved))))) := by
      simp only [data, accountData, record, List.append_assoc]
    rw [layout, getCurveState_words]
    · rfl
    · simp only [List.length_append, discriminators.length, width _ mint, width _ creator]
      rfl

/-- The account of a fresh launch, with its 64 reserved bytes. -/
theorem launch_data_sample :
    let launch := Sample.creation.newLaunch ⟨255, 254, 253⟩ 0 TokenLaunch.curveAllocationUnits
      TokenLaunch.virtualTokenUnits
    getCurveState
        (accountData anchor .tokenLaunchAccount (tokenLaunch numbered) launch (alloc 64)) =
      some ⟨0, 800_000_000_000_000, 30_000_000_000, 1_236_363_636_000_000⟩ := by
  intro launch
  have mint : numbered.Fits launch.mint := (by decide : 6 < 256 ^ 32)
  have creator : numbered.Fits launch.creator := (by decide : 5 < 256 ^ 32)
  have pool : numbered.Fits launch.meteoraLbPair := (by decide : 0 < 256 ^ 32)
  exact (@launch_data_read anchor numbered width_numbered launch mint creator pool _).2.2

end Memecoin.Wire
