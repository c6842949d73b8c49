/-
This file models the chain the program runs on, as far as its handlers touch
it: lamport balances, mints and token accounts, the program's own accounts, the
clock and the event log. A system transfer moves exactly its amount and fails
only for lack of balance. Rent is left out: both the runtime's check that an
accepted transaction leaves every account with nothing or with the rent-exempt
minimum, and the lamports that a new account (`init`, `init_if_needed`) makes its
payer pay. The token program keeps supply, checks amount, mint and owner in that
order, and creates units in `mint_to` alone. `Mint.minted` is history: everything
`mint_to` ever created.

Each operation is followed by the equation its success is equivalent to, and by
its effect on every balance, every token account and every total.
-/

import Memecoin.State
import Memecoin.Library.Ledger

namespace Memecoin

open Checked

/-! ### The chain state -/

/-- An SPL mint. -/
structure Mint where
  mintAuthority : Pubkey
  supply : ℕ
  minted : ℕ

/-- An SPL token account. -/
structure TokenAccount where
  mint : Pubkey
  owner : Pubkey
  amount : ℕ

/-- The token accounts by address. -/
abbrev TokenAccounts := Store Pubkey TokenAccount

/-- The state of the chain. -/
structure World where
  unixTimestamp : Int64
  lamports : Pubkey → ℕ
  mints : Pubkey → Option Mint
  tokenAccounts : TokenAccounts
  config : Option Config
  launches : Pubkey → Option TokenLaunch
  events : List Event

/-! ### Token accounts -/

namespace TokenAccounts

/-- Rewrite the amount of an account. -/
def changeAmount (accounts : TokenAccounts) (address : Pubkey) (change : ℕ → ℕ) : TokenAccounts :=
  accounts.modify address fun account => { account with amount := change account.amount }

/-- The mint and owner of an account, which no amount change touches. -/
def shape (accounts : TokenAccounts) (address : Pubkey) : Option (Pubkey × Pubkey) :=
  (accounts.get? address).map fun account => (account.mint, account.owner)

/-- The base units on an account, none where there is no account. -/
def amountAt (accounts : TokenAccounts) (address : Pubkey) : ℕ :=
  (accounts.get? address).elim 0 (·.amount)

/-- The base units of a mint that the accounts of the given owners hold together. -/
def held (accounts : TokenAccounts) (mint : Pubkey) (owners : Pubkey → Bool) : ℕ :=
  accounts.total fun account =>
    if account.mint = mint ∧ owners account.owner then account.amount else 0

theorem shape_changeAmount (accounts : TokenAccounts) (address other : Pubkey)
    (change : ℕ → ℕ) : (accounts.changeAmount address change).shape other = accounts.shape other := by
  simp only [shape, changeAmount, Store.get?_modify]
  split_ifs with same
  · rw [same, Option.map_map]
    rfl
  · rfl

theorem shape_eq_some {accounts : TokenAccounts} {address mint owner : Pubkey} :
    accounts.shape address = some (mint, owner) ↔
      ∃ account, accounts.get? address = some account ∧ account.mint = mint ∧
        account.owner = owner := by
  simp only [shape, Option.map_eq_some_iff, Prod.mk.injEq]

theorem amountAt_of_get? {accounts : TokenAccounts} {address : Pubkey} {account : TokenAccount}
    (present : accounts.get? address = some account) : accounts.amountAt address = account.amount := by
  rw [amountAt, present, Option.elim_some]

theorem amountAt_changeAmount {accounts : TokenAccounts} {address : Pubkey}
    {account : TokenAccount} (present : accounts.get? address = some account) (change : ℕ → ℕ)
    (other : Pubkey) :
    (accounts.changeAmount address change).amountAt other =
      if other = address then change account.amount else accounts.amountAt other := by
  simp only [amountAt, changeAmount, Store.get?_modify, present]
  split_ifs <;> rfl

theorem held_changeAmount {accounts : TokenAccounts} {address : Pubkey} {account : TokenAccount}
    (present : accounts.get? address = some account) (change : ℕ → ℕ) (mint : Pubkey)
    (owners : Pubkey → Bool) :
    (accounts.changeAmount address change).held mint owners +
        (if account.mint = mint ∧ owners account.owner then account.amount else 0) =
      accounts.held mint owners +
        (if account.mint = mint ∧ owners account.owner then change account.amount else 0) :=
  accounts.total_modify address _ _ account present

theorem shape_set (accounts : TokenAccounts) (address other : Pubkey) (account : TokenAccount) :
    shape (accounts.set address account) other =
      if other = address then some (account.mint, account.owner) else accounts.shape other := by
  simp only [shape, Store.get?_set]
  split_ifs <;> rfl

/-- Opening an empty account changes no amount. -/
theorem amountAt_open {accounts : TokenAccounts} {address : Pubkey}
    (absent : accounts.get? address = none) (mint owner other : Pubkey) :
    amountAt (accounts.set address ⟨mint, owner, 0⟩) other = accounts.amountAt other := by
  simp only [amountAt, Store.get?_set]
  split_ifs with same
  · rw [same, absent]
    rfl
  · rfl

/-- Opening an empty account changes no holding. -/
theorem held_open {accounts : TokenAccounts} {address : Pubkey}
    (absent : accounts.get? address = none) (opened owner mint : Pubkey) (owners : Pubkey → Bool) :
    held (accounts.set address ⟨opened, owner, 0⟩) mint owners = accounts.held mint owners := by
  rw [held, accounts.total_set_of_none address _ _ absent, ite_self, add_zero]
  rfl

/-- `amount` units of `mint` went from one account to another. -/
structure Moved (accounts : TokenAccounts) (source destination : Pubkey) (amount : ℕ)
    (mint sourceOwner destinationOwner : Pubkey) (accounts' : TokenAccounts) : Prop where
  sourceShape : accounts.shape source = some (mint, sourceOwner)
  destinationShape : accounts.shape destination = some (mint, destinationOwner)
  covered : amount ≤ accounts.amountAt source
  shape : ∀ address, accounts'.shape address = accounts.shape address
  amountAt : ∀ address, accounts'.amountAt address + (if address = source then amount else 0) =
    accounts.amountAt address + (if address = destination then amount else 0)
  held : ∀ other owners,
    accounts'.held other owners + (if mint = other ∧ owners sourceOwner then amount else 0) =
      accounts.held other owners + (if mint = other ∧ owners destinationOwner then amount else 0)

/-- `amount` units of `mint` appeared in an account. -/
structure Credited (accounts : TokenAccounts) (destination : Pubkey) (amount : ℕ)
    (mint destinationOwner : Pubkey) (accounts' : TokenAccounts) : Prop where
  destinationShape : accounts.shape destination = some (mint, destinationOwner)
  shape : ∀ address, accounts'.shape address = accounts.shape address
  amountAt : ∀ address, accounts'.amountAt address =
    accounts.amountAt address + (if address = destination then amount else 0)
  held : ∀ other owners, accounts'.held other owners =
    accounts.held other owners + (if mint = other ∧ owners destinationOwner then amount else 0)

/-- `amount` units of `mint` left an account. -/
structure Debited (accounts : TokenAccounts) (source : Pubkey) (amount : ℕ)
    (mint sourceOwner : Pubkey) (accounts' : TokenAccounts) : Prop where
  sourceShape : accounts.shape source = some (mint, sourceOwner)
  covered : amount ≤ accounts.amountAt source
  shape : ∀ address, accounts'.shape address = accounts.shape address
  amountAt : ∀ address, accounts'.amountAt address + (if address = source then amount else 0) =
    accounts.amountAt address
  held : ∀ other owners,
    accounts'.held other owners + (if mint = other ∧ owners sourceOwner then amount else 0) =
      accounts.held other owners

theorem credited_changeAmount {accounts : TokenAccounts} {destination : Pubkey}
    {account : TokenAccount} (present : accounts.get? destination = some account) (amount : ℕ) :
    accounts.Credited destination amount account.mint account.owner
      (accounts.changeAmount destination (· + amount)) where
  destinationShape := by rw [TokenAccounts.shape, present, Option.map_some]
  shape := fun address => accounts.shape_changeAmount destination address _
  amountAt := fun address => by
    rw [amountAt_changeAmount present]
    split_ifs with same
    · rw [same, amountAt_of_get? present]
    · rfl
  held := fun other owners => by
    have changed := held_changeAmount present (· + amount) other owners
    split_ifs at changed ⊢ <;> omega

theorem debited_changeAmount {accounts : TokenAccounts} {source : Pubkey}
    {account : TokenAccount} (present : accounts.get? source = some account) (amount : ℕ)
    (covered : amount ≤ account.amount) :
    accounts.Debited source amount account.mint account.owner
      (accounts.changeAmount source (· - amount)) where
  sourceShape := by rw [TokenAccounts.shape, present, Option.map_some]
  covered := by rwa [amountAt_of_get? present]
  shape := fun address => accounts.shape_changeAmount source address _
  amountAt := fun address => by
    rw [amountAt_changeAmount present]
    split_ifs with same
    · rw [same, amountAt_of_get? present]
      omega
    · rfl
  held := fun other owners => by
    have changed := held_changeAmount present (· - amount) other owners
    split_ifs at changed ⊢ <;> omega

/-- A debit followed by a credit of the same mint moves the amount; the accounts may coincide. -/
theorem Debited.moved {accounts debited accounts' : TokenAccounts} {source destination : Pubkey}
    {amount : ℕ} {mint sourceOwner destinationOwner : Pubkey}
    (first : accounts.Debited source amount mint sourceOwner debited)
    (second : debited.Credited destination amount mint destinationOwner accounts') :
    accounts.Moved source destination amount mint sourceOwner destinationOwner accounts' where
  sourceShape := first.sourceShape
  destinationShape := (first.shape destination).symm.trans second.destinationShape
  covered := first.covered
  shape := fun address => (second.shape address).trans (first.shape address)
  amountAt := fun address => by
    rw [second.amountAt address, ← first.amountAt address]
    exact Nat.add_right_comm _ _ _
  held := fun other owners => by
    rw [second.held other owners, ← first.held other owners]
    exact Nat.add_right_comm _ _ _

end TokenAccounts

namespace World

/-- Append an event to the log. -/
def emit (world : World) (event : Event) : World :=
  { world with events := world.events ++ [event] }

/-- Whether `init` finds an account at the address. -/
def inUse (world : World) (address : Pubkey) : Bool :=
  (world.mints address).isSome || (world.tokenAccounts.get? address).isSome ||
    (world.launches address).isSome || (address = .config && world.config.isSome)

theorem not_inUse {world : World} {address : Pubkey} :
    ¬ world.inUse address ↔ world.mints address = none ∧
      world.tokenAccounts.get? address = none ∧ world.launches address = none ∧
      (address = .config → world.config = none) := by
  simp only [inUse, Bool.or_eq_true, Bool.and_eq_true, decide_eq_true_eq, not_or, not_and,
    Bool.not_eq_true, Option.isSome_eq_false_iff, Option.isNone_iff_eq_none, and_assoc]

/-! ### The system program -/

/-- `system_program::transfer`. -/
def systemTransfer (world : World) (source destination : Pubkey) (amount : UInt64) :
    Except ProgramError World := do
  require (amount.toNat ≤ world.lamports source) .insufficientLamports
  pure { world with
    lamports := Balances.move world.lamports source destination amount.toNat }

/-- `if share > 0 { transfer }`, the form in which every fee share is paid. -/
def payShare (world : World) (source destination : Pubkey) (share : UInt64) :
    Except ProgramError World :=
  if share > 0 then world.systemTransfer source destination share else pure world

/-- The lamports after a payment, holder by holder. -/
structure Paid (world : World) (source destination : Pubkey) (amount : ℕ) (world' : World) :
    Prop where
  covered : amount ≤ world.lamports source
  frame : world' = { world with lamports := world'.lamports }
  lamports : ∀ holder, world'.lamports holder + (if holder = source then amount else 0) =
    world.lamports holder + (if holder = destination then amount else 0)

theorem systemTransfer_ok {world world' : World} {source destination : Pubkey} {amount : UInt64}
    (accepted : world.systemTransfer source destination amount = .ok world') :
    world.Paid source destination amount.toNat world' := by
  simp only [systemTransfer, bind_eq_ok, pure_eq_ok, require_eq_ok] at accepted
  obtain ⟨_, covered, rfl⟩ := accepted
  exact ⟨covered, rfl, Balances.move_apply _ _ _ _ covered⟩

theorem systemTransfer_error {world : World} {source destination : Pubkey} {amount : UInt64}
    {error : ProgramError} (rejected : world.systemTransfer source destination amount = .error error) :
    world.lamports source < amount.toNat ∧ error = .insufficientLamports := by
  simp only [systemTransfer, bind_eq_error, require_eq_error, pure, Except.pure, reduceCtorEq,
    and_false, exists_const, or_false, not_le] at rejected
  exact ⟨rejected.1, rejected.2.symm⟩

theorem payShare_ok {world world' : World} {source destination : Pubkey} {share : UInt64}
    (accepted : world.payShare source destination share = .ok world') :
    world.Paid source destination share.toNat world' := by
  unfold payShare at accepted
  split at accepted
  · exact systemTransfer_ok accepted
  · rename_i zero
    obtain rfl := pure_eq_ok.mp accepted
    have nothing : share.toNat = 0 := by
      rw [gt_iff_lt, UInt64.lt_iff_toNat_lt, UInt64.toNat_zero] at zero
      omega
    rw [nothing]
    exact ⟨Nat.zero_le _, rfl, fun holder => by simp only [ite_self]⟩

theorem payShare_error {world : World} {source destination : Pubkey} {share : UInt64}
    {error : ProgramError} (rejected : world.payShare source destination share = .error error) :
    world.lamports source < share.toNat ∧ error = .insufficientLamports := by
  unfold payShare at rejected
  split at rejected
  · exact systemTransfer_error rejected
  · cases rejected

/-- Consecutive share payments from one payer. -/
def payShares (world : World) (payer : Pubkey) : List (Pubkey × UInt64) → Except ProgramError World
  | [] => pure world
  | (payee, share) :: rest => do
    let world ← world.payShare payer payee share
    world.payShares payer rest

/-- What a payment list takes from its payer. -/
def owed (payments : List (Pubkey × UInt64)) : ℕ :=
  (payments.map fun payment => payment.2.toNat).sum

/-- What a payment list gives to a holder, over all the roles the holder has in it. -/
def receipts (payments : List (Pubkey × UInt64)) (holder : Pubkey) : ℕ :=
  (payments.map fun payment => if holder = payment.1 then payment.2.toNat else 0).sum

@[simp] theorem owed_nil : owed [] = 0 := rfl

@[simp] theorem owed_cons (payee : Pubkey) (share : UInt64) (rest : List (Pubkey × UInt64)) :
    owed ((payee, share) :: rest) = share.toNat + owed rest := rfl

@[simp] theorem receipts_nil (holder : Pubkey) : receipts [] holder = 0 := rfl

@[simp] theorem receipts_cons (payee holder : Pubkey) (share : UInt64)
    (rest : List (Pubkey × UInt64)) :
    receipts ((payee, share) :: rest) holder =
      (if holder = payee then share.toNat else 0) + receipts rest holder := rfl

theorem receipts_eq_zero {payments : List (Pubkey × UInt64)} {holder : Pubkey}
    (stranger : ∀ payment ∈ payments, holder ≠ payment.1) : receipts payments holder = 0 := by
  induction payments with
  | nil => rfl
  | cons payment rest inductionHypothesis =>
    obtain ⟨payee, share⟩ := payment
    rw [receipts_cons, if_neg (stranger _ List.mem_cons_self),
      inductionHypothesis fun other member => stranger other (List.mem_cons_of_mem _ member)]

/-- The lamports after a payment list, holder by holder. -/
structure PaidShares (world : World) (payer : Pubkey) (payments : List (Pubkey × UInt64))
    (world' : World) : Prop where
  frame : world' = { world with lamports := world'.lamports }
  lamports : ∀ holder,
    world'.lamports holder + (if holder = payer then owed payments else 0) =
      world.lamports holder + receipts payments holder

theorem payShares_ok {world world' : World} {payer : Pubkey} {payments : List (Pubkey × UInt64)}
    (accepted : world.payShares payer payments = .ok world') :
    world.PaidShares payer payments world' := by
  induction payments generalizing world with
  | nil =>
    obtain rfl := pure_eq_ok.mp accepted
    exact ⟨rfl, fun holder => by simp only [owed_nil, ite_self, receipts_nil]⟩
  | cons payment rest inductionHypothesis =>
    obtain ⟨payee, share⟩ := payment
    obtain ⟨paid, first, later⟩ := bind_eq_ok.mp accepted
    have head := payShare_ok first
    have tail := inductionHypothesis later
    refine ⟨tail.frame.trans (by rw [head.frame]), fun holder => ?_⟩
    have headEquation := head.lamports holder
    have tailEquation := tail.lamports holder
    rw [receipts_cons, owed_cons]
    split_ifs at headEquation tailEquation ⊢ <;> omega

/-- A payment list fails only on a payer who does not own what it owes. -/
theorem payShares_error {world : World} {payer : Pubkey} {payments : List (Pubkey × UInt64)}
    {error : ProgramError} (rejected : world.payShares payer payments = .error error) :
    world.lamports payer < owed payments ∧ error = .insufficientLamports := by
  induction payments generalizing world with
  | nil => cases rejected
  | cons payment rest inductionHypothesis =>
    obtain ⟨payee, share⟩ := payment
    rw [owed_cons]
    rcases bind_eq_error.mp rejected with failed | ⟨paid, first, later⟩
    · have short := payShare_error failed
      exact ⟨by omega, short.2⟩
    · have head := (payShare_ok first).lamports payer
      have short := inductionHypothesis later
      rw [if_pos rfl] at head
      exact ⟨by omega, short.2⟩

theorem owed_append (first second : List (Pubkey × UInt64)) :
    owed (first ++ second) = owed first + owed second := by
  rw [owed, List.map_append, List.sum_append]
  rfl

theorem receipts_append (first second : List (Pubkey × UInt64)) (holder : Pubkey) :
    receipts (first ++ second) holder = receipts first holder + receipts second holder := by
  rw [receipts, List.map_append, List.sum_append]
  rfl

/-- Two payment lists of one payer, with steps between them that move no lamports. -/
theorem PaidShares.lamports_append {world middle later world' : World} {payer : Pubkey}
    {firstList secondList : List (Pubkey × UInt64)}
    (first : world.PaidShares payer firstList middle)
    (second : later.PaidShares payer secondList world') (same : later.lamports = middle.lamports)
    (holder : Pubkey) :
    world'.lamports holder + (if holder = payer then owed (firstList ++ secondList) else 0) =
      world.lamports holder + receipts (firstList ++ secondList) holder := by
  have head := first.lamports holder
  have tail := second.lamports holder
  rw [same] at tail
  rw [owed_append, receipts_append]
  split_ifs at head tail ⊢ <;> omega

/-- A payment followed by a payment list of the same payer. -/
theorem Paid.lamports_andShares {world middle world' : World} {payer payee : Pubkey} {amount : ℕ}
    {payments : List (Pubkey × UInt64)} (first : world.Paid payer payee amount middle)
    (second : middle.PaidShares payer payments world') (holder : Pubkey) :
    world'.lamports holder + (if holder = payer then amount + owed payments else 0) =
      world.lamports holder + (if holder = payee then amount else 0) +
        receipts payments holder := by
  have head := first.lamports holder
  have tail := second.lamports holder
  split_ifs at head tail ⊢ <;> omega

/-! ### The token program -/

/-- A new mint without supply. -/
def initMint (world : World) (mint authority : Pubkey) : World :=
  { world with
    mints := Function.update world.mints mint (some ⟨authority, 0, 0⟩) }

/-- A new token account without tokens. -/
def initTokenAccount (world : World) (address mint owner : Pubkey) : World :=
  { world with tokenAccounts := world.tokenAccounts.set address ⟨mint, owner, 0⟩ }

/-- `token::transfer`. The source may be the destination. -/
def tokenTransfer (world : World) (source destination authority : Pubkey) (amount : UInt64) :
    Except ProgramError World := do
  let sourceAccount ← okOr (world.tokenAccounts.get? source) .accountNotInitialized
  let destinationAccount ← okOr (world.tokenAccounts.get? destination) .accountNotInitialized
  require (amount.toNat ≤ sourceAccount.amount) .insufficientFunds
  require (sourceAccount.mint = destinationAccount.mint) .mintMismatch
  require (sourceAccount.owner = authority) .ownerMismatch
  pure { world with
    tokenAccounts := (world.tokenAccounts.changeAmount source (· - amount.toNat)).changeAmount
      destination (· + amount.toNat) }

/-- `token::mint_to`. -/
def mintTo (world : World) (mint destination authority : Pubkey) (amount : UInt64) :
    Except ProgramError World := do
  let mintAccount ← okOr (world.mints mint) .accountNotInitialized
  let destinationAccount ← okOr (world.tokenAccounts.get? destination) .accountNotInitialized
  require (destinationAccount.mint = mint) .mintMismatch
  require (mintAccount.mintAuthority = authority) .ownerMismatch
  require (mintAccount.supply + amount.toNat < 2 ^ 64) .supplyOverflow
  pure { world with
    mints := Function.update world.mints mint (some { mintAccount with
      supply := mintAccount.supply + amount.toNat
      minted := mintAccount.minted + amount.toNat })
    tokenAccounts := world.tokenAccounts.changeAmount destination (· + amount.toNat) }

/-- `token::burn`. -/
def burn (world : World) (address authority : Pubkey) (amount : UInt64) :
    Except ProgramError World := do
  let account ← okOr (world.tokenAccounts.get? address) .accountNotInitialized
  let mintAccount ← okOr (world.mints account.mint) .accountNotInitialized
  require (amount.toNat ≤ account.amount) .insufficientFunds
  require (account.owner = authority) .ownerMismatch
  require (amount.toNat ≤ mintAccount.supply) .supplyOverflow
  pure { world with
    mints := Function.update world.mints account.mint (some { mintAccount with
      supply := mintAccount.supply - amount.toNat })
    tokenAccounts := world.tokenAccounts.changeAmount address (· - amount.toNat) }

theorem tokenTransfer_ok {world world' : World} {source destination authority : Pubkey}
    {amount : UInt64} (accepted : world.tokenTransfer source destination authority amount = .ok world') :
    world' = { world with tokenAccounts := world'.tokenAccounts } ∧
      ∃ mint destinationOwner, world.tokenAccounts.Moved source destination amount.toNat mint
        authority destinationOwner world'.tokenAccounts := by
  simp only [tokenTransfer, bind_eq_ok, pure_eq_ok, require_eq_ok, okOr_eq_ok, exists_and_left,
    exists_const] at accepted
  obtain ⟨sourceAccount, sourcePresent, destinationAccount, destinationPresent, covered, sameMint,
    rfl, rfl⟩ := accepted
  refine ⟨rfl, sourceAccount.mint, destinationAccount.owner, ?_⟩
  have debited := TokenAccounts.debited_changeAmount sourcePresent amount.toNat covered
  -- the destination is read after the debit, in case it is the source
  have destinationShape : (world.tokenAccounts.changeAmount source (· - amount.toNat)).shape
      destination = some (sourceAccount.mint, destinationAccount.owner) := by
    rw [debited.shape, sameMint, TokenAccounts.shape, destinationPresent, Option.map_some]
  obtain ⟨account, present, mint, owner⟩ := TokenAccounts.shape_eq_some.mp destinationShape
  rw [← mint, ← owner]
  rw [← mint] at debited
  exact debited.moved (TokenAccounts.credited_changeAmount present amount.toNat)

/-- A transfer between accounts of the right mint and owner fails only for lack of tokens. -/
theorem tokenTransfer_error {world : World} {source destination authority : Pubkey}
    {amount : UInt64} {error : ProgramError}
    (rejected : world.tokenTransfer source destination authority amount = .error error) :
    error = .accountNotInitialized ∨
      (error = .insufficientFunds ∧ world.tokenAccounts.amountAt source < amount.toNat) ∨
      error = .mintMismatch ∨ error = .ownerMismatch := by
  rcases bind_eq_error.mp rejected with failed | ⟨sourceAccount, present, rejected⟩
  · exact .inl (okOr_eq_error.mp failed).2.symm
  rcases bind_eq_error.mp rejected with failed | ⟨_, _, rejected⟩
  · exact .inl (okOr_eq_error.mp failed).2.symm
  rcases bind_eq_error.mp rejected with failed | ⟨_, _, rejected⟩
  · obtain ⟨short, rfl⟩ := require_eq_error.mp failed
    rw [TokenAccounts.amountAt_of_get? (okOr_eq_ok.mp present)]
    exact .inr (.inl ⟨rfl, Nat.lt_of_not_le short⟩)
  rcases bind_eq_error.mp rejected with failed | ⟨_, _, rejected⟩
  · exact .inr (.inr (.inl (require_eq_error.mp failed).2.symm))
  rcases bind_eq_error.mp rejected with failed | ⟨_, _, rejected⟩
  · exact .inr (.inr (.inr (require_eq_error.mp failed).2.symm))
  · cases rejected

/-- Between two accounts of one mint, under the authority of the first, a transfer fails only for
lack of tokens. -/
theorem tokenTransfer_short {world : World} {source destination authority mint owner : Pubkey}
    {amount : UInt64} {error : ProgramError}
    (rejected : world.tokenTransfer source destination authority amount = .error error)
    (sourceShape : world.tokenAccounts.shape source = some (mint, authority))
    (destinationShape : world.tokenAccounts.shape destination = some (mint, owner)) :
    world.tokenAccounts.amountAt source < amount.toNat ∧ error = .insufficientFunds := by
  obtain ⟨sourceAccount, sourceFound, rfl, rfl⟩ := TokenAccounts.shape_eq_some.mp sourceShape
  obtain ⟨destinationAccount, destinationFound, sameMint, _⟩ :=
    TokenAccounts.shape_eq_some.mp destinationShape
  rw [TokenAccounts.amountAt_of_get? sourceFound]
  simp only [tokenTransfer, sourceFound, destinationFound, okOr, sameMint, bind_eq_error,
    require_eq_error, Except.ok.injEq, exists_eq_left', reduceCtorEq, false_or, not_true_eq_false,
    false_and, require_eq_ok, exists_const, pure, Except.pure, and_false, or_false, not_le]
    at rejected
  exact ⟨rejected.1, rejected.2.symm⟩

theorem mintTo_ok {world world' : World} {mint destination authority : Pubkey} {amount : UInt64}
    (accepted : world.mintTo mint destination authority amount = .ok world') :
    ∃ account : Mint, world.mints mint = some account ∧ account.mintAuthority = authority ∧
      account.supply + amount.toNat < 2 ^ 64 ∧ world' = { world with
        mints := Function.update world.mints mint (some { account with
          supply := account.supply + amount.toNat
          minted := account.minted + amount.toNat })
        tokenAccounts := world'.tokenAccounts } ∧
      ∃ owner, world.tokenAccounts.Credited destination amount.toNat mint owner
        world'.tokenAccounts := by
  simp only [mintTo, bind_eq_ok, pure_eq_ok, require_eq_ok, okOr_eq_ok, exists_and_left,
    exists_const] at accepted
  obtain ⟨account, present, destinationAccount, destinationPresent, rfl, authorised, fits, rfl⟩ :=
    accepted
  exact ⟨account, present, authorised, fits, rfl, destinationAccount.owner,
    TokenAccounts.credited_changeAmount destinationPresent amount.toNat⟩

theorem mintTo_ne_insufficientLamports {world : World} {mint destination authority : Pubkey}
    {amount : UInt64} : world.mintTo mint destination authority amount ≠
      .error .insufficientLamports := by
  have fails : FailsOnly (· ≠ .insufficientLamports)
      (world.mintTo mint destination authority amount) :=
    failsOnly_bind (failsOnly_okOr (by decide)) fun _ =>
      failsOnly_bind (failsOnly_okOr (by decide)) fun _ =>
      failsOnly_bind (failsOnly_require (by decide)) fun _ =>
      failsOnly_bind (failsOnly_require (by decide)) fun _ =>
      failsOnly_bind (failsOnly_require (by decide)) fun _ => failsOnly_pure _
  exact fun rejected => fails _ rejected rfl

/-- Minting to an existing account of the mint, under its authority, fails only when the supply
would overflow. -/
theorem mintTo_error {world : World} {mint destination authority : Pubkey} {amount : UInt64}
    {error : ProgramError} (rejected : world.mintTo mint destination authority amount = .error error)
    {account : Mint} (present : world.mints mint = some account)
    (authorised : account.mintAuthority = authority) {owner : Pubkey}
    (shape : world.tokenAccounts.shape destination = some (mint, owner)) :
    2 ^ 64 ≤ account.supply + amount.toNat ∧ error = .supplyOverflow := by
  obtain ⟨destinationAccount, found, mintMatches, _⟩ := TokenAccounts.shape_eq_some.mp shape
  simp only [mintTo, present, found, okOr, mintMatches, authorised, bind_eq_error, require_eq_error,
    Except.ok.injEq, exists_eq_left', reduceCtorEq, false_or, not_true_eq_false, false_and,
    require_eq_ok, true_and, exists_const, pure, Except.pure, and_false, or_false, not_lt]
    at rejected
  exact ⟨rejected.1, rejected.2.symm⟩

theorem burn_ok {world world' : World} {address authority : Pubkey} {amount : UInt64}
    (accepted : world.burn address authority amount = .ok world') :
    ∃ (mint : Pubkey) (account : Mint), world.mints mint = some account ∧
      world' = { world with
        mints := Function.update world.mints mint (some { account with
          supply := account.supply - amount.toNat })
        tokenAccounts := world'.tokenAccounts } ∧
      amount.toNat ≤ account.supply ∧
      world.tokenAccounts.Debited address amount.toNat mint authority world'.tokenAccounts := by
  simp only [burn, bind_eq_ok, pure_eq_ok, require_eq_ok, okOr_eq_ok, exists_and_left,
    exists_const] at accepted
  obtain ⟨account, present, mintAccount, mintPresent, covered, rfl, supplied, rfl⟩ := accepted
  exact ⟨account.mint, mintAccount, mintPresent, rfl, supplied,
    TokenAccounts.debited_changeAmount present amount.toNat covered⟩

/-! ### Account constraints -/

/-- `seeds = [Config::SEED], bump = config.bump`. -/
def loadConfig (world : World) (address : Pubkey) : Except ProgramError Config := do
  require (address = .config) .constraintSeeds
  okOr world.config .accountNotInitialized

/-- `seeds = [LAUNCH_SEED, mint], bump = launch.bump, has_one = mint`. The stored bump is the
one that `find_program_address` returned, so the seeds are those of the address. -/
def loadLaunch (world : World) (address mint : Pubkey) : Except ProgramError TokenLaunch := do
  require (address = .launch mint) .constraintSeeds
  let launch ← okOr (world.launches address) .accountNotInitialized
  require (launch.mint = mint) .constraintHasOne
  pure launch

/-- `token::mint = mint, token::authority = owner`. -/
def checkTokenAccount (world : World) (address mint owner : Pubkey) :
    Except ProgramError Unit := do
  let account ← okOr (world.tokenAccounts.get? address) .accountNotInitialized
  require (account.mint = mint) .constraintTokenMint
  require (account.owner = owner) .constraintTokenOwner

/-- Write the launch account. -/
def writeLaunch (world : World) (address : Pubkey) (launch : TokenLaunch) : World :=
  { world with launches := Function.update world.launches address (some launch) }

theorem loadConfig_eq_ok {world : World} {address : Pubkey} {config : Config} :
    world.loadConfig address = .ok config ↔ address = .config ∧ world.config = some config := by
  simp only [loadConfig, bind_eq_ok, require_eq_ok, okOr_eq_ok, exists_const]

theorem loadLaunch_eq_ok {world : World} {address mint : Pubkey} {launch : TokenLaunch} :
    world.loadLaunch address mint = .ok launch ↔
      address = .launch mint ∧ world.launches (.launch mint) = some launch ∧
        launch.mint = mint := by
  simp only [loadLaunch, bind_eq_ok, pure_eq_ok, require_eq_ok, okOr_eq_ok, exists_const]
  constructor
  · rintro ⟨rfl, _, present, bound, rfl⟩
    exact ⟨rfl, present, bound⟩
  · rintro ⟨rfl, present, bound⟩
    exact ⟨rfl, launch, present, bound, rfl⟩

theorem checkTokenAccount_eq_ok {world : World} {address mint owner : Pubkey} {done : Unit} :
    world.checkTokenAccount address mint owner = .ok done ↔
      world.tokenAccounts.shape address = some (mint, owner) := by
  simp only [checkTokenAccount, bind_eq_ok, require_eq_ok, okOr_eq_ok, exists_const,
    TokenAccounts.shape_eq_some]

theorem loadConfig_failsOnly (world : World) (address : Pubkey) :
    FailsOnly (ProgramError.ofConstraints ·) (world.loadConfig address) :=
  failsOnly_bind (failsOnly_require rfl) fun _ => failsOnly_okOr rfl

theorem loadLaunch_failsOnly (world : World) (address mint : Pubkey) :
    FailsOnly (ProgramError.ofConstraints ·) (world.loadLaunch address mint) :=
  failsOnly_bind (failsOnly_require rfl) fun _ => failsOnly_bind (failsOnly_okOr rfl) fun launch =>
    failsOnly_bind (failsOnly_require rfl) fun _ => failsOnly_pure launch

theorem checkTokenAccount_failsOnly (world : World) (address mint owner : Pubkey) :
    FailsOnly (ProgramError.ofConstraints ·) (world.checkTokenAccount address mint owner) :=
  failsOnly_bind (failsOnly_okOr rfl) fun _ => failsOnly_bind (failsOnly_require rfl) fun _ =>
    failsOnly_require rfl

/-- `init_if_needed` with `associated_token::mint = mint, associated_token::authority = owner`. -/
def initAssociatedIfNeeded (world : World) (address mint owner : Pubkey) :
    Except ProgramError World := do
  require (address = .associatedToken owner mint) .constraintAssociated
  match world.tokenAccounts.get? address with
  | none => pure (world.initTokenAccount address mint owner)
  | some account => do
    require (account.mint = mint) .constraintTokenMint
    require (account.owner = owner) .constraintTokenOwner
    pure world

/-- The account exists afterwards, and no other account, amount or holding has changed. -/
theorem initAssociatedIfNeeded_ok {world world' : World} {address mint owner : Pubkey}
    (accepted : world.initAssociatedIfNeeded address mint owner = .ok world') :
    address = .associatedToken owner mint ∧
      world' = { world with tokenAccounts := world'.tokenAccounts } ∧
      (∀ other, world'.tokenAccounts.shape other =
        if other = address then some (mint, owner) else world.tokenAccounts.shape other) ∧
      (∀ other, world'.tokenAccounts.amountAt other = world.tokenAccounts.amountAt other) ∧
      ∀ other owners,
        world'.tokenAccounts.held other owners = world.tokenAccounts.held other owners := by
  simp only [initAssociatedIfNeeded, bind_eq_ok, require_eq_ok, exists_const] at accepted
  obtain ⟨named, accepted⟩ := accepted
  split at accepted
  · rename_i absent
    obtain rfl := pure_eq_ok.mp accepted
    exact ⟨named, rfl, fun other => TokenAccounts.shape_set _ _ _ _,
      fun other => TokenAccounts.amountAt_open absent _ _ _,
      fun other owners => TokenAccounts.held_open absent _ _ _ _⟩
  · rename_i account present
    simp only [bind_eq_ok, require_eq_ok, pure_eq_ok, exists_const] at accepted
    obtain ⟨rfl, rfl, rfl⟩ := accepted
    refine ⟨named, rfl, fun other => ?_, fun _ => rfl, fun _ _ => rfl⟩
    split_ifs with same
    · rw [same, TokenAccounts.shape, present, Option.map_some]
    · rfl

theorem initAssociatedIfNeeded_failsOnly (world : World) (address mint owner : Pubkey) :
    FailsOnly (ProgramError.ofConstraints ·) (world.initAssociatedIfNeeded address mint owner) := by
  refine failsOnly_bind (failsOnly_require rfl) fun _ => ?_
  cases world.tokenAccounts.get? address with
  | none => exact failsOnly_pure _
  | some account =>
    exact failsOnly_bind (failsOnly_require rfl) fun _ =>
      failsOnly_bind (failsOnly_require rfl) fun _ => failsOnly_pure world

/-! ### Holdings -/

/-- What the accounts owned by the launch PDA hold. -/
def curveTokens (world : World) (mint : Pubkey) : ℕ :=
  world.tokenAccounts.held mint fun owner => owner = .launch mint

/-- What all other accounts hold. -/
def otherTokens (world : World) (mint : Pubkey) : ℕ :=
  world.tokenAccounts.held mint fun owner => ! decide (owner = .launch mint)

/-- What the accounts of one holder hold. -/
def holderTokens (world : World) (mint holder : Pubkey) : ℕ :=
  world.tokenAccounts.held mint fun owner => owner = holder

end World

end Memecoin
