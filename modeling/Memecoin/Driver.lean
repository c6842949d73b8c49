/-
This file models the test driver that buys a launch up to its graduation
threshold, and runs it against the program. Its quotes are those of the program,
computed over unbounded integers. Its loop reads the reserves, picks a chunk,
shrinks the chunk by bisection when it would pass the threshold, and buys. The
loop is written once, over anything that can be read and bought from: run
against the program it does what it does run against four numbers, so what it
achieves is decided on the numbers.
-/

import Memecoin.Library.Bisection
import Memecoin.Lifecycle
import Memecoin.Pricing
import Memecoin.Quotes
import Memecoin.Wire

namespace Memecoin.Driver

open Checked ConstantProduct
open Wire (CurveState)

/-! ### Quotes -/

/-- What ends a script: an exception of its own, or a rejected transaction. -/
inductive DriverError
  | exceedsCurve
  | divisionByZero
  | missingAccount
  | tooLong
  | rejected (error : ProgramError)
  deriving DecidableEq

/-- Division truncates, as it does for `BigInt`. -/
def quoteSolIn (vSol vTok rSol _rTok dy : ℤ) : Except DriverError ℤ := do
  let x := vSol + rSol
  let y := vTok
  let k := x * y
  let newY := y - dy
  require (¬ newY ≤ 0) .exceedsCurve
  let newX := (k + newY - 1).tdiv newY
  pure (newX - x)

/-- `quoteTokensOut`, on integers without bound. -/
def quoteTokensOut (vSol vTok rSol solIn : ℤ) : Except DriverError ℤ := do
  let x := vSol + rSol
  let y := vTok
  let k := x * y
  let newX := x + solIn
  require (¬ newX = 0) .divisionByZero
  let newY := k.tdiv newX
  pure (y - newY)

theorem quoteSolIn_eq_ok {vSol vTok rSol dy : ℕ} {rTok quote : ℤ} :
    quoteSolIn vSol vTok rSol rTok dy = .ok quote ↔
      dy < vTok ∧ quote = cost (vSol + rSol) vTok dy := by
  have open' : ¬ (vTok : ℤ) - dy ≤ 0 ↔ dy < vTok := by omega
  simp only [quoteSolIn, bind_eq_ok, pure_eq_ok, require_eq_ok, exists_const, open']
  refine and_congr_right fun room => ?_
  have divisor : (vTok : ℤ) - dy = (vTok - dy : ℕ) := (Nat.cast_sub room.le).symm
  have dividend : ((vSol : ℤ) + rSol) * vTok + (vTok - dy : ℕ) - 1 =
      ((vSol + rSol) * vTok + (vTok - dy - 1) : ℕ) := by
    push_cast [Nat.cast_sub (show 1 ≤ vTok - dy by omega)]
    ring
  rw [divisor, dividend, ← Int.ofNat_tdiv, cost, Nat.cast_sub (le_ceiling _ _ _ room), Nat.cast_add]
  exact eq_comm

theorem quoteTokensOut_eq_ok {vSol vTok rSol solIn : ℕ} {quote : ℤ} :
    quoteTokensOut vSol vTok rSol solIn = .ok quote ↔
      0 < vSol + rSol + solIn ∧
        quote = vTok - ((vSol + rSol) * vTok / (vSol + rSol + solIn) : ℕ) := by
  have divides : ¬ (vSol : ℤ) + rSol + solIn = 0 ↔ 0 < vSol + rSol + solIn := by omega
  simp only [quoteTokensOut, bind_eq_ok, pure_eq_ok, require_eq_ok, exists_const, divides]
  refine and_congr_right fun _ => ?_
  rw [Int.ofNat_tdiv]
  push_cast
  exact eq_comm

/-- The driver's quotes are those of the program, over all words: where the program quotes, the
driver quotes the same, and where only the driver does, the amount is zero, not in the reserve or
too large for the program's words. -/
theorem quotes_match (vSol vTok rSol rTok : UInt64) :
    (∀ tokensOut solIn : UInt64, solInForTokensOut vSol vTok rSol rTok tokensOut = .ok solIn ↔
      0 < tokensOut.toNat ∧ tokensOut.toNat ≤ rTok.toNat ∧
        (vSol.toNat + rSol.toNat) * vTok.toNat + (vTok.toNat - tokensOut.toNat - 1) < 2 ^ 128 ∧
        quoteSolIn vSol.toNat vTok.toNat rSol.toNat rTok.toNat tokensOut.toNat =
          .ok (solIn.toNat : ℤ)) ∧
    ∀ solIn tokensOut : UInt64, tokensOutForSolIn vSol vTok rSol rTok solIn = .ok tokensOut ↔
      0 < solIn.toNat ∧ tokensOut.toNat ≤ rTok.toNat ∧
        (vSol.toNat + rSol.toNat) * vTok.toNat < 2 ^ 128 ∧
        quoteTokensOut vSol.toNat vTok.toNat rSol.toNat solIn.toNat =
          .ok (tokensOut.toNat : ℤ) := by
  constructor
  · intro tokensOut solIn
    rw [solInForTokensOut_eq_ok, quoteSolIn_eq_ok, Nat.cast_inj]
    tauto
  · intro solIn tokensOut
    rw [tokensOutForSolIn_eq_ok, quoteTokensOut_eq_ok]
    have shrunk : (vSol.toNat + rSol.toNat) * vTok.toNat / (vSol.toNat + rSol.toNat + solIn.toNat) ≤
        vTok.toNat :=
      Nat.div_le_of_le_mul (Nat.mul_le_mul_right _ (Nat.le_add_right _ _))
    rw [purchase, ← Nat.cast_sub shrunk, Nat.cast_inj]
    constructor
    · rintro ⟨paid, fits, quoted, available⟩
      exact ⟨paid, available, fits, by omega, quoted⟩
    · rintro ⟨paid, available, fits, _, quoted⟩
      exact ⟨paid, fits, quoted, available⟩

/-! ### The loop -/

/-- `THRESHOLD`: 5 SOL. -/
def threshold : ℕ := 5_000_000_000

/-- `CHUNK`. -/
def fullChunk : ℕ := 20_000_000_000_000

/-- The amount that an iteration buys: a full chunk, or the greatest that the bisection finds not
to pass the threshold, or what the reserve has left. -/
def chooseChunk (state : CurveState) : Except DriverError ℕ := do
  let projSol ← quoteSolIn state.virtSol state.virtTok state.realSol state.realTok fullChunk
  let chunk ← if state.realSol + projSol > threshold then
      Bisection.search (fun mid => do
        let sol ← quoteSolIn state.virtSol state.virtTok state.realSol state.realTok mid
        pure (decide (state.realSol + sol ≤ threshold))) 1_000_000 fullChunk
    else pure fullChunk
  pure (if chunk > state.realTok then state.realTok else chunk)

/-- How the script ends. -/
inductive Outcome
  | thresholdReached
  | curveNearlyEmpty
  | chunkTooSmall
  | outOfIterations
  | failed (error : DriverError)
  deriving DecidableEq

/-- The loop of the script, with the state that its last iteration read. -/
def loop {State : Type} (read : State → Except DriverError CurveState)
    (buy : ℕ → ℕ → State → Except DriverError State) : ℕ → ℕ → State → Outcome × State
  | 0, _, state => (.outOfIterations, state)
  | iterations + 1, idx, state =>
    match read state with
    | .error error => (.failed error, state)
    | .ok curve =>
      if curve.realSol ≥ threshold then (.thresholdReached, state)
      else if curve.realTok ≤ 1_000_000_000 then (.curveNearlyEmpty, state)
      else match chooseChunk curve with
        | .error error => (.failed error, state)
        | .ok chunk =>
          if chunk < 500_000 then (.chunkTooSmall, state)
          else match buy idx chunk state with
            | .error error => (.failed error, state)
            | .ok next => loop read buy iterations (idx + 1) next

/-- What the script knows: the addresses of one launch and its five buyers, who take turns. -/
structure Session where
  mint : Pubkey
  creator : Pubkey
  dinoBuyback : Pubkey
  treasury : Pubkey
  buyers : Fin 5 → Pubkey

namespace Session

/-- The words that the account data holds for the launch. -/
def getCurveState (session : Session) (world : World) : Except DriverError CurveState := do
  let launch ← okOr (world.launches (.launch session.mint)) .missingAccount
  pure (CurveState.ofLaunch launch)

/-- `ensureBuyerAta`: the buyer's token account is opened when it is missing. -/
def ensureBuyerAta (session : Session) (buyer : Pubkey) (world : World) :
    Except DriverError World :=
  match world.tokenAccounts.get? (.associatedToken buyer session.mint) with
  | some _ => pure world
  | none => (world.execute (.openTokenAccount (.associatedToken buyer session.mint) session.mint
      buyer)).mapError .rejected

/-- The accounts that the script names in a buy. -/
def accounts (session : Session) (buyer : Pubkey) : TradeAccounts where
  trader := buyer
  config := .config
  launch := .launch session.mint
  mint := session.mint
  curveVault := .vault session.mint
  curveTokenAccount := .curveAccount session.mint
  traderTokenAccount := .associatedToken buyer session.mint
  creatorWallet := session.creator
  dinoBuybackWallet := session.dinoBuyback
  treasuryWallet := session.treasury

/-- An integer in eight bytes. -/
def toWord (value : ℤ) : Except DriverError UInt64 :=
  okOr (if 0 ≤ value then toU64 value.toNat else none) .tooLong

/-- `doBuy`: a buy at the quoted cost, with one percent and 0.01 SOL to spare. -/
def doBuy (session : Session) (idx tokensOut : ℕ) (world : World) : Except DriverError World := do
  let buyer := session.buyers (Fin.ofNat 5 idx)
  let state ← session.getCurveState world
  let solToCurve ← quoteSolIn state.virtSol state.virtTok state.realSol state.realTok tokensOut
  let fee := solToCurve.tdiv 100
  let maxSolIn := solToCurve + fee + 10_000_000
  let world ← session.ensureBuyerAta buyer world
  let tokensOut ← toWord tokensOut
  let maxSolIn ← toWord maxSolIn
  (world.execute (.buy (session.accounts buyer) tokensOut maxSolIn)).mapError .rejected

/-- The script against the program. -/
def drive (session : Session) (world : World) : Outcome × World :=
  loop session.getCurveState session.doBuy 100 0 world

end Session

/-! ### The loop on numbers -/

/-- What a chunk adds to the recorded SOL. -/
def charge (state : CurveState) (chunk : ℕ) : ℕ :=
  cost (state.virtSol + state.realSol) state.virtTok chunk

/-- A buy as far as the four words go: it is refused exactly above the cap. -/
def buyNumbers (_idx chunk : ℕ) (state : CurveState) : Except DriverError CurveState := do
  require (state.realSol + charge state chunk ≤ threshold) (.rejected (.memecoin .betaCapExceeded))
  pure { state with
    realSol := state.realSol + charge state chunk
    realTok := state.realTok - chunk
    virtTok := state.virtTok - chunk }

/-- The script against four words. -/
def simulate (iterations idx : ℕ) (state : CurveState) : Outcome × CurveState :=
  loop pure buyNumbers iterations idx state

/-- Loops over related states take the same course, when they read the same and the buys they make
succeed and fail together. The induction is on the iterations. -/
theorem loop_related {State State' : Type} {read : State → Except DriverError CurveState}
    {read' : State' → Except DriverError CurveState}
    {buy : ℕ → ℕ → State → Except DriverError State}
    {buy' : ℕ → ℕ → State' → Except DriverError State'} (related : State → State' → Prop)
    (reads : ∀ state state', related state state' → read state = read' state')
    (buys : ∀ idx chunk state state' curve, related state state' → read state = .ok curve →
      curve.realSol < threshold → 1_000_000_000 < curve.realTok → chooseChunk curve = .ok chunk →
      (∃ next next', buy idx chunk state = .ok next ∧ buy' idx chunk state' = .ok next' ∧
        related next next') ∨
      ∃ error, buy idx chunk state = .error error ∧ buy' idx chunk state' = .error error)
    (iterations idx : ℕ) {state : State} {state' : State'} (start : related state state') :
    (loop read buy iterations idx state).1 = (loop read' buy' iterations idx state').1 ∧
      related (loop read buy iterations idx state).2 (loop read' buy' iterations idx state').2 := by
  induction iterations generalizing idx state state' with
  | zero => exact ⟨rfl, start⟩
  | succ iterations inductionHypothesis =>
    have same := reads state state' start
    rw [loop, loop, ← same]
    cases observed : read state with
    | error error => exact ⟨rfl, start⟩
    | ok curve =>
      simp only
      by_cases reached : curve.realSol ≥ threshold
      · rw [if_pos reached, if_pos reached]
        exact ⟨rfl, start⟩
      rw [if_neg reached, if_neg reached]
      by_cases empty : curve.realTok ≤ 1_000_000_000
      · rw [if_pos empty, if_pos empty]
        exact ⟨rfl, start⟩
      rw [if_neg empty, if_neg empty]
      cases chosen : chooseChunk curve with
      | error error => exact ⟨rfl, start⟩
      | ok chunk =>
        simp only
        by_cases small : chunk < 500_000
        · rw [if_pos small, if_pos small]
          exact ⟨rfl, start⟩
        rw [if_neg small, if_neg small]
        rcases buys idx chunk state state' curve start observed (not_le.mp reached)
          (not_le.mp empty) chosen with ⟨next, next', first, second, onward⟩ |
          ⟨error, first, second⟩
        · rw [first, second]
          exact inductionHypothesis (idx + 1) onward
        · rw [first, second]
          exact ⟨rfl, start⟩

/-! ### The course of the loop on numbers -/

/-- The reserves of a launch that trades. -/
structure OnCurve (state : CurveState) : Prop where
  virtSol : state.virtSol = 30_000_000_000
  capped : state.realSol ≤ threshold
  available : state.realTok ≤ 800_000_000_000_000
  offset : state.virtTok + 800_000_000_000_000 = state.realTok + 1_236_363_636_000_000

theorem onCurve_ofLaunch {market : Market} {launch : TokenLaunch} (live : market.Live launch)
    (books : market.Trading launch) : OnCurve (.ofLaunch launch) where
  virtSol := congrArg UInt64.toNat live.virtualSol
  capped := books.capped
  available := (Nat.le_add_right _ _).trans books.allocation.le
  offset := books.offset

theorem OnCurve.room {state : CurveState} (curve : OnCurve state) {chunk : ℕ}
    (bound : chunk ≤ state.realTok ∨ chunk ≤ fullChunk) : chunk < state.virtTok := by
  have offset := curve.offset
  have full : fullChunk = 20_000_000_000_000 := rfl
  omega

theorem OnCurve.quoteSolIn_eq {state : CurveState} (curve : OnCurve state) {chunk : ℕ}
    (bound : chunk ≤ state.realTok ∨ chunk ≤ fullChunk) :
    quoteSolIn state.virtSol state.virtTok state.realSol state.realTok chunk =
      .ok (charge state chunk : ℤ) :=
  quoteSolIn_eq_ok.mpr ⟨curve.room bound, rfl⟩

theorem OnCurve.charge_mono {state : CurveState} (curve : OnCurve state) {fewer more : ℕ}
    (order : fewer ≤ more) (bound : more ≤ state.realTok ∨ more ≤ fullChunk) :
    charge state fewer ≤ charge state more :=
  cost_mono_amount order (curve.room bound)

/-- The price of a base unit is far below a lamport. -/
theorem OnCurve.charge_succ_le {state : CurveState} (curve : OnCurve state) {chunk : ℕ}
    (bound : chunk + 1 ≤ fullChunk) : charge state (chunk + 1) ≤ charge state chunk + 1 := by
  have offset := curve.offset
  have capped : state.realSol ≤ 5_000_000_000 := curve.capped
  have available := curve.available
  have full : chunk + 1 ≤ 20_000_000_000_000 := bound
  refine cost_succ_le (curve.room (.inr bound)) ?_
  calc (state.virtSol + state.realSol) * state.virtTok
      ≤ 35_000_000_000 * 1_236_363_636_000_000 := by
        rw [curve.virtSol]
        exact Nat.mul_le_mul (by omega) (by omega)
    _ ≤ 416_363_636_000_000 * 416_363_636_000_000 := by decide
    _ ≤ _ := Nat.mul_le_mul (by omega) (by omega)

/-- The least chunk of the bisection is worth less than a hundred lamports. -/
theorem OnCurve.charge_least {state : CurveState} (curve : OnCurve state) :
    charge state 1_000_000 ≤ 100 := by
  have offset := curve.offset
  have capped : state.realSol ≤ 5_000_000_000 := curve.capped
  have virtSol := curve.virtSol
  rw [charge, cost_le_iff (curve.room (.inr (by decide)))]
  omega

/-- What `chooseChunk` returns where the loop buys: a chunk that ends the loop at the threshold or
with the reserve, a full chunk, or the lower end of the bisection, which it never tried. -/
structure Chosen (state : CurveState) (chunk : ℕ) : Prop where
  least : 1_000_000 ≤ chunk
  available : chunk ≤ state.realTok
  course : chunk = 1_000_000 ∧ threshold < state.realSol + charge state chunk ∨
    state.realSol + charge state chunk ≤ threshold ∧
      (chunk = fullChunk ∨ chunk = state.realTok ∨
        state.realSol + charge state chunk = threshold)

/-- Whether a chunk stays below the threshold. -/
def fitsBelow (state : CurveState) (chunk : ℕ) : Bool :=
  state.realSol + charge state chunk ≤ threshold

/-- The bisection lands on the threshold, or on its lower end. -/
theorem OnCurve.search_eq {state : CurveState} (curve : OnCurve state)
    (passes : threshold < state.realSol + charge state fullChunk) :
    ∃ chunk, Bisection.search (fun mid => do
        let sol ← quoteSolIn state.virtSol state.virtTok state.realSol state.realTok mid
        pure (decide (state.realSol + sol ≤ threshold))) 1_000_000 fullChunk = .ok chunk ∧
      1_000_000 ≤ chunk ∧ chunk ≤ fullChunk ∧
      (state.realSol + charge state chunk = threshold ∨
        chunk = 1_000_000 ∧ threshold < state.realSol + charge state chunk) := by
  obtain ⟨chunk, value, found⟩ := @Bisection.search_eq _ (fun mid => do
      let sol ← quoteSolIn state.virtSol state.virtTok state.realSol state.realTok mid
      pure (decide (state.realSol + sol ≤ threshold))) (fitsBelow state) 1_000_000 fullChunk
    (by decide) (fun mid _ below => by
      rw [curve.quoteSolIn_eq (.inr below), fitsBelow]
      show Except.ok _ = _
      norm_cast)
    (fun mid other _ order below passed => by
      have more := curve.charge_mono order (.inr below)
      have fits := of_decide_eq_true passed
      exact decide_eq_true (by omega))
  have below : chunk < fullChunk := by
    refine lt_of_le_of_ne found.le fun full => ?_
    rcases found.passed with least | passed
    · exact absurd (full.symm.trans least) (by decide)
    · rw [full] at passed
      exact Nat.not_le_of_lt passes (of_decide_eq_true passed)
  -- one more base unit passes the threshold, and costs at most one lamport more
  have next := of_decide_eq_false (found.above (chunk + 1) (Nat.lt_succ_self _) below)
  have step := curve.charge_succ_le below
  refine ⟨chunk, value, found.ge, found.le, ?_⟩
  rcases Nat.lt_or_ge threshold (state.realSol + charge state chunk) with beyond | fits
  · refine .inr ⟨found.passed.resolve_right fun passed => ?_, beyond⟩
    exact Nat.not_le_of_lt beyond (of_decide_eq_true passed)
  · exact .inl (by omega)

theorem OnCurve.chooseChunk_eq {state : CurveState} (curve : OnCurve state)
    (remaining : 1_000_000_000 < state.realTok) :
    ∃ chunk, chooseChunk state = .ok chunk ∧ Chosen state chunk := by
  have full : fullChunk = 20_000_000_000_000 := rfl
  simp only [chooseChunk, bind_eq_ok, curve.quoteSolIn_eq (.inr le_rfl), Except.ok.injEq,
    exists_eq_left', gt_iff_lt]
  by_cases passes : threshold < state.realSol + charge state fullChunk
  · obtain ⟨chunk, value, least, most, lands⟩ := curve.search_eq passes
    simp only [if_pos (show (threshold : ℤ) < state.realSol + charge state fullChunk by
      exact_mod_cast passes), bind_eq_ok, pure_eq_ok]
    by_cases cut : state.realTok < chunk
    · -- only the lower end may pass the threshold, and the reserve is above it
      have fewer := curve.charge_mono cut.le (.inr most)
      refine ⟨state.realTok, ⟨chunk, value, if_pos cut⟩, by omega, le_rfl, .inr ⟨by omega, ?_⟩⟩
      exact .inr (.inl rfl)
    · refine ⟨chunk, ⟨chunk, value, if_neg cut⟩, least, not_lt.mp cut, ?_⟩
      rcases lands with lands | lowerEnd
      · exact .inr ⟨lands.le, .inr (.inr lands)⟩
      · exact .inl lowerEnd
  · have fits := not_lt.mp passes
    simp only [if_neg (show ¬ (threshold : ℤ) < state.realSol + charge state fullChunk by
      exact_mod_cast passes), bind_eq_ok, pure_eq_ok, exists_eq_left']
    by_cases cut : state.realTok < fullChunk
    · have fewer := curve.charge_mono cut.le (.inr le_rfl)
      rw [if_pos cut]
      exact ⟨by omega, le_rfl, .inr ⟨by omega, .inr (.inl rfl)⟩⟩
    · rw [if_neg cut]
      exact ⟨by omega, not_lt.mp cut, .inr ⟨fits, .inl rfl⟩⟩

theorem OnCurve.buyNumbers {state next : CurveState} (curve : OnCurve state) {idx chunk : ℕ}
    (available : chunk ≤ state.realTok) (bought : buyNumbers idx chunk state = .ok next) :
    OnCurve next ∧ next.realSol = state.realSol + charge state chunk ∧
      next.realTok + chunk = state.realTok := by
  simp only [Driver.buyNumbers, bind_eq_ok, pure_eq_ok, require_eq_ok, exists_const] at bought
  obtain ⟨fits, rfl⟩ := bought
  have room := curve.room (.inl available)
  have offset := curve.offset
  refine ⟨⟨curve.virtSol, fits, (Nat.sub_le _ _).trans curve.available, ?_⟩, rfl,
    Nat.sub_add_cancel available⟩
  show state.virtTok - chunk + _ = state.realTok - chunk + _
  omega

/-- How the loop ends: exactly at the threshold, with the reserve, or refused at the cap where a
rest is left that is worth less than the least chunk of the bisection. -/
inductive Ends (state : CurveState) : Outcome → Prop
  | thresholdReached (reached : state.realSol = threshold) : Ends state .thresholdReached
  | curveNearlyEmpty (below : state.realSol < threshold) (empty : state.realTok ≤ 1_000_000_000) :
    Ends state .curveNearlyEmpty
  | failed (below : state.realSol < threshold)
    (gap : threshold < state.realSol + charge state 1_000_000) :
    Ends state (.failed (.rejected (.memecoin .betaCapExceeded)))

/-- The loop has no more to buy. -/
def Done (state : CurveState) : Prop :=
  state.realSol = threshold ∨ state.realTok ≤ 1_000_000_000

/-- The induction is on the iterations: a full chunk leaves less than it found, and every other
chunk is the last one. -/
theorem simulate_ends (iterations idx : ℕ) {state : CurveState} (curve : OnCurve state)
    (enough : Done state ∧ 1 ≤ iterations ∨ state.realTok / fullChunk + 2 ≤ iterations) :
    OnCurve (simulate iterations idx state).2 ∧
      Ends (simulate iterations idx state).2 (simulate iterations idx state).1 := by
  induction iterations generalizing idx state with
  | zero =>
    rcases enough with ⟨_, none'⟩ | few
    · exact absurd none' (by decide)
    · exact absurd few (Nat.not_succ_le_zero _)
  | succ iterations inductionHypothesis =>
    rw [simulate, loop]
    simp only [pure, Except.pure]
    by_cases reached : state.realSol ≥ threshold
    · rw [if_pos reached]
      exact ⟨curve, .thresholdReached (curve.capped.antisymm reached)⟩
    rw [if_neg reached]
    by_cases empty : state.realTok ≤ 1_000_000_000
    · rw [if_pos empty]
      exact ⟨curve, .curveNearlyEmpty (not_le.mp reached) empty⟩
    rw [if_neg empty]
    obtain ⟨chunk, value, chosen⟩ := curve.chooseChunk_eq (not_le.mp empty)
    have least := chosen.least
    simp only [value, if_neg (show ¬ chunk < 500_000 by omega)]
    cases bought : Driver.buyNumbers idx chunk state with
    | error error =>
      simp only [Driver.buyNumbers, bind_eq_error, require_eq_error, pure, Except.pure,
        reduceCtorEq, and_false, exists_const, or_false] at bought
      obtain ⟨beyond, rfl⟩ := bought
      rcases chosen.course with ⟨rfl, gap⟩ | ⟨fits, _⟩
      · exact ⟨curve, .failed (not_le.mp reached) gap⟩
      · exact absurd fits beyond
    | ok next =>
      obtain ⟨onward, realSol, realTok⟩ := curve.buyNumbers chosen.available bought
      refine inductionHypothesis (idx + 1) onward ?_
      have going : ¬ Done state := not_or.mpr ⟨fun same => reached same.ge, empty⟩
      have enough := enough.resolve_left fun done => going done.1
      have again : 1 ≤ iterations := Nat.le_of_succ_le_succ ((Nat.le_add_left 2 _).trans enough)
      rcases chosen.course with ⟨_, gap⟩ | ⟨fits, full | rest | exact'⟩
      · exact absurd onward.capped (by rw [realSol]; exact Nat.not_le_of_lt gap)
      · right
        rw [full] at realTok
        rw [← realTok, Nat.add_div_right _ (show 0 < fullChunk by decide)] at enough
        exact Nat.le_of_succ_le_succ ((Nat.succ_add _ 2).symm.trans_le enough)
      · exact .inl ⟨.inr (by omega), again⟩
      · exact .inl ⟨.inl (realSol.trans exact'), again⟩

/-! ### The loop against the program -/

namespace Session

/-- A session whose buys the program accepts as far as the cap allows: it names the accounts of a
launch that trades, pays fees of at most the one per cent that the script adds to its quotes, and
has buyers with keys who own the rest up to the threshold twice over. -/
structure Ready (session : Session) (world : World) (config : Config) (launch : TokenLaunch) :
    Prop where
  reachable : world.Reachable
  configPresent : world.config = some config
  launchPresent : world.launches (.launch session.mint) = some launch
  notPaused : config.paused = false
  tradeFee : config.tradeFeeBps.toNat ≤ 100
  trading : launch.graduated = false
  creator : session.creator = launch.creator
  dinoBuyback : session.dinoBuyback = config.dinoBuybackWallet
  treasury : session.treasury = config.treasuryWallet
  signs : ∀ turn, (session.buyers turn).canSign
  funded : ∀ turn, 2 * (threshold - launch.realSolReserves.toNat) + 200 ≤
    world.lamports (session.buyers turn)
  backed : launch.realTokenReserves.toNat ≤
    world.tokenAccounts.amountAt (.curveAccount session.mint)

variable {session : Session} {world : World} {config : Config} {launch : TokenLaunch}

theorem Ready.onCurve (ready : session.Ready world config launch) : OnCurve (.ofLaunch launch) :=
  onCurve_ofLaunch (ready.reachable.live ready.launchPresent)
    (ready.reachable.trading ready.launchPresent ready.trading)

theorem Ready.getCurveState_eq (ready : session.Ready world config launch) :
    session.getCurveState world = .ok (.ofLaunch launch) := by
  rw [getCurveState, ready.launchPresent]
  rfl

/-- Nothing that the session depends on has changed. -/
theorem Ready.of_same {world' : World} (ready : session.Ready world config launch)
    (reachable : world'.Reachable) (same : world'.config = world.config)
    (launches : world'.launches = world.launches) (lamports : world'.lamports = world.lamports)
    (amounts : ∀ address, world'.tokenAccounts.amountAt address =
      world.tokenAccounts.amountAt address) : session.Ready world' config launch :=
  { ready with
    reachable
    configPresent := same.trans ready.configPresent
    launchPresent := (congrFun launches _).trans ready.launchPresent
    funded := fun turn => lamports ▸ ready.funded turn
    backed := amounts _ ▸ ready.backed }

theorem Ready.met (ready : session.Ready world config launch) {turn : Fin 5}
    (opened : (world.tokenAccounts.get?
      (.associatedToken (session.buyers turn) session.mint)).isSome) :
    (session.accounts (session.buyers turn)).Met world config launch := by
  have wellFormed := ready.reachable.wellFormed
  have launched : (world.mints session.mint).isSome := by
    rw [wellFormed.mintLaunched, ready.launchPresent, Option.isSome_some]
  obtain ⟨account, found⟩ := Option.isSome_iff_exists.mp opened
  have shape : world.tokenAccounts.shape
      (.associatedToken (session.buyers turn) session.mint) = some (account.mint, account.owner) :=
    TokenAccounts.shape_eq_some.mpr ⟨account, found, rfl, rfl⟩
  refine ⟨ready.signs turn, rfl, ready.configPresent, rfl, ready.launchPresent, ?_, launched, rfl,
    wellFormed.curveAccount _ launched, ?_, ready.creator, ready.dinoBuyback, ready.treasury⟩
  · exact (Pubkey.launch.inj (wellFormed.launchAddress _ _ ready.launchPresent)).symm
  · exact shape.trans (congrArg some (wellFormed.associated _ _ _ shape))

/-- The buyer's token account is there, or can be opened: nothing else sits at its address. -/
theorem Ready.ensureBuyerAta_eq (ready : session.Ready world config launch) (turn : Fin 5) :
    ∃ opened, session.ensureBuyerAta (session.buyers turn) world = .ok opened ∧
      session.Ready opened config launch ∧
      (session.accounts (session.buyers turn)).Met opened config launch := by
  rw [ensureBuyerAta]
  cases found : world.tokenAccounts.get? (.associatedToken (session.buyers turn) session.mint) with
  | some account => exact ⟨world, rfl, ready, ready.met (found ▸ rfl)⟩
  | none =>
    have wellFormed := ready.reachable.wellFormed
    have launched : (world.mints session.mint).isSome := by
      rw [wellFormed.mintLaunched, ready.launchPresent, Option.isSome_some]
    have unused : ¬ world.inUse (.associatedToken (session.buyers turn) session.mint) := by
      refine World.not_inUse.mpr ⟨?_, found, ?_, fun equal => nomatch equal⟩
      · refine Option.not_isSome_iff_eq_none.mp fun minted => ?_
        cases ready.reachable.mint_signs ((wellFormed.mintLaunched _).mp minted)
      · refine Option.eq_none_iff_forall_ne_some.mpr fun other present => ?_
        cases wellFormed.launchAddress _ _ present
    have opening : world.execute (.openTokenAccount
        (.associatedToken (session.buyers turn) session.mint) session.mint (session.buyers turn)) =
        .ok (world.initTokenAccount (.associatedToken (session.buyers turn) session.mint)
          session.mint (session.buyers turn)) := by
      simp only [World.execute, World.openTokenAccount, bind_eq_ok, require_eq_ok, pure_eq_ok,
        exists_const]
      exact ⟨launched, .inr trivial, unused, trivial⟩
    have after := ready.of_same (ready.reachable.step opening) rfl rfl rfl
      fun address => TokenAccounts.amountAt_open found _ _ address
    refine ⟨_, mapError_eq_ok.mpr opening, after, after.met ?_⟩
    rw [World.initTokenAccount, Store.get?_set, if_pos rfl, Option.isSome_some]

theorem toWord_eq {value : ℕ} (fits : value < 2 ^ 64) :
    ∃ word, toWord value = .ok word ∧ word.toNat = value := by
  obtain ⟨word, same⟩ := exists_toNat_eq fits
  refine ⟨word, okOr_eq_ok.mpr ?_, same⟩
  rw [if_pos (Int.natCast_nonneg _), Int.toNat_natCast]
  exact toU64_eq_some.mpr same

/-- The limit that the script sends leaves room for its fee and for a hundredth of a SOL. -/
def limit (charge : ℕ) : ℕ := charge + charge / 100 + 10_000_000

theorem Ready.doBuy_eq (ready : session.Ready world config launch) (idx : ℕ) {chunk : ℕ}
    (available : chunk ≤ launch.realTokenReserves.toNat) :
    ∃ opened tokensOut maxSolIn, session.doBuy idx chunk world =
        (opened.execute (.buy (session.accounts (session.buyers (Fin.ofNat 5 idx))) tokensOut
          maxSolIn)).mapError .rejected ∧
      session.Ready opened config launch ∧
      (session.accounts (session.buyers (Fin.ofNat 5 idx))).Met opened config launch ∧
      tokensOut.toNat = chunk ∧ maxSolIn.toNat = limit (launch.solToCurve chunk) := by
  have curve := ready.onCurve
  have books := ready.reachable.trading ready.launchPresent ready.trading
  have small := ready.reachable.x_le ready.launchPresent
  have bound := books.solToCurve_le available
  obtain ⟨opened, opening, after, met⟩ := ready.ensureBuyerAta_eq (Fin.ofNat 5 idx)
  obtain ⟨tokensOut, first, tokens⟩ :=
    toWord_eq (lt_of_le_of_lt available launch.realTokenReserves.toNat_lt)
  obtain ⟨maxSolIn, second, limited⟩ : ∃ word,
      toWord (limit (launch.solToCurve chunk)) = .ok word ∧ word.toNat = _ := toWord_eq (by
    rw [limit]
    omega)
  refine ⟨opened, tokensOut, maxSolIn, ?_, after, met, tokens, limited⟩
  have sent : (launch.solToCurve chunk : ℤ) + (launch.solToCurve chunk : ℤ).tdiv 100 + 10_000_000 =
      limit (launch.solToCurve chunk) := by
    rw [limit, Nat.cast_add, Nat.cast_add, Int.ofNat_tdiv, Nat.cast_ofNat, Nat.cast_ofNat]
  have quoted : quoteSolIn _ _ _ _ chunk = .ok (launch.solToCurve chunk : ℤ) :=
    curve.quoteSolIn_eq (.inl available)
  rw [doBuy, ready.getCurveState_eq]
  simp only [bind, Except.bind]
  rw [quoted]
  simp only [opening]
  rw [sent, first, second]

/-- The limit covers the charge and every fee of at most one per cent. -/
theorem Ready.totalCost_le (ready : session.Ready world config launch) (tokens : ℕ) :
    launch.totalCost config tokens ≤ limit (launch.solToCurve tokens) ∧
      launch.totalCost config tokens ≤ 2 * launch.solToCurve tokens := by
  have fee : config.tradeFee (launch.solToCurve tokens) ≤ launch.solToCurve tokens / 100 :=
    calc launch.solToCurve tokens * config.tradeFeeBps.toNat / 10_000
        ≤ launch.solToCurve tokens * 100 / 10_000 :=
          Nat.div_le_div_right (Nat.mul_le_mul_left _ ready.tradeFee)
      _ = launch.solToCurve tokens / 100 := Nat.mul_div_mul_right _ 100 (by decide)
  rw [TokenLaunch.totalCost, limit]
  omega

/-- The buyer pays for the chunk at most twice what it adds to the recorded SOL. -/
theorem Ready.after_buy (ready : session.Ready world config launch) {turn : Fin 5}
    {tokensOut maxSolIn : UInt64} {world' : World}
    (accepted : world.execute (.buy (session.accounts (session.buyers turn)) tokensOut maxSolIn) =
      .ok world') :
    ∃ launch', session.Ready world' config launch' ∧
      buyNumbers 0 tokensOut.toNat (.ofLaunch launch) = .ok (.ofLaunch launch') := by
  obtain ⟨bought⟩ := Buy.execution accepted
  obtain rfl : config = bought.config :=
    Option.some.inj (ready.configPresent.symm.trans bought.met.configPresent)
  obtain rfl : launch = bought.launch :=
    Option.some.inj (ready.launchPresent.symm.trans bought.met.launchPresent)
  have trade := bought.bought
  obtain ⟨charged, _, owed⟩ := bought.terms_eq
  have twice := (ready.totalCost_le tokensOut.toNat).2
  have realSol := trade.realSol
  have realTokens := trade.realTokens
  have virtualTokens := trade.virtualTokens
  have capped : bought.launch'.realSolReserves.toNat ≤ threshold := trade.capped
  have spent : threshold - bought.launch'.realSolReserves.toNat +
      bought.launch.solToCurve tokensOut.toNat =
        threshold - bought.launch.realSolReserves.toNat := by
    omega
  refine ⟨bought.launch', { ready with
    reachable := ready.reachable.step accepted
    configPresent := (congrArg World.config bought.frame).trans ready.configPresent
    launchPresent := bought.launch_after
    trading := by rw [trade.frame]; exact ready.trading
    creator := by rw [trade.frame]; exact ready.creator
    funded := fun other => ?_
    backed := ?_ }, ?_⟩
  · have paid := bought.lamports (session.buyers other)
    have funds := ready.funded other
    rw [owed] at paid
    split_ifs at paid <;> omega
  · have moved := bought.tokens.amountAt (.curveAccount session.mint)
    have backed := ready.backed
    have kept : world'.tokenAccounts.amountAt (.curveAccount session.mint) + tokensOut.toNat ≥
        world.tokenAccounts.amountAt (.curveAccount session.mint) := by
      split_ifs at moved <;> omega
    omega
  · have virtualSol := trade.virtualSol
    have added : charge (.ofLaunch bought.launch) tokensOut.toNat = bought.terms.solToCurve.toNat :=
      charged.symm
    have reserve : (CurveState.ofLaunch bought.launch).realSol =
      bought.launch.realSolReserves.toNat := rfl
    rw [buyNumbers, added, reserve, ← realSol]
    simp only [bind_eq_ok, require_eq_ok, pure_eq_ok, exists_const]
    refine ⟨capped, ?_⟩
    have tokens : (CurveState.ofLaunch bought.launch).realTok - tokensOut.toNat =
        bought.launch'.realTokenReserves.toNat := Nat.sub_eq_of_eq_add realTokens.symm
    have virtual : (CurveState.ofLaunch bought.launch).virtTok - tokensOut.toNat =
        bought.launch'.virtualTokenReserves.toNat := Nat.sub_eq_of_eq_add virtualTokens.symm
    rw [tokens, virtual, CurveState.ofLaunch, CurveState.ofLaunch, virtualSol]

/-- A buy of the script is accepted as far as the cap allows. -/
theorem Ready.buy_accepted (ready : session.Ready world config launch) {turn : Fin 5}
    (met : (session.accounts (session.buyers turn)).Met world config launch)
    {tokensOut maxSolIn : UInt64} (positive : 0 < tokensOut.toNat)
    (available : tokensOut.toNat ≤ launch.realTokenReserves.toNat)
    (limited : maxSolIn.toNat = limit (launch.solToCurve tokensOut.toNat))
    (fits : launch.realSolReserves.toNat + launch.solToCurve tokensOut.toNat ≤ threshold) :
    ∃ world', world.execute (.buy (session.accounts (session.buyers turn)) tokensOut maxSolIn) =
      .ok world' := by
  obtain ⟨slippage, twice⟩ := ready.totalCost_le tokensOut.toNat
  have funds := ready.funded turn
  refine ready.reachable.buy_accepted met ⟨ready.notPaused, ready.trading, positive, available,
    slippage.trans limited.ge, fits, ?_, available.trans ready.backed⟩
  exact twice.trans (by show _ ≤ world.lamports (session.buyers turn); omega)

/-- Above the cap it is refused for the cap. -/
theorem Ready.buy_refused (ready : session.Ready world config launch) {turn : Fin 5}
    (met : (session.accounts (session.buyers turn)).Met world config launch)
    {tokensOut maxSolIn : UInt64} (positive : 0 < tokensOut.toNat)
    (available : tokensOut.toNat ≤ launch.realTokenReserves.toNat)
    (limited : maxSolIn.toNat = limit (launch.solToCurve tokensOut.toNat))
    (small : launch.solToCurve tokensOut.toNat ≤ 100)
    (beyond : threshold < launch.realSolReserves.toNat + launch.solToCurve tokensOut.toNat) :
    world.execute (.buy (session.accounts (session.buyers turn)) tokensOut maxSolIn) =
      .error (.memecoin .betaCapExceeded) := by
  obtain ⟨slippage, twice⟩ := ready.totalCost_le tokensOut.toNat
  have funds := ready.funded turn
  cases result : world.execute (.buy (session.accounts (session.buyers turn)) tokensOut
    maxSolIn) with
  | ok world' =>
    obtain ⟨launch', after, bought⟩ := ready.after_buy result
    simp only [buyNumbers, bind_eq_ok, require_eq_ok] at bought
    exact absurd bought.choose_spec.1 (Nat.not_le_of_lt beyond)
  | error error =>
    rcases ready.reachable.buy_error result with failed | ⟨_, _, again, refusal⟩
    · cases (TradeAccounts.validate_eq_ok.mpr met).symm.trans failed
    · obtain rfl := Option.some.inj (met.configPresent.symm.trans again.configPresent)
      obtain rfl := Option.some.inj (met.launchPresent.symm.trans again.launchPresent)
      cases refusal with
      | paused paused => cases ready.notPaused.symm.trans paused
      | graduated graduated => cases ready.trading.symm.trans graduated
      | zero zero => exact absurd zero positive.ne'
      | reserves short => exact absurd available (Nat.not_le_of_lt short)
      | slippage above => exact absurd (slippage.trans limited.ge) (Nat.not_le_of_lt above)
      | cap above => rfl
      | lamports short =>
        refine absurd (twice.trans ?_) (Nat.not_le_of_lt short)
        show _ ≤ world.lamports (session.buyers turn)
        omega
      | tokens short => exact absurd (available.trans ready.backed) (Nat.not_le_of_lt short)

/-- The world reads as the four numbers. -/
def Reads (session : Session) (config : Config) (world : World) (state : CurveState) : Prop :=
  ∃ launch, session.Ready world config launch ∧ state = .ofLaunch launch

/-- What the script chooses to buy is bought on both sides, or refused on both for the cap. -/
theorem Reads.doBuy {state : CurveState} (reads : session.Reads config world state) (idx : ℕ)
    {chunk : ℕ} (chosen : Chosen state chunk) :
    (∃ world' state', session.doBuy idx chunk world = .ok world' ∧
        buyNumbers idx chunk state = .ok state' ∧ session.Reads config world' state') ∨
      ∃ error, session.doBuy idx chunk world = .error error ∧
        buyNumbers idx chunk state = .error error := by
  obtain ⟨launch, ready, rfl⟩ := reads
  obtain ⟨opened, tokensOut, maxSolIn, sent, after, met, rfl, limited⟩ :=
    ready.doBuy_eq idx chosen.available
  have positive : 0 < tokensOut.toNat := Nat.lt_of_lt_of_le (by decide) chosen.least
  rw [sent]
  rcases chosen.course with ⟨least, beyond⟩ | ⟨fits, _⟩
  · have small : launch.solToCurve tokensOut.toNat ≤ 100 := by
      rw [least]
      exact ready.onCurve.charge_least
    refine .inr ⟨.rejected (.memecoin .betaCapExceeded), ?_, ?_⟩
    · rw [after.buy_refused met positive chosen.available limited small beyond]
      rfl
    · exact bind_eq_error.mpr (.inl (require_eq_error.mpr ⟨Nat.not_le_of_lt beyond, rfl⟩))
  · obtain ⟨world', accepted⟩ :=
      after.buy_accepted met positive chosen.available limited fits
    obtain ⟨launch', onward, bought⟩ := after.after_buy accepted
    exact .inl ⟨world', _, mapError_eq_ok.mpr accepted, bought, launch', onward, rfl⟩

/-- Against the program the script does what it does against the four numbers. -/
theorem Ready.drive_eq (ready : session.Ready world config launch) :
    (session.drive world).1 = (simulate 100 0 (.ofLaunch launch)).1 ∧
      session.Reads config (session.drive world).2 (simulate 100 0 (.ofLaunch launch)).2 := by
  refine loop_related (session.Reads config) ?_ ?_ 100 0 ⟨launch, ready, rfl⟩
  · rintro world state ⟨launch, ready, rfl⟩
    exact ready.getCurveState_eq
  · rintro idx chunk world state curve ⟨launch, ready, rfl⟩ observed below remaining chosen
    obtain rfl := Except.ok.inj (ready.getCurveState_eq.symm.trans observed)
    obtain ⟨_, value, fits⟩ := ready.onCurve.chooseChunk_eq remaining
    obtain rfl := Except.ok.inj (chosen.symm.trans value)
    exact Reads.doBuy ⟨launch, ready, rfl⟩ idx fits

/-- The loop ends within its hundred iterations, in one of three ways. -/
theorem Ready.drive_spec (ready : session.Ready world config launch) :
    ∃ launch', session.Ready (session.drive world).2 config launch' ∧
      Ends (.ofLaunch launch') (session.drive world).1 := by
  obtain ⟨outcome, launch', after, final⟩ := ready.drive_eq
  have tokens : launch.realTokenReserves.toNat ≤ 800_000_000_000_000 := ready.onCurve.available
  have enough : launch.realTokenReserves.toNat / fullChunk + 2 ≤ 100 :=
    (Nat.add_le_add_right (Nat.div_le_div_right tokens) 2).trans (by decide)
  obtain ⟨_, ends⟩ := simulate_ends 100 0 ready.onCurve (.inr enough)
  rw [← outcome, final] at ends
  exact ⟨launch', after, ends⟩

end Session

/-- The words of a new launch. -/
def fresh : CurveState := ⟨0, 800_000_000_000_000, 30_000_000_000, 1_236_363_636_000_000⟩

/-- A new launch is brought to the threshold: its four words are always the same. -/
theorem Session.Ready.drive_created {session : Session} {world : World} {config : Config}
    {launch : TokenLaunch} (ready : session.Ready world config launch) (created : launch.Created) :
    (session.drive world).1 = .thresholdReached := by
  obtain ⟨accounts, bumps, createdAt, rfl⟩ := created
  rw [ready.drive_eq.1]
  show (simulate 100 0 fresh).1 = .thresholdReached
  decide +kernel

/-! ### Main result -/

end Memecoin.Driver
