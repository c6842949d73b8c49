/-
This file develops the two containers of a ledger. Balances are a function from
holders to amounts, and moving an amount between two holders is described by
one linear equation per holder that also covers the case where the two holders
coincide; a list of signed entries gives each holder the sum of its own. A store
is a finite map whose key set is part of the structure, so that a weight summed
over its values is computable; writing one key changes the total by the new
weight minus the old one.
-/

import Mathlib.Algebra.BigOperators.Group.Finset.Piecewise
import Mathlib.Algebra.BigOperators.Ring.Finset
import Mathlib.Algebra.Order.BigOperators.Group.Finset
import Mathlib.Algebra.Ring.Int.Defs

/-! ### Balances -/

namespace Balances

variable {Holder : Type*} [DecidableEq Holder]

/-- Debit the source, then credit the destination. -/
def move (balance : Holder → ℕ) (source destination : Holder) (amount : ℕ) : Holder → ℕ :=
  let debited := Function.update balance source (balance source - amount)
  Function.update debited destination (debited destination + amount)

/-- The effect of a covered move on every holder, aliased or not. -/
theorem move_apply (balance : Holder → ℕ) (source destination : Holder) (amount : ℕ)
    (covered : amount ≤ balance source) (holder : Holder) :
    move balance source destination amount holder + (if holder = source then amount else 0) =
      balance holder + (if holder = destination then amount else 0) := by
  simp only [move, Function.update_apply]
  by_cases paid : holder = destination <;> by_cases paying : holder = source
  · rw [if_pos paid, if_pos paying, if_pos paid, ← paid, if_pos paying, ← paying]
    rw [← paying] at covered
    omega
  · rw [if_pos paid, if_neg paying, if_pos paid, ← paid, if_neg paying,
      add_zero]
  · rw [if_neg paid, if_pos paying, if_pos paying, if_neg paid, ← paying]
    rw [← paying] at covered
    omega
  · rw [if_neg paid, if_neg paying, if_neg paying, if_neg paid]

/-- What a list of signed entries gives to a holder, over all its entries. -/
def net (entries : List (Holder × ℤ)) (holder : Holder) : ℤ :=
  (entries.map fun entry => if holder = entry.1 then entry.2 else 0).sum

@[simp] theorem net_nil (holder : Holder) : net [] holder = 0 := rfl

@[simp] theorem net_cons (party holder : Holder) (amount : ℤ) (rest : List (Holder × ℤ)) :
    net ((party, amount) :: rest) holder =
      (if holder = party then amount else 0) + net rest holder := rfl

/-- The second balances are the first with some entries added. -/
def Booked (entries : List (Holder × ℤ)) (before after : Holder → ℕ) : Prop :=
  ∀ holder, (after holder : ℤ) = before holder + net entries holder

/-- The sum of all entries. -/
def total (entries : List (Holder × ℤ)) : ℤ := (entries.map (·.2)).sum

omit [DecidableEq Holder] in
@[simp] theorem total_nil : total ([] : List (Holder × ℤ)) = 0 := rfl

omit [DecidableEq Holder] in
@[simp] theorem total_cons (party : Holder) (amount : ℤ) (rest : List (Holder × ℤ)) :
    total ((party, amount) :: rest) = amount + total rest := rfl

theorem net_of_notMem {entries : List (Holder × ℤ)} {holder : Holder}
    (stranger : holder ∉ entries.map (·.1)) : net entries holder = 0 := by
  induction entries with
  | nil => rfl
  | cons entry rest inductionHypothesis =>
    obtain ⟨party, amount⟩ := entry
    rw [List.map_cons, List.mem_cons, not_or] at stranger
    rw [net_cons, if_neg stranger.1, inductionHypothesis stranger.2, add_zero]

/-- A holder whose entries are all gains gains. -/
theorem net_nonneg {entries : List (Holder × ℤ)} {holder : Holder}
    (gains : ∀ entry ∈ entries, entry.1 = holder → 0 ≤ entry.2) : 0 ≤ net entries holder := by
  refine List.sum_nonneg fun amount member => ?_
  obtain ⟨entry, present, rfl⟩ := List.mem_map.mp member
  split_ifs with same
  · exact gains entry present same.symm
  · exact le_rfl

/-- Over holders that include every party, entries add up to their total. -/
theorem sum_net {entries : List (Holder × ℤ)} {parties : Finset Holder}
    (complete : ∀ entry ∈ entries, entry.1 ∈ parties) :
    ∑ holder ∈ parties, net entries holder = total entries := by
  induction entries with
  | nil => simp
  | cons entry rest inductionHypothesis =>
    obtain ⟨party, amount⟩ := entry
    have member := complete _ List.mem_cons_self
    simp only [net_cons, Finset.sum_add_distrib, Finset.sum_ite_eq', if_pos member, total_cons]
    rw [inductionHypothesis fun other later => complete other (List.mem_cons_of_mem _ later)]

/-! ### Conservation -/

/-- Finitely many holders exchanged what they had: together they hold as much as before, and nobody
else has noticed. -/
def Conserved (before after : Holder → ℕ) : Prop :=
  ∃ parties : Finset Holder, (∀ holder, holder ∉ parties → after holder = before holder) ∧
    ∑ holder ∈ parties, after holder = ∑ holder ∈ parties, before holder

omit [DecidableEq Holder] in
theorem Conserved.refl (balance : Holder → ℕ) : Conserved balance balance :=
  ⟨∅, fun _ _ => rfl, rfl⟩

/-- The parties of an exchange may be any larger set. -/
theorem sum_eq_of_subset {before after : Holder → ℕ} {parties more : Finset Holder}
    (outside : ∀ holder, holder ∉ parties → after holder = before holder)
    (same : ∑ holder ∈ parties, after holder = ∑ holder ∈ parties, before holder)
    (subset : parties ⊆ more) : ∑ holder ∈ more, after holder = ∑ holder ∈ more, before holder := by
  rw [← Finset.sum_sdiff subset, ← Finset.sum_sdiff subset, same]
  refine congrArg (· + _) (Finset.sum_congr rfl fun holder member => ?_)
  exact outside holder (Finset.mem_sdiff.mp member).2

theorem Conserved.trans {first second third : Holder → ℕ} (earlier : Conserved first second)
    (later : Conserved second third) : Conserved first third := by
  obtain ⟨parties, outside, same⟩ := earlier
  obtain ⟨others, outside', same'⟩ := later
  refine ⟨parties ∪ others, fun holder stranger => ?_, ?_⟩
  · rw [Finset.mem_union, not_or] at stranger
    exact (outside' holder stranger.2).trans (outside holder stranger.1)
  · rw [sum_eq_of_subset outside' same' Finset.subset_union_right,
      sum_eq_of_subset outside same Finset.subset_union_left]

/-- Entries that add up to nothing conserve what there is. -/
theorem conserved_of_entries {before after : Holder → ℕ} {entries : List (Holder × ℤ)}
    (booked : Booked entries before after) (balanced : total entries = 0) : Conserved before after := by
  refine ⟨(entries.map (·.1)).toFinset, fun holder stranger => ?_, ?_⟩
  · have change := booked holder
    rw [net_of_notMem (by rwa [List.mem_toFinset] at stranger)] at change
    omega
  · have sums : ∑ holder ∈ (entries.map (·.1)).toFinset, (after holder : ℤ) =
        ∑ holder ∈ (entries.map (·.1)).toFinset, (before holder : ℤ) := by
      rw [Finset.sum_congr rfl fun holder _ => booked holder, Finset.sum_add_distrib,
        sum_net fun entry member => List.mem_toFinset.mpr (List.mem_map_of_mem member), balanced,
        add_zero]
    exact_mod_cast sums

end Balances

/-! ### Stores -/

/-- A finite map. -/
structure Store (Key Value : Type*) where
  keys : Finset Key
  get? : Key → Option Value
  mem_keys : ∀ key, key ∈ keys ↔ (get? key).isSome

namespace Store

variable {Key Value : Type*}

/-- The store without keys. -/
def empty : Store Key Value where
  keys := ∅
  get? := fun _ => none
  mem_keys := fun _ => by simp

/-! ### Totals -/

/-- The weight of a key: that of its value, or zero. -/
def weightAt (store : Store Key Value) (weight : Value → ℕ) (key : Key) : ℕ :=
  (store.get? key).elim 0 weight

/-- The sum of a weight over all values. -/
def total (store : Store Key Value) (weight : Value → ℕ) : ℕ :=
  ∑ key ∈ store.keys, store.weightAt weight key

/-! ### Writing -/

variable [DecidableEq Key]

/-- Write a value at a key. -/
def set (store : Store Key Value) (key : Key) (value : Value) : Store Key Value where
  keys := insert key store.keys
  get? := Function.update store.get? key (some value)
  mem_keys := fun other => by
    rw [Finset.mem_insert, store.mem_keys, Function.update_apply]
    split_ifs with same <;> simp [same]

/-- Apply a change to the value at a key, when there is one. -/
def modify (store : Store Key Value) (key : Key) (change : Value → Value) : Store Key Value :=
  match store.get? key with
  | some value => store.set key (change value)
  | none => store

theorem get?_set (store : Store Key Value) (key other : Key) (value : Value) :
    (store.set key value).get? other = if other = key then some value else store.get? other := by
  simp only [set, Function.update_apply]

theorem get?_modify (store : Store Key Value) (key other : Key) (change : Value → Value) :
    (store.modify key change).get? other =
      if other = key then (store.get? key).map change else store.get? other := by
  unfold modify
  cases present : store.get? key with
  | none =>
    split_ifs with same
    · rw [same, present, Option.map_none]
    · rfl
  | some value => rw [get?_set, Option.map_some]

/-- Writing a key changes the total by the new weight minus the old weight of that key. -/
theorem total_set (store : Store Key Value) (key : Key) (value : Value) (weight : Value → ℕ) :
    (store.set key value).total weight + store.weightAt weight key =
      store.total weight + weight value := by
  have others : ∀ other ∈ store.keys.erase key,
      (store.set key value).weightAt weight other = store.weightAt weight other := by
    intro other member
    rw [weightAt, get?_set, if_neg (Finset.ne_of_mem_erase member), weightAt]
  have written : (store.set key value).weightAt weight key = weight value := by
    rw [weightAt, get?_set, if_pos rfl, Option.elim_some]
  have keys : (store.set key value).keys = insert key (store.keys.erase key) :=
    by
    ext other
    simp only [set, Finset.mem_insert, Finset.mem_erase]
    tauto
  have after : (store.set key value).total weight =
      weight value + ∑ other ∈ store.keys.erase key, store.weightAt weight other := by
    rw [total, keys, Finset.sum_insert (Finset.notMem_erase key store.keys), written,
      Finset.sum_congr rfl others]
  have before : store.total weight =
      store.weightAt weight key + ∑ other ∈ store.keys.erase key, store.weightAt weight other := by
    by_cases member : key ∈ store.keys
    · exact (Finset.add_sum_erase store.keys (store.weightAt weight) member).symm
    · have absent : store.get? key = none := by
        rwa [store.mem_keys, Bool.not_eq_true, Option.isSome_eq_false_iff,
          Option.isNone_iff_eq_none] at member
      rw [Finset.erase_eq_of_notMem member, weightAt, absent, Option.elim_none, zero_add, total]
  omega

theorem total_modify (store : Store Key Value) (key : Key) (change : Value → Value)
    (weight : Value → ℕ) (value : Value) (present : store.get? key = some value) :
    (store.modify key change).total weight + weight value =
      store.total weight + weight (change value) := by
  have written := store.total_set key (change value) weight
  rw [weightAt, present, Option.elim_some] at written
  simpa only [modify, present] using written

/-- A new key adds its weight. -/
theorem total_set_of_none (store : Store Key Value) (key : Key) (value : Value)
    (weight : Value → ℕ) (absent : store.get? key = none) :
    (store.set key value).total weight = store.total weight + weight value := by
  have written := store.total_set key value weight
  rwa [weightAt, absent, Option.elim_none, add_zero] at written

end Store
