import Fauxchange.Exchange.ClOrdIdIndex
import Fauxchange.Lib.MapSum

/-! The two maps of the client-order-id index in step: over any calls, the counter of an account is the number of its
keys, and both ceilings hold. -/

namespace Fauxchange.Exchange
open Lib

namespace ClOrdIdIndex

/-- The keys that an account holds. -/
def keysOf (index : ClOrdIdIndex) (account : AccountId) : List (AccountId × ClientOrderId) :=
  index.map.keys.filter fun key => key.1 = account

/-- One call on the index. -/
inductive Call where
  | record (account : AccountId) (clOrdId : ClientOrderId) (entry : ClOrdIdRecord)
  | retire (account : AccountId) (clOrdId : ClientOrderId)

def call (index : ClOrdIdIndex) : Call → ClOrdIdIndex
  | .record account clOrdId entry => (index.record account clOrdId entry).2
  | .retire account clOrdId => index.retire account clOrdId

def calls (index : ClOrdIdIndex) (made : List Call) : ClOrdIdIndex := made.foldl call index

/-- What is kept for a number of keys: nothing for none. -/
def tally (count : Nat) : Option Nat := if count = 0 then none else some count

theorem tally_getD (count : Nat) : (tally count).getD 0 = count := by
  unfold tally
  split
  next none => exact none.symm
  next => rfl

/-- A key counts for the account that holds it. -/
def holding (account : AccountId) (key : AccountId × ClientOrderId) (_ : ClOrdIdRecord) : Nat :=
  if key.1 = account then 1 else 0

section Counts
variable {index : ClOrdIdIndex} {account : AccountId} {clOrdId : ClientOrderId} {entry : ClOrdIdRecord}

theorem length_keysOf (index : ClOrdIdIndex) (account : AccountId) :
    (index.keysOf account).length = mapSum (holding account) index.map := by
  unfold keysOf mapSum
  rw [← Std.ExtTreeMap.map_fst_toList_eq_keys]
  induction index.map.toList with
  | nil => rfl
  | cons first rest ih =>
    rw [List.map_cons, List.filter_cons, List.map_cons, List.sum_cons, ← ih]
    unfold holding
    by_cases own : first.1.1 = account
    · simp only [own, decide_true, if_true, List.length_cons]
      exact Nat.add_comm _ _
    · simp only [own, decide_false, if_false, Bool.false_eq_true, Nat.zero_add]

/-- The weight of a key that is there, and of one that is not. -/
theorem weightAt_holding (index : ClOrdIdIndex) (other account : AccountId) (clOrdId : ClientOrderId) :
    weightAt (holding other) index.map (account, clOrdId) =
      if (account, clOrdId) ∈ index.map ∧ account = other then 1 else 0 := by
  unfold weightAt holding
  by_cases known : (account, clOrdId) ∈ index.map
  · obtain ⟨held, found⟩ := Option.isSome_iff_exists.1 (Std.ExtTreeMap.mem_iff_isSome_getElem?.1 known)
    simp only [found, known, true_and, Option.map_some, Option.getD_some]
  · have absent := Std.ExtTreeMap.getElem?_eq_none known
    simp only [absent, known, false_and, if_false, Option.map_none, Option.getD_none]

theorem keysOf_upserted (known : (account, clOrdId) ∈ index.map) (other : AccountId) :
    ({ index with map := index.map.insert (account, clOrdId) entry }.keysOf other).length =
      (index.keysOf other).length := by
  have sum := mapSum_insert (holding other) index.map (account, clOrdId) entry
  rw [weightAt_holding] at sum
  rw [length_keysOf, length_keysOf]
  simp only [known, true_and] at sum
  unfold holding at sum ⊢
  dsimp only at sum ⊢
  omega

theorem keysOf_added (unknown : (account, clOrdId) ∉ index.map) (other : AccountId) :
    ({ index with map := index.map.insert (account, clOrdId) entry }.keysOf other).length =
      (index.keysOf other).length + if account = other then 1 else 0 := by
  have sum := mapSum_insert (holding other) index.map (account, clOrdId) entry
  rw [weightAt_holding] at sum
  rw [length_keysOf, length_keysOf]
  simp only [unknown, false_and, if_false] at sum
  unfold holding at sum ⊢
  dsimp only at sum ⊢
  omega

theorem keysOf_removed (known : (account, clOrdId) ∈ index.map) (other : AccountId) :
    (index.keysOf other).length =
      ({ index with map := index.map.erase (account, clOrdId) }.keysOf other).length +
        if account = other then 1 else 0 := by
  have sum := mapSum_erase (holding other) index.map (account, clOrdId)
  rw [weightAt_holding] at sum
  rw [length_keysOf, length_keysOf]
  simp only [known, true_and] at sum
  dsimp only
  omega

end Counts

/-- The counter of each account is the number of its keys, and absent for none; neither ceiling is exceeded. -/
structure Counted (index : ClOrdIdIndex) : Prop where
  counters : ∀ account : AccountId, index.perAccount[account]? = tally (index.keysOf account).length
  fair : ∀ account, (index.keysOf account).length ≤ index.maxPerAccount
  bounded : index.map.size ≤ index.maxEntries

namespace Counted
variable {index : ClOrdIdIndex}

theorem empty (maxEntries maxPerAccount : Nat) : (withCeilings maxEntries maxPerAccount).Counted := by
  have none : ∀ account, (withCeilings maxEntries maxPerAccount).keysOf account = [] := fun _ => rfl
  refine ⟨fun account => ?_, fun account => ?_, Nat.zero_le _⟩
  · rw [none]
    exact Std.ExtTreeMap.getElem?_empty
  · rw [none]
    exact Nat.zero_le _

theorem record (counted : index.Counted) (account : AccountId) (clOrdId : ClientOrderId) (entry : ClOrdIdRecord) :
    (index.record account clOrdId entry).2.Counted := by
  unfold ClOrdIdIndex.record
  split
  next known =>
    refine ⟨fun other => ?_, fun other => ?_, ?_⟩
    · rw [keysOf_upserted known]
      exact counted.counters other
    · rw [keysOf_upserted known]
      exact counted.fair other
    · refine (Std.ExtTreeMap.size_insert.trans (if_pos (Std.ExtTreeMap.mem_iff_contains.1 known))).trans_le ?_
      exact counted.bounded
  next unknown =>
    split
    · exact counted
    next room =>
      dsimp only
      split
      · exact counted
      next fair =>
        have count : index.perAccount.getD account 0 = (index.keysOf account).length := by
          rw [Std.ExtTreeMap.getD_eq_getD_getElem?, counted.counters account, tally_getD]
        rw [count] at fair ⊢
        refine ⟨fun other => ?_, fun other => ?_, ?_⟩
        · refine Eq.trans ?_ (congrArg tally (keysOf_added unknown other).symm)
          rw [Std.ExtTreeMap.getElem?_insert]
          by_cases own : account = other
          · subst own
            rw [if_pos (Std.LawfulEqCmp.compare_eq_iff_eq.2 rfl), if_pos rfl]
            rfl
          · rw [if_neg (fun same => own (Std.LawfulEqCmp.compare_eq_iff_eq.1 same)), if_neg own, Nat.add_zero]
            exact counted.counters other
        · refine (keysOf_added unknown other).trans_le ?_
          dsimp only
          split
          next own =>
            subst own
            exact Nat.not_le.1 fair
          next => exact counted.fair other
        · refine (Std.ExtTreeMap.size_insert.trans (if_neg (mt Std.ExtTreeMap.mem_iff_contains.2 unknown))).trans_le ?_
          exact Nat.not_le.1 room

theorem retire (counted : index.Counted) (account : AccountId) (clOrdId : ClientOrderId) :
    (index.retire account clOrdId).Counted := by
  unfold ClOrdIdIndex.retire
  split
  next known =>
    have removed := keysOf_removed known
    have present : (index.keysOf account).length ≠ 0 := by
      rw [removed account, if_pos rfl]
      exact Nat.succ_ne_zero _
    have bounded : (index.map.erase (account, clOrdId)).size ≤ index.maxEntries :=
      Std.ExtTreeMap.size_erase_le.trans counted.bounded
    have fair : ∀ other, ({ index with map := index.map.erase (account, clOrdId) }.keysOf other).length ≤
        index.maxPerAccount :=
      fun other => (Nat.le.intro (removed other).symm).trans (counted.fair other)
    have counter : index.perAccount[account]? = some (index.keysOf account).length := by
      rw [counted.counters account, tally, if_neg present]
    -- the counters of the other accounts stay, and so do the numbers of their keys
    have others : ∀ other, other ≠ account →
        index.perAccount[other]? = tally ({ index with map := index.map.erase (account, clOrdId) }.keysOf other).length := by
      intro other apart
      rw [counted.counters other, removed other, if_neg (Ne.symm apart), Nat.add_zero]
    have own := removed account
    rw [if_pos rfl] at own
    rw [counter]
    dsimp only
    split
    next last =>
      refine ⟨fun other => ?_, fair, bounded⟩
      rw [Std.ExtTreeMap.getElem?_erase]
      by_cases same : account = other
      · subst same
        rw [if_pos (Std.LawfulEqCmp.compare_eq_iff_eq.2 rfl)]
        have none : ({ index with map := index.map.erase (account, clOrdId) }.keysOf account).length = 0 := by omega
        exact (congrArg tally none).symm
      · rw [if_neg (fun equal => same (Std.LawfulEqCmp.compare_eq_iff_eq.1 equal))]
        exact others other (Ne.symm same)
    next more =>
      refine ⟨fun other => ?_, fair, bounded⟩
      rw [Std.ExtTreeMap.getElem?_insert]
      by_cases same : account = other
      · subst same
        rw [if_pos (Std.LawfulEqCmp.compare_eq_iff_eq.2 rfl)]
        have left : ({ index with map := index.map.erase (account, clOrdId) }.keysOf account).length =
            (index.keysOf account).length - 1 := by omega
        refine Eq.trans ?_ (congrArg tally left.symm)
        rw [tally, if_neg more]
      · rw [if_neg (fun equal => same (Std.LawfulEqCmp.compare_eq_iff_eq.1 equal))]
        exact others other (Ne.symm same)
  next => exact counted

theorem calls (counted : index.Counted) (made : List Call) : (index.calls made).Counted := by
  induction made generalizing index with
  | nil => exact counted
  | cons first rest ih =>
    cases first with
    | record account clOrdId entry => exact ih (counted.record account clOrdId entry)
    | retire account clOrdId => exact ih (counted.retire account clOrdId)

end Counted

theorem call_ceilings (index : ClOrdIdIndex) (made : Call) :
    (index.call made).maxEntries = index.maxEntries ∧ (index.call made).maxPerAccount = index.maxPerAccount := by
  cases made with
  | record account clOrdId entry =>
    unfold call record
    dsimp only
    split
    · exact ⟨rfl, rfl⟩
    · split
      · exact ⟨rfl, rfl⟩
      · split <;> exact ⟨rfl, rfl⟩
  | retire account clOrdId =>
    unfold call retire
    dsimp only
    split
    · split
      · exact ⟨rfl, rfl⟩
      · split <;> exact ⟨rfl, rfl⟩
    · exact ⟨rfl, rfl⟩

theorem calls_ceilings (index : ClOrdIdIndex) (made : List Call) :
    (index.calls made).maxEntries = index.maxEntries ∧ (index.calls made).maxPerAccount = index.maxPerAccount := by
  induction made generalizing index with
  | nil => exact ⟨rfl, rfl⟩
  | cons first rest ih =>
    obtain ⟨entries, perAccount⟩ := call_ceilings index first
    obtain ⟨later, fair⟩ := ih (index.call first)
    exact ⟨later.trans entries, fair.trans perAccount⟩

/-- What the callers of an index with these ceilings rely on. -/
structure InStep (maxEntries maxPerAccount : Nat) (index : ClOrdIdIndex) : Prop where
  counter : ∀ account, index.perAccount.getD account 0 = (index.keysOf account).length
  absent : ∀ account, account ∉ index.perAccount ↔ index.keysOf account = []
  fair : ∀ account, (index.keysOf account).length ≤ min maxPerAccount maxEntries
  bounded : index.map.size ≤ maxEntries
  upserted : ∀ account clOrdId entry, (account, clOrdId) ∈ index.map →
    index.record account clOrdId entry = (.ok (), { index with map := index.map.insert (account, clOrdId) entry }) ∧
      (index.record account clOrdId entry).2.map.size = index.map.size ∧
        ∀ other, ((index.record account clOrdId entry).2.keysOf other).length = (index.keysOf other).length
  refused : ∀ account clOrdId entry error, (index.record account clOrdId entry).1 = .error error →
    (index.record account clOrdId entry).2 = index
  retiredAbsent : ∀ account clOrdId, (account, clOrdId) ∉ index.map → index.retire account clOrdId = index

/-- After any calls the counters are those of the keys, both ceilings hold, an upsert counts nothing, and what is
refused or absent leaves the index as it is. -/
theorem calls_inStep (maxEntries maxPerAccount : Nat) (made : List Call) :
    InStep maxEntries maxPerAccount ((withCeilings maxEntries maxPerAccount).calls made) := by
  have counted := (Counted.empty maxEntries maxPerAccount).calls made
  obtain ⟨entries, perAccount⟩ := calls_ceilings (withCeilings maxEntries maxPerAccount) made
  generalize (withCeilings maxEntries maxPerAccount).calls made = index at *
  constructor
  · intro account
    rw [Std.ExtTreeMap.getD_eq_getD_getElem?, counted.counters account, tally_getD]
  · intro account
    rw [Std.ExtTreeMap.mem_iff_isSome_getElem?, counted.counters account, ← List.length_eq_zero_iff, tally]
    split
    next none => exact iff_of_true nofun none
    next some => exact iff_of_false (fun absent => absent rfl) some
  · intro account
    exact (counted.fair account).trans_eq perAccount
  · exact counted.bounded.trans_eq entries
  · intro account clOrdId entry known
    have upserted : index.record account clOrdId entry =
        (.ok (), { index with map := index.map.insert (account, clOrdId) entry }) := if_pos known
    rw [upserted]
    refine ⟨rfl, ?_, keysOf_upserted known⟩
    exact Std.ExtTreeMap.size_insert.trans (if_pos (Std.ExtTreeMap.mem_iff_contains.1 known))
  · intro account clOrdId entry error failed
    unfold record at failed ⊢
    dsimp only at failed ⊢
    split at failed
    · cases failed
    next unknown =>
      rw [if_neg unknown]
      split at failed
      next full => rw [if_pos full]
      next room =>
        rw [if_neg room]
        split at failed
        next full => rw [if_pos full]
        next => cases failed
  · intro account clOrdId unknown
    exact if_neg unknown

end ClOrdIdIndex

end Fauxchange.Exchange
