import Mathlib.Data.List.Basic

/-! An append-only log with at most one record for each key, whose writes may become durable late.
The first writer of a key wins; a write that loses the race is dropped. -/

namespace Fauxchange.Lib

structure LateLog (R : Type) where
  records : List R
  inFlight : List R

namespace LateLog

variable {R K : Type} [DecidableEq K] (key : R → K)

/-- Make a record durable unless its key is taken. -/
def write (records : List R) (record : R) : List R :=
  if key record ∈ records.map key then records else records ++ [record]

/-- The in-flight write at a position becomes durable. -/
def land (log : LateLog R) (position : Nat) : LateLog R :=
  match log.inFlight[position]? with
  | none => log
  | some record => ⟨write key log.records record, log.inFlight.eraseIdx position⟩

/-- In-flight writes become durable one by one, in the given order. -/
def settle (log : LateLog R) (positions : List Nat) : LateLog R :=
  positions.foldl (land key) log

/-- The writes that a settlement takes out of flight. -/
def picked (log : LateLog R) : List Nat → List R
  | [] => []
  | position :: rest => log.inFlight[position]?.toList ++ picked (land key log position) rest

theorem write_of_taken {records : List R} {record : R} (taken : key record ∈ records.map key) :
    write key records record = records := if_pos taken

theorem write_of_free {records : List R} {record : R} (free : key record ∉ records.map key) :
    write key records record = records ++ [record] := if_neg free

theorem mem_write {records : List R} {record other : R} (member : other ∈ write key records record) :
    other ∈ records ∨ other = record := by
  unfold write at member
  split at member
  · exact Or.inl member
  · simpa using member

theorem key_mem_write (records : List R) (record : R) : key record ∈ (write key records record).map key := by
  unfold write
  split
  next taken => exact taken
  next => simp

theorem mem_write_of_mem {records : List R} {other : R} (record : R) (member : other ∈ records) :
    other ∈ write key records record := by
  unfold write
  split
  · exact member
  · exact List.mem_append_left _ member

@[simp] theorem settle_nil (log : LateLog R) : settle key log [] = log := rfl

theorem settle_cons (log : LateLog R) (position : Nat) (rest : List Nat) :
    settle key log (position :: rest) = settle key (land key log position) rest := rfl

/-- A property that every single landing keeps holds after the settlement. -/
theorem settle_induction {P : LateLog R → Prop} (step : ∀ log position, P log → P (land key log position))
    (log : LateLog R) (positions : List Nat) (initial : P log) : P (settle key log positions) := by
  induction positions generalizing log with
  | nil => exact initial
  | cons position rest ih => exact ih _ (step log position initial)

theorem land_inFlight_subset (log : LateLog R) (position : Nat) :
    (land key log position).inFlight ⊆ log.inFlight := by
  unfold land
  split
  · exact List.Subset.refl _
  · exact List.eraseIdx_subset

theorem settle_inFlight_subset (log : LateLog R) (positions : List Nat) :
    (settle key log positions).inFlight ⊆ log.inFlight :=
  settle_induction key (P := fun later => later.inFlight ⊆ log.inFlight)
    (fun later position included => List.Subset.trans (land_inFlight_subset key later position) included)
    log positions (List.Subset.refl _)

theorem mem_land {log : LateLog R} {position : Nat} {record : R}
    (member : record ∈ (land key log position).records) :
    record ∈ log.records ∨ record ∈ log.inFlight[position]?.toList := by
  unfold land at member
  split at member
  · exact Or.inl member
  next landed found =>
    rcases mem_write key member with old | same
    · exact Or.inl old
    · exact Or.inr (by simp [found, same])

/-- What is durable stays durable. -/
theorem mem_settle_of_mem {log : LateLog R} {positions : List Nat} {record : R} (member : record ∈ log.records) :
    record ∈ (settle key log positions).records := by
  refine settle_induction key (P := fun later => record ∈ later.records) ?_ log positions member
  intro later position durable
  unfold land
  split
  · exact durable
  · exact mem_write_of_mem key _ durable

/-- A durable record was durable before the settlement or is one that the settlement picked. -/
theorem mem_settle {log : LateLog R} {positions : List Nat} {record : R}
    (member : record ∈ (settle key log positions).records) :
    record ∈ log.records ∨ record ∈ picked key log positions := by
  induction positions generalizing log with
  | nil => exact Or.inl member
  | cons position rest ih =>
    rcases ih member with early | later
    · rcases mem_land key early with old | landed
      · exact Or.inl old
      · exact Or.inr (List.mem_append_left _ landed)
    · exact Or.inr (List.mem_append_right _ later)

/-- Nothing can land while every key in flight is taken. -/
theorem settle_records_of_taken (log : LateLog R) (positions : List Nat)
    (taken : ∀ record ∈ log.inFlight, key record ∈ log.records.map key) :
    (settle key log positions).records = log.records := by
  induction positions generalizing log with
  | nil => rfl
  | cons position rest ih =>
    have same : (land key log position).records = log.records := by
      unfold land
      split
      · rfl
      next record found => exact write_of_taken key (taken record (List.mem_of_getElem? found))
    rw [settle_cons, ih]
    · exact same
    · intro record member
      rw [same]
      exact taken record (land_inFlight_subset key log position member)

/-- With one free key in flight, at most one write lands, and it is one of those in flight there. -/
theorem settle_records_of_one_free (log : LateLog R) (positions : List Nat) (free : K)
    (others : ∀ record ∈ log.inFlight, key record ∈ log.records.map key ∨ key record = free) :
    (settle key log positions).records = log.records ∨
      ∃ record ∈ log.inFlight, key record = free ∧
        (settle key log positions).records = log.records ++ [record] := by
  induction positions generalizing log with
  | nil => exact Or.inl rfl
  | cons position rest ih =>
    rw [settle_cons]
    cases found : log.inFlight[position]? with
    | none =>
      have same : land key log position = log := by unfold land; rw [found]
      rw [same]
      exact ih log others
    | some record =>
      have flying : record ∈ log.inFlight := List.mem_of_getElem? found
      have landed : land key log position = ⟨write key log.records record, log.inFlight.eraseIdx position⟩ := by
        unfold land; rw [found]
      by_cases taken : key record ∈ log.records.map key
      · have kept : (land key log position).records = log.records := by
          rw [landed]; exact write_of_taken key taken
        rcases ih (land key log position) (by
            intro other member
            rw [kept]
            exact others other (land_inFlight_subset key log position member)) with same | ⟨other, member, here, same⟩
        · exact Or.inl (same.trans kept)
        · exact Or.inr ⟨other, land_inFlight_subset key log position member, here, by rw [same, kept]⟩
      · have here : key record = free := (others record flying).resolve_left taken
        have grown : (land key log position).records = log.records ++ [record] := by
          rw [landed]; exact write_of_free key taken
        refine Or.inr ⟨record, flying, here, ?_⟩
        rw [settle_records_of_taken, grown]
        intro other member
        rw [grown, List.map_append]
        rcases others other (land_inFlight_subset key log position member) with old | same
        · exact List.mem_append_left _ old
        · exact List.mem_append_right _ (by simp [same, here])

theorem write_keyed {records : List R} (keyed : (records.map key).Nodup) (record : R) :
    ((write key records record).map key).Nodup := by
  unfold write
  split
  · exact keyed
  next free =>
    rw [List.map_append]
    refine List.nodup_append.2 ⟨keyed, List.pairwise_singleton _ _, ?_⟩
    intro old listed new here same
    obtain rfl := List.mem_singleton.1 here
    exact free (same ▸ listed)

/-- A log that holds one durable record for each key, and whose records have a property, durable or in flight. -/
structure Carries (property : R → Prop) (log : LateLog R) : Prop where
  keyed : (log.records.map key).Nodup
  durable : ∀ record ∈ log.records, property record
  flying : ∀ record ∈ log.inFlight, property record

namespace Carries
variable {key} {property : R → Prop} {log : LateLog R}

theorem write (carries : log.Carries key property) {record : R} (holds : property record) :
    Carries key property { log with records := LateLog.write key log.records record } where
  keyed := write_keyed key carries.keyed record
  durable := by
    intro other member
    rcases mem_write key member with old | rfl
    · exact carries.durable other old
    · exact holds
  flying := carries.flying

omit [DecidableEq K] in
theorem fly (carries : log.Carries key property) {record : R} (holds : property record) :
    Carries key property { log with inFlight := log.inFlight ++ [record] } where
  keyed := carries.keyed
  durable := carries.durable
  flying := by
    intro other member
    rcases List.mem_append.1 member with old | new
    · exact carries.flying other old
    · obtain rfl := List.mem_singleton.1 new
      exact holds

theorem land (carries : log.Carries key property) (position : Nat) : (LateLog.land key log position).Carries key property := by
  have flying := fun record member => carries.flying record (land_inFlight_subset key log position member)
  unfold LateLog.land at flying ⊢
  split
  · exact carries
  next record found =>
    rw [found] at flying
    have written := carries.write (carries.flying record (List.mem_of_getElem? found))
    exact ⟨written.keyed, written.durable, flying⟩

theorem settle (carries : log.Carries key property) (positions : List Nat) :
    (LateLog.settle key log positions).Carries key property :=
  settle_induction key (P := fun later => later.Carries key property) (fun _ position carried => land carried position)
    log positions carries

end Carries

end LateLog

end Fauxchange.Lib
