import Std.Data.ExtTreeMap.Lemmas
import Mathlib.Data.List.Induction
import Mathlib.Data.List.Nodup

/-! Writes of which the last one wins: a list of entries into a finite map, and a field that some writes set and others
leave as it is. -/

namespace Fauxchange.Lib

section Settings
variable {σ ω β : Type} (set : ω → Option β)

/-- The last value that a list of writes sets. -/
def lastSetting (writes : List ω) : Option β := (writes.filterMap set).getLast?

variable {set} {early late : List ω}

theorem lastSetting_append : lastSetting set (early ++ late) = (lastSetting set late).or (lastSetting set early) := by
  unfold lastSetting
  rw [List.filterMap_append, List.getLast?_append]

theorem lastSetting_eq_none : lastSetting set late = none ↔ ∀ write ∈ late, set write = none := by
  unfold lastSetting
  rw [List.getLast?_eq_none_iff, List.filterMap_eq_nil_iff]

/-- Where each write sets the field or leaves it, the field is left at its last setting. -/
theorem foldl_lastSetting {apply : σ → ω → σ} {field : σ → β}
    (sets : ∀ state write, field (apply state write) = (set write).getD (field state)) (state : σ) (writes : List ω) :
    field (writes.foldl apply state) = (lastSetting set writes).getD (field state) := by
  induction writes using List.reverseRecOn with
  | nil => rfl
  | append_singleton writes write ih =>
    rw [List.foldl_append, List.foldl_cons, List.foldl_nil, sets, ih, lastSetting_append]
    cases written : set write with
    | none => simp [lastSetting, written]
    | some value => simp [lastSetting, written]

end Settings

variable {κ α β : Type} {cmp : κ → κ → Ordering} [Std.TransCmp cmp]

def writeAll (key : β → κ) (value : β → α) (map : Std.ExtTreeMap κ α cmp) (entries : List β) :
    Std.ExtTreeMap κ α cmp :=
  entries.foldl (fun map entry => map.insert (key entry) (value entry)) map

variable [Std.LawfulEqCmp cmp] {key : β → κ} {value : β → α} {map : Std.ExtTreeMap κ α cmp} {entries : List β}

theorem nodup_keys (map : Std.ExtTreeMap κ α cmp) : (map.toList.map Prod.fst).Nodup := by
  rw [List.nodup_iff_pairwise_ne, List.pairwise_map]
  exact Std.ExtTreeMap.distinct_keys_toList.imp fun apart same => apart (Std.LawfulEqCmp.compare_eq_iff_eq.2 same)

/-- A key that is not written keeps its value. -/
theorem getElem?_writeAll_of_absent {target : κ} (absent : ∀ entry ∈ entries, key entry ≠ target) :
    (writeAll key value map entries)[target]? = map[target]? := by
  induction entries generalizing map with
  | nil => rfl
  | cons entry rest ih =>
    have later : (writeAll key value (map.insert (key entry) (value entry)) rest)[target]? =
        (map.insert (key entry) (value entry))[target]? :=
      ih fun other member => absent other (List.mem_cons_of_mem _ member)
    have unlike : key entry ≠ target := absent entry (by simp)
    rw [writeAll, List.foldl_cons]
    change (writeAll key value (map.insert (key entry) (value entry)) rest)[target]? = _
    rw [later, Std.ExtTreeMap.getElem?_insert]
    simp [unlike]

/-- The last entry of a key is the one that stays. -/
theorem getElem?_writeAll_of_last {early late : List β} {entry : β}
    (last : ∀ other ∈ late, key other ≠ key entry) :
    (writeAll key value map (early ++ entry :: late))[key entry]? = some (value entry) := by
  have split : writeAll key value map (early ++ entry :: late) =
      writeAll key value ((writeAll key value map early).insert (key entry) (value entry)) late := by
    simp [writeAll]
  rw [split, getElem?_writeAll_of_absent last, Std.ExtTreeMap.getElem?_insert_self]

/-- What is there was there before or has been written. -/
theorem exists_of_getElem?_writeAll {target : κ} {found : α}
    (present : (writeAll key value map entries)[target]? = some found) :
    map[target]? = some found ∨ ∃ entry ∈ entries, key entry = target ∧ value entry = found := by
  induction entries generalizing map with
  | nil => exact Or.inl present
  | cons entry rest ih =>
    rcases @ih (map.insert (key entry) (value entry)) present with early | ⟨other, member, same⟩
    · rw [Std.ExtTreeMap.getElem?_insert] at early
      split at early
      next here =>
        exact Or.inr ⟨entry, by simp, Std.LawfulEqCmp.compare_eq_iff_eq.1 here, Option.some.inj early⟩
      next => exact Or.inl early
    · exact Or.inr ⟨other, List.mem_cons_of_mem _ member, same⟩

/-- With distinct keys every entry stays. -/
theorem getElem?_writeAll_of_mem (distinct : (entries.map key).Nodup) {entry : β} (member : entry ∈ entries) :
    (writeAll key value map entries)[key entry]? = some (value entry) := by
  obtain ⟨early, late, rfl⟩ := List.append_of_mem member
  refine getElem?_writeAll_of_last fun other after same => ?_
  rw [List.map_append, List.map_cons] at distinct
  have apart := (List.nodup_cons.1 (List.nodup_append.1 distinct).2.1).1
  exact apart (List.mem_map.2 ⟨other, after, same⟩)

/-- A map is written from any list of its entries, one for each key. -/
theorem writeAll_eq (distinct : (entries.map key).Nodup)
    (same : ∀ target found, map[target]? = some found ↔ ∃ entry ∈ entries, key entry = target ∧ value entry = found) :
    writeAll key value ∅ entries = map := by
  refine Std.ExtTreeMap.ext_getElem? fun target => Option.ext fun found => ?_
  rw [same]
  constructor
  · intro present
    rcases exists_of_getElem?_writeAll present with before | written
    · simp at before
    · exact written
  · rintro ⟨entry, member, rfl, rfl⟩
    exact getElem?_writeAll_of_mem distinct member

/-- The entries of a map are written back to it. -/
theorem writeAll_toList (capture : κ × α → β) (keyed : ∀ entry ∈ map.toList, key (capture entry) = entry.1)
    (valued : ∀ entry ∈ map.toList, value (capture entry) = entry.2) :
    writeAll key value ∅ (map.toList.map capture) = map := by
  refine writeAll_eq ?_ fun target found => ?_
  · rw [List.map_map, List.nodup_iff_pairwise_ne, List.pairwise_map]
    refine Std.ExtTreeMap.distinct_keys_toList.imp_of_mem fun {left right} here there apart same => apart ?_
    rw [Function.comp_apply, Function.comp_apply, keyed left here, keyed right there] at same
    exact Std.LawfulEqCmp.compare_eq_iff_eq.2 same
  · rw [← Std.ExtTreeMap.mem_toList_iff_getElem?_eq_some]
    constructor
    · intro member
      exact ⟨_, List.mem_map_of_mem member, keyed _ member, valued _ member⟩
    · rintro ⟨_, listed, rfl, rfl⟩
      obtain ⟨entry, member, rfl⟩ := List.mem_map.1 listed
      rw [keyed entry member, valued entry member]
      exact member

/-- What is written hides what was there. -/
theorem getElem?_writeAll_or (target : κ) :
    (writeAll key value map entries)[target]? =
      ((writeAll key value (∅ : Std.ExtTreeMap κ α cmp) entries)[target]?).or map[target]? := by
  induction entries generalizing map with
  | nil => simp [writeAll]
  | cons entry rest ih =>
    change (writeAll key value (map.insert (key entry) (value entry)) rest)[target]? =
      Option.or (writeAll key value ((∅ : Std.ExtTreeMap κ α cmp).insert (key entry) (value entry)) rest)[target]? _
    rw [@ih (map.insert (key entry) (value entry)), @ih ((∅ : Std.ExtTreeMap κ α cmp).insert (key entry) (value entry))]
    simp only [Std.ExtTreeMap.getElem?_insert, Std.LawfulEqCmp.compare_eq_iff_eq]
    by_cases same : key entry = target
    · simp [same]
    · simp [same]

/-- Writing the entries of a class over a map cleared of that class leaves exactly these in it. -/
theorem filter_writeAll (own : α → Bool) (owned : ∀ entry ∈ entries, own (value entry) = true) :
    (writeAll key value (map.filter fun _ old => !own old) entries).filter (fun _ new => own new) =
      writeAll key value ∅ entries := by
  refine Std.ExtTreeMap.ext_getElem? fun target => Option.ext fun new => ?_
  rw [Std.ExtTreeMap.getElem?_filter', Option.filter_eq_some_iff, getElem?_writeAll_or, Option.or_eq_some_iff,
    Std.ExtTreeMap.getElem?_filter', Option.filter_eq_some_iff]
  constructor
  · rintro ⟨written | ⟨-, -, foreign⟩, belongs⟩
    · exact written
    · simp [belongs] at foreign
  · intro written
    refine ⟨Or.inl written, ?_⟩
    rcases exists_of_getElem?_writeAll written with before | ⟨entry, member, -, rfl⟩
    · simp at before
    · exact owned entry member

/-- A class of values apart from those that are cleared and written keeps its entries, unless a key that is written
is one of theirs. -/
theorem filter_writeAll_other (own other : α → Bool) (apart : ∀ held, other held = true → own held = false)
    (owned : ∀ entry ∈ entries, own (value entry) = true)
    (spared : ∀ entry ∈ entries, ∀ held, map[key entry]? = some held → other held = false) :
    (writeAll key value (map.filter fun _ old => !own old) entries).filter (fun _ held => other held) =
      map.filter fun _ held => other held := by
  refine Std.ExtTreeMap.ext_getElem? fun target => Option.ext fun held => ?_
  rw [Std.ExtTreeMap.getElem?_filter', Option.filter_eq_some_iff, Std.ExtTreeMap.getElem?_filter',
    Option.filter_eq_some_iff]
  constructor
  · rintro ⟨present, foreign⟩
    refine ⟨?_, foreign⟩
    rcases exists_of_getElem?_writeAll present with old | ⟨entry, member, -, rfl⟩
    · rw [Std.ExtTreeMap.getElem?_filter', Option.filter_eq_some_iff] at old
      exact old.1
    · have cleared := apart _ foreign
      rw [owned entry member] at cleared
      cases cleared
  · rintro ⟨present, foreign⟩
    refine ⟨?_, foreign⟩
    rw [getElem?_writeAll_of_absent]
    · rw [Std.ExtTreeMap.getElem?_filter', Option.filter_eq_some_iff]
      exact ⟨present, by simp [apart held foreign]⟩
    · rintro entry member rfl
      rw [spared entry member held present] at foreign
      cases foreign

/-! The last element of a log that answers a question. -/

section LastTouch
variable {α β τ : Type} {touch : α → Option β}

def lastTouch (touch : α → Option β) (log : List α) : Option β := log.reverse.findSome? touch

@[simp] theorem lastTouch_nil : lastTouch touch [] = none := rfl

/-- What a later part says counts. -/
theorem lastTouch_append (early late : List α) :
    lastTouch touch (early ++ late) = (lastTouch touch late).or (lastTouch touch early) := by
  unfold lastTouch
  rw [List.reverse_append, List.findSome?_append]

theorem lastTouch_cons (first : α) (rest : List α) :
    lastTouch touch (first :: rest) = (lastTouch touch rest).or (touch first) := by
  rw [← List.singleton_append, lastTouch_append]
  simp [lastTouch]

/-- A log of logs. -/
theorem lastTouch_flatMap {γ : Type} (parts : γ → List α) (log : List γ) :
    lastTouch touch (log.flatMap parts) = lastTouch (fun entry => lastTouch touch (parts entry)) log := by
  induction log with
  | nil => rfl
  | cons first rest ih => rw [List.flatMap_cons, lastTouch_append, ih, lastTouch_cons]

theorem lastTouch_map {γ : Type} (read : γ → α) (log : List γ) :
    lastTouch touch (log.map read) = lastTouch (touch ∘ read) log := by
  unfold lastTouch
  rw [← List.map_reverse, List.findSome?_map]

theorem lastTouch_eq_none_iff {log : List α} : lastTouch touch log = none ↔ ∀ entry ∈ log, touch entry = none := by
  simp [lastTouch]

theorem exists_of_lastTouch {log : List α} {value : β} (last : lastTouch touch log = some value) :
    ∃ entry ∈ log, touch entry = some value := by
  obtain ⟨entry, listed, answered⟩ := List.exists_of_findSome?_eq_some last
  exact ⟨entry, List.mem_reverse.1 listed, answered⟩

/-- Where the elements have an owner, the last word is the last word of its owner alone. -/
theorem lastTouch_owned {owner : α → τ} [DecidableEq τ] {log : List α} {who : τ} {said : β}
    (last : lastTouch (fun entry => (touch entry).map (owner entry, ·)) log = some (who, said)) :
    lastTouch touch (log.filter fun entry => owner entry = who) = some said := by
  induction log with
  | nil => cases last
  | cons first rest ih =>
    rw [lastTouch_cons] at last
    cases later : lastTouch (fun entry => (touch entry).map (owner entry, ·)) rest with
    | some found =>
      rw [later, Option.some_or] at last
      obtain rfl := Option.some.inj last
      have here := ih later
      rw [List.filter_cons]
      split
      · rw [lastTouch_cons, here, Option.some_or]
      · exact here
    | none =>
      rw [later, Option.none_or, Option.map_eq_some_iff] at last
      obtain ⟨value, answers, same⟩ := last
      obtain ⟨rfl, rfl⟩ := Prod.mk.inj same
      have silent : lastTouch touch (rest.filter fun entry => owner entry = owner first) = none := by
        refine lastTouch_eq_none_iff.2 fun entry member => ?_
        have none := lastTouch_eq_none_iff.1 later entry (List.mem_filter.1 member).1
        exact Option.map_eq_none_iff.1 none
      rw [List.filter_cons_of_pos (by simp), lastTouch_cons, silent, Option.none_or, answers]

end LastTouch

end Fauxchange.Lib
