import Mathlib.Data.List.Nodup
import Fauxchange.Fix.Framing

/-! Messages as rows of slots. The readers of a frame find in it what the slots of its message hold, and the splitter
of repeating groups gives back the entries that were written. -/

namespace Fauxchange.Fix
open Exchange Lib

/-- A place in a message: a tag, with its text where the message has one. -/
structure WireSlot where
  tag : Nat
  text : Option String

def WireSlot.write (slot : WireSlot) : List Field := FieldWriter.optStr slot.tag slot.text

def written (slots : List WireSlot) : List Field := slots.flatMap WireSlot.write

def boolText : Bool → String
  | true => "Y"
  | false => "N"

namespace FieldWriter

theorem str_eq (tag : Nat) (value : String) : str tag value = WireSlot.write ⟨tag, some value⟩ := rfl

theorem optStr_eq (tag : Nat) (value : Option String) : optStr tag value = WireSlot.write ⟨tag, value⟩ := rfl

theorem u64_eq (tag value : Nat) : u64 tag value = WireSlot.write ⟨tag, some (toString value)⟩ := rfl

theorem optU64_eq (tag : Nat) (value : Option Nat) : optU64 tag value = WireSlot.write ⟨tag, value.map toString⟩ := by
  cases value <;> rfl

theorem optBool_eq (tag : Nat) (value : Option Bool) : optBool tag value = WireSlot.write ⟨tag, value.map boolText⟩ := by
  rcases value with - | - | - <;> rfl

end FieldWriter

section Written
variable {slots : List WireSlot} {tag : Nat}

theorem mem_write {slot : WireSlot} {field : Field} (member : field ∈ slot.write) :
    field.tag = slot.tag ∧ ∃ text, slot.text = some text ∧ field.value = some text := by
  unfold WireSlot.write FieldWriter.optStr at member
  split at member
  next text present =>
    obtain rfl := List.mem_singleton.1 member
    exact ⟨rfl, text, present, rfl⟩
  next => cases member

theorem mem_written {field : Field} :
    field ∈ written slots → ∃ slot ∈ slots, field.tag = slot.tag ∧ ∃ text, slot.text = some text ∧ field.value = some text := by
  intro member
  obtain ⟨slot, listed, inside⟩ := List.mem_flatMap.1 member
  exact ⟨slot, listed, mem_write inside⟩

theorem written_nil : written [] = [] := rfl

theorem written_cons (slot : WireSlot) (rest : List WireSlot) : written (slot :: rest) = slot.write ++ written rest := rfl

theorem written_append (slots more : List WireSlot) : written (slots ++ more) = written slots ++ written more :=
  List.flatMap_append

/-- The tags that stand are among those of the slots, in their order. -/
theorem tags_written_sublist (slots : List WireSlot) : ((written slots).map Field.tag).Sublist (slots.map WireSlot.tag) := by
  induction slots with
  | nil => exact List.Sublist.refl _
  | cons slot rest ih =>
    have split : (written (slot :: rest)).map Field.tag = slot.write.map Field.tag ++ (written rest).map Field.tag := by
      rw [← List.map_append]
      rfl
    rw [split]
    cases text : slot.text with
    | none =>
      have empty : slot.write = [] := by
        unfold WireSlot.write
        rw [text]
        rfl
      rw [empty]
      exact ih.cons _
    | some value =>
      have one : slot.write.map Field.tag = [slot.tag] := by
        unfold WireSlot.write
        rw [text]
        rfl
      rw [one]
      exact ih.cons_cons _

theorem length_written_le (slots : List WireSlot) : (written slots).length ≤ slots.length := by
  have shorter := (tags_written_sublist slots).length_le
  rwa [List.length_map, List.length_map] at shorter

end Written

namespace FieldBag
variable {fields : FieldBag} {tag : Nat}

theorem find_append (front back : FieldBag) : find (front ++ back) tag = (find front tag).or (find back tag) := by
  unfold find
  rw [List.find?_append]
  cases List.find? (fun field => field.tag == tag) front <;> rfl

theorem find_eq_none (absent : ∀ field ∈ fields, field.tag ≠ tag) : find fields tag = none := by
  have missed : List.find? (fun field => field.tag == tag) fields = none :=
    List.find?_eq_none.2 fun field member => by simpa using absent field member
  unfold find
  rw [missed]
  rfl

/-- What is found under the tag of a slot is the text of the slot. -/
theorem find_written {slots : List WireSlot} {text : Option String} (keys : (slots.map WireSlot.tag).Nodup)
    (placed : slots.find? (fun slot => slot.tag == tag) = some ⟨tag, text⟩) : find (written slots) tag = text.map some := by
  induction slots with
  | nil => cases placed
  | cons slot rest ih =>
    obtain ⟨alone, later⟩ := List.nodup_cons.1 keys
    have split : find (written (slot :: rest)) tag = (find slot.write tag).or (find (written rest) tag) :=
      find_append slot.write (written rest)
    rw [List.find?_cons] at placed
    rw [split]
    cases here : slot.tag == tag with
    | true =>
      rw [here] at placed
      obtain rfl := Option.some.inj placed
      have absent : find (written rest) tag = none := find_eq_none fun field member same => by
        obtain ⟨other, listed, agrees, -⟩ := mem_written member
        exact alone (List.mem_map.2 ⟨other, listed, agrees.symm.trans same⟩)
      rw [absent]
      cases text with
      | none => rfl
      | some value =>
        unfold WireSlot.write FieldWriter.optStr FieldWriter.str find
        simp
    | false =>
      rw [here] at placed
      have skipped : find slot.write tag = none := find_eq_none fun field member same => by
        rw [← same, (mem_write member).1, beq_self_eq_true] at here
        cases here
      rw [skipped, ih later placed]
      rfl

section Readers

theorem optStr_of_find {text : Option String} (found : find fields tag = text.map some) : optStr fields tag = .ok text := by
  unfold optStr
  rw [found]
  cases text <;> rfl

theorem reqStr_of_find {text : String} (found : find fields tag = (some text).map some) : reqStr fields tag = .ok text := by
  unfold reqStr
  rw [optStr_of_find found]
  rfl

theorem optU64_of_find {value : Option Nat} (found : find fields tag = (value.map toString).map some)
    (fits : ∀ number ∈ value, number ≤ u64Max) : optU64 fields tag = .ok value := by
  unfold optU64
  rw [optStr_of_find found]
  cases value with
  | none => rfl
  | some number =>
    dsimp only [bind, Except.bind, Option.map_some]
    rw [parseUint_toString (fits number rfl)]

theorem reqU64_of_find {value : Nat} (found : find fields tag = (some (toString value)).map some) (fits : value ≤ u64Max) :
    reqU64 fields tag = .ok value := by
  unfold reqU64
  rw [@optU64_of_find fields tag (some value) found (by simpa using fits)]
  rfl

theorem reqU32_of_find {value : Nat} (found : find fields tag = (some (toString value)).map some) (fits : value ≤ u32Max) :
    reqU32 fields tag = .ok value := by
  have wide : value ≤ u64Max := Nat.le_trans fits (by decide)
  unfold reqU32
  rw [reqU64_of_find found wide]
  exact if_pos fits

theorem optU16_of_find {value : Option Nat} (found : find fields tag = (value.map toString).map some)
    (fits : ∀ number ∈ value, number ≤ u16Max) : optU16 fields tag = .ok value := by
  unfold optU16
  rw [optStr_of_find found]
  cases value with
  | none => rfl
  | some number =>
    dsimp only [bind, Except.bind, Option.map_some]
    rw [parseUint_toString (fits number rfl)]

theorem reqU16_of_find {value : Nat} (found : find fields tag = (some (toString value)).map some) (fits : value ≤ u16Max) :
    reqU16 fields tag = .ok value := by
  unfold reqU16
  rw [@optU16_of_find fields tag (some value) found (by simpa using fits)]
  rfl

theorem optBool_of_find {value : Option Bool} (found : find fields tag = (value.map boolText).map some) :
    optBool fields tag = .ok value := by
  unfold optBool
  rw [optStr_of_find found]
  rcases value with - | - | - <;> rfl

/-- A value is read back where its text is parsed back. -/
theorem decodeOptional_of_find {α : Type} {parse : String → Except FixDecodeError α} {render : α → String} {value : Option α}
    (found : find fields tag = (value.map render).map some) (back : ∀ part ∈ value, parse (render part) = .ok part) :
    decodeOptional fields tag parse = .ok value := by
  unfold decodeOptional
  rw [optStr_of_find found]
  cases value with
  | none => rfl
  | some part =>
    dsimp only [bind, Except.bind, Option.map_some]
    rw [back part rfl]

end Readers

section Duplicates
variable {symbolRepeatable : Bool}

/-- The tags that may stand only once, as they stand. -/
def scalarTags (symbolRepeatable : Bool) (fields : FieldBag) : List Nat :=
  (fields.map Field.tag).filter fun tag => !repeatable symbolRepeatable tag

theorem rejectDuplicates_ok {seen : List Nat} (once : (scalarTags symbolRepeatable fields).Nodup)
    (fresh : ∀ tag ∈ scalarTags symbolRepeatable fields, tag ∉ seen) :
    rejectDuplicates symbolRepeatable seen fields = .ok () := by
  induction fields generalizing seen with
  | nil => rfl
  | cons field rest ih =>
    unfold rejectDuplicates
    unfold scalarTags at once fresh
    rw [List.map_cons, List.filter_cons] at once fresh
    cases repeats : repeatable symbolRepeatable field.tag with
    | true =>
      rw [repeats] at once fresh
      exact ih once fresh
    | false =>
      rw [repeats] at once fresh
      obtain ⟨alone, later⟩ := List.nodup_cons.1 once
      obtain ⟨unseen, others⟩ := List.forall_mem_cons.1 fresh
      rw [if_neg (by decide), if_neg unseen]
      refine ih later fun tag member => ?_
      rw [List.mem_cons, not_or]
      exact ⟨fun same => alone (same ▸ member), others tag member⟩

end Duplicates

section Groups
variable {countTag declared delimiterTag : Nat} {memberTags : List Nat} {bags : List FieldBag}

/-- An entry as it is written: its delimiter, then other members of the group. -/
def Entry (delimiterTag : Nat) (memberTags : List Nat) (bag : FieldBag) : Prop :=
  ∃ head rest, bag = head :: rest ∧ head.tag = delimiterTag ∧
    ∀ field ∈ rest, field.tag ≠ delimiterTag ∧ field.tag ∈ memberTags

/-- Fields at which a group is over. -/
def Ends (delimiterTag : Nat) (memberTags : List Nat) (after : List Field) : Prop :=
  ∀ field ∈ after.head?, field.tag ≠ delimiterTag ∧ field.tag ∉ memberTags

section Cut
variable {current : Option FieldBag} {entry region after : List Field} {field : Field}

theorem splitGroup_opens (opens : field.tag = delimiterTag) :
    splitGroup countTag declared delimiterTag memberTags current (field :: region) = (do
      let later ← splitGroup countTag declared delimiterTag memberTags (some [field]) region
      .ok (current.toList ++ later)) := by
  rw [splitGroup.eq_def]
  exact if_pos opens

theorem splitGroup_extends (apart : field.tag ≠ delimiterTag) (member : field.tag ∈ memberTags) :
    splitGroup countTag declared delimiterTag memberTags (some entry) (field :: region) =
      splitGroup countTag declared delimiterTag memberTags (some (entry ++ [field])) region := by
  rw [splitGroup.eq_def]
  exact (if_neg apart).trans (if_pos member)

theorem splitGroup_foreign (apart : field.tag ≠ delimiterTag) (foreign : field.tag ∉ memberTags) :
    splitGroup countTag declared delimiterTag memberTags current (field :: region) = .ok current.toList := by
  rw [splitGroup.eq_def]
  exact (if_neg apart).trans (if_neg foreign)

theorem splitGroup_members {rest : List Field} (members : ∀ field ∈ rest, field.tag ≠ delimiterTag ∧ field.tag ∈ memberTags) :
    splitGroup countTag declared delimiterTag memberTags (some entry) (rest ++ region) =
      splitGroup countTag declared delimiterTag memberTags (some (entry ++ rest)) region := by
  induction rest generalizing entry with
  | nil => rw [List.nil_append, List.append_nil]
  | cons field rest ih =>
    obtain ⟨⟨apart, member⟩, later⟩ := List.forall_mem_cons.1 members
    rw [List.cons_append, splitGroup_extends apart member, ih later, List.append_assoc, List.singleton_append]

theorem splitGroup_written (entries : ∀ bag ∈ bags, Entry delimiterTag memberTags bag)
    (ends : Ends delimiterTag memberTags after) :
    splitGroup countTag declared delimiterTag memberTags current (bags.flatten ++ after) = .ok (current.toList ++ bags) := by
  induction bags generalizing current with
  | nil =>
    rw [List.flatten_nil, List.nil_append, List.append_nil]
    cases after with
    | nil => rfl
    | cons field rest =>
      obtain ⟨apart, foreign⟩ := ends field rfl
      exact splitGroup_foreign apart foreign
  | cons bag later ih =>
    obtain ⟨⟨head, rest, rfl, opens, members⟩, others⟩ := List.forall_mem_cons.1 entries
    rw [List.flatten_cons, List.cons_append, List.cons_append, splitGroup_opens opens, List.append_assoc,
      splitGroup_members members, ih others]
    rfl

end Cut

/-- A group that was written is read as its entries. -/
theorem group_written {before after : List Field} (first : ∀ field ∈ before, field.tag ≠ countTag)
    (entries : ∀ bag ∈ bags, Entry delimiterTag memberTags bag) (ends : Ends delimiterTag memberTags after)
    (few : bags.length ≤ maxGroupEntries) :
    group (before ++ ⟨countTag, some (toString bags.length)⟩ :: (bags.flatten ++ after)) countTag delimiterTag memberTags =
      .ok bags := by
  have found : find (before ++ ⟨countTag, some (toString bags.length)⟩ :: (bags.flatten ++ after)) countTag =
      some (some (toString bags.length)) := by
    rw [find_append, find_eq_none first]
    simp [find]
  have passed : ∀ field ∈ before, (field.tag != countTag) = true := fun field member => bne_iff_ne.2 (first field member)
  unfold group
  rw [reqU32_of_find found (Nat.le_trans few (by decide))]
  dsimp only [bind, Except.bind]
  rw [if_neg (Nat.not_lt.2 few), List.dropWhile_append_of_pos passed, List.dropWhile_cons_of_neg (by simp),
    List.drop_one, List.tail_cons, splitGroup_written entries ends]
  exact if_pos rfl

end Groups

end FieldBag

/-- The decoding of a list undoes what was done to each of its elements. -/
theorem mapM_map_ok {α β ε : Type} {decode : α → Except ε β} {encode : β → α} {values : List β}
    (back : ∀ value ∈ values, decode (encode value) = .ok value) : (values.map encode).mapM decode = .ok values := by
  induction values with
  | nil => rfl
  | cons value rest ih =>
    obtain ⟨here, later⟩ := List.forall_mem_cons.1 back
    rw [List.map_cons, List.mapM_cons, here, ih later]
    rfl

/-- The slots of a message and the rest of its fields, in the middle of a frame. -/
structure Laid (slots : List WireSlot) (rest fields : List Field) : Prop where
  around : ∃ lead trail, fields = lead ++ (written slots ++ rest) ++ trail ∧ ((lead ++ trail).map Field.tag).Sublist framingTags
  keys : (slots.map WireSlot.tag).Nodup
  inner : ∀ slot ∈ slots, slot.tag ∉ framingTags
  apart : ∀ slot ∈ slots, ∀ field ∈ rest, field.tag ≠ slot.tag
  foreign : ∀ field ∈ rest, field.tag ∉ framingTags

namespace Laid
variable {slots : List WireSlot} {rest fields : List Field} {tag : Nat} {text : Option String}

theorem find (laid : Laid slots rest fields) (placed : slots.find? (fun slot => slot.tag == tag) = some ⟨tag, text⟩) :
    FieldBag.find fields tag = text.map some := by
  obtain ⟨lead, trail, rfl, framing⟩ := laid.around
  have listed := List.mem_of_find?_eq_some placed
  have outside : ∀ field ∈ lead ++ trail, field.tag ≠ tag := fun field member same =>
    laid.inner _ listed (same ▸ framing.subset (List.mem_map_of_mem member))
  rw [FieldBag.find_append, FieldBag.find_append, FieldBag.find_append,
    FieldBag.find_eq_none fun field member => outside field (List.mem_append_left _ member),
    FieldBag.find_eq_none fun field member => outside field (List.mem_append_right _ member),
    FieldBag.find_eq_none fun field member => laid.apart _ listed field member, FieldBag.find_written laid.keys placed]
  cases text <;> rfl

/-- No tag of a scalar stands twice. -/
theorem unique {symbolRepeatable : Bool} (laid : Laid slots rest fields)
    (once : (FieldBag.scalarTags symbolRepeatable rest).Nodup) :
    FieldBag.rejectDuplicateScalarTags fields symbolRepeatable = .ok () := by
  refine FieldBag.rejectDuplicates_ok ?_ (fun _ _ => List.not_mem_nil)
  obtain ⟨lead, trail, rfl, framing⟩ := laid.around
  have frame : (FieldBag.scalarTags symbolRepeatable (lead ++ trail)).Nodup :=
    (List.filter_sublist.trans framing).nodup (by decide)
  have placed : (FieldBag.scalarTags symbolRepeatable (written slots)).Nodup :=
    (List.filter_sublist.trans (tags_written_sublist slots)).nodup laid.keys
  have body : (FieldBag.scalarTags symbolRepeatable (written slots ++ rest)).Nodup := by
    unfold FieldBag.scalarTags at placed once ⊢
    rw [List.map_append, List.filter_append]
    refine List.nodup_append.2 ⟨placed, once, fun tag first other second same => ?_⟩
    subst same
    obtain ⟨slotField, here, rfl⟩ := List.mem_map.1 (List.mem_of_mem_filter first)
    obtain ⟨slot, listed, tagged, -⟩ := mem_written here
    obtain ⟨field, there, same⟩ := List.mem_map.1 (List.mem_of_mem_filter second)
    exact laid.apart slot listed field there (same.trans tagged)
  have apart : ∀ tag ∈ (written slots ++ rest).map Field.tag, tag ∉ framingTags := by
    intro tag member
    obtain ⟨field, inside, rfl⟩ := List.mem_map.1 member
    rcases List.mem_append.1 inside with here | there
    · obtain ⟨slot, listed, tagged, -⟩ := mem_written here
      rw [tagged]
      exact laid.inner slot listed
    · exact laid.foreign field there
  have moved : (FieldBag.scalarTags symbolRepeatable (lead ++ (written slots ++ rest) ++ trail)).Perm
      (FieldBag.scalarTags symbolRepeatable ((written slots ++ rest) ++ (lead ++ trail))) := by
    refine (List.Perm.map _ ?_).filter _
    rw [← List.append_assoc (written slots ++ rest)]
    exact List.perm_append_comm.append_right trail
  refine moved.nodup_iff.2 ?_
  unfold FieldBag.scalarTags at body frame ⊢
  rw [List.map_append, List.filter_append]
  refine List.nodup_append.2 ⟨body, frame, fun tag first other second same => ?_⟩
  subst same
  exact apart tag (List.mem_of_mem_filter first) (framing.subset (List.mem_of_mem_filter second))

section Groups
variable {countTag delimiterTag count : Nat} {memberTags : List Nat} {bags : List FieldBag} {before after : List Field}

/-- A group that was written among the fields of a message is read as its entries. -/
theorem group (laid : Laid slots rest fields)
    (split : written slots ++ rest = before ++ ⟨countTag, some (toString count)⟩ :: (bags.flatten ++ after))
    (counted : bags.length = count) (first : ∀ field ∈ before, field.tag ≠ countTag)
    (entries : ∀ bag ∈ bags, FieldBag.Entry delimiterTag memberTags bag)
    (ends : FieldBag.Ends delimiterTag memberTags after)
    (inner : countTag ∉ framingTags ∧ delimiterTag ∉ framingTags ∧ ∀ tag ∈ memberTags, tag ∉ framingTags)
    (few : count ≤ maxGroupEntries) : FieldBag.group fields countTag delimiterTag memberTags = .ok bags := by
  subst counted
  obtain ⟨lead, trail, rfl, framing⟩ := laid.around
  obtain ⟨outside, opens, members⟩ := inner
  have row : lead ++ (written slots ++ rest) ++ trail =
      (lead ++ before) ++ ⟨countTag, some (toString bags.length)⟩ :: (bags.flatten ++ (after ++ trail)) := by
    rw [split]
    simp only [List.append_assoc, List.cons_append]
  rw [row]
  refine FieldBag.group_written ?_ entries ?_ few
  · intro field member
    rcases List.mem_append.1 member with leading | inside
    · intro same
      exact outside (same ▸ framing.subset (List.mem_map_of_mem (List.mem_append_left _ leading)))
    · exact first field inside
  · intro field member
    cases after with
    | cons head later => exact ends field member
    | nil =>
      have trailing : field ∈ trail := List.mem_of_mem_head? member
      have framed := framing.subset (List.mem_map_of_mem (List.mem_append_right lead trailing))
      exact ⟨fun same => opens (same ▸ framed), fun member => members _ member framed⟩

/-- The group whose count is in the last slot. -/
theorem lastGroup {init : List WireSlot}
    (laid : Laid (init ++ [⟨countTag, some (toString count)⟩]) (bags.flatten ++ after) fields)
    (counted : bags.length = count) (entries : ∀ bag ∈ bags, FieldBag.Entry delimiterTag memberTags bag)
    (ends : FieldBag.Ends delimiterTag memberTags after)
    (inner : delimiterTag ∉ framingTags ∧ ∀ tag ∈ memberTags, tag ∉ framingTags)
    (few : count ≤ maxGroupEntries) : FieldBag.group fields countTag delimiterTag memberTags = .ok bags := by
  have keys := laid.keys
  rw [List.map_append, List.nodup_append] at keys
  have outside : countTag ∉ framingTags := laid.inner ⟨countTag, some (toString count)⟩ (List.mem_append_right _ (by simp))
  have split : written (init ++ [⟨countTag, some (toString count)⟩]) ++ (bags.flatten ++ after) =
      written init ++ ⟨countTag, some (toString count)⟩ :: (bags.flatten ++ after) := by
    rw [written_append, List.append_assoc]
    rfl
  refine laid.group split counted (fun field member same => ?_) entries ends ⟨outside, inner⟩ few
  obtain ⟨slot, listed, tagged, -⟩ := mem_written member
  exact keys.2.2 slot.tag (List.mem_map_of_mem listed) countTag (by simp) (tagged.symm.trans same)

end Groups

end Laid

end Fauxchange.Fix
