import Mathlib.Tactic.IntervalCases
import Fauxchange.Fix.Wire
import Fauxchange.Lib.Delimiter

/-! What the venue takes from `ironfix`: fields that can stand in a frame are framed, and the frame is read back as the
same list. The concrete wire does so. -/

namespace Fauxchange.Fix
open Exchange Lib

/-- A text that can stand in a field: not empty, and free of the byte that ends a field. -/
def Printable (text : String) : Prop := text ≠ "" ∧ '\x01' ∉ text.toList

instance (text : String) : Decidable (Printable text) := inferInstanceAs (Decidable (_ ∧ _))

def framingTags : List Nat := [8, 9, 10]

/-- Fields that can be framed: the type of the message first, and no tag that the framing writes itself. -/
structure Sendable (fields : List Field) : Prop where
  typed : ∃ msgType rest, fields = ⟨Tag.msgType, some msgType⟩ :: rest
  tags : ∀ field ∈ fields, field.tag ∉ framingTags ∧ field.tag ≤ u32Max
  texts : ∀ field ∈ fields, ∃ text, field.value = some text ∧ Printable text

/-- A frame of the fields, and the message that it is read back as: the same fields between the framing fields that are
kept. -/
structure Framed [Ironfix] (kept : Nat) (fields : List Field) (bytes : List UInt8) (raw : RawMessage) : Prop where
  written : Ironfix.finish fields = .ok bytes
  parsed : Ironfix.decode bytes = some raw
  begins : raw.beginString = some beginString
  typed : fields.head? = some ⟨Tag.msgType, some raw.msgType⟩
  around : ∃ lead trail, raw.fields = lead ++ fields ++ trail ∧ lead.length + trail.length = kept ∧
    ((lead ++ trail).map Field.tag).Sublist framingTags

/-- `ironfix` frames every list that can be framed, and reads it back. -/
def Frames [Ironfix] (kept : Nat) : Prop :=
  ∀ fields, Sendable fields → ∃ bytes raw, Framed kept fields bytes raw

section Bytes

theorem high_ne_soh (byte high : UInt8) (large : high.toNat.testBit 7 = true) : byte ||| high ≠ soh := by
  intro same
  have bits := congrArg (fun value : UInt8 => value.toNat.testBit 7) same
  rw [UInt8.toNat_or, Nat.testBit_or, large, Bool.or_true] at bits
  exact absurd bits (by decide)

/-- Only the character itself is encoded with that byte. -/
theorem soh_notMem_encodeChar {character : Char} (free : character ≠ '\x01') : soh ∉ String.utf8EncodeChar character := by
  intro member
  have sizes := character.utf8Size_eq
  rcases sizes with one | two | three | four
  · rw [String.utf8EncodeChar_eq_singleton one, List.mem_singleton] at member
    have small : character.val.toNat ≤ 127 := by
      have bound := Char.utf8Size_eq_one_iff.1 one
      exact bound
    have value := congrArg UInt8.toNat member
    rw [UInt32.toNat_toUInt8, Nat.mod_eq_of_lt (by omega)] at value
    exact free (Char.ext (UInt32.toNat_inj.1 value.symm))
  · rw [String.utf8EncodeChar_eq_cons_cons two] at member
    simp only [List.mem_cons, List.not_mem_nil, or_false] at member
    rcases member with same | same
    all_goals exact high_ne_soh _ _ (by decide) same.symm
  · rw [String.utf8EncodeChar_eq_cons_cons_cons three] at member
    simp only [List.mem_cons, List.not_mem_nil, or_false] at member
    rcases member with same | same | same
    all_goals exact high_ne_soh _ _ (by decide) same.symm
  · rw [String.utf8EncodeChar_eq_cons_cons_cons_cons four] at member
    simp only [List.mem_cons, List.not_mem_nil, or_false] at member
    rcases member with same | same | same | same
    all_goals exact high_ne_soh _ _ (by decide) same.symm

theorem soh_notMem_utf8 {text : String} (free : '\x01' ∉ text.toList) : soh ∉ utf8 text := by
  intro member
  obtain ⟨character, listed, encoded⟩ := List.mem_flatMap.1 member
  exact soh_notMem_encodeChar (fun same => free (same ▸ listed)) encoded

theorem fromUTF8_utf8 (text : String) : String.fromUTF8? ⟨(utf8 text).toArray⟩ = some text := by
  have bytes : (⟨(utf8 text).toArray⟩ : ByteArray) = text.toByteArray := by
    rw [← String.utf8Encode_toList]
    exact ByteArray.ext (List.data_toByteArray ..).symm
  rw [bytes]
  unfold String.fromUTF8?
  rw [dif_pos text.isValidUTF8]
  rfl

/-- A digit is one byte, and neither of the two that delimit. -/
theorem digit_byte {character : Char} (digit : character.isDigit) :
    String.utf8EncodeChar character = [character.val.toUInt8] ∧
      Char.ofNat character.val.toUInt8.toNat = character ∧
        character.val.toUInt8 ≠ soh ∧ character.val.toUInt8 ≠ equals := by
  have bounds := Char.isDigit_iff_toNat.1 digit
  have zero : '0'.toNat = 48 := rfl
  have nine : '9'.toNat = 57 := rfl
  rw [zero, nine] at bounds
  obtain ⟨low, high⟩ := bounds
  rw [← Char.ofNat_toNat character]
  generalize character.toNat = code at low high
  interval_cases code
  all_goals decide

/-- The bytes of a numeral are its digits, one by one. -/
theorem utf8_digits {digits : List Char} (all : ∀ digit ∈ digits, digit.isDigit) :
    utf8 (String.ofList digits) = digits.map fun digit => digit.val.toUInt8 := by
  unfold utf8
  rw [String.toList_ofList]
  induction digits with
  | nil => rfl
  | cons digit rest ih =>
    obtain ⟨here, later⟩ := List.forall_mem_cons.1 all
    rw [List.flatMap_cons, (digit_byte here).1, ih later]
    rfl

theorem digits_of_toString (value : Nat) : ∀ digit ∈ (toString value).toList, digit.isDigit := by
  intro digit member
  cases shape : digit.isDigit with
  | true => rfl
  | false => exact absurd member (toList_toString_free shape value)

end Bytes

/-- A number is read back from its decimal digits. -/
theorem parseUint_toString {bound value : Nat} (fits : value ≤ bound) : parseUint bound (toString value) = some value := by
  have unsigned : ∀ rest, (toString value).toList ≠ '+' :: rest := fun rest same =>
    @toList_toString_free '+' rfl value (same ▸ List.mem_cons_self)
  have digits : (toString value).toList = Nat.toDigits 10 value := Nat.toList_repr ..
  unfold parseUint
  dsimp only
  rw [digits] at unsigned ⊢
  generalize written : Nat.toDigits 10 value = characters at unsigned
  split
  next rest => exact absurd rfl (unsigned rest)
  next =>
    rw [← written, if_neg Nat.toDigits_ne_nil]
    exact checkedDigits_toDigits fits

namespace Field

/-- A field that stands in a frame: its tag fits, and its text is free of the byte that ends it. -/
def Fits (field : Field) : Prop := field.tag ≤ u32Max ∧ ∃ text, field.value = some text ∧ '\x01' ∉ text.toList

/-- The bytes of a field before the one that ends it. -/
def piece (field : Field) : List UInt8 := utf8 (toString field.tag) ++ equals :: utf8 (field.value.getD "")

theorem wire_eq (field : Field) : field.wire = field.piece ++ [soh] := rfl

theorem parse_piece {field : Field} (fits : field.Fits) : parseField field.piece = some field := by
  obtain ⟨tag, value⟩ := field
  obtain ⟨width, text, rfl, -⟩ := fits
  have digits := digits_of_toString tag
  have numeral : utf8 (toString tag) = (toString tag).toList.map fun digit => digit.val.toUInt8 := by
    rw [← utf8_digits digits, String.ofList_toList]
  have apart : ∀ byte ∈ utf8 (toString tag), (byte != equals) = true := by
    rw [numeral]
    intro byte member
    obtain ⟨digit, listed, rfl⟩ := List.mem_map.1 member
    exact bne_iff_ne.2 (digit_byte (digits digit listed)).2.2.2
  have read : String.ofList ((utf8 (toString tag)).map fun byte => Char.ofNat byte.toNat) = toString tag := by
    rw [numeral, List.map_map]
    have same : (toString tag).toList.map ((fun byte : UInt8 => Char.ofNat byte.toNat) ∘ fun digit => digit.val.toUInt8) =
        (toString tag).toList.map id :=
      List.map_congr_left fun digit listed => (digit_byte (digits digit listed)).2.1
    rw [same, List.map_id, String.ofList_toList]
  unfold parseField piece
  rw [List.dropWhile_append_of_pos apart, List.takeWhile_append_of_pos apart]
  rw [List.dropWhile_cons_of_neg (by decide), List.takeWhile_cons_of_neg (by decide), List.append_nil, read]
  dsimp only
  rw [parseUint_toString width]
  exact congrArg (fun value => some (⟨tag, value⟩ : Field)) (fromUTF8_utf8 text)

theorem soh_notMem_piece {field : Field} (fits : field.Fits) : soh ∉ field.piece := by
  obtain ⟨tag, value⟩ := field
  obtain ⟨-, text, rfl, free⟩ := fits
  intro member
  rcases List.mem_append.1 member with front | back
  · exact soh_notMem_utf8 (toList_toString_free rfl tag) front
  · rcases List.mem_cons.1 back with same | inside
    · exact absurd same (by decide)
    · exact soh_notMem_utf8 free inside

end Field

section Frame
variable {fields : List Field}

theorem splitOn_wires (fits : ∀ field ∈ fields, field.Fits) :
    (fields.flatMap Field.wire).splitOn soh = fields.map Field.piece ++ [[]] := by
  induction fields with
  | nil => rfl
  | cons field rest ih =>
    obtain ⟨here, later⟩ := List.forall_mem_cons.1 fits
    rw [List.flatMap_cons, Field.wire_eq, List.append_assoc, List.singleton_append,
      List.splitOn_append_cons_self_of_not_mem (Field.soh_notMem_piece here), ih later]
    rfl

theorem mapM_parseField (fits : ∀ field ∈ fields, field.Fits) : (fields.map Field.piece).mapM parseField = some fields := by
  induction fields with
  | nil => rfl
  | cons field rest ih =>
    obtain ⟨here, later⟩ := List.forall_mem_cons.1 fits
    rw [List.map_cons, List.mapM_cons, Field.parse_piece here, ih later]
    rfl

/-- The fields of a frame with those that the framing adds. -/
def framedFields (fields : List Field) : List Field :=
  let body := fields.flatMap Field.wire
  let head := ⟨8, some beginString⟩ :: ⟨9, some (toString body.length)⟩ :: fields
  head ++ [⟨10, some (checksum (head.flatMap Field.wire))⟩]

theorem frameFields_eq : frameFields fields = (framedFields fields).flatMap Field.wire := by
  unfold frameFields framedFields
  simp

theorem checksum_free (bytes : List UInt8) : '\x01' ∉ (checksum bytes).toList := by
  intro member
  unfold checksum at member
  rw [String.toList_ofList] at member
  have digit := List.all_eq_true.1 all_isDigit_padded _ member
  cases digit

theorem framedFields_fit (fits : ∀ field ∈ fields, field.Fits) : ∀ field ∈ framedFields fields, field.Fits := by
  intro field member
  unfold framedFields at member
  simp only [List.cons_append, List.mem_cons, List.mem_append, List.not_mem_nil, or_false] at member
  rcases member with rfl | rfl | inside | rfl
  · exact ⟨(by decide : 8 ≤ u32Max), _, rfl, by decide⟩
  · exact ⟨(by decide : 9 ≤ u32Max), _, rfl, toList_toString_free rfl _⟩
  · exact fits field inside
  · exact ⟨(by decide : 10 ≤ u32Max), _, rfl, checksum_free _⟩

theorem parseFrame_of_pieces {bytes : List UInt8} {start length trailer first : Field} {msgType : String}
    (read : ((bytes.splitOn soh).dropLast).mapM parseField = some (start :: length :: (first :: fields ++ [trailer])))
    (typed : first.value = some msgType) (same : frameFields (first :: fields) = bytes) :
    parseFrame bytes = some ⟨start.value, msgType, start :: length :: (first :: fields ++ [trailer])⟩ := by
  have trimmed : (first :: (fields ++ [trailer])).dropLast = first :: fields := by
    rw [← List.cons_append, List.dropLast_concat]
  unfold parseFrame
  rw [read]
  simp only [List.cons_append, Option.bind_eq_bind, Option.bind_some, List.head?_cons, typed, trimmed, same, if_true]

/-- The concrete wire frames what can be framed, and keeps the three fields that it adds. -/
theorem referenceWire_frames : @Frames referenceWire 3 := by
  intro fields sendable
  have fits : ∀ field ∈ fields, field.Fits := fun field member =>
    have ⟨text, written, printable⟩ := sendable.texts field member
    ⟨(sendable.tags field member).2, text, written, printable.2⟩
  obtain ⟨msgType, rest, rfl⟩ := sendable.typed
  have whole := framedFields_fit fits
  have read : (((frameFields (⟨Tag.msgType, some msgType⟩ :: rest)).splitOn soh).dropLast).mapM parseField =
      some (framedFields (⟨Tag.msgType, some msgType⟩ :: rest)) := by
    rw [frameFields_eq, splitOn_wires whole, List.dropLast_concat, mapM_parseField whole]
  have parsed := parseFrame_of_pieces read rfl rfl
  exact ⟨_, _, @Framed.mk referenceWire _ _ _ _ rfl parsed rfl rfl
    ⟨[⟨8, _⟩, ⟨9, _⟩], [⟨10, _⟩], rfl, rfl, List.Sublist.refl _⟩⟩

end Frame

end Fauxchange.Fix
