import Mathlib.Data.List.Forall2
import Mathlib.Data.List.Nodup
import Fauxchange.Exchange.ReferenceBook
import Fauxchange.Fix.Wire
import Fauxchange.Lib.Effects

/-! The repeating groups of a frame against the entries they are decoded to. The region of a group ends at the first
foreign tag and a lookup inside an entry takes the first field, so that every occurrence of a group's tags is kept
exactly when each of them occurs as often as the count field says. -/

namespace Fauxchange.Fix
open Exchange Lib

section Parts
variable {counts : List Nat}

theorem length_le_sum_of_pos (least : ∀ count ∈ counts, 1 ≤ count) : counts.length ≤ counts.sum := by
  induction counts with
  | nil => exact Nat.le_refl _
  | cons count rest ih =>
    have head := least count List.mem_cons_self
    have tail := ih fun later member => least later (List.mem_cons_of_mem _ member)
    rw [List.length_cons, List.sum_cons]
    omega

theorem sum_le_length (most : ∀ count ∈ counts, count ≤ 1) : counts.sum ≤ counts.length := by
  induction counts with
  | nil => exact Nat.le_refl _
  | cons count rest ih =>
    have head := most count List.mem_cons_self
    have tail := ih fun later member => most later (List.mem_cons_of_mem _ member)
    rw [List.length_cons, List.sum_cons]
    omega

/-- Positive counts that add up to their number are all one. -/
theorem eq_one_of_sum (least : ∀ count ∈ counts, 1 ≤ count) (total : counts.sum = counts.length) :
    ∀ count ∈ counts, count = 1 := by
  induction counts with
  | nil => exact nofun
  | cons count rest ih =>
    have head := least count List.mem_cons_self
    have later := fun next member => least next (List.mem_cons_of_mem _ member)
    have tail := length_le_sum_of_pos later
    rw [List.length_cons, List.sum_cons] at total
    intro next member
    rcases List.mem_cons.1 member with rfl | member
    · omega
    · exact ih later (by omega) next member

end Parts

/-- The decoding of a list goes element by element. -/
theorem forall₂_of_mapM {α β ε : Type} {decode : α → Except ε β} {items : List α} {values : List β}
    (decoded : items.mapM decode = .ok values) : List.Forall₂ (fun item value => decode item = .ok value) items values := by
  induction items generalizing values with
  | nil =>
    cases decoded
    exact .nil
  | cons item rest ih =>
    rw [List.mapM_cons] at decoded
    cases head : decode item with
    | error reason =>
      rw [head] at decoded
      cases decoded
    | ok value =>
      cases tail : rest.mapM decode with
      | error reason =>
        rw [head, tail] at decoded
        cases decoded
      | ok later =>
        rw [head, tail] at decoded
        cases decoded
        exact .cons head (ih tail)

namespace FieldBag
variable {fields : FieldBag} {bags : List FieldBag} {countTag declared delimiterTag tag : Nat} {memberTags : List Nat}

/-- How often a tag occurs. -/
def occurrences (fields : FieldBag) (tag : Nat) : Nat := fields.countP fun field => field.tag == tag

/-- What is cut into entries is the part of a region up to the first foreign tag. -/
theorem splitGroup_ok (delimits : delimiterTag ∈ memberTags) {current : Option FieldBag} {region : List Field}
    (cut : splitGroup countTag declared delimiterTag memberTags current region = .ok bags) :
    ∃ taken rest, region = taken ++ rest ∧ bags.flatten = current.getD [] ++ taken ∧
      ∀ field ∈ taken, field.tag ∈ memberTags := by
  induction region generalizing current bags with
  | nil =>
    cases cut
    refine ⟨[], [], rfl, ?_, nofun⟩
    cases current <;> simp
  | cons field region ih =>
    unfold splitGroup at cut
    split at cut
    next opens =>
      cases later : splitGroup countTag declared delimiterTag memberTags (some [field]) region with
      | error reason =>
        rw [later] at cut
        cases cut
      | ok entries =>
        rw [later] at cut
        cases cut
        obtain ⟨taken, rest, rfl, flat, members⟩ := ih later
        refine ⟨field :: taken, rest, rfl, ?_, ?_⟩
        · rw [List.flatten_append, flat]
          cases current <;> simp
        · intro other member
          rcases List.mem_cons.1 member with rfl | member
          · rw [opens]
            exact delimits
          · exact members other member
    next =>
      split at cut
      next extends_ =>
        cases current with
        | none => cases cut
        | some entry =>
          obtain ⟨taken, rest, rfl, flat, members⟩ := ih cut
          refine ⟨field :: taken, rest, rfl, ?_, ?_⟩
          · rw [flat]
            simp
          · intro other member
            rcases List.mem_cons.1 member with rfl | member
            · exact extends_
            · exact members other member
      next =>
        cases cut
        refine ⟨[], field :: region, rfl, ?_, nofun⟩
        cases current <;> simp

/-- A group that is accepted is a stretch of the fields, cut into as many entries as its count field declares. -/
theorem group_ok (delimits : delimiterTag ∈ memberTags)
    (grouped : fields.group countTag delimiterTag memberTags = .ok bags) :
    fields.reqU32 countTag = .ok bags.length ∧ ∃ before taken rest, fields = before ++ (taken ++ rest) ∧
      bags.flatten = taken ∧ ∀ field ∈ taken, field.tag ∈ memberTags := by
  unfold group at grouped
  cases count : fields.reqU32 countTag with
  | error reason =>
    rw [count] at grouped
    cases grouped
  | ok declared =>
    rw [count] at grouped
    dsimp only [bind, Except.bind] at grouped
    split at grouped
    next => cases grouped
    next =>
      split at grouped
      next => cases grouped
      next groups cut =>
        split at grouped
        next same =>
          cases grouped
          obtain ⟨taken, rest, region, flat, members⟩ := splitGroup_ok delimits cut
          refine ⟨by rw [same], fields.takeWhile (fun field => field.tag != countTag) ++
            (fields.dropWhile fun field => field.tag != countTag).take 1, taken, rest, ?_, flat, members⟩
          rw [← region, List.append_assoc, List.take_append_drop, List.takeWhile_append_dropWhile]
        next => cases grouped

end FieldBag

/-- Every occurrence of a group's tags is in one part of the frame for each entry, none stands twice in its part, and
each is what the entry reports. -/
def GroupKept {α : Type} (fields : FieldBag) (memberTags : List Nat) (Reports : α → Field → Prop) (entries : List α) :
    Prop :=
  ∃ parts : List FieldBag, parts.flatten = fields.filter (fun field => field.tag ∈ memberTags) ∧
    List.Forall₂ (fun part entry => (part.map Field.tag).Nodup ∧ ∀ field ∈ part, Reports entry field) parts entries

/-- Every tag of a group occurs in the frame as often as the group's count field declares. -/
def GroupDeclared (fields : FieldBag) (countTag : Nat) (memberTags : List Nat) : Prop :=
  ∃ declared, fields.reqU32 countTag = .ok declared ∧ ∀ tag ∈ memberTags, fields.occurrences tag = declared

section Kept
variable {α : Type} {fields : FieldBag} {bags : List FieldBag} {entries : List α} {countTag delimiterTag : Nat}
  {memberTags : List Nat} {Reports : α → Field → Prop} {decode : FieldBag → Except FixDecodeError α}

theorem occurrences_filter {tag : Nat} (member : tag ∈ memberTags) :
    FieldBag.occurrences (fields.filter fun field => field.tag ∈ memberTags) tag = fields.occurrences tag := by
  unfold FieldBag.occurrences
  rw [List.countP_filter]
  apply List.countP_congr
  intro field _
  simp only [Bool.and_eq_true, beq_iff_eq, decide_eq_true_eq, and_iff_left_iff_imp]
  rintro rfl
  exact member

theorem occurrences_flatten (tag : Nat) :
    FieldBag.occurrences bags.flatten tag = (bags.map fun bag => FieldBag.occurrences bag tag).sum :=
  List.countP_flatten

theorem nodup_tags_iff {bag : FieldBag} : (bag.map Field.tag).Nodup ↔ ∀ tag, bag.occurrences tag ≤ 1 := by
  rw [List.nodup_iff_count_le_one]
  refine forall_congr' fun tag => ?_
  rw [List.count, List.countP_map]
  rfl

theorem occurs_of_mem {bag : FieldBag} {field : Field} (member : field ∈ bag) : 1 ≤ bag.occurrences field.tag :=
  List.countP_pos_iff.2 ⟨field, member, beq_self_eq_true _⟩

/-- A tag that occurs once is found wherever it stands. -/
theorem find_of_occurs_once {bag : FieldBag} {field found : Field} (once : bag.occurrences field.tag = 1) (member : field ∈ bag)
    (first : List.find? (fun other => other.tag == field.tag) bag = some found) : found = field := by
  induction bag with
  | nil => cases member
  | cons head rest ih =>
    have counted : FieldBag.occurrences (head :: rest) field.tag =
        FieldBag.occurrences rest field.tag + if head.tag == field.tag then 1 else 0 := List.countP_cons
    rw [List.find?_cons] at first
    cases here : head.tag == field.tag with
    | true =>
      rw [here] at first counted
      obtain rfl : head = found := Option.some.inj first
      rcases List.mem_cons.1 member with rfl | later
      · rfl
      · have again := occurs_of_mem later
        rw [if_pos rfl] at counted
        omega
    | false =>
      rw [here] at first counted
      rcases List.mem_cons.1 member with rfl | later
      · rw [beq_self_eq_true] at here
        cases here
      · exact ih (by rw [← once, counted]; rfl) later first

/-- The entries of a group that was accepted and read: a stretch of the frame, in which every entry has every tag. -/
structure Cut (fields : FieldBag) (memberTags : List Nat) (bags : List FieldBag) (before rest : List Field) : Prop where
  row : fields = before ++ (bags.flatten ++ rest)
  members : ∀ bag ∈ bags, ∀ field ∈ bag, field.tag ∈ memberTags
  least : ∀ tag ∈ memberTags, ∀ bag ∈ bags, 1 ≤ FieldBag.occurrences bag tag

namespace Cut
variable {before rest : List Field} {tag : Nat}

theorem occurrences_eq (cut : Cut fields memberTags bags before rest) (tag : Nat) :
    fields.occurrences tag = FieldBag.occurrences before tag +
      ((bags.map fun bag => FieldBag.occurrences bag tag).sum + FieldBag.occurrences rest tag) := by
  rw [← occurrences_flatten, cut.row]
  unfold FieldBag.occurrences
  rw [List.countP_append, List.countP_append]

theorem floor (cut : Cut fields memberTags bags before rest) (member : tag ∈ memberTags) :
    bags.length ≤ (bags.map fun bag => FieldBag.occurrences bag tag).sum := by
  have bound := @length_le_sum_of_pos (bags.map fun bag => FieldBag.occurrences bag tag) fun times listed => by
    obtain ⟨bag, inside, rfl⟩ := List.mem_map.1 listed
    exact cut.least tag member bag inside
  rwa [List.length_map] at bound

/-- As many occurrences as entries are one in each entry and none outside. -/
theorem once (cut : Cut fields memberTags bags before rest) (member : tag ∈ memberTags)
    (same : fields.occurrences tag = bags.length) :
    (∀ bag ∈ bags, FieldBag.occurrences bag tag = 1) ∧ FieldBag.occurrences before tag = 0 ∧
      FieldBag.occurrences rest tag = 0 := by
  have enough := cut.floor member
  have whole := cut.occurrences_eq tag
  refine ⟨fun bag listed => ?_, by omega, by omega⟩
  refine @eq_one_of_sum (bags.map fun bag => FieldBag.occurrences bag tag) ?_ ?_ _ (List.mem_map_of_mem listed)
  · intro times listed
    obtain ⟨bag, inside, rfl⟩ := List.mem_map.1 listed
    exact cut.least tag member bag inside
  · rw [List.length_map]
    omega

theorem filter_outside {part : List Field} (none : ∀ tag ∈ memberTags, FieldBag.occurrences part tag = 0) :
    part.filter (fun field => field.tag ∈ memberTags) = [] := by
  refine List.filter_eq_nil_iff.2 fun field member => ?_
  rw [decide_eq_true_eq]
  intro inside
  have occurs := occurs_of_mem member
  rw [none field.tag inside] at occurs
  omega

/-- Nothing of the group is outside of its entries. -/
theorem flatten_eq (cut : Cut fields memberTags bags before rest)
    (same : ∀ tag ∈ memberTags, fields.occurrences tag = bags.length) :
    bags.flatten = fields.filter fun field => field.tag ∈ memberTags := by
  rw [cut.row, List.filter_append, List.filter_append,
    filter_outside fun tag member => (cut.once member (same tag member)).2.1,
    filter_outside fun tag member => (cut.once member (same tag member)).2.2, List.nil_append, List.append_nil]
  refine (List.filter_eq_self.2 fun field member => ?_).symm
  obtain ⟨bag, listed, inside⟩ := List.mem_flatten.1 member
  exact decide_eq_true (cut.members bag listed field inside)

theorem nodup_tags (cut : Cut fields memberTags bags before rest)
    (same : ∀ tag ∈ memberTags, fields.occurrences tag = bags.length) {bag : FieldBag} (listed : bag ∈ bags) :
    (bag.map Field.tag).Nodup := by
  refine nodup_tags_iff.2 fun tag => ?_
  by_cases member : tag ∈ memberTags
  · exact Nat.le_of_eq ((cut.once member (same tag member)).1 bag listed)
  · have none : bag.occurrences tag = 0 := by
      refine List.countP_eq_zero.2 fun field inside here => member ?_
      rw [← beq_iff_eq.1 here]
      exact cut.members bag listed field inside
    omega

/-- Parts of one field a tag at most leave no tag more often than there are parts. -/
theorem occurrences_of_kept (kept : GroupKept fields memberTags Reports entries) (member : tag ∈ memberTags) :
    fields.occurrences tag ≤ entries.length := by
  obtain ⟨parts, all, each⟩ := kept
  have most := @sum_le_length (parts.map fun part => FieldBag.occurrences part tag) fun times listed => by
    obtain ⟨part, inside, rfl⟩ := List.mem_map.1 listed
    obtain ⟨place, bound, rfl⟩ := List.getElem_of_mem inside
    exact nodup_tags_iff.1 (each.get bound (each.length_eq ▸ bound)).1 tag
  rwa [← occurrences_flatten, all, occurrences_filter member, List.length_map, each.length_eq] at most

end Cut

/-- An entry reports the first field of each of its tags. -/
def ReadsFirst (decode : FieldBag → Except FixDecodeError α) (memberTags : List Nat) (Reports : α → Field → Prop) : Prop :=
  ∀ bag entry, decode bag = .ok entry → ∀ tag ∈ memberTags,
    ∃ field, List.find? (fun field => field.tag == tag) bag = some field ∧ Reports entry field

theorem cut_of_group (delimits : delimiterTag ∈ memberTags) (reads : ReadsFirst decode memberTags Reports)
    (grouped : fields.group countTag delimiterTag memberTags = .ok bags) (decoded : bags.mapM decode = .ok entries) :
    ∃ before rest, Cut fields memberTags bags before rest := by
  obtain ⟨-, before, taken, rest, row, rfl, members⟩ := FieldBag.group_ok delimits grouped
  refine ⟨before, rest, row, ?_, ?_⟩
  · intro bag listed field inside
    exact members field (List.mem_flatten.2 ⟨bag, listed, inside⟩)
  · intro tag member bag listed
    have each := forall₂_of_mapM decoded
    obtain ⟨place, inside, rfl⟩ := List.getElem_of_mem listed
    obtain ⟨field, first, -⟩ := reads _ _ (each.get inside (each.length_eq ▸ inside)) tag member
    have here : field.tag = tag := by simpa using List.find?_some first
    rw [← here]
    exact occurs_of_mem (List.mem_of_find?_eq_some first)

/-- Every occurrence is kept exactly when each of the group's tags occurs as often as its count field declares. -/
theorem groupKept_iff (delimits : delimiterTag ∈ memberTags) (reads : ReadsFirst decode memberTags Reports)
    (grouped : fields.group countTag delimiterTag memberTags = .ok bags) (decoded : bags.mapM decode = .ok entries) :
    GroupKept fields memberTags Reports entries ↔ GroupDeclared fields countTag memberTags := by
  obtain ⟨count, -⟩ := FieldBag.group_ok delimits grouped
  obtain ⟨before, rest, cut⟩ := cut_of_group delimits reads grouped decoded
  have each := forall₂_of_mapM decoded
  constructor
  · intro kept
    refine ⟨bags.length, count, fun tag member => ?_⟩
    have most := Cut.occurrences_of_kept kept member
    have enough := cut.floor member
    have whole := cut.occurrences_eq tag
    have lengths := each.length_eq
    omega
  · rintro ⟨declared, read, same⟩
    obtain rfl : bags.length = declared := Except.ok.inj (count.symm.trans read)
    refine ⟨bags, cut.flatten_eq same, ?_⟩
    refine ((List.forall₂_and_left _ _).2 ⟨fun bag listed => listed, each⟩).imp ?_
    rintro bag entry ⟨listed, decodes⟩
    refine ⟨cut.nodup_tags same listed, fun field member => ?_⟩
    have inside := cut.members bag listed field member
    obtain ⟨first, seen, reports⟩ := reads bag entry decodes field.tag inside
    rwa [find_of_occurs_once ((cut.once inside (same field.tag inside)).1 bag listed) member seen] at reports

end Kept

/-- A field whose text spells a value. -/
def Reads {α : Type} (spells : String → α → Prop) (value : α) (field : Field) : Prop :=
  ∃ text, field.value = some text ∧ spells text value

def ReportsEntryType (entryType : MdEntryType) : Field → Prop :=
  Reads (fun text value => (fromFix text : Except FixDecodeError MdEntryType) = .ok value) entryType

def ReportsSymbol (U : Upstream) (symbol : Symbol) : Field → Prop :=
  Reads (fun text value => Symbol.parse U text = .ok value) symbol

def ReportsPrice (price : Nat) : Field → Prop := Reads (fun text value => parseDecimalToCents text = .ok value) price

def ReportsSize (size : Nat) : Field → Prop := Reads (fun text value => parseUint u64Max text = some value) size

def ReportsUpdateAction (updateAction : MdUpdateAction) : Field → Prop :=
  Reads (fun text value => (fromFix text : Except FixDecodeError MdUpdateAction) = .ok value) updateAction

def ReportsOrderId (orderId : VenueOrderId) : Field → Prop := Reads (· = ·) orderId

/-- What an entry of a snapshot reports under a tag. -/
def SnapshotEntry.Reports (entry : SnapshotEntry) (field : Field) : Prop :=
  (field.tag = Tag.mdEntryType → ReportsEntryType entry.entryType field) ∧
    (field.tag = Tag.mdEntryPx → ReportsPrice entry.price field) ∧
    (field.tag = Tag.mdEntrySize → ReportsSize entry.size field)

def IncrementalEntry.Reports (U : Upstream) (entry : IncrementalEntry) (field : Field) : Prop :=
  (field.tag = Tag.mdUpdateAction → ReportsUpdateAction entry.updateAction field) ∧
    (field.tag = Tag.mdEntryType → ReportsEntryType entry.entryType field) ∧
    (field.tag = Tag.symbol → ReportsSymbol U entry.symbol field) ∧
    (field.tag = Tag.mdEntryPx → ReportsPrice entry.price field) ∧
    (field.tag = Tag.mdEntrySize → ReportsSize entry.size field)

/-- The groups of a decoded message, each kept. -/
def GroupsKept (U : Upstream) (fields : FieldBag) : DecodedMessage → Prop
  | .marketDataRequest message =>
    GroupKept fields [Tag.mdEntryType] ReportsEntryType message.entryTypes ∧
      GroupKept fields [Tag.symbol] (ReportsSymbol U) message.symbols
  | .marketDataSnapshotFullRefresh message =>
    GroupKept fields [Tag.mdEntryType, Tag.mdEntryPx, Tag.mdEntrySize] SnapshotEntry.Reports message.entries
  | .marketDataIncrementalRefresh message =>
    GroupKept fields [Tag.mdUpdateAction, Tag.mdEntryType, Tag.symbol, Tag.mdEntryPx, Tag.mdEntrySize]
      (IncrementalEntry.Reports U) message.entries
  | .orderMassCancelReport message =>
    GroupKept fields [Tag.affectedOrderId] ReportsOrderId message.affectedOrders
  | _ => True

/-- The groups of a message type: the count field and the tags of an entry. -/
def groupsOf : String → List (Nat × List Nat)
  | "V" => [(Tag.noMdEntryTypes, [Tag.mdEntryType]), (Tag.noRelatedSym, [Tag.symbol])]
  | "W" => [(Tag.noMdEntries, [Tag.mdEntryType, Tag.mdEntryPx, Tag.mdEntrySize])]
  | "X" => [(Tag.noMdEntries, [Tag.mdUpdateAction, Tag.mdEntryType, Tag.symbol, Tag.mdEntryPx, Tag.mdEntrySize])]
  | "r" => [(Tag.noAffectedOrders, [Tag.affectedOrderId])]
  | _ => []

/-- Every group of the message's type is declared with the number of its tags. -/
def CountsDeclared (msgType : String) (fields : FieldBag) : Prop :=
  ∀ group ∈ groupsOf msgType, GroupDeclared fields group.1 group.2

section Entries
variable {bag : FieldBag} {tag : Nat}

theorem reqStr_ok {text : String} (read : bag.reqStr tag = .ok text) :
    ∃ field, List.find? (fun field => field.tag == tag) bag = some field ∧ field.tag = tag ∧ field.value = some text := by
  unfold FieldBag.reqStr FieldBag.optStr FieldBag.find at read
  cases first : List.find? (fun field => field.tag == tag) bag with
  | none =>
    rw [first] at read
    cases read
  | some field =>
    rw [first] at read
    have here : field.tag = tag := by simpa using List.find?_some first
    refine ⟨field, rfl, here, ?_⟩
    cases value : field.value with
    | none =>
      simp only [Option.map_some, value] at read
      cases read
    | some other =>
      simp only [Option.map_some, value] at read
      cases read
      rfl

theorem reqU64_ok {value : Nat} (read : bag.reqU64 tag = .ok value) :
    ∃ field, List.find? (fun field => field.tag == tag) bag = some field ∧ field.tag = tag ∧ ReportsSize value field := by
  unfold FieldBag.reqU64 FieldBag.optU64 at read
  obtain ⟨found, opened, taken⟩ := except_bind_ok read
  obtain ⟨text, raw, parsed⟩ := except_bind_ok opened
  cases text with
  | none =>
    cases parsed
    cases taken
  | some text =>
    have required : bag.reqStr tag = .ok text := by
      unfold FieldBag.reqStr
      rw [raw]
      rfl
    obtain ⟨field, first, here, spelled⟩ := reqStr_ok required
    refine ⟨field, first, here, text, spelled, ?_⟩
    dsimp only at parsed
    split at parsed
    next amount fits =>
      cases parsed
      cases taken
      exact fits
    next => cases parsed

theorem decodePrice_ok {text : String} {price : Nat} (decoded : decodePrice tag text = .ok price) :
    parseDecimalToCents text = .ok price := by
  unfold decodePrice at decoded
  split at decoded
  next cents read =>
    cases decoded
    exact read
  next => cases decoded

/-- An entry of one field reports what that field spells. -/
theorem readsFirst_single {α : Type} {parse : String → Except FixDecodeError α} :
    ReadsFirst (fun entry : FieldBag => do parse (← entry.reqStr tag)) [tag]
      (Reads fun text value => parse text = .ok value) := by
  intro bag value decoded other member
  obtain rfl := List.mem_singleton.1 member
  obtain ⟨text, read, parsed⟩ := except_bind_ok decoded
  obtain ⟨field, first, -, spelled⟩ := reqStr_ok read
  exact ⟨field, first, text, spelled, parsed⟩

theorem readsFirst_orderId :
    ReadsFirst (fun entry : FieldBag => entry.reqStr Tag.affectedOrderId) [Tag.affectedOrderId] ReportsOrderId := by
  intro bag value decoded other member
  obtain rfl := List.mem_singleton.1 member
  obtain ⟨field, first, -, spelled⟩ := reqStr_ok decoded
  exact ⟨field, first, value, spelled, rfl⟩

theorem unlike {P : Prop} {field : Field} {other : Nat} (here : field.tag = tag) (apart : tag ≠ other) :
    field.tag = other → P :=
  fun same => absurd (here.symm.trans same) apart

theorem readsFirst_snapshot :
    ReadsFirst SnapshotEntry.decode [Tag.mdEntryType, Tag.mdEntryPx, Tag.mdEntrySize] SnapshotEntry.Reports := by
  intro bag entry decoded tag member
  obtain ⟨typeText, readType, decoded⟩ := except_bind_ok decoded
  obtain ⟨entryType, parsedType, decoded⟩ := except_bind_ok decoded
  obtain ⟨priceText, readPrice, decoded⟩ := except_bind_ok decoded
  obtain ⟨price, parsedPrice, decoded⟩ := except_bind_ok decoded
  obtain ⟨size, readSize, decoded⟩ := except_bind_ok decoded
  cases decoded
  simp only [List.mem_cons, List.not_mem_nil, or_false] at member
  rcases member with rfl | rfl | rfl
  · obtain ⟨field, first, here, spelled⟩ := reqStr_ok readType
    exact ⟨field, first, fun _ => ⟨typeText, spelled, parsedType⟩, unlike here (by decide), unlike here (by decide)⟩
  · obtain ⟨field, first, here, spelled⟩ := reqStr_ok readPrice
    exact ⟨field, first, unlike here (by decide), fun _ => ⟨priceText, spelled, decodePrice_ok parsedPrice⟩,
      unlike here (by decide)⟩
  · obtain ⟨field, first, here, reports⟩ := reqU64_ok readSize
    exact ⟨field, first, unlike here (by decide), unlike here (by decide), fun _ => reports⟩

theorem readsFirst_incremental (U : Upstream) :
    ReadsFirst (IncrementalEntry.decode U)
      [Tag.mdUpdateAction, Tag.mdEntryType, Tag.symbol, Tag.mdEntryPx, Tag.mdEntrySize] (IncrementalEntry.Reports U) := by
  intro bag entry decoded tag member
  obtain ⟨actionText, readAction, decoded⟩ := except_bind_ok decoded
  obtain ⟨action, parsedAction, decoded⟩ := except_bind_ok decoded
  obtain ⟨typeText, readType, decoded⟩ := except_bind_ok decoded
  obtain ⟨entryType, parsedType, decoded⟩ := except_bind_ok decoded
  obtain ⟨symbolText, readSymbol, decoded⟩ := except_bind_ok decoded
  obtain ⟨symbol, parsedSymbol, decoded⟩ := except_bind_ok decoded
  obtain ⟨priceText, readPrice, decoded⟩ := except_bind_ok decoded
  obtain ⟨price, parsedPrice, decoded⟩ := except_bind_ok decoded
  obtain ⟨size, readSize, decoded⟩ := except_bind_ok decoded
  cases decoded
  simp only [List.mem_cons, List.not_mem_nil, or_false] at member
  rcases member with rfl | rfl | rfl | rfl | rfl
  · obtain ⟨field, first, here, spelled⟩ := reqStr_ok readAction
    exact ⟨field, first, fun _ => ⟨actionText, spelled, parsedAction⟩, unlike here (by decide), unlike here (by decide),
      unlike here (by decide), unlike here (by decide)⟩
  · obtain ⟨field, first, here, spelled⟩ := reqStr_ok readType
    exact ⟨field, first, unlike here (by decide), fun _ => ⟨typeText, spelled, parsedType⟩, unlike here (by decide),
      unlike here (by decide), unlike here (by decide)⟩
  · obtain ⟨field, first, here, spelled⟩ := reqStr_ok readSymbol
    exact ⟨field, first, unlike here (by decide), unlike here (by decide), fun _ => ⟨symbolText, spelled, parsedSymbol⟩,
      unlike here (by decide), unlike here (by decide)⟩
  · obtain ⟨field, first, here, spelled⟩ := reqStr_ok readPrice
    exact ⟨field, first, unlike here (by decide), unlike here (by decide), unlike here (by decide),
      fun _ => ⟨priceText, spelled, decodePrice_ok parsedPrice⟩, unlike here (by decide)⟩
  · obtain ⟨field, first, here, reports⟩ := reqU64_ok readSize
    exact ⟨field, first, unlike here (by decide), unlike here (by decide), unlike here (by decide),
      unlike here (by decide), fun _ => reports⟩

end Entries

section Messages
variable {U : Upstream} {fields : FieldBag} {header : StandardHeader}

theorem requiredGroup_ok {countTag delimiterTag : Nat} {memberTags : List Nat} {bags : List FieldBag}
    (grouped : fields.requiredGroup countTag delimiterTag memberTags = .ok bags) :
    fields.group countTag delimiterTag memberTags = .ok bags := by
  obtain ⟨groups, accepted, some⟩ := except_bind_ok grouped
  split at some
  next => cases some
  next =>
    cases some
    exact accepted

theorem request_groups {message : MarketDataRequest} (decoded : MarketDataRequest.decodeBody U header fields = .ok message) :
    GroupsKept U fields (.marketDataRequest message) ↔ CountsDeclared "V" fields := by
  obtain ⟨typeBags, groupedTypes, decoded⟩ := except_bind_ok decoded
  obtain ⟨entryTypes, readTypes, decoded⟩ := except_bind_ok decoded
  obtain ⟨symbolBags, groupedSymbols, decoded⟩ := except_bind_ok decoded
  obtain ⟨symbols, readSymbols, decoded⟩ := except_bind_ok decoded
  obtain ⟨mdReqId, -, decoded⟩ := except_bind_ok decoded
  obtain ⟨typeText, -, decoded⟩ := except_bind_ok decoded
  obtain ⟨requestType, -, decoded⟩ := except_bind_ok decoded
  obtain ⟨depth, -, decoded⟩ := except_bind_ok decoded
  cases decoded
  have types := groupKept_iff List.mem_cons_self readsFirst_single (requiredGroup_ok groupedTypes) readTypes
  have named := groupKept_iff List.mem_cons_self readsFirst_single (requiredGroup_ok groupedSymbols) readSymbols
  unfold CountsDeclared groupsOf
  simp only [List.mem_cons, List.not_mem_nil, or_false, forall_eq_or_imp, forall_eq]
  exact and_congr types named

theorem snapshot_groups {message : MarketDataSnapshotFullRefresh}
    (decoded : MarketDataSnapshotFullRefresh.decodeBody U header fields = .ok message) :
    GroupsKept U fields (.marketDataSnapshotFullRefresh message) ↔ CountsDeclared "W" fields := by
  obtain ⟨bags, grouped, decoded⟩ := except_bind_ok decoded
  obtain ⟨entries, read, decoded⟩ := except_bind_ok decoded
  obtain ⟨mdReqId, -, decoded⟩ := except_bind_ok decoded
  obtain ⟨symbolText, -, decoded⟩ := except_bind_ok decoded
  obtain ⟨symbol, -, decoded⟩ := except_bind_ok decoded
  obtain ⟨rptSeq, -, decoded⟩ := except_bind_ok decoded
  cases decoded
  unfold CountsDeclared groupsOf
  simp only [List.mem_cons, List.not_mem_nil, or_false, forall_eq]
  exact groupKept_iff List.mem_cons_self readsFirst_snapshot grouped read

theorem incremental_groups {message : MarketDataIncrementalRefresh}
    (decoded : MarketDataIncrementalRefresh.decodeBody U header fields = .ok message) :
    GroupsKept U fields (.marketDataIncrementalRefresh message) ↔ CountsDeclared "X" fields := by
  obtain ⟨bags, grouped, decoded⟩ := except_bind_ok decoded
  obtain ⟨entries, read, decoded⟩ := except_bind_ok decoded
  obtain ⟨mdReqId, -, decoded⟩ := except_bind_ok decoded
  obtain ⟨rptSeq, -, decoded⟩ := except_bind_ok decoded
  cases decoded
  unfold CountsDeclared groupsOf
  simp only [List.mem_cons, List.not_mem_nil, or_false, forall_eq]
  exact groupKept_iff List.mem_cons_self (readsFirst_incremental U) grouped read

theorem massCancelReport_groups {message : OrderMassCancelReport}
    (decoded : OrderMassCancelReport.decodeBody header fields = .ok message) :
    GroupsKept U fields (.orderMassCancelReport message) ↔ CountsDeclared "r" fields := by
  obtain ⟨bags, grouped, decoded⟩ := except_bind_ok decoded
  obtain ⟨entries, read, decoded⟩ := except_bind_ok decoded
  obtain ⟨responseText, -, decoded⟩ := except_bind_ok decoded
  obtain ⟨response, -, decoded⟩ := except_bind_ok decoded
  obtain ⟨total, -, decoded⟩ := except_bind_ok decoded
  cases decoded
  unfold CountsDeclared groupsOf
  simp only [List.mem_cons, List.not_mem_nil, or_false, forall_eq]
  exact groupKept_iff List.mem_cons_self readsFirst_orderId grouped read

theorem map_ok {ε α β : Type} {make : α → β} {result : Except ε α} {value : β} (succeeds : result.map make = .ok value) :
    ∃ part, result = .ok part ∧ make part = value := by
  cases result with
  | error reason => cases succeeds
  | ok part => exact ⟨part, rfl, Except.ok.inj succeeds⟩

theorem decodeBody_groups [Ironfix] {msgType : String} {message : DecodedMessage}
    (decoded : decodeBody U header fields msgType = .ok message) :
    GroupsKept U fields message ↔ CountsDeclared msgType fields := by
  have plain (none : groupsOf msgType = []) : CountsDeclared msgType fields := by
    unfold CountsDeclared
    rw [none]
    exact nofun
  unfold decodeBody at decoded
  split at decoded
  case h_15 =>
    obtain ⟨part, read, rfl⟩ := map_ok decoded
    exact massCancelReport_groups read
  case h_17 =>
    obtain ⟨part, read, rfl⟩ := map_ok decoded
    exact request_groups read
  case h_18 =>
    obtain ⟨part, read, rfl⟩ := map_ok decoded
    exact snapshot_groups read
  case h_19 =>
    obtain ⟨part, read, rfl⟩ := map_ok decoded
    exact incremental_groups read
  case h_21 =>
    split at decoded <;> cases decoded
  all_goals
    obtain ⟨part, -, rfl⟩ := map_ok decoded
    exact iff_of_true trivial (plain rfl)

/-- In every frame that is decoded, the occurrences of the tags of its groups are kept exactly when each of these tags
occurs as often as the count field of its group declares. -/
theorem decodeRaw_groups_iff [Ironfix] {raw : RawMessage} {message : DecodedMessage} (decoded : decodeRaw U raw = .ok message) :
    GroupsKept U raw.fields message ↔ CountsDeclared raw.msgType raw.fields := by
  unfold decodeRaw at decoded
  split at decoded
  next => cases decoded
  next =>
    split at decoded
    next => cases decoded
    next =>
      split at decoded
      next => cases decoded
      next =>
        obtain ⟨-, -, decoded⟩ := except_bind_ok decoded
        obtain ⟨header, -, decoded⟩ := except_bind_ok decoded
        exact decodeBody_groups decoded

end Messages

section Frames

def requestHead : List Field :=
  [⟨Tag.senderCompId, some "ALICE"⟩, ⟨Tag.targetCompId, some "VENUE"⟩, ⟨Tag.msgSeqNum, some "2"⟩,
    ⟨Tag.sendingTime, some "20240329-12:00:00.500"⟩, ⟨Tag.mdReqId, some "R-1"⟩,
    ⟨Tag.subscriptionRequestType, some "1"⟩, ⟨Tag.noMdEntryTypes, some "1"⟩, ⟨Tag.mdEntryType, some "0"⟩,
    ⟨Tag.noRelatedSym, some "1"⟩, ⟨Tag.symbol, some "BTC-20351231-50000-C"⟩, ⟨Tag.marketDepth, some "0"⟩]

def requestOf (symbols : List Symbol) : MarketDataRequest where
  header := ⟨⟨"ALICE", by decide +kernel⟩, ⟨"VENUE", by decide +kernel⟩, 2, ⟨"20240329-12:00:00.500"⟩⟩
  mdReqId := "R-1"
  subscriptionRequestType := .snapshotPlusUpdates
  marketDepth := 0
  entryTypes := [.bid]
  symbols := symbols

theorem requestHead_kept :
    GroupsKept referenceUpstream requestHead (.marketDataRequest (requestOf ["BTC-20351231-50000-C"])) ↔
      CountsDeclared "V" requestHead :=
  @decodeRaw_groups_iff referenceUpstream referenceWire ⟨some beginString, "V", requestHead⟩ _ (by decide +kernel)

/-- A second symbol behind a foreign field is dropped from an accepted request. -/
theorem strayedSymbol_dropped :
    @decodeRaw referenceWire referenceUpstream
        ⟨some beginString, "V", requestHead ++ [⟨Tag.symbol, some "BTC-20351231-60000-C"⟩]⟩ =
        .ok (.marketDataRequest (requestOf ["BTC-20351231-50000-C"])) ∧
      ¬ GroupsKept referenceUpstream (requestHead ++ [⟨Tag.symbol, some "BTC-20351231-60000-C"⟩])
        (.marketDataRequest (requestOf ["BTC-20351231-50000-C"])) := by
  refine ⟨by decide +kernel, fun kept => ?_⟩
  have most := Cut.occurrences_of_kept kept.2 List.mem_cons_self
  revert most
  decide

end Frames

end Fauxchange.Fix
