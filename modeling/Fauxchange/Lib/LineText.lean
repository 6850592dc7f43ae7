import Fauxchange.Lib.Delimiter

/-! Lines of a name and a value, written one after the other. A name may hold anything, also the text of other lines,
so a text determines its lines only up to names that swallow the lines before them. -/

namespace Fauxchange.Lib

/-- A field is read up to the delimiter that what follows it begins with, if anything follows. -/
theorem field_inj {α : Type} {delimiter : α} {field other rest last : List α} (free : delimiter ∉ field)
    (clear : delimiter ∉ other) (begins : ∀ first ∈ rest.head?, first = delimiter)
    (starts : ∀ first ∈ last.head?, first = delimiter) (same : field ++ rest = other ++ last) :
    field = other ∧ rest = last := by
  induction field generalizing other with
  | nil =>
    cases other with
    | nil => exact ⟨rfl, same⟩
    | cons head tail =>
      obtain rfl := begins head (by rw [show rest = _ from same]; rfl)
      exact absurd List.mem_cons_self clear
  | cons head tail ih =>
    cases other with
    | nil =>
      obtain rfl := starts head (by rw [show last = _ from same.symm]; rfl)
      exact absurd List.mem_cons_self free
    | cons first more =>
      obtain ⟨heads, tails⟩ := List.cons.inj same
      obtain ⟨fields, rests⟩ := ih (fun member => free (List.mem_cons_of_mem _ member))
        (fun member => clear (List.mem_cons_of_mem _ member)) tails
      exact ⟨by rw [heads, fields], rests⟩

/-- A line is written as a head, its name, a mark and its value. -/
structure LineFormat (α β : Type) where
  head : List α
  mark : α
  encode : β → List α

namespace LineFormat
variable {α β : Type}

def text (format : LineFormat α β) (line : List α × β) : List α :=
  format.head ++ (line.1 ++ format.mark :: format.encode line.2)

def texts (format : LineFormat α β) (lines : List (List α × β)) : List α := lines.flatMap format.text

/-- The name that holds a line before the name of its own. -/
def swallowing (format : LineFormat α β) (line : List α × β) (name : List α) : List α :=
  line.1 ++ format.mark :: format.encode line.2 ++ (format.head ++ name)

/-- The same lines, but that a name on one side may swallow lines that stand alone on the other. -/
inductive SameLines (format : LineFormat α β) : List (List α × β) → List (List α × β) → Prop
  | nil : SameLines format [] []
  | both (line : List α × β) {lines others : List (List α × β)} (rest : SameLines format lines others) :
      SameLines format (line :: lines) (line :: others)
  | left (line : List α × β) (name : List α) (value : β) {lines others : List (List α × β)}
      (rest : SameLines format lines ((name, value) :: others)) :
      SameLines format (line :: lines) ((format.swallowing line name, value) :: others)
  | right (line : List α × β) (name : List α) (value : β) {lines others : List (List α × β)}
      (rest : SameLines format ((name, value) :: lines) others) :
      SameLines format ((format.swallowing line name, value) :: lines) (line :: others)

/-- What makes a line readable from its end, and the start of the next one visible. -/
structure Sound (format : LineFormat α β) : Prop where
  injective : Function.Injective format.encode
  opens : ∃ first rest, format.head = first :: rest ∧ ∀ value, first ∉ format.encode value
  unmarked : ∀ value, format.mark ∉ format.encode value
  bare : format.mark ∉ format.head

variable {format : LineFormat α β} {line other : List α × β} {lines others : List (List α × β)}

theorem texts_cons (line : List α × β) (lines : List (List α × β)) :
    format.texts (line :: lines) = format.text line ++ format.texts lines := List.flatMap_cons

theorem text_swallowing (line : List α × β) (name : List α) (value : β) :
    format.text (format.swallowing line name, value) = format.text line ++ format.text (name, value) := by
  unfold text swallowing
  simp only [List.append_assoc, List.cons_append]

theorem text_ne_nil : format.text line ≠ [] := by
  unfold text
  simp

/-- A text ends in the value of its last line. -/
theorem texts_ends (some : lines ≠ []) :
    ∃ front value, format.texts lines = front ++ format.mark :: format.encode value := by
  obtain ⟨early, last, rfl⟩ := List.eq_nil_or_concat lines |>.resolve_left some
  refine ⟨format.texts early ++ (format.head ++ last.1), last.2, ?_⟩
  unfold texts
  rw [List.concat_eq_append, List.flatMap_append, List.flatMap_singleton]
  unfold text
  simp only [List.append_assoc]

theorem SameLines.texts_eq (same : format.SameLines lines others) : format.texts lines = format.texts others := by
  induction same with
  | nil => rfl
  | both line _ ih => rw [texts_cons, texts_cons, ih]
  | left line name value _ ih =>
    rw [texts_cons, ih, texts_cons, texts_cons, text_swallowing, List.append_assoc]
  | right line name value _ ih =>
    rw [texts_cons, text_swallowing, List.append_assoc, ← texts_cons (name, value), ih, texts_cons]

/-- Where no name holds a mark, none swallows a line. -/
theorem SameLines.eq (same : format.SameLines lines others) (plain : ∀ line ∈ lines, format.mark ∉ line.1)
    (clear : ∀ line ∈ others, format.mark ∉ line.1) : lines = others := by
  have swallows : ∀ line name, format.mark ∈ format.swallowing line name := by
    intro line name
    unfold swallowing
    simp
  induction same with
  | nil => rfl
  | both line _ ih =>
    rw [ih (List.forall_mem_cons.1 plain).2 (List.forall_mem_cons.1 clear).2]
  | left line name value _ _ => exact absurd (swallows line name) (List.forall_mem_cons.1 clear).1
  | right line name value _ _ => exact absurd (swallows line name) (List.forall_mem_cons.1 plain).1

namespace Sound
variable (sound : format.Sound)

include sound

theorem text_inj (same : format.text line = format.text other) : line = other := by
  obtain ⟨names, values⟩ :=
    append_cons_inj (sound.unmarked _) (sound.unmarked _) (List.append_cancel_left same)
  exact Prod.ext names (sound.injective values)

/-- A line that reads further than another has swallowed it. -/
theorem swallowed {more tail : List α} (longer : format.text other = format.text line ++ more) (some : more ≠ [])
    (follows : format.texts lines = more ++ tail) :
    ∃ name, more = format.text (name, other.2) ∧ other = (format.swallowing line name, other.2) := by
  obtain ⟨first, rest, head, fresh⟩ := sound.opens
  -- what follows the shorter line begins with a head
  have begins : ∃ body, more ++ tail = format.head ++ body := by
    cases lines with
    | nil => exact absurd (List.append_eq_nil_iff.1 follows.symm).1 some
    | cons next _ =>
      rw [← follows, texts_cons]
      exact ⟨_, List.append_assoc ..⟩
  obtain ⟨body, begins⟩ := begins
  have started : ∃ more', more = first :: more' := by
    cases more with
    | nil => exact absurd rfl some
    | cons start more' =>
      rw [head] at begins
      exact ⟨more', by rw [(List.cons.inj begins).1]⟩
  have ends : ∃ front, more = front ++ format.mark :: format.encode other.2 ∧
      format.head ++ other.1 = format.text line ++ front := by
    unfold text at longer
    rw [← List.append_assoc] at longer
    rcases List.append_eq_append_iff.1 longer with ⟨front, _, after⟩ | ⟨front, before, after⟩
    · -- then the head would stand within the mark and the value
      obtain ⟨more', rfl⟩ := started
      cases front with
      | nil =>
        have same : format.mark = first := (List.cons.inj after).1
        exact absurd (head ▸ same ▸ List.mem_cons_self) sound.bare
      | cons _ front =>
        refine absurd ?_ (fresh other.2)
        rw [(List.cons.inj after).2]
        simp
    · exact ⟨front, after, before⟩
  obtain ⟨front, rfl, named⟩ := ends
  have headed : ∃ name, front = format.head ++ name := by
    rw [List.append_assoc] at begins
    rcases List.append_eq_append_iff.1 begins with ⟨remainder, inside, after⟩ | ⟨name, here, _⟩
    · cases remainder with
      | nil => exact ⟨[], by rw [inside, List.append_nil, List.append_nil]⟩
      | cons mark remainder =>
        have same : format.mark = mark := (List.cons.inj after).1
        refine absurd ?_ sound.bare
        rw [inside, same]
        simp
    · exact ⟨name, here⟩
  obtain ⟨name, rfl⟩ := headed
  refine ⟨name, List.append_assoc .., Prod.ext ?_ rfl⟩
  refine @List.append_cancel_left _ format.head _ _ (named.trans ?_)
  unfold text swallowing
  simp only [List.append_assoc]

/-- Equal texts have the same lines. -/
theorem same {lines others : List (List α × β)} (texts : format.texts lines = format.texts others) :
    format.SameLines lines others := by
  match lines, others with
  | [], [] => exact .nil
  | [], other :: rest => exact absurd (List.append_eq_nil_iff.1 (texts_cons other rest ▸ texts.symm)).1 text_ne_nil
  | line :: rest, [] => exact absurd (List.append_eq_nil_iff.1 (texts_cons line rest ▸ texts)).1 text_ne_nil
  | line :: rest, other :: last =>
    rw [texts_cons, texts_cons] at texts
    rcases List.append_eq_append_iff.1 texts with ⟨more, longer, follows⟩ | ⟨more, longer, follows⟩
    · by_cases none : more = []
      · subst none
        obtain rfl := sound.text_inj (longer.trans (List.append_nil _))
        exact .both _ (same follows)
      · obtain ⟨name, here, swallows⟩ := sound.swallowed longer none follows
        rw [swallows]
        refine .left line name other.2 (same ?_)
        rw [texts_cons, ← here]
        exact follows
    · by_cases none : more = []
      · subst none
        obtain rfl := sound.text_inj (longer.trans (List.append_nil _))
        exact .both _ (same follows.symm)
      · obtain ⟨name, here, swallows⟩ := sound.swallowed longer none follows
        rw [swallows]
        refine .right other name line.2 (same ?_)
        rw [texts_cons, ← here]
        exact follows.symm
termination_by lines.length + others.length

theorem texts_eq_iff : format.texts lines = format.texts others ↔ format.SameLines lines others :=
  ⟨sound.same, SameLines.texts_eq⟩

end Sound

end LineFormat

end Fauxchange.Lib
