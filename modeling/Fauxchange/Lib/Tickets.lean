import Mathlib.Data.List.Nodup

/-! Tickets that are issued once. An agent holds some of them for a while, and then it drops them or spends them: what one
agent spends, no other agent holds or has spent. -/

namespace Fauxchange.Lib

structure Tickets (A P : Type) where
  issued : List P
  held : A → List P
  spent : List P

namespace Tickets
variable {A P : Type}

structure Sound (tickets : Tickets A P) : Prop where
  once : tickets.issued.Nodup
  held : ∀ agent, tickets.held agent ⊆ tickets.issued
  spent : tickets.spent ⊆ tickets.issued
  apart : ∀ agent other, agent ≠ other → List.Disjoint (tickets.held agent) (tickets.held other)
  unspent : ∀ agent, List.Disjoint (tickets.held agent) tickets.spent

variable {before after : Tickets A P} {agent : A} {fresh : List P}

/-- Nobody holds anything yet. -/
theorem sound_unheld {issued : List P} (once : issued.Nodup) : (⟨issued, fun _ : A => [], []⟩ : Tickets A P).Sound where
  once := once
  held := fun _ => List.nil_subset _
  spent := List.nil_subset _
  apart := fun _ _ _ => List.disjoint_nil_left _
  unspent := fun _ => List.disjoint_nil_left _

/-- Fresh tickets are issued, and one agent goes on with some of them and some of its own. -/
theorem Sound.issue (sound : before.Sound) (issued : after.issued = before.issued ++ fresh) (once : after.issued.Nodup)
    (others : ∀ other, other ≠ agent → after.held other = before.held other)
    (kept : after.held agent ⊆ before.held agent ++ fresh) (spent : after.spent = before.spent) : after.Sound := by
  rw [issued] at once
  have new : ∀ ticket ∈ fresh, ticket ∉ before.issued := fun ticket member old =>
    (List.nodup_append.1 once).2.2 ticket old ticket member rfl
  have held : ∀ other, ∀ ticket ∈ after.held other, ticket ∈ before.held other ∨ other = agent ∧ ticket ∈ fresh := by
    intro other ticket member
    by_cases own : other = agent
    · subst own
      exact (List.mem_append.1 (kept member)).imp id fun first => ⟨rfl, first⟩
    · rw [others other own] at member
      exact Or.inl member
  constructor
  · rw [issued]
    exact once
  · intro other ticket member
    rw [issued]
    rcases held other ticket member with old | ⟨-, first⟩
    · exact List.mem_append_left _ (sound.held other old)
    · exact List.mem_append_right _ first
  · rw [spent, issued]
    exact List.subset_append_of_subset_left _ sound.spent
  · intro left right unlike ticket here there
    rcases held left ticket here with old | ⟨rfl, first⟩
    · rcases held right ticket there with late | ⟨-, first⟩
      · exact sound.apart left right unlike old late
      · exact new ticket first (sound.held left old)
    · rcases held right ticket there with late | ⟨rfl, -⟩
      · exact new ticket first (sound.held right late)
      · exact unlike rfl
  · intro other ticket member gone
    rw [spent] at gone
    rcases held other ticket member with old | ⟨-, first⟩
    · exact sound.unspent other old gone
    · exact new ticket first (sound.spent gone)

/-- One agent spends what it holds. -/
theorem Sound.spend (sound : before.Sound) (issued : after.issued = before.issued)
    (others : ∀ other, other ≠ agent → after.held other = before.held other) (none : after.held agent = [])
    (spent : after.spent = before.spent ++ before.held agent) : after.Sound := by
  have held : ∀ other, ∀ ticket ∈ after.held other, other ≠ agent ∧ ticket ∈ before.held other := by
    intro other ticket member
    by_cases own : other = agent
    · rw [own, none] at member
      cases member
    · rw [others other own] at member
      exact ⟨own, member⟩
  constructor
  · rw [issued]
    exact sound.once
  · intro other ticket member
    rw [issued]
    exact sound.held other (held other ticket member).2
  · rw [spent, issued]
    exact List.append_subset.2 ⟨sound.spent, sound.held agent⟩
  · intro left right unlike ticket here there
    exact sound.apart left right unlike (held left ticket here).2 (held right ticket there).2
  · intro other ticket member gone
    obtain ⟨own, old⟩ := held other ticket member
    rw [spent] at gone
    rcases List.mem_append.1 gone with before | own'
    · exact sound.unspent other old before
    · exact sound.apart other agent own old own'

end Tickets

end Fauxchange.Lib
