import Fauxchange.Venue.ExpiryRoll
import Fauxchange.Venue.KillSwitch

/-! What an expiry roll has settled when it returns `Ok`: every contract that it finds due is swept and shut, as long as
nothing comes between its commands, and nothing is listed behind it. -/

namespace Fauxchange.Venue
open Lib Exchange Microstructure Simulation UnderlyingOrderBook

variable {U : Upstream}

/-- A contract of a hosted underlying, by its canonical symbol. -/
structure Contract (U : Upstream) (site : RollSite) (symbol : Symbol) (parsed : ParsedSymbol) : Prop where
  parses : U.parse symbol = .ok parsed
  text : U.toSymbol parsed = symbol
  hosted : parsed.underlying ∈ site.underlyings

/-- The leaf of a contract exists. -/
def Exists (executors : Executors U) (parsed : ParsedSymbol) : Prop :=
  ((executors parsed.underlying).state.underlyingBook.leaf? parsed.address).isSome

/-- What rests on a contract. -/
def restsOn (laws : LeafLaws U) (executors : Executors U) (parsed : ParsedSymbol) : List BookOrder :=
  laws.orders ((executors parsed.underlying).state.underlyingBook.leafAt parsed.address)

/-- Every roll that returns `Ok` finds each existing contract that is due closed to new orders and without a resting
one. -/
def RollsSettle (laws : LeafLaws U) (site : RollSite) (venue : RollVenue U) : Prop :=
  ∀ roll ∈ venue.rolls, roll.ReturnsOk → ∀ symbol parsed, Contract U site symbol parsed → Exists venue.executors parsed →
    roll.schedule.Due (site.expirationOf parsed) roll.nowMs →
      (venue.executors parsed.underlying).state.instrumentStatus.isAcceptingOrders U symbol = false ∧
        restsOn laws venue.executors parsed = []

namespace RollStage

/-- The expiration whose commands are issued. -/
def transition? : RollStage → Option Transition
  | .choosing => none
  | .issuing transition | .awaiting transition .. => some transition

/-- The deliveries that wait for their answers, and the commands to come on the underlying of the expiration. -/
def ahead : RollStage → List Delivery
  | .choosing => []
  | .issuing transition => transition.commands.map (Delivery.mk transition.group.key.underlying)
  | .awaiting transition waiting _ => waiting ++ transition.commands.map (Delivery.mk transition.group.key.underlying)

def answers : RollStage → List Answer
  | .choosing | .issuing _ => []
  | .awaiting _ _ answers => answers

end RollStage

def sweepOf (key : ExpirationKey) : Delivery := ⟨key.underlying, expirySweep key.expiration⟩

def settlingOf (underlying : String) (symbol : Symbol) : Delivery := ⟨underlying, .setInstrumentStatus symbol .settling⟩

/-- The contract that a command is to put into settling. -/
def settledBy : VenueCommand → Option Symbol
  | .setInstrumentStatus symbol .settling => some symbol
  | _ => none

section Condition
variable (laws : LeafLaws U) (site : RollSite) (venue : RollVenue U)

/-- A contract may be listed: no roll has recorded its expiration as settled, and none under way finds it due. -/
def Listable (parsed : ParsedSymbol) : Prop :=
  ∀ key ∈ site.keyOf parsed, venue.phases key < .settling ∧ ∀ roll ∈ venue.rolls, ¬ roll.schedule.Due key.expiration roll.nowMs

instance (parsed : ParsedSymbol) : Decidable (Listable site venue parsed) :=
  inferInstanceAs (Decidable (∀ key, key ∈ site.keyOf parsed → _))

/-- The leaves that a command creates are of contracts that may be listed. -/
def ListsTimely (commit : Commit) : Prop :=
  ∀ symbol ∈ vivifies commit.command.command, ∀ parsed ∈ (U.parse symbol).toOption, parsed.underlying = commit.underlying →
    (venue.executors commit.underlying).state.underlyingBook.leaf? parsed.address = none →
      ∀ style ∈ [OptionStyle.call, .put], Listable site venue { parsed with optionStyle := style }

instance (commit : Commit) : Decidable (ListsTimely site venue commit) := by
  unfold ListsTimely
  infer_instance

/-- A commit leaves no order on a contract that a roll has swept, and has still to put into settling. -/
def SparesSwept (commit : Commit) : Prop :=
  ∀ roll ∈ venue.rolls, ∀ transition ∈ roll.stage.transition?, sweepOf transition.group.key ∉ roll.stage.ahead →
    ∀ delivery ∈ roll.stage.ahead, ∀ symbol ∈ settledBy delivery.command, ∀ parsed ∈ (U.parse symbol).toOption,
      restsOn laws venue.executors parsed = [] → restsOn laws (venue.committed site commit).executors parsed = []

instance (commit : Commit) : Decidable (SparesSwept laws site venue commit) := by
  unfold SparesSwept
  infer_instance

/-- What the rolls need of every commit: its match can be captured, it lists no contract too late, and it places nothing
between a sweep and the settling. -/
def Unobtrusive (commit : Commit) : Prop :=
  (∀ made ∈ (venue.executors commit.underlying).state.matchOf commit.command.sequence commit.command.command, made.Fits U) ∧
    ListsTimely site venue commit ∧ SparesSwept laws site venue commit

instance (commit : Commit) : Decidable (Unobtrusive laws site venue commit) := inferInstanceAs (Decidable (_ ∧ _ ∧ _))

/-- A transition to settling is legal, or comes too late. -/
def Legal (delivery : Delivery) : Prop :=
  ∀ symbol ∈ settledBy delivery.command,
    U.canTransition ((venue.executors delivery.underlying).state.instrumentStatus.statusOf symbol) .settling = true ∨
      Final ((venue.executors delivery.underlying).state.instrumentStatus.statusOf symbol)

instance (delivery : Delivery) : Decidable (Legal venue delivery) := by
  unfold Legal
  infer_instance

/-- A command that counts as committed is not refused on the underlying of its expiration. -/
def Reaches (roll : Roll) : Prop :=
  answerOf roll.stage.answers = none → ∀ transition ∈ roll.stage.transition?, ∀ answer ∈ roll.stage.answers,
    answer.underlying = transition.group.key.underlying → answer.refusal = none

instance (roll : Roll) : Decidable (Reaches roll) := by
  unfold Reaches
  infer_instance

/-- The steps under which a roll is complete. -/
def Unhindered : RollAction → Prop
  | .commit commit => Unobtrusive laws site venue commit
  | .accepted position sequence venueTs =>
    ∀ roll ∈ venue.rolls[position]?, ∀ delivery ∈ roll.delivery,
      Unobtrusive laws site venue (RollVenue.commitOf delivery sequence venueTs) ∧ Legal venue delivery
  | .proceed position => ∀ roll ∈ venue.rolls[position]?, Reaches roll
  | _ => True

instance : (action : RollAction) → Decidable (Unhindered laws site venue action)
  | .commit commit => inferInstanceAs (Decidable (Unobtrusive laws site venue commit))
  | .accepted position sequence venueTs => inferInstanceAs (Decidable (∀ roll, roll ∈ venue.rolls[position]? →
      ∀ delivery, delivery ∈ roll.delivery → Unobtrusive laws site venue (RollVenue.commitOf delivery sequence venueTs) ∧
        Legal venue delivery))
  | .proceed position => inferInstanceAs (Decidable (∀ roll, roll ∈ venue.rolls[position]? → Reaches roll))
  | .begin .. | .choose _ | .issue _ | .refused .. | .conclude _ | .finish _ => .isTrue trivial

end Condition

/-- A contract that is settling or past it, without a resting order. -/
def ShutOn (laws : LeafLaws U) (executors : Executors U) (symbol : Symbol) (parsed : ParsedSymbol) : Prop :=
  Shut laws (executors parsed.underlying).state symbol parsed.address

/-- A contract of the expiration whose commands are issued is yet to be settled: it is swept or will be, unless a command
was refused on its underlying. -/
def Pending (laws : LeafLaws U) (executors : Executors U) (stage : RollStage) (key : ExpirationKey) (symbol : Symbol)
    (parsed : ParsedSymbol) : Prop :=
  (∃ answer ∈ stage.answers, answer.underlying = key.underlying ∧ answer.refusal ≠ none) ∨
    settlingOf key.underlying symbol ∈ stage.ahead ∧
      (sweepOf key ∈ stage.ahead ∨ restsOn laws executors parsed = [])

/-- What holds of a roll under way. -/
structure RollKept (laws : LeafLaws U) (site : RollSite) (executors : Executors U) (roll : Roll) : Prop where
  grouped : ∀ group ∈ roll.groups, ∀ symbol parsed, Contract U site symbol parsed → Exists executors parsed →
    site.keyOf parsed = some group.key → roll.schedule.Due group.key.expiration roll.nowMs → symbol ∈ group.symbols
  staged : ∀ transition ∈ roll.stage.transition?,
    roll.schedule.Due transition.group.key.expiration roll.nowMs ∧
      ∀ symbol parsed, Contract U site symbol parsed → Exists executors parsed →
        site.keyOf parsed = some transition.group.key →
          ShutOn laws executors symbol parsed ∨ Pending laws executors roll.stage transition.group.key symbol parsed
  sweepsFirst : ∀ transition ∈ roll.stage.transition?, roll.stage.ahead.Pairwise fun early late =>
    late = sweepOf transition.group.key → early.command = expirySweep transition.group.key.expiration
  controls : ∀ delivery ∈ roll.stage.ahead, commandSymbol delivery.command = none
  covered : ∀ symbol parsed key, Contract U site symbol parsed → Exists executors parsed → site.keyOf parsed = some key →
    roll.schedule.Due key.expiration roll.nowMs →
      ShutOn laws executors symbol parsed ∨ roll.failures ≠ [] ∨ (∃ group ∈ roll.groups, group.key = key) ∨
        ∃ transition ∈ roll.stage.transition?, transition.group.key = key

/-- What the unhindered steps keep. -/
structure Rolling (laws : LeafLaws U) (site : RollSite) (venue : RollVenue U) : Prop where
  tracked : ∀ underlying, Tracked laws (venue.executors underlying) underlying (commandsOn underlying venue.commits)
  recorded : ∀ symbol parsed key, Contract U site symbol parsed → Exists venue.executors parsed →
    site.keyOf parsed = some key → .settling ≤ venue.phases key → ShutOn laws venue.executors symbol parsed
  kept : ∀ roll ∈ venue.rolls, RollKept laws site venue.executors roll

section Site
variable {site : RollSite} {symbol : Symbol} {parsed : ParsedSymbol} {key : ExpirationKey}

theorem keyOf_eq_some : site.keyOf parsed = some key ↔
    site.expirationOf parsed = key.expiration ∧ key.underlying = parsed.underlying := by
  unfold RollSite.keyOf ExpirationKey.expiration
  cases key
  split
  next count relative => simp [relative]
  next expirationMs absolute =>
    rw [absolute]
    constructor
    · intro same
      cases same
      exact ⟨rfl, rfl⟩
    · rintro ⟨same, rfl⟩
      rw [ExpirationDate.dateTime.inj same]

theorem Contract.lives (contract : Contract U site symbol parsed) :
    addressOf? U parsed.underlying symbol = some parsed.address :=
  addressOf?_eq_some.2 ⟨parsed, contract.parses, rfl, rfl⟩

theorem Contract.typed (contract : Contract U site symbol parsed) : Typed U symbol := by
  intro found finds
  rw [contract.parses] at finds
  cases finds
  exact contract.text

/-- The contracts of one strike differ in their style only. -/
theorem same_strike {found : ParsedSymbol} (hosted : found.underlying = parsed.underlying)
    (expiry : parsed.expirationStr = found.expirationStr) (strike : parsed.strike = found.strike) :
    parsed = { found with optionStyle := parsed.optionStyle } := by
  cases parsed
  cases found
  exact ParsedSymbol.mk.injEq .. ▸ ⟨hosted.symm, expiry, strike, rfl⟩

/-- The index lists every contract that exists. -/
theorem Contract.mem_symbolIndex (contract : Contract U site symbol parsed) {venue : RollVenue U}
    (present : Exists venue.executors parsed) : symbol ∈ venue.symbolIndex site := by
  obtain ⟨leaf, here⟩ := Option.isSome_iff_exists.1 present
  obtain ⟨strike, found, -⟩ := Option.map_eq_some_iff.1 here
  refine List.mem_flatMap.2 ⟨parsed.underlying, List.mem_dedup.2 contract.hosted, ?_⟩
  refine List.mem_flatMap.2 ⟨((parsed.expirationStr, parsed.strike), strike), ?_, ?_⟩
  · exact Std.ExtTreeMap.mem_toList_iff_getElem?_eq_some.2 found
  · refine List.mem_map.2 ⟨parsed.optionStyle, ?_, contract.text⟩
    cases parsed.optionStyle <;> simp

/-- A roll finds every contract that exists under its expiration. -/
theorem Contract.grouped (contract : Contract U site symbol parsed) {venue : RollVenue U}
    (present : Exists venue.executors parsed) (under : site.keyOf parsed = some key) :
    (∃ group ∈ venue.groups site, group.key = key) ∧
      ∀ group ∈ venue.groups site, group.key = key → symbol ∈ group.symbols := by
  have listed : (key, symbol) ∈ (venue.symbolIndex site).filterMap (site.listing U) := by
    refine List.mem_filterMap.2 ⟨symbol, contract.mem_symbolIndex present, ?_⟩
    unfold RollSite.listing
    rw [contract.parses]
    dsimp only
    rw [under, contract.text]
    rfl
  unfold RollVenue.groups
  constructor
  · refine ⟨_, List.mem_map.2 ⟨key, ?_, rfl⟩, rfl⟩
    exact (List.mem_insertionSort (· ≤ ·)).2 (List.mem_dedup.2 (List.mem_map.2 ⟨_, listed, rfl⟩))
  · intro group member same
    obtain ⟨other, -, rfl⟩ := List.mem_map.1 member
    have same : other = key := same
    refine (List.mem_insertionSort (· ≤ ·)).2 (List.mem_map.2 ⟨_, List.mem_filter.2 ⟨listed, ?_⟩, rfl⟩)
    exact decide_eq_true same.symm

/-- What the gateway makes of the commands of a roll. -/
theorem mem_submit {command : VenueCommand} {deliveries : List Delivery}
    (submitted : site.producers.submit U command = .ok deliveries) :
    (∀ delivery ∈ deliveries, delivery.command = command) ∧
      (∀ underlying ∈ site.underlyings, isVenueGlobal command = true → ⟨underlying, command⟩ ∈ deliveries) ∧
        ∀ symbol status parsed, command = .setInstrumentStatus symbol status → U.parse symbol = .ok parsed →
          ⟨parsed.underlying, command⟩ ∈ deliveries := by
  unfold VenueState.submit at submitted
  split at submitted
  · cases submitted
  · split at submitted
    next global =>
      split at submitted
      · cases submitted
      next =>
        cases submitted
        refine ⟨?_, ?_, ?_⟩
        · intro delivery member
          obtain ⟨underlying, -, rfl⟩ := List.mem_map.1 member
          rfl
        · intro underlying hosted _
          exact List.mem_map.2 ⟨underlying, (List.mem_insertionSort (· ≤ ·)).2 (List.mem_dedup.2 hosted), rfl⟩
        · rintro symbol status parsed rfl -
          cases global
    next single =>
      split at submitted
      · cases submitted
      next underlying routed =>
        cases submitted
        refine ⟨fun delivery member => List.mem_singleton.1 member ▸ rfl, fun _ _ global => absurd global single, ?_⟩
        rintro symbol status parsed rfl parses
        unfold VenueState.route VenueState.routeSymbol VenueState.handleFor at routed
        dsimp only at routed
        rw [parses] at routed
        dsimp only at routed
        split at routed
        · cases routed
          exact List.mem_singleton_self _
        · cases routed

/-- The sweep of an expiration stands before every other of its commands. -/
theorem transitionCommands_sweepsFirst (symbols : List Symbol) (reached target : ExpiryPhase) :
    ((transitionCommands key.expiration symbols reached target).map (Delivery.mk key.underlying)).Pairwise fun early late =>
      late = sweepOf key → early.command = expirySweep key.expiration := by
  have statuses : ∀ commands : List VenueCommand, (∀ command ∈ commands, command ≠ expirySweep key.expiration) →
      (commands.map (Delivery.mk key.underlying)).Pairwise fun early late =>
        late = sweepOf key → early.command = expirySweep key.expiration := by
    intro commands other
    refine List.pairwise_of_forall_mem_list fun early _ late member same => ?_
    obtain ⟨command, listed, rfl⟩ := List.mem_map.1 member
    exact absurd (congrArg Delivery.command same) (other command listed)
  have settings : ∀ (status : InstrumentStatus), ∀ command ∈ symbols.map fun symbol =>
      VenueCommand.setInstrumentStatus symbol status, command ≠ expirySweep key.expiration := by
    intro status command member same
    obtain ⟨symbol, -, rfl⟩ := List.mem_map.1 member
    cases same
  have expiring : ∀ command ∈ (if ExpiryPhase.expired ≤ target then
      symbols.map fun symbol => VenueCommand.setInstrumentStatus symbol .expired else []),
      command ≠ expirySweep key.expiration := by
    split
    · exact settings .expired
    · exact List.forall_mem_nil _
  unfold transitionCommands
  split
  · exact List.Pairwise.nil
  · split
    · rw [List.cons_append, List.map_cons, List.pairwise_cons]
      refine ⟨fun _ _ _ => rfl, statuses _ fun command member => ?_⟩
      rcases List.mem_append.1 member with early | late
      · exact settings .settling command early
      · exact expiring command late
    · exact statuses _ expiring

theorem mem_transitionCommands {symbols : List Symbol} {reached target : ExpiryPhase} (forward : reached < target)
    (unsettled : reached < .settling) (listed : symbol ∈ symbols) :
    expirySweep key.expiration ∈ transitionCommands key.expiration symbols reached target ∧
      .setInstrumentStatus symbol .settling ∈ transitionCommands key.expiration symbols reached target := by
  unfold transitionCommands
  rw [if_neg (ExpiryPhase.not_le.2 forward), if_pos unsettled]
  refine ⟨List.mem_cons_self, List.mem_append_left _ (List.mem_cons_of_mem _ ?_)⟩
  exact List.mem_map.2 ⟨symbol, listed, rfl⟩

theorem commandSymbol_of_mem_transitionCommands {expiration : ExpirationDate} {symbols : List Symbol}
    {reached target : ExpiryPhase} {command : VenueCommand}
    (member : command ∈ transitionCommands expiration symbols reached target) : commandSymbol command = none := by
  have statuses : ∀ status : InstrumentStatus, command ∈ symbols.map (fun symbol => .setInstrumentStatus symbol status) →
      commandSymbol command = none := by
    intro status listed
    obtain ⟨symbol, -, rfl⟩ := List.mem_map.1 listed
    rfl
  unfold transitionCommands at member
  split at member
  · cases member
  · rcases List.mem_append.1 member with early | late
    · split at early
      · rcases List.mem_cons.1 early with rfl | listed
        · rfl
        · exact statuses .settling listed
      · cases early
    · split at late
      · exact statuses .expired late
      · cases late

end Site

namespace RollKept
variable {laws : LeafLaws U} {site : RollSite} {executors after : Executors U} {roll : Roll} {transition : Transition}

/-- A roll whose commands are none of the matter is kept where its contracts are. -/
theorem carried (kept : RollKept laws site executors roll)
    (existed : ∀ symbol parsed key, Contract U site symbol parsed → Exists after parsed → site.keyOf parsed = some key →
      roll.schedule.Due key.expiration roll.nowMs → Exists executors parsed)
    (shut : ∀ symbol parsed, Contract U site symbol parsed → ShutOn laws executors symbol parsed →
      ShutOn laws after symbol parsed)
    (spared : ∀ transition ∈ roll.stage.transition?, sweepOf transition.group.key ∉ roll.stage.ahead →
      ∀ symbol parsed, Contract U site symbol parsed → settlingOf parsed.underlying symbol ∈ roll.stage.ahead →
        restsOn laws executors parsed = [] → restsOn laws after parsed = []) :
    RollKept laws site after roll where
  grouped := fun group member symbol parsed contract present under due =>
    kept.grouped group member symbol parsed contract (existed symbol parsed _ contract present under due) under due
  staged := by
    intro transition current
    obtain ⟨due, contracts⟩ := kept.staged transition current
    refine ⟨due, fun symbol parsed contract present under => ?_⟩
    rcases contracts symbol parsed contract (existed symbol parsed _ contract present under due) under with
      closed | refused | ⟨settling, sweep⟩
    · exact Or.inl (shut symbol parsed contract closed)
    · exact Or.inr (Or.inl refused)
    · refine Or.inr (Or.inr ⟨settling, ?_⟩)
      by_cases ahead : sweepOf transition.group.key ∈ roll.stage.ahead
      · exact Or.inl ahead
      · rw [(keyOf_eq_some.1 under).2] at settling
        exact Or.inr (spared transition current ahead symbol parsed contract settling (sweep.resolve_left ahead))
  sweepsFirst := kept.sweepsFirst
  controls := kept.controls
  covered := fun symbol parsed key contract present under due =>
    (kept.covered symbol parsed key contract (existed symbol parsed key contract present under due) under due).imp_left
      (shut symbol parsed contract)

/-- The expiration is given up with a failure. -/
theorem rejected (kept : RollKept laws site executors roll) (transition : Transition) (error : VenueError) :
    RollKept laws site executors (roll.rejected transition error) where
  grouped := kept.grouped
  staged := fun _ wrong => (by cases wrong)
  sweepsFirst := fun _ wrong => (by cases wrong)
  controls := List.forall_mem_nil _
  covered := fun _ _ _ _ _ _ _ => Or.inr (Or.inl (by simp [Roll.rejected]))

/-- The stage moves on within one expiration: what is ahead comes of what was. -/
theorem staged_next (kept : RollKept laws site executors roll) {stage : RollStage}
    (current : ∀ moved ∈ stage.transition?, ∃ transition ∈ roll.stage.transition?, transition.group = moved.group)
    (same : ∀ transition ∈ roll.stage.transition?, ∃ moved ∈ stage.transition?, moved.group = transition.group)
    (pending : ∀ transition ∈ roll.stage.transition?, ∀ symbol parsed, Contract U site symbol parsed →
      site.keyOf parsed = some transition.group.key →
        Pending laws executors roll.stage transition.group.key symbol parsed →
          ShutOn laws executors symbol parsed ∨ Pending laws executors stage transition.group.key symbol parsed)
    (sweepsFirst : ∀ transition ∈ roll.stage.transition?, stage.ahead.Pairwise fun early late =>
      late = sweepOf transition.group.key → early.command = expirySweep transition.group.key.expiration)
    (controls : ∀ delivery ∈ stage.ahead, commandSymbol delivery.command = none) :
    RollKept laws site executors { roll with stage := stage } where
  grouped := kept.grouped
  staged := by
    intro moved here
    obtain ⟨transition, before, group⟩ := current moved here
    rw [← group]
    obtain ⟨due, contracts⟩ := kept.staged transition before
    refine ⟨due, fun symbol parsed contract present under => ?_⟩
    rcases contracts symbol parsed contract present under with closed | open'
    · exact Or.inl closed
    · exact pending transition before symbol parsed contract under open'
  sweepsFirst := by
    intro moved here
    obtain ⟨transition, before, group⟩ := current moved here
    rw [← group]
    exact sweepsFirst transition before
  controls := controls
  covered := by
    intro symbol parsed key contract present under due
    rcases kept.covered symbol parsed key contract present under due with closed | failed | queued | ⟨transition, here, under⟩
    · exact Or.inl closed
    · exact Or.inr (Or.inl failed)
    · exact Or.inr (Or.inr (Or.inl queued))
    · obtain ⟨moved, now, group⟩ := same transition here
      exact Or.inr (Or.inr (Or.inr ⟨moved, now, group ▸ under⟩))

theorem issue (kept : RollKept laws site executors roll) {next : Roll} (issued : roll.issue U site.producers = some next) :
    RollKept laws site executors next := by
  unfold Roll.issue at issued
  split at issued
  next group target command rest committed here =>
    split at issued
    next error _ =>
      cases issued
      exact kept.rejected _ error
    next deliveries submitted =>
      cases issued
      obtain ⟨only, everywhere, routed⟩ := mem_submit submitted
      have first := kept.sweepsFirst ⟨group, target, command :: rest, committed⟩ (by rw [here]; rfl)
      rw [here] at first
      obtain ⟨head, tail⟩ := List.pairwise_cons.1 first
      apply kept.staged_next
      · intro moved now
        cases now
        exact ⟨⟨group, target, command :: rest, committed⟩, by rw [here]; rfl, rfl⟩
      · intro transition now
        rw [here] at now
        cases now
        exact ⟨_, rfl, rfl⟩
      · intro transition now symbol parsed contract under pending
        rw [here] at now pending
        cases now
        obtain ⟨-, hosted⟩ := keyOf_eq_some.1 under
        dsimp only at hosted
        rcases pending with ⟨answer, wrong, -⟩ | ⟨settling, sweep⟩
        · cases wrong
        · refine Or.inr (Or.inr ⟨?_, sweep.imp_left fun ahead => ?_⟩)
          · rcases List.mem_cons.1 settling with now | later
            · have named : VenueCommand.setInstrumentStatus symbol .settling = command := congrArg Delivery.command now
              refine List.mem_append_left _ ?_
              unfold settlingOf
              rw [hosted, named]
              exact routed symbol .settling parsed named.symm contract.parses
            · exact List.mem_append_right _ later
          · rcases List.mem_cons.1 ahead with now | later
            · have named : expirySweep group.key.expiration = command := congrArg Delivery.command now
              refine List.mem_append_left _ ?_
              unfold sweepOf
              dsimp only
              rw [named]
              exact everywhere _ (hosted ▸ contract.hosted) (named ▸ rfl)
            · exact List.mem_append_right _ later
      · intro transition now
        rw [here] at now
        cases now
        refine List.pairwise_append.2 ⟨?_, tail, fun early member late after same => ?_⟩
        · refine List.pairwise_of_forall_mem_list fun early member late other same => ?_
          rw [only early member, ← only late other, same]
          rfl
        · rw [only early member]
          exact head late after same
      · have ahead := kept.controls
        rw [here] at ahead
        obtain ⟨first, later⟩ := List.forall_mem_cons.1 ahead
        intro delivery member
        rcases List.mem_append.1 member with now | behind
        · rw [only delivery now]
          exact first
        · exact later delivery behind
  next => cases issued

/-- An actor answers. A commit of the sweep has emptied the books of the expiration, and one of a settling has taken
effect. -/
theorem answered (kept : RollKept laws site executors roll) {delivery : Delivery} (waits : roll.delivery = some delivery)
    (refusal : Option VenueError)
    (swept : refusal = none → ∀ key symbol parsed, delivery = sweepOf key → Contract U site symbol parsed →
      site.keyOf parsed = some key → restsOn laws executors parsed = [])
    (settled : refusal = none → ∀ symbol parsed, delivery = settlingOf parsed.underlying symbol →
      Contract U site symbol parsed → Final ((executors parsed.underlying).state.instrumentStatus.statusOf symbol)) :
    RollKept laws site executors (roll.answered refusal) := by
  unfold Roll.delivery at waits
  split at waits
  next transition current waiting answers here =>
    cases waits
    have first := kept.sweepsFirst transition (by rw [here]; rfl)
    rw [here] at first
    obtain ⟨head, tail⟩ := List.pairwise_cons.1 first
    have moved : roll.answered refusal =
        { roll with stage := .awaiting transition waiting (answers ++ [⟨delivery.underlying, refusal⟩]) } := by
      unfold Roll.answered
      rw [here]
    rw [moved]
    apply kept.staged_next
    · intro moved now
      cases now
      exact ⟨transition, by rw [here]; rfl, rfl⟩
    · intro other now
      rw [here] at now
      cases now
      exact ⟨_, rfl, rfl⟩
    · intro other now symbol parsed contract under pending
      rw [here] at now pending
      cases now
      obtain ⟨-, hosted⟩ := keyOf_eq_some.1 under
      have refused : delivery.underlying = transition.group.key.underlying → refusal ≠ none →
          Pending laws executors (.awaiting transition waiting (answers ++ [⟨delivery.underlying, refusal⟩]))
            transition.group.key symbol parsed :=
        fun own error => Or.inl ⟨_, List.mem_append_right _ (List.mem_singleton_self _), own, error⟩
      rcases pending with ⟨answer, old, own⟩ | ⟨settling, sweep⟩
      · exact Or.inr (Or.inl ⟨answer, List.mem_append_left _ old, own⟩)
      · rcases List.mem_cons.1 settling with now | settling
        · by_cases committed : refusal = none
          · -- the sweep cannot come behind the settling, so the contract is empty
            have empty : restsOn laws executors parsed = [] := by
              refine sweep.resolve_left fun ahead => ?_
              rcases List.mem_cons.1 ahead with same | later
              · cases now.trans same.symm
              · have wrong := head _ later rfl
                rw [← now] at wrong
                cases wrong
            exact Or.inl ⟨settled committed symbol parsed (hosted ▸ now.symm) contract, empty⟩
          · exact Or.inr (refused (now ▸ rfl) committed)
        · rcases sweep with ahead | empty
          · rcases List.mem_cons.1 ahead with now | later
            · by_cases committed : refusal = none
              · exact Or.inr (Or.inr ⟨settling, Or.inr (swept committed _ symbol parsed now.symm contract under)⟩)
              · exact Or.inr (refused (now ▸ rfl) committed)
            · exact Or.inr (Or.inr ⟨settling, Or.inl later⟩)
          · exact Or.inr (Or.inr ⟨settling, Or.inr empty⟩)
    · intro other now
      rw [here] at now
      cases now
      exact tail
    · have ahead := kept.controls
      rw [here] at ahead
      exact (List.forall_mem_cons.1 ahead).2
  next => cases waits

theorem proceed (kept : RollKept laws site executors roll) (reaches : Reaches roll) {next : Roll}
    (proceeds : roll.proceed = some next) : RollKept laws site executors next := by
  unfold Roll.proceed at proceeds
  split at proceeds
  next transition answers here =>
    split at proceeds
    next error _ =>
      cases proceeds
      exact kept.rejected _ error
    next committed =>
      cases proceeds
      rw [Reaches, here] at reaches
      apply kept.staged_next
      · intro moved now
        cases now
        exact ⟨transition, by rw [here]; rfl, rfl⟩
      · intro other now
        rw [here] at now
        cases now
        exact ⟨_, rfl, rfl⟩
      · intro other now symbol parsed contract under pending
        rw [here] at now pending
        cases now
        rcases pending with ⟨answer, member, own, refused⟩ | ahead
        · exact absurd (reaches committed transition rfl answer member own) refused
        · exact Or.inr (Or.inr ahead)
      · intro other now
        have first := kept.sweepsFirst other now
        rw [here] at now first
        cases now
        exact first
      · have ahead := kept.controls
        rw [here] at ahead
        exact ahead
  next => cases proceeds

/-- The next expiration is begun, or passed over: then it is not due, or recorded as settled. -/
theorem choose (kept : RollKept laws site executors roll) {phases : ExpirationKey → ExpiryPhase}
    (recorded : ∀ symbol parsed key, Contract U site symbol parsed → Exists executors parsed →
      site.keyOf parsed = some key → .settling ≤ phases key → ShutOn laws executors symbol parsed)
    {next : Roll} (chooses : roll.choose phases = some next) : RollKept laws site executors next := by
  unfold Roll.choose at chooses
  split at chooses
  next group rest here queued =>
    have later : ∀ other ∈ rest, other ∈ roll.groups := fun other member => queued ▸ List.mem_cons_of_mem _ member
    have passed : (∀ symbol parsed, Contract U site symbol parsed → Exists executors parsed →
          site.keyOf parsed = some group.key → roll.schedule.Due group.key.expiration roll.nowMs →
            ShutOn laws executors symbol parsed) →
        RollKept laws site executors { roll with groups := rest } := by
      intro settled
      refine { kept with grouped := fun other member => kept.grouped other (later other member), covered := ?_ }
      intro symbol parsed key contract present under due
      rcases kept.covered symbol parsed key contract present under due with
        closed | failed | ⟨other, member, same⟩ | ⟨transition, wrong, -⟩
      · exact Or.inl closed
      · exact Or.inr (Or.inl failed)
      · rw [queued] at member
        rcases List.mem_cons.1 member with rfl | behind
        · subst same
          exact Or.inl (settled symbol parsed contract present under due)
        · exact Or.inr (Or.inr (Or.inl ⟨other, behind, same⟩))
      · rw [here] at wrong
        cases wrong
    split at chooses
    next unphased =>
      cases chooses
      refine passed fun symbol parsed contract present under due => ?_
      obtain ⟨phase, wrong, -⟩ := due
      rw [unphased] at wrong
      cases wrong
    next target phased =>
      split at chooses
      next reached =>
        cases chooses
        refine passed fun symbol parsed contract present under due => ?_
        obtain ⟨phase, same, settling⟩ := due
        rw [phased] at same
        cases same
        exact recorded symbol parsed _ contract present under (Nat.le_trans settling reached)
      next ahead =>
        cases chooses
        have forward : phases group.key < target := ExpiryPhase.not_le.1 ahead
        have due : roll.schedule.Due group.key.expiration roll.nowMs := by
          refine ⟨target, phased, ?_⟩
          change 1 ≤ target.rank
          have below : (phases group.key).rank < target.rank := forward
          omega
        constructor
        · exact fun other member => kept.grouped other (later other member)
        · intro transition now
          cases now
          refine ⟨due, fun symbol parsed contract present under => ?_⟩
          by_cases settled : .settling ≤ phases group.key
          · exact Or.inl (recorded symbol parsed _ contract present under settled)
          · have listed := kept.grouped group (queued ▸ List.mem_cons_self) symbol parsed contract present under due
            have issued := @mem_transitionCommands symbol group.key _ _ _ forward (ExpiryPhase.not_le.1 settled) listed
            obtain ⟨sweep, settling⟩ := issued
            exact Or.inr (Or.inr ⟨List.mem_map.2 ⟨_, settling, rfl⟩, Or.inl (List.mem_map.2 ⟨_, sweep, rfl⟩)⟩)
        · intro transition now
          cases now
          exact transitionCommands_sweepsFirst _ _ _
        · intro delivery member
          obtain ⟨command, listed, rfl⟩ := List.mem_map.1 member
          exact commandSymbol_of_mem_transitionCommands listed
        · intro symbol parsed key contract present under due
          rcases kept.covered symbol parsed key contract present under due with
            closed | failed | ⟨other, member, same⟩ | ⟨transition, wrong, -⟩
          · exact Or.inl closed
          · exact Or.inr (Or.inl failed)
          · rw [queued] at member
            rcases List.mem_cons.1 member with rfl | behind
            · exact Or.inr (Or.inr (Or.inr ⟨_, rfl, same⟩))
            · exact Or.inr (Or.inr (Or.inl ⟨other, behind, same⟩))
          · rw [here] at wrong
            cases wrong
  next => cases chooses

/-- An expiration whose commands are all answered is settled. -/
theorem conclude (kept : RollKept laws site executors roll) {next : Roll}
    (concludes : roll.conclude = some (transition, next)) :
    (∀ symbol parsed, Contract U site symbol parsed → Exists executors parsed →
      site.keyOf parsed = some transition.group.key → ShutOn laws executors symbol parsed) ∧
      RollKept laws site executors next := by
  unfold Roll.conclude at concludes
  split at concludes
  next group target committed here =>
    cases concludes
    have settled : ∀ symbol parsed, Contract U site symbol parsed → Exists executors parsed →
        site.keyOf parsed = some group.key → ShutOn laws executors symbol parsed := by
      intro symbol parsed contract present under
      obtain ⟨-, contracts⟩ := kept.staged ⟨group, target, [], committed⟩ (by rw [here]; rfl)
      rcases contracts symbol parsed contract present under with closed | ⟨answer, wrong, -⟩ | ⟨wrong, -⟩
      · exact closed
      · rw [here] at wrong
        cases wrong
      · rw [here] at wrong
        cases wrong
    refine ⟨settled, kept.grouped, fun _ wrong => (by cases wrong), fun _ wrong => (by cases wrong),
      List.forall_mem_nil _, ?_⟩
    intro symbol parsed key contract present under due
    rcases kept.covered symbol parsed key contract present under due with
      closed | failed | queued | ⟨transition, now, same⟩
    · exact Or.inl closed
    · exact Or.inr (Or.inl failed)
    · exact Or.inr (Or.inr (Or.inl queued))
    · rw [here] at now
      cases now
      subst same
      exact Or.inl (settled symbol parsed contract present under)
  next => cases concludes

end RollKept

namespace Rolling
variable {laws : LeafLaws U} {site : RollSite} {venue next : RollVenue U} {action : RollAction}

theorem new (hashOrder : VisitOrder) : Rolling laws site (.new site hashOrder : RollVenue U) where
  tracked := fun _ => .fresh hashOrder (some site.microstructure)
  recorded := by
    intro symbol parsed key _ _ _ settled
    cases (settled : 1 ≤ 0)
  kept := List.forall_mem_nil _

/-- The state of a contract's underlying, after a commit there or elsewhere. -/
theorem state_committed (commit : Commit) (underlying : String) :
    ((venue.committed site commit).executors underlying).state =
      if underlying = commit.underlying then
        ((venue.executors underlying).state.execute (venue.executors underlying).hashOrder
          (commit.command.context commit.underlying site.lineageId)).2
      else (venue.executors underlying).state := by
  change ((venue.executors.commit site.lineageId commit).2 underlying).state = _
  split
  next here =>
    subst here
    rw [Executors.commit_here]
    rfl
  next apart => rw [Executors.commit_of_ne _ _ apart]

theorem tracked_committed (rolling : Rolling laws site venue) {commit : Commit} (unused : venue.Unused commit)
    (fits : ∀ made ∈ (venue.executors commit.underlying).state.matchOf commit.command.sequence commit.command.command,
      made.Fits U) (underlying : String) :
    Tracked laws ((venue.committed site commit).executors underlying) underlying
      (commandsOn underlying (venue.committed site commit).commits) := by
  change Tracked laws ((venue.executors.commit site.lineageId commit).2 underlying) underlying
    (commandsOn underlying (venue.commits ++ [commit]))
  rw [commandsOn_append]
  by_cases here : underlying = commit.underlying
  · subst here
    have single : commandsOn commit.underlying [commit] = [commit.command] := by simp [commandsOn]
    rw [Executors.commit_here, single]
    exact (rolling.tracked commit.underlying).next unused fits
  · have none : commandsOn underlying [commit] = [] := by simp [commandsOn, Ne.symm here]
    rw [Executors.commit_of_ne _ _ here, none, List.append_nil]
    exact rolling.tracked underlying

/-- A contract that a commit lists was free to be listed. -/
theorem exists_committed (rolling : Rolling laws site venue) {commit : Commit} (timely : ListsTimely site venue commit)
    {parsed : ParsedSymbol} (present : Exists (venue.committed site commit).executors parsed) :
    Exists venue.executors parsed ∨ Listable site venue parsed := by
  unfold Exists at present
  rw [state_committed] at present
  split at present
  next here =>
    by_cases before : Exists venue.executors parsed
    · exact Or.inl before
    · have absent : (venue.executors parsed.underlying).state.underlyingBook.leaf? parsed.address = none :=
        Option.not_isSome_iff_eq_none.1 before
      rcases (SequencedState.execute_framed _ _ _).leaves parsed.address present with old | created
      · exact absurd old before
      · obtain ⟨symbol, named, vivified, lives, strike⟩ := created
        rw [(rolling.tracked parsed.underlying).home] at lives
        obtain ⟨found, finds, hosted, rfl⟩ := addressOf?_eq_some.1 lives
        obtain ⟨expiry, strikes⟩ := Prod.mk.inj strike
        refine Or.inr ?_
        have same : parsed = { found with optionStyle := parsed.optionStyle } := same_strike hosted expiry strikes
        -- the leaf of the named contract is missing with its strike
        have missing : (venue.executors commit.underlying).state.underlyingBook.leaf? found.address = none := by
          rw [← here]
          unfold leaf? at absent ⊢
          rw [← strike]
          exact Option.map_eq_none_iff.2 (Option.map_eq_none_iff.1 absent)
        rw [same]
        refine timely symbol vivified found ?_ (hosted.trans here) missing _ ?_
        · rw [finds]
          rfl
        · cases parsed.optionStyle <;> simp
  next => exact Or.inl present

theorem shut_committed (rolling : Rolling laws site venue) (lifecycle : LifecycleLaws U) {commit : Commit}
    (unused : venue.Unused commit)
    (fits : ∀ made ∈ (venue.executors commit.underlying).state.matchOf commit.command.sequence commit.command.command,
      made.Fits U)
    (typed : ∀ symbol, commandSymbol commit.command.command = some symbol → Typed U symbol) {symbol : Symbol}
    {parsed : ParsedSymbol} (contract : Contract U site symbol parsed)
    (shut : ShutOn laws venue.executors symbol parsed) :
    ShutOn laws (venue.committed site commit).executors symbol parsed := by
  have after := rolling.tracked_committed unused fits parsed.underlying
  have before := rolling.tracked parsed.underlying
  have step : InStep (venue.executors parsed.underlying).state.home
      (laws.viewOf ((venue.committed site commit).executors parsed.underlying).state) := before.home ▸ after.inStep
  unfold ShutOn
  rw [state_committed] at step ⊢
  split
  next here =>
    rw [if_pos here] at step
    exact Shut.execute lifecycle shut contract.typed (before.home ▸ contract.lives) before.step step typed
  next => exact shut

/-- A commit that no roll minds. -/
theorem committed (rolling : Rolling laws site venue) (lifecycle : LifecycleLaws U) {commit : Commit}
    (unused : venue.Unused commit)
    (typed : ∀ symbol, commandSymbol commit.command.command = some symbol → Typed U symbol)
    (unobtrusive : Unobtrusive laws site venue commit) : Rolling laws site (venue.committed site commit) where
  tracked := rolling.tracked_committed unused unobtrusive.1
  recorded := by
    intro symbol parsed key contract present under settled
    have shut := rolling.shut_committed lifecycle unused unobtrusive.1 typed contract
    rcases rolling.exists_committed unobtrusive.2.1 present with before | listable
    · exact shut (rolling.recorded symbol parsed key contract before under settled)
    · exact absurd settled (ExpiryPhase.not_le.2 (listable key under).1)
  kept := by
    intro roll member
    apply (rolling.kept roll member).carried
    · intro symbol parsed key contract present under due
      rcases rolling.exists_committed unobtrusive.2.1 present with before | listable
      · exact before
      · exact absurd due ((listable key under).2 roll member)
    · exact fun symbol parsed contract => rolling.shut_committed lifecycle unused unobtrusive.1 typed contract
    · intro transition current unswept symbol parsed contract settling
      refine unobtrusive.2.2 roll member transition current unswept _ settling symbol rfl parsed ?_
      rw [contract.parses]
      rfl

/-- A roll moves on where the venue stays. -/
theorem withRoll (rolling : Rolling laws site venue) {roll : Roll} (kept : RollKept laws site venue.executors roll)
    (position : Nat) : Rolling laws site (venue.withRoll position roll) where
  tracked := rolling.tracked
  recorded := rolling.recorded
  kept := by
    intro other member
    rcases List.mem_or_eq_of_mem_set member with old | rfl
    · exact rolling.kept other old
    · exact kept

/-- A command of a roll is committed: a sweep empties the contracts of its expiration, and a settling takes effect. -/
theorem accepted (rolling : Rolling laws site venue) (lifecycle : LifecycleLaws U) (cancels : CancelsResting laws)
    (expiries : ∀ symbol parsed, U.parse symbol = .ok parsed →
      U.formatExpirationYyyymmdd (site.expirationOf parsed) = .ok parsed.expirationStr)
    {roll : Roll} (member : roll ∈ venue.rolls) {delivery : Delivery} (waits : roll.delivery = some delivery)
    {position sequence venueTs : Nat} (unused : venue.Unused (RollVenue.commitOf delivery sequence venueTs))
    (unobtrusive : Unobtrusive laws site venue (RollVenue.commitOf delivery sequence venueTs))
    (legal : Legal venue delivery) :
    Rolling laws site ((venue.committed site (RollVenue.commitOf delivery sequence venueTs)).withRoll position
      (roll.answered none)) := by
  have control : commandSymbol delivery.command = none := by
    apply (rolling.kept roll member).controls delivery
    unfold Roll.delivery at waits
    split at waits
    next here =>
      cases waits
      rw [here]
      exact List.mem_cons_self
    next => cases waits
  have committed : Rolling laws site (venue.committed site (RollVenue.commitOf delivery sequence venueTs)) := by
    refine rolling.committed lifecycle unused (fun symbol named => ?_) unobtrusive
    rw [show (RollVenue.commitOf delivery sequence venueTs).command.command = delivery.command from rfl, control] at named
    cases named
  refine committed.withRoll ((committed.kept roll member).answered waits none ?_ ?_) position
  · rintro - key symbol parsed rfl contract under
    obtain ⟨expires, hosted⟩ := keyOf_eq_some.1 under
    have after := committed.tracked parsed.underlying
    have before := rolling.tracked parsed.underlying
    have formats := expiries symbol parsed contract.parses
    rw [expires] at formats
    have step : InStep (venue.executors parsed.underlying).state.home
        (laws.viewOf ((venue.committed site (RollVenue.commitOf (sweepOf key) sequence venueTs)).executors
          parsed.underlying).state) := before.home ▸ after.inStep
    have own : parsed.underlying = (RollVenue.commitOf (sweepOf key) sequence venueTs).underlying := hosted.symm
    unfold restsOn
    rw [state_committed, if_pos own] at step ⊢
    exact expirySweep_empties cancels rfl formats before.step step
  · rintro - symbol parsed rfl contract
    have own : parsed.underlying =
      (RollVenue.commitOf (settlingOf parsed.underlying symbol) sequence venueTs).underlying := rfl
    rw [state_committed, if_pos own]
    exact settling_final rfl ((rolling.tracked parsed.underlying).home ▸ contract.lives) (legal symbol rfl)

/-- Every step keeps what is known of the rolls. -/
theorem step (rolling : Rolling laws site venue) (lifecycle : LifecycleLaws U) (cancels : CancelsResting laws)
    (expiries : ∀ symbol parsed, U.parse symbol = .ok parsed →
      U.formatExpirationYyyymmdd (site.expirationOf parsed) = .ok parsed.expirationStr)
    (unhindered : Unhindered laws site venue action) (taken : venue.step site action = some next) :
    Rolling laws site next := by
  cases action with
  | commit commit =>
    unfold RollVenue.step at taken
    dsimp only at taken
    split at taken
    next guard =>
      cases taken
      obtain ⟨-, unused, typed⟩ := guard
      refine rolling.committed lifecycle unused (fun symbol named parsed parses => ?_) unhindered
      have vivified : symbol ∈ vivifies commit.command.command := by
        cases command : commit.command.command <;> rw [command] at named <;> first | exact named | cases named
      exact typed symbol vivified parsed (by rw [parses]; rfl)
    next => cases taken
  | begin schedule nowMs =>
    cases taken
    refine ⟨rolling.tracked, rolling.recorded, fun roll member => ?_⟩
    rcases List.mem_append.1 member with old | new
    · exact rolling.kept roll old
    · rw [List.mem_singleton.1 new]
      constructor
      · intro group listed symbol parsed contract present under _
        exact (contract.grouped present under).2 group listed rfl
      · exact fun _ wrong => (by cases wrong)
      · exact fun _ wrong => (by cases wrong)
      · exact List.forall_mem_nil _
      · intro symbol parsed key contract present under _
        exact Or.inr (Or.inr (Or.inl (contract.grouped present under).1))
  | choose position =>
    obtain ⟨roll, here, chosen⟩ := Option.bind_eq_some_iff.1 taken
    obtain ⟨moved, chooses, rfl⟩ := Option.map_eq_some_iff.1 chosen
    exact rolling.withRoll ((rolling.kept roll (List.mem_of_getElem? here)).choose rolling.recorded chooses) position
  | issue position =>
    obtain ⟨roll, here, issued⟩ := Option.bind_eq_some_iff.1 taken
    obtain ⟨moved, issues, rfl⟩ := Option.map_eq_some_iff.1 issued
    exact rolling.withRoll ((rolling.kept roll (List.mem_of_getElem? here)).issue issues) position
  | accepted position sequence venueTs =>
    obtain ⟨roll, here, answered⟩ := Option.bind_eq_some_iff.1 taken
    obtain ⟨delivery, waits, committed⟩ := Option.bind_eq_some_iff.1 answered
    dsimp only at committed
    split at committed
    next unused =>
      cases committed
      obtain ⟨unobtrusive, legal⟩ := unhindered roll here delivery waits
      exact rolling.accepted lifecycle cancels expiries (List.mem_of_getElem? here) waits unused unobtrusive legal
    next => cases committed
  | refused position error =>
    obtain ⟨roll, here, answered⟩ := Option.bind_eq_some_iff.1 taken
    obtain ⟨delivery, waits, rfl⟩ := Option.map_eq_some_iff.1 answered
    refine rolling.withRoll ((rolling.kept roll (List.mem_of_getElem? here)).answered waits (some error) ?_ ?_) position
    · exact fun wrong => (by cases wrong)
    · exact fun wrong => (by cases wrong)
  | proceed position =>
    obtain ⟨roll, here, moved⟩ := Option.bind_eq_some_iff.1 taken
    obtain ⟨moved, proceeds, rfl⟩ := Option.map_eq_some_iff.1 moved
    exact rolling.withRoll ((rolling.kept roll (List.mem_of_getElem? here)).proceed (unhindered roll here) proceeds) position
  | conclude position =>
    obtain ⟨roll, here, moved⟩ := Option.bind_eq_some_iff.1 taken
    obtain ⟨⟨transition, moved⟩, concludes, rfl⟩ := Option.map_eq_some_iff.1 moved
    obtain ⟨settled, kept⟩ := (rolling.kept roll (List.mem_of_getElem? here)).conclude concludes
    refine ⟨rolling.tracked, ?_, (rolling.withRoll kept position).kept⟩
    intro symbol parsed key contract present under reached
    by_cases same : key = transition.group.key
    · subst same
      exact settled symbol parsed contract present under
    · dsimp only at reached
      rw [Function.update_of_ne same] at reached
      exact rolling.recorded symbol parsed key contract present under reached
  | finish position =>
    cases taken
    exact ⟨rolling.tracked, rolling.recorded, fun roll member => rolling.kept roll (List.eraseIdx_subset member)⟩

end Rolling

/-- In every run of rolls and other commits where each command of a roll takes effect on the underlying of its expiration,
no order comes to rest between a sweep and the settling, no contract is listed behind a roll that finds it due, and every
match can be captured: a roll that returns `Ok` has settled every contract that exists and is due. -/
theorem rolls_settle {laws : LeafLaws U} (lifecycle : LifecycleLaws U) (cancels : CancelsResting laws) {site : RollSite}
    (expiries : ∀ symbol parsed, U.parse symbol = .ok parsed →
      U.formatExpirationYyyymmdd (site.expirationOf parsed) = .ok parsed.expirationStr)
    (hashOrder : VisitOrder) (actions : List RollAction)
    (unhindered : Throughout (RollVenue.step site) (Unhindered laws site) (.new site hashOrder) actions)
    {venue : RollVenue U} (run : runFrom (RollVenue.step site) (.new site hashOrder) actions = some venue) :
    RollsSettle laws site venue := by
  have rolling : Rolling laws site venue :=
    runFrom_invariant (fun _ _ _ rolling unhindered taken => Rolling.step rolling lifecycle cancels expiries unhindered taken)
      (.new hashOrder) unhindered run
  intro roll member returned symbol parsed contract present due
  obtain ⟨finished, groups, failures⟩ : roll.stage = .choosing ∧ roll.groups = [] ∧ roll.failures = [] := by
    unfold Roll.ReturnsOk at returned
    split at returned
    next here => exact ⟨here, returned⟩
    next => cases returned
  cases expires : site.expirationOf parsed with
  | days count =>
    obtain ⟨phase, wrong, -⟩ := due
    rw [expires] at wrong
    cases wrong
  | dateTime expirationMs =>
    have under : site.keyOf parsed = some ⟨parsed.underlying, expirationMs⟩ := keyOf_eq_some.2 ⟨expires, rfl⟩
    rw [expires] at due
    rcases (rolling.kept roll member).covered symbol parsed _ contract present under due with
      shut | failed | ⟨group, wrong, -⟩ | ⟨transition, wrong, -⟩
    · exact ⟨shut.refuses lifecycle, shut.empty⟩
    · exact absurd failures failed
    · rw [groups] at wrong
      cases wrong
    · rw [finished] at wrong
      cases wrong

theorem reference_lifecycle : LifecycleLaws referenceUpstream where
  accepting := fun _ accepts => of_decide_eq_true accepts
  final := by
    intro source target legal final
    cases source <;> cases target <;> trivial

/-- A venue whose contracts are all of one expiration. -/
def rollSite (underlyings : List String) : RollSite := ⟨"run-1", .default, underlyings, fun _ => .dateTime 2082758399000⟩

def rollStart (U : Upstream) (underlyings : List String) : RollVenue U :=
  .new (rollSite underlyings) fun _ _ => Equiv.refl _

/-- A bid rests, and a roll begins at the operational expiry. -/
def rollOfBid : List RollAction :=
  [.commit ⟨"BTC", 1, 10, .addOrder ⟨"BTC-20351231-50000-C", "a", "acct-1", 7, none, .buy, .limit, some 100, 5, .gtc,
    .none⟩⟩, .begin .default 2082700800000, .choose 0, .issue 0]

/-- The two contracts of the strike are put into settling, and the expiration is concluded. -/
def settlings : List RollAction :=
  [.issue 0, .accepted 0 3 20, .proceed 0, .issue 0, .accepted 0 4 20, .proceed 0, .conclude 0]

/-- The reference leaf of a venue of two underlyings. -/
def pairLeafLaws : LeafLaws pairUpstream where
  orders := referenceLeafLaws.orders
  new_orders := referenceLeafLaws.new_orders
  arm_orders := referenceLeafLaws.arm_orders
  byUser := referenceLeafLaws.byUser
  cancelled := referenceLeafLaws.cancelled
  uncancelled := referenceLeafLaws.uncancelled
  evicted := referenceLeafLaws.evicted
  unevicted := referenceLeafLaws.unevicted
  added := referenceLeafLaws.added
  submitted := referenceLeafLaws.submitted
  wraps := referenceLeafLaws.wraps

instance (executors : Executors U) (parsed : ParsedSymbol) : Decidable (Exists executors parsed) :=
  inferInstanceAs (Decidable (_ = true))

/-- The sweep is refused where the bid rests, and committed on the other underlying: the roll goes on, and returns `Ok`
over the bid. -/
theorem bid_outlives_roll : ∃ venue,
    runFrom (RollVenue.step (rollSite ["BTC", "ETH"])) (rollStart pairUpstream ["BTC", "ETH"])
      (rollOfBid ++ [.refused 0 .rateLimited, .accepted 0 1 20, .proceed 0] ++ settlings) = some venue ∧
        ¬ RollsSettle pairLeafLaws (rollSite ["BTC", "ETH"]) venue := by
  have outlives : (runFrom (RollVenue.step (rollSite ["BTC", "ETH"])) (rollStart pairUpstream ["BTC", "ETH"])
      (rollOfBid ++ [.refused 0 .rateLimited, .accepted 0 1 20, .proceed 0] ++ settlings)).map
        (fun venue : RollVenue pairUpstream =>
          decide ((∃ roll ∈ venue.rolls, roll.ReturnsOk ∧ roll.schedule.Due (.dateTime 2082758399000) roll.nowMs) ∧
            Exists venue.executors ⟨"BTC", "20351231", 50000, .call⟩ ∧
              restsOn pairLeafLaws venue.executors ⟨"BTC", "20351231", 50000, .call⟩ ≠ [])) = some true := by
    decide +kernel
  obtain ⟨venue, run, same⟩ := Option.map_eq_some_iff.1 outlives
  obtain ⟨⟨roll, member, returned, due⟩, present, rests⟩ := of_decide_eq_true same
  have contract : Contract pairUpstream (rollSite ["BTC", "ETH"]) "BTC-20351231-50000-C"
      ⟨"BTC", "20351231", 50000, .call⟩ := ⟨rfl, by decide +kernel, List.mem_cons_self⟩
  exact ⟨venue, run, fun settles => rests (settles roll member returned _ _ contract present due).2⟩

/-- A roll sweeps the bid and settles its contract. -/
theorem bid_settled : ∃ venue,
    runFrom (RollVenue.step (rollSite ["BTC"])) (rollStart referenceUpstream ["BTC"])
      (rollOfBid ++ [.accepted 0 2 20, .proceed 0] ++ settlings) = some venue ∧
        (∃ roll ∈ venue.rolls, roll.ReturnsOk) ∧ RollsSettle referenceLeafLaws (rollSite ["BTC"]) venue := by
  have returned : (runFrom (RollVenue.step (rollSite ["BTC"])) (rollStart referenceUpstream ["BTC"])
      (rollOfBid ++ [.accepted 0 2 20, .proceed 0] ++ settlings)).map
        (fun venue : RollVenue referenceUpstream => decide (∃ roll ∈ venue.rolls, roll.ReturnsOk)) = some true := by
    decide +kernel
  obtain ⟨venue, run, same⟩ := Option.map_eq_some_iff.1 returned
  refine ⟨venue, run, of_decide_eq_true same, ?_⟩
  refine rolls_settle reference_lifecycle referenceLeaf_cancels (fun symbol parsed parses => ?_) _ _ (by decide +kernel) run
  revert parses
  change ReferenceBook.parse symbol = _ → _
  unfold ReferenceBook.parse
  split <;> intro parses <;> cases parses <;> rfl

end Fauxchange.Venue
