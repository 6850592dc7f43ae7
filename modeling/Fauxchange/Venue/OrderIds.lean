import Fauxchange.Exchange.RegistryStep
import Fauxchange.Exchange.Recovery
import Fauxchange.Lib.Delimiter

/-! The order ids a venue mints over its process lifetimes. The counter belongs to the process and starts at
zero with it; the lineage and the journals outlive it. -/

namespace Fauxchange.Venue
open Exchange Microstructure Lib

/-- The grammar of `mint_order_id` for a counter value. -/
def mintedId (lineage : LineageId) (underlying : String) (index : Nat) : VenueOrderId :=
  lineage ++ ":" ++ underlying ++ ":g" ++ toString index ++ ":0"

/-- One lineage mints different ids for different underlyings and for different counter values. -/
theorem mintedId_inj {lineage : LineageId} {underlying other : String} {index last : Nat}
    (same : mintedId lineage underlying index = mintedId lineage other last) :
    underlying = other ∧ index = last := by
  have texts := congrArg String.toList same
  simp only [mintedId, String.toList_append] at texts
  have cut := List.append_cancel_right texts
  have split : ∀ (name : String) (digits : List Char),
      lineage.toList ++ ":".toList ++ name.toList ++ ":g".toList ++ digits =
        (lineage.toList ++ ":".toList ++ name.toList ++ ":".toList) ++ 'g' :: digits := by
    intro name digits
    simp
  rw [split, split] at cut
  obtain ⟨front, digits⟩ := append_cons_inj (toList_toString_free (by decide) index)
    (toList_toString_free (by decide) last) cut
  have names := List.append_cancel_left (List.append_cancel_right front)
  exact ⟨String.toList_inj.1 names, toString_toList_inj digits⟩

/-- The venue over its process lifetimes: what is durable (the lineage and the journals), what belongs to the
process (the counter and the executors), and a record of the counter values under which placements have been
journaled and of the ids that accepted ones have carried. -/
structure Lifetimes (U : Upstream) where
  lineageId : LineageId
  microstructure : Option MicrostructureConfig
  underlyings : List String
  journals : String → List JournalRecord
  counter : Nat
  executors : String → MatchingExecutor U
  used : List (String × Nat)
  accepted : List VenueOrderId

/-- A gateway command whose placement or replacement takes its id from `mint_order_id`, or a command that
brings no order id. -/
inductive GatewayCommand where
  | place (order : AddOrder)
  | amend (order : Replace)
  | other (command : { command : VenueCommand // command.placedId = none })

/-- One step of a venue. A submission may fail to be journaled; a crash may leave the last command of a
journal without its event. -/
inductive LifetimeStep where
  | submit (underlying : String) (command : GatewayCommand) (venueTs : Nat) (journaled : Bool)
  | restart (torn : String → Bool) (configLineage : LineageId) (hashOrder : VisitOrder)

/-- A fresh placement or replacement that the venue has taken. -/
def takenPlacement : VenueCommand → VenueOutcome → Option VenueOrderId
  | .addOrder order, .added .. | .addOrder order, .market .. => some order.orderId
  | .replace order, .replace _ (.rested ..) | .replace order, .replace _ (.filled ..) => some order.newOrderId
  | _, _ => none

def dropLastEvent (records : List JournalRecord) : List JournalRecord :=
  match records.getLast? with
  | some (.event _) => records.dropLast
  | _ => records

/-- A torn journal has the same commands. -/
theorem commands_dropLastEvent (records : List JournalRecord) :
    (dropLastEvent records).filterMap JournalRecord.asCommand? = records.filterMap JournalRecord.asCommand? := by
  unfold dropLastEvent
  split
  next event found =>
    have whole := List.dropLast_append_getLast? _ found
    nth_rewrite 2 [← whole]
    simp [JournalRecord.asCommand?]
  next => rfl

namespace Lifetimes
variable {U : Upstream}

def fresh (U : Upstream) (microstructure : Option MicrostructureConfig) (hashOrder : VisitOrder)
    (underlying : String) : MatchingExecutor U :=
  freshExecutor U underlying microstructure none hashOrder

def boot (lineage : LineageId) (microstructure : Option MicrostructureConfig) (underlyings : List String)
    (hashOrder : VisitOrder) : Lifetimes U :=
  ⟨lineage, microstructure, underlyings, fun _ => [], 0, fresh U microstructure hashOrder, [], []⟩

/-- The command a submission sends, and whether it takes an id from the counter. -/
def mint (venue : Lifetimes U) (underlying : String) : GatewayCommand → VenueCommand × Bool
  | .place order => (.addOrder { order with orderId := mintedId venue.lineageId underlying venue.counter }, true)
  | .amend order => (.replace { order with newOrderId := mintedId venue.lineageId underlying venue.counter }, true)
  | .other command => (command.1, false)

/-- The process counter is an atomic `u64`: it wraps. -/
def advance (venue : Lifetimes U) (minted : Bool) : Lifetimes U :=
  if minted then { venue with counter := (venue.counter + 1) % 2 ^ 64 } else venue

/-- A committed turn of the actor of an underlying. -/
def commit (venue : Lifetimes U) (underlying : String) (command : VenueCommand) (minted : Bool) (venueTs : Nat) :
    Lifetimes U :=
  let stamped : JournalCommand := ⟨nextAfter (venue.journals underlying), venueTs, command⟩
  let derived := deriveEvent underlying venue.lineageId (venue.executors underlying) stamped
  { venue with
    journals := Function.update venue.journals underlying (venue.journals underlying ++ derived.1.pair)
    executors := Function.update venue.executors underlying derived.2
    used := if minted then venue.used ++ [(underlying, venue.counter)] else venue.used
    accepted := venue.accepted ++ (takenPlacement command derived.1.outcome).toList }

/-- The journal of an underlying as a crash leaves it. -/
def surviving (venue : Lifetimes U) (torn : String → Bool) (underlying : String) : List JournalRecord :=
  if torn underlying then dropLastEvent (venue.journals underlying) else venue.journals underlying

/-- The recovery of one underlying at boot. -/
def recoverUnderlying (venue : Lifetimes U) (torn : String → Bool) (lineage : LineageId) (hashOrder : VisitOrder)
    (underlying : String) : Except JournalError (Recovered U) :=
  reduceIntoExecutor (venue.surviving torn underlying)
    (fresh U venue.microstructure hashOrder underlying) underlying lineage venue.microstructure none

/-- The persisted lineage is rehydrated; the configured one counts on an empty venue only. -/
def rehydrated (venue : Lifetimes U) (configLineage : LineageId) : LineageId :=
  if venue.underlyings.all fun underlying => (venue.journals underlying).isEmpty then configLineage
  else venue.lineageId

/-- A new process: its counter starts at zero, and every underlying is recovered or the boot is refused. -/
def restart (venue : Lifetimes U) (torn : String → Bool) (configLineage : LineageId) (hashOrder : VisitOrder) :
    Option (Lifetimes U) :=
  let lineage := venue.rehydrated configLineage
  if venue.underlyings.all fun underlying => (venue.recoverUnderlying torn lineage hashOrder underlying).isOk then
    some { venue with
      lineageId := lineage
      counter := 0
      journals := venue.surviving torn
      executors := fun underlying =>
        match venue.recoverUnderlying torn lineage hashOrder underlying with
        | .ok recovered => recovered.executor
        | .error _ => fresh U venue.microstructure hashOrder underlying }
  else none

def act (venue : Lifetimes U) : LifetimeStep → Option (Lifetimes U)
  | .submit underlying command venueTs journaled =>
    let (sent, minted) := venue.mint underlying command
    if journaled ∧ underlying ∈ venue.underlyings then
      some ((venue.commit underlying sent minted venueTs).advance minted)
    else some (venue.advance minted)
  | .restart torn configLineage hashOrder => venue.restart torn configLineage hashOrder

def run (venue : Lifetimes U) : List LifetimeStep → Option (Lifetimes U)
  | [] => some venue
  | step :: rest => (venue.act step).bind fun next => run next rest

/-- The commands of a journal. -/
def commandsOf (venue : Lifetimes U) (underlying : String) : List JournalCommand :=
  (venue.journals underlying).filterMap JournalRecord.asCommand?

/-- The id the venue mints under a counter value it has used. -/
def idOf (lineage : LineageId) (value : String × Nat) : VenueOrderId := mintedId lineage value.1 value.2

/-- The counter stands at no value under which this underlying has journaled an order, whenever a step
journals a placement or a replacement. -/
def FreshStep (venue : Lifetimes U) : LifetimeStep → Prop
  | .submit underlying command _ journaled =>
    journaled = true → underlying ∈ venue.underlyings → (venue.mint underlying command).2 = true →
      (underlying, venue.counter) ∉ venue.used
  | .restart .. => True

def FreshRun (venue : Lifetimes U) : List LifetimeStep → Prop
  | [] => True
  | step :: rest =>
    venue.FreshStep step ∧
      match venue.act step with
      | some next => FreshRun next rest
      | none => True

instance (venue : Lifetimes U) : (step : LifetimeStep) → Decidable (venue.FreshStep step)
  | .submit .. => inferInstanceAs (Decidable (_ → _ → _ → _))
  | .restart .. => inferInstanceAs (Decidable True)

def decidableFreshRun (venue : Lifetimes U) : (steps : List LifetimeStep) → Decidable (venue.FreshRun steps)
  | [] => inferInstanceAs (Decidable True)
  | step :: rest =>
    have : Decidable (match venue.act step with
        | some next => FreshRun next rest
        | none => True) :=
      match venue.act step with
      | some next => decidableFreshRun next rest
      | none => inferInstanceAs (Decidable True)
    inferInstanceAs (Decidable (_ ∧ _))

instance (venue : Lifetimes U) (steps : List LifetimeStep) : Decidable (venue.FreshRun steps) :=
  venue.decidableFreshRun steps

/-- No id is carried twice, no registry entry has been overwritten, and none is about to be. -/
structure DistinctIds (venue : Lifetimes U) : Prop where
  accepted : venue.accepted.Nodup
  lockstep : ∀ underlying ∈ venue.underlyings, (venue.executors underlying).state.registry.Lockstep
  unminted : ∀ underlying ∈ venue.underlyings, (underlying, venue.counter) ∉ venue.used →
    ¬ (venue.executors underlying).state.registry.Names (mintedId venue.lineageId underlying venue.counter)

/-- What every lifetime keeps: the journals tell which counter values have been used, and the registries name
nothing else. -/
structure Sound (venue : Lifetimes U) : Prop where
  hosted : ∀ value ∈ venue.used, value.1 ∈ venue.underlyings
  ascending : ∀ underlying, (venue.commandsOf underlying).Pairwise fun left right => left.sequence < right.sequence
  placed : ∀ underlying, placedIds (venue.commandsOf underlying) =
    (venue.used.filter fun value => value.1 = underlying).map (idOf venue.lineageId)
  unrepeated : venue.used.Nodup
  tracked : ∀ underlying ∈ venue.underlyings, (venue.executors underlying).state.registry.Tracked
    (placedIds (venue.commandsOf underlying)) (nextAfter (venue.journals underlying))
  carried : venue.accepted.Sublist (venue.used.map (idOf venue.lineageId))

theorem idOf_injective (lineage : LineageId) : Function.Injective (idOf lineage) := by
  rintro ⟨underlying, index⟩ ⟨other, last⟩ same
  obtain ⟨rfl, rfl⟩ := mintedId_inj same
  rfl

theorem Sound.distinctIds {venue : Lifetimes U} (sound : venue.Sound) : venue.DistinctIds where
  accepted := sound.carried.nodup (sound.unrepeated.map (idOf_injective venue.lineageId))
  lockstep := fun underlying member => (sound.tracked underlying member).lockstep
  unminted := by
    intro underlying member unused named
    have placed := (sound.tracked underlying member).named _ named
    rw [sound.placed underlying] at placed
    obtain ⟨value, before, same⟩ := List.mem_map.1 placed
    have repeated : value = (underlying, venue.counter) := idOf_injective venue.lineageId same
    exact unused (repeated ▸ (List.mem_filter.1 before).1)

theorem sound_boot (lineage : LineageId) (microstructure : Option MicrostructureConfig) (underlyings : List String)
    (hashOrder : VisitOrder) : (boot (U := U) lineage microstructure underlyings hashOrder).Sound where
  hosted := by simp [boot]
  ascending := by simp [boot, commandsOf]
  placed := by simp [boot, commandsOf, placedIds]
  unrepeated := List.nodup_nil
  tracked := fun _ _ => OrderRegistry.tracked_new _
  carried := List.Sublist.slnil

/-- A counter that moves on without a journaled order. -/
theorem Sound.advance {venue : Lifetimes U} (sound : venue.Sound) (minted : Bool) : (venue.advance minted).Sound := by
  unfold Lifetimes.advance
  split
  · exact ⟨sound.hosted, sound.ascending, sound.placed, sound.unrepeated, sound.tracked, sound.carried⟩
  · exact sound

/-- What a committed turn appends to the commands of an underlying. -/
theorem commandsOf_commit (venue : Lifetimes U) (underlying other : String) (command : VenueCommand) (minted : Bool)
    (venueTs : Nat) : (venue.commit underlying command minted venueTs).commandsOf other =
      venue.commandsOf other ++
        if other = underlying then [⟨nextAfter (venue.journals underlying), venueTs, command⟩] else [] := by
  unfold commandsOf Lifetimes.commit
  by_cases same : other = underlying
  · subst same
    simp [VenueEvent.pair, JournalRecord.asCommand?]
  · simp [same]

/-- A placement that is taken carries the id its command brings. -/
theorem takenPlacement_sublist (command : VenueCommand) (outcome : VenueOutcome) :
    (takenPlacement command outcome).toList.Sublist command.placedId.toList := by
  unfold takenPlacement VenueCommand.placedId
  split <;> simp

/-- The counter value a submission uses up. -/
def minting (venue : Lifetimes U) (underlying : String) (minted : Bool) : List (String × Nat) :=
  if minted then [(underlying, venue.counter)] else []

/-- A minted command brings the id of the counter, any other command none. -/
theorem placedId_mint (venue : Lifetimes U) (underlying : String) (command : GatewayCommand) :
    (venue.mint underlying command).1.placedId.toList =
      (venue.minting underlying (venue.mint underlying command).2).map (idOf venue.lineageId) := by
  cases command with
  | place order => rfl
  | amend order => rfl
  | other command => simp [mint, minting, command.2]

theorem used_commit (venue : Lifetimes U) (underlying : String) (command : VenueCommand) (minted : Bool)
    (venueTs : Nat) : (venue.commit underlying command minted venueTs).used =
      venue.used ++ venue.minting underlying minted := by
  cases minted <;> simp [Lifetimes.commit, minting]

theorem filter_minting (venue : Lifetimes U) (underlying other : String) (minted : Bool) :
    (venue.minting underlying minted).filter (fun value => value.1 = other) =
      if other = underlying then venue.minting underlying minted else [] := by
  by_cases same : other = underlying
  · cases minted <;> simp [minting, same]
  · cases minted <;> simp [minting, same, Ne.symm same]

/-- A committed turn whose command brings the id of a fresh counter value, or none. -/
theorem Sound.commit {venue : Lifetimes U} (sound : venue.Sound) {underlying : String} {command : VenueCommand}
    {minted : Bool} (venueTs : Nat) (member : underlying ∈ venue.underlyings)
    (brought : command.placedId.toList = (venue.minting underlying minted).map (idOf venue.lineageId))
    (fresh : minted = true → (underlying, venue.counter) ∉ venue.used) :
    (venue.commit underlying command minted venueTs).Sound := by
  have values : ∀ value ∈ venue.minting underlying minted, value ∉ venue.used ∧ value.1 = underlying := by
    intro value listed
    cases minted with
    | false => cases listed
    | true =>
      obtain rfl := List.mem_singleton.1 listed
      exact ⟨fresh rfl, rfl⟩
  have once : (venue.minting underlying minted).Nodup := by
    cases minted <;> simp [minting]
  have unrepeated : (venue.used ++ venue.minting underlying minted).Nodup :=
    List.nodup_append.2 ⟨sound.unrepeated, once, fun value old other new same =>
      (values other new).1 (same ▸ old)⟩
  have commands : placedIds [(⟨nextAfter (venue.journals underlying), venueTs, command⟩ : JournalCommand)] =
      (venue.minting underlying minted).map (idOf venue.lineageId) := by
    rw [placedIds_cons, brought]
    exact List.append_nil _
  have placed : ∀ other, placedIds ((venue.commit underlying command minted venueTs).commandsOf other) =
      ((venue.used ++ venue.minting underlying minted).filter fun value => value.1 = other).map
        (idOf venue.lineageId) := by
    intro other
    rw [commandsOf_commit, placedIds_append, List.filter_append, List.map_append, sound.placed, filter_minting]
    split
    · rw [commands]
    · rfl
  constructor
  case hosted =>
    intro value listed
    rw [used_commit] at listed
    rcases List.mem_append.1 listed with old | new
    · exact sound.hosted value old
    · exact (values value new).2 ▸ member
  case ascending =>
    intro other
    rw [commandsOf_commit]
    split
    next same =>
      subst same
      refine List.pairwise_append.2 ⟨sound.ascending other, List.pairwise_singleton _ _, ?_⟩
      intro earlier old last new
      obtain rfl := List.mem_singleton.1 new
      obtain ⟨record, durable, shape⟩ := List.mem_filterMap.1 old
      rw [JournalRecord.asCommand?_eq_some] at shape
      rw [shape] at durable
      exact lt_nextAfter durable
    next => simpa using sound.ascending other
  case placed =>
    intro other
    rw [used_commit]
    exact placed other
  case unrepeated =>
    rw [used_commit]
    exact unrepeated
  case tracked =>
    intro other hosted
    by_cases same : other = underlying
    · subst same
      have before := sound.tracked other hosted
      have unnamed : ∀ orderId, command.placedId = some orderId → orderId ∉ placedIds (venue.commandsOf other) := by
        intro orderId brings old
        have new : orderId ∈ (venue.minting other minted).map (idOf venue.lineageId) := by
          rw [← brought, brings]
          simp
        obtain ⟨value, listed, rfl⟩ := List.mem_map.1 new
        rw [sound.placed other] at old
        obtain ⟨earlier, used, again⟩ := List.mem_map.1 old
        obtain rfl := idOf_injective venue.lineageId again
        exact (values earlier listed).1 (List.mem_filter.1 used).1
      have stepped := before.step (deriveEvent_registry other venue.lineageId (venue.executors other)
        ⟨nextAfter (venue.journals other), venueTs, command⟩) (Nat.le_refl _) unnamed
      rw [commandsOf_commit, if_pos rfl, placedIds_append, commands, ← brought]
      have moved : nextAfter ((venue.commit other command minted venueTs).journals other) =
          nextAfter (venue.journals other) + 1 := by
        simp only [Lifetimes.commit, Function.update_self]
        exact nextAfter_append_pair rfl
      rw [moved]
      simpa [Lifetimes.commit] using stepped
    · rw [commandsOf_commit, if_neg same, List.append_nil]
      simpa [Lifetimes.commit, same] using sound.tracked other hosted
  case carried =>
    change List.Sublist _ (List.map (idOf venue.lineageId) _)
    rw [used_commit, List.map_append, ← brought]
    exact sound.carried.append (takenPlacement_sublist command _)

/-- A venue whose hosted journals are all empty has used no counter value. -/
theorem Sound.used_of_empty {venue : Lifetimes U} (sound : venue.Sound)
    (empty : ∀ underlying ∈ venue.underlyings, venue.journals underlying = []) : venue.used = [] := by
  apply List.eq_nil_iff_forall_not_mem.2
  intro value used
  have placed := sound.placed value.1
  rw [commandsOf, empty value.1 (sound.hosted value used)] at placed
  have carried : idOf venue.lineageId value ∈
      (venue.used.filter fun other => other.1 = value.1).map (idOf venue.lineageId) :=
    List.mem_map_of_mem (List.mem_filter.2 ⟨used, by simp⟩)
  rw [← placed] at carried
  cases carried

/-- The rehydrated lineage mints the ids the journals carry. -/
theorem Sound.map_rehydrated {venue : Lifetimes U} (sound : venue.Sound) (configLineage : LineageId) :
    idOf (venue.rehydrated configLineage) = idOf venue.lineageId ∨ venue.used = [] := by
  unfold rehydrated
  split
  next empty =>
    refine Or.inr (sound.used_of_empty fun underlying member => ?_)
    exact List.isEmpty_iff.1 (List.all_eq_true.1 empty underlying member)
  next => exact Or.inl rfl

theorem commands_surviving (venue : Lifetimes U) (torn : String → Bool) (underlying : String) :
    (venue.surviving torn underlying).filterMap JournalRecord.asCommand? = venue.commandsOf underlying := by
  unfold surviving
  split
  · exact commands_dropLastEvent _
  · rfl

/-- Recovery from a journal of ascending commands and distinct ids tracks the registry. -/
theorem recoverUnderlying_tracked {venue : Lifetimes U} (sound : venue.Sound) {torn : String → Bool}
    {lineage : LineageId} {hashOrder : VisitOrder} {underlying : String} {recovered : Recovered U}
    (reduced : venue.recoverUnderlying torn lineage hashOrder underlying = .ok recovered) :
    recovered.executor.state.registry.Tracked (placedIds (venue.commandsOf underlying))
      (nextAfter (venue.surviving torn underlying)) := by
  have commands := venue.commands_surviving torn underlying
  have sorted := commandRecordsInOrder_of_sorted (commands ▸ (sound.ascending underlying).imp Nat.le_of_lt)
  have executed := reduceIntoExecutor_executor underlying lineage reduced
  rw [sorted, commands] at executed
  have distinct : (placedIds (venue.commandsOf underlying)).Nodup := by
    rw [sound.placed underlying]
    exact (sound.unrepeated.filter _).map (idOf_injective venue.lineageId)
  have range : ∀ command ∈ venue.commandsOf underlying, 0 ≤ command.sequence ∧ command.sequence <
      nextAfter (venue.surviving torn underlying) := by
    intro command member
    rw [← commands] at member
    obtain ⟨record, durable, same⟩ := List.mem_filterMap.1 member
    rw [JournalRecord.asCommand?_eq_some] at same
    rw [same] at durable
    exact ⟨Nat.zero_le _, lt_nextAfter durable⟩
  have tracked := reexecute_tracked underlying lineage (venue.commandsOf underlying)
    (fresh U venue.microstructure hashOrder underlying) (OrderRegistry.tracked_new 0) (sound.ascending underlying)
    range (Nat.zero_le _) (by simpa using distinct)
  rw [executed] at tracked
  exact tracked

theorem Sound.restart {venue next : Lifetimes U} (sound : venue.Sound) {torn : String → Bool}
    {configLineage : LineageId} {hashOrder : VisitOrder}
    (restarted : venue.restart torn configLineage hashOrder = some next) : next.Sound := by
  unfold Lifetimes.restart at restarted
  dsimp only at restarted
  split at restarted
  case isFalse => cases restarted
  next recovers =>
    obtain rfl := Option.some.inj restarted
    have kept := venue.commands_surviving torn
    have minted : ∀ values : List (String × Nat), values ⊆ venue.used →
        values.map (idOf (venue.rehydrated configLineage)) = values.map (idOf venue.lineageId) := by
      intro values used
      rcases sound.map_rehydrated configLineage with same | none
      · rw [same]
      · rw [none, List.subset_nil] at used
        rw [used]
        rfl
    constructor
    case hosted => exact sound.hosted
    case ascending =>
      intro underlying
      simp only [commandsOf, kept underlying]
      exact sound.ascending underlying
    case placed =>
      intro underlying
      have placed := sound.placed underlying
      rw [← minted _ (List.filter_sublist.subset)] at placed
      exact (congrArg placedIds (kept underlying)).trans placed
    case unrepeated => exact sound.unrepeated
    case tracked =>
      intro underlying member
      have recovered := List.all_eq_true.1 recovers underlying member
      simp only [commandsOf, kept underlying]
      split
      next reduced => exact recoverUnderlying_tracked sound reduced
      next refused =>
        rw [refused] at recovered
        cases recovered
    case carried =>
      have carried := sound.carried
      rw [← minted _ (List.Subset.refl _)] at carried
      exact carried

theorem Sound.act {venue next : Lifetimes U} (sound : venue.Sound) {step : LifetimeStep}
    (acted : venue.act step = some next) (fresh : venue.FreshStep step) : next.Sound := by
  cases step with
  | submit underlying command venueTs journaled =>
    simp only [Lifetimes.act] at acted
    split at acted
    next taken =>
      obtain rfl := Option.some.inj acted
      exact (sound.commit venueTs taken.2 (venue.placedId_mint underlying command)
        (fresh taken.1 taken.2)).advance _
    next =>
      obtain rfl := Option.some.inj acted
      exact sound.advance _
  | restart torn configLineage hashOrder => exact sound.restart acted

theorem Sound.run {venue last : Lifetimes U} (sound : venue.Sound) {steps : List LifetimeStep}
    (ran : venue.run steps = some last) (fresh : venue.FreshRun steps) : last.Sound := by
  induction steps generalizing venue with
  | nil => exact Option.some.inj ran ▸ sound
  | cons step rest ih =>
    obtain ⟨next, acted, later⟩ := Option.bind_eq_some_iff.1 ran
    obtain ⟨now, rest⟩ := fresh
    rw [acted] at rest
    exact ih (sound.act acted now) later rest

/-- Over any number of process lifetimes, as long as no order is journaled under a counter value its
underlying has used, no id is carried twice and no registry entry is overwritten. -/
theorem run_distinctIds (lineage : LineageId) (microstructure : Option MicrostructureConfig)
    (underlyings : List String) (hashOrder : VisitOrder) (steps : List LifetimeStep) (last : Lifetimes U)
    (ran : (boot lineage microstructure underlyings hashOrder).run steps = some last)
    (fresh : (boot (U := U) lineage microstructure underlyings hashOrder).FreshRun steps) : last.DistinctIds :=
  ((sound_boot lineage microstructure underlyings hashOrder).run ran fresh).distinctIds

end Lifetimes

/-- A placement through the gateway; it is given its id there. -/
def placeOrder (symbol : String) (side : Side) (price : Nat) : GatewayCommand :=
  .place ⟨symbol, "", "acct-1", 7, none, side, .limit, some price, 1, .gtc, .none⟩

/-- A bid rests, the process restarts, and a second bid is placed; before it, a submission may use up one
counter value without being journaled. -/
def restingAcrossRestart (skipped : List LifetimeStep) : List LifetimeStep :=
  [.submit "BTC" (placeOrder "BTC-20351231-50000-C" .buy 100) 1 true,
    .restart (fun _ => true) "run-2" fun _ _ => Fin.revPerm] ++ skipped ++
  [.submit "BTC" (placeOrder "BTC-20351231-50000-C" .buy 99) 2 true]

def bootedVenue : Lifetimes referenceUpstream := .boot "run-1" none ["BTC"] fun _ _ => Equiv.refl _

/-- The second bid is given the id of the first one, which rests recovered, and takes its registry entry. -/
theorem reminted_after_restart :
    ∃ last, bootedVenue.run (restingAcrossRestart []) = some last ∧ ¬ last.accepted.Nodup ∧
      ¬ (last.executors "BTC").state.registry.Lockstep := by
  obtain ⟨last, ran⟩ := Option.isSome_iff_exists.1
    (show (bootedVenue.run (restingAcrossRestart [])).isSome by decide)
  have read : ∀ {α : Type} (field : Lifetimes referenceUpstream → α) {value : α},
      (bootedVenue.run (restingAcrossRestart [])).map field = some value → field last = value := by
    intro α field value found
    rw [ran] at found
    exact Option.some.inj found
  refine ⟨last, ran, ?_, fun lockstep => ?_⟩
  · rw [read Lifetimes.accepted (show _ = some ["run-1:BTC:g0:0", "run-1:BTC:g0:0"] by decide)]
    decide
  · have first := read (fun venue => (venue.executors "BTC").state.registry.resting[0]?.map
      RestingRecord.venueOrderId) (show _ = some (some "run-1:BTC:g0:0") by decide)
    have mapped := read (fun venue => (venue.executors "BTC").state.registry.venueToEngine["run-1:BTC:g0:0"]?)
      (show _ = some (some 1) by decide)
    obtain ⟨record, present, named⟩ := Option.map_eq_some_iff.1 first
    rw [(lockstep "run-1:BTC:g0:0" 0).2 ⟨record, present, named⟩] at mapped
    cases mapped

theorem skipped_value_distinct :
    ∃ last, bootedVenue.run (restingAcrossRestart
        [.submit "BTC" (placeOrder "BTC-20351231-50000-C" .buy 98) 2 false]) = some last ∧ last.DistinctIds := by
  obtain ⟨last, ran⟩ := Option.isSome_iff_exists.1 (show (bootedVenue.run (restingAcrossRestart
    [.submit "BTC" (placeOrder "BTC-20351231-50000-C" .buy 98) 2 false])).isSome by decide)
  exact ⟨last, ran, Lifetimes.run_distinctIds "run-1" none ["BTC"] (fun _ _ => Equiv.refl _) _ last ran (by decide)⟩

end Fauxchange.Venue
