import Fauxchange.Exchange.ReferenceBook
import Fauxchange.Microstructure.Config

/-! The live producers of a venue: the gateway submit with its ingress buffer, the market maker's forwarder
and the price simulator's step sink. Each decides what reaches an actor, and so what is journaled. -/

namespace Fauxchange.Venue
open Exchange Microstructure

/-- A command handed to the actor of an underlying. -/
structure Delivery where
  underlying : String
  command : VenueCommand
  deriving DecidableEq, Repr

/-- The venue as its producers see it: the configuration, the hosted underlyings in sorted order and the
commands that wait in the ingress buffers. -/
structure VenueState where
  microstructure : MicrostructureConfig
  underlyings : List String
  ingress : List Delivery

/-- The commands the market maker enqueues. -/
inductive MakerCommand where
  | add (symbol : Symbol) (orderId : VenueOrderId) (side : Side) (price quantity : Nat)
  | cancel (symbol : Symbol) (orderId : VenueOrderId)
  deriving DecidableEq, Repr

def marketMakerAccount : AccountId := "@market-maker"

/-- `add_command` and the cancel of a prior leg. -/
def MakerCommand.command : MakerCommand → VenueCommand
  | .add symbol orderId side price quantity =>
    .addOrder ⟨symbol, orderId, marketMakerAccount, marketMakerOwner, none, side, .limit, some price, quantity,
      .gtc, .none⟩
  | .cancel symbol orderId => .cancelOrder symbol orderId marketMakerAccount

/-- What a producer does. The ingress buffer answers by its capacity and its deadlines, which are left open
here: it may refuse an entry, and it may release its entries in any order. -/
inductive Action where
  | submit (command : VenueCommand)
  | submitReordered (command : VenueCommand) (room : Bool)
  | release (position : Nat)
  | requote (maker : MakerCommand)
  | step (nowMs : Nat) (underlying : String) (price : Nat) (bid ask : Option Nat)
  deriving DecidableEq, Repr

def isVenueGlobal : VenueCommand → Bool
  | .marketMakerControl _ | .evictExpiredOrders _ => true
  | .massCancel (.book _) _ _ => false
  | .massCancel .. => true
  | _ => false

namespace VenueState
variable (U : Upstream) (venue : VenueState)

def handleFor (underlying : String) : Except VenueError String :=
  if underlying ∈ venue.underlyings then .ok underlying
  else .error (.notFound ("underlying '" ++ underlying ++ "' is not hosted by this venue"))

def routeSymbol (symbol : Symbol) : Except VenueError String :=
  match U.parse symbol with
  | .error error => .error (.invalidOrder error)
  | .ok parsed => venue.handleFor parsed.underlying

def route : VenueCommand → Except VenueError String
  | .addOrder order => venue.routeSymbol U order.symbol
  | .cancelOrder symbol _ _ => venue.routeSymbol U symbol
  | .replace order => venue.routeSymbol U order.symbol
  | .setInstrumentStatus symbol _ => venue.routeSymbol U symbol
  | .massCancel (.book symbol) _ _ => venue.routeSymbol U symbol
  | .simStep _ underlying _ _ _ => venue.handleFor underlying
  | .massCancel .. | .evictExpiredOrders _ | .marketMakerControl _ | .clock _ =>
    .error (.invalidOrder "command carries no single routable underlying for the per-underlying submit path")

def admitCommandPrice (command : VenueCommand) : Except VenueError Unit :=
  match checkOrderAdmission U venue.microstructure command with
  | .ok () => .ok ()
  | .error error => .error (.invalidOrder error.display)

/-- The gateway submit: a venue-global command fans out to every underlying. -/
def submit (command : VenueCommand) : Except VenueError (List Delivery) :=
  match venue.admitCommandPrice U command with
  | .error error => .error error
  | .ok () =>
    if isVenueGlobal command then
      if venue.underlyings.isEmpty then .error (.notFound "no hosted underlyings for a venue-global command")
      else .ok (venue.underlyings.map fun underlying => ⟨underlying, command⟩)
    else
      match venue.route U command with
      | .error error => .error error
      | .ok underlying => .ok [⟨underlying, command⟩]

def bufferableUnderlying (command : VenueCommand) : Except VenueError String :=
  match command with
  | .addOrder _ | .cancelOrder .. | .replace _ => venue.route U command
  | _ => .error (.invalidOrder "command is not bufferable ingress")

/-- The buffered path: the command is admitted before it is held. -/
def submitReordered (command : VenueCommand) (room : Bool) : Except VenueError Delivery :=
  match venue.admitCommandPrice U command with
  | .error error => .error error
  | .ok () =>
    match venue.bufferableUnderlying U command with
    | .error error => .error error
    | .ok underlying => if room then .ok ⟨underlying, command⟩ else .error .rateLimited

def routableUnderlying : VenueCommand → Option String
  | .addOrder order => (U.parse order.symbol).toOption.map (·.underlying)
  | .cancelOrder symbol _ _ => (U.parse symbol).toOption.map (·.underlying)
  | .replace order => (U.parse order.symbol).toOption.map (·.underlying)
  | _ => none

/-- The market maker's forwarder: routable, hosted, and inside the price band. -/
def forward (command : VenueCommand) : Option Delivery :=
  match routableUnderlying U command with
  | none => none
  | some underlying =>
    if underlying ∉ venue.underlyings then none
    else
      match checkPriceBand U venue.microstructure command with
      | .error _ => none
      | .ok () => some ⟨underlying, command⟩

/-- The step sink and its forwarder. -/
def applyStep (nowMs : Nat) (underlying : String) (price : Nat) (bid ask : Option Nat) : Option Delivery :=
  match venue.microstructure.admitPrice underlying price with
  | .error _ => none
  | .ok () =>
    if underlying ∉ venue.underlyings then none
    else some ⟨underlying, .simStep nowMs underlying price bid ask⟩

/-- What an action delivers to the actors, and the venue after it. -/
def act : Action → List Delivery × VenueState
  | .submit command => ((venue.submit U command).toOption.getD [], venue)
  | .submitReordered command room =>
    match venue.submitReordered U command room with
    | .error _ => ([], venue)
    | .ok pending => ([], { venue with ingress := venue.ingress ++ [pending] })
  | .release position =>
    (venue.ingress[position]?.toList, { venue with ingress := venue.ingress.eraseIdx position })
  | .requote maker => ((venue.forward U maker.command).toList, venue)
  | .step nowMs underlying price bid ask => ((venue.applyStep nowMs underlying price bid ask).toList, venue)

def run (venue : VenueState) : List Action → List Delivery × VenueState
  | [] => ([], venue)
  | action :: rest =>
    let (now, next) := venue.act U action
    let (later, last) := run next rest
    (now ++ later, last)

/-- A command the recovery-side admission accepts. -/
def Admits (config : MicrostructureConfig) (delivery : Delivery) : Prop :=
  checkOrderAdmission U config delivery.command = .ok ()

theorem admitCommandPrice_ok {command : VenueCommand} (ok : venue.admitCommandPrice U command = .ok ()) :
    checkOrderAdmission U venue.microstructure command = .ok () := by
  unfold admitCommandPrice at ok
  split at ok
  next admitted => exact admitted
  next => cases ok

/-- What the gateway delivers has passed the full admission. -/
theorem submit_admitted (command : VenueCommand) :
    ∀ delivery ∈ (venue.submit U command).toOption.getD [], Admits U venue.microstructure delivery := by
  unfold submit
  cases admitted : venue.admitCommandPrice U command with
  | error error => simp [Except.toOption]
  | ok _ =>
    have passes := venue.admitCommandPrice_ok U admitted
    intro delivery member
    have same : delivery.command = command := by
      simp only at member
      split at member
      · split at member
        · simp [Except.toOption] at member
        · obtain ⟨underlying, -, rfl⟩ := List.mem_map.1 member
          rfl
      · split at member
        · simp [Except.toOption] at member
        · rw [List.mem_singleton.1 member]
    rw [Admits, same]
    exact passes

/-- What waits in the ingress buffer has passed it too. -/
theorem submitReordered_admitted {command : VenueCommand} {room : Bool} {pending : Delivery}
    (held : venue.submitReordered U command room = .ok pending) : Admits U venue.microstructure pending := by
  unfold submitReordered at held
  cases admitted : venue.admitCommandPrice U command with
  | error error => simp [admitted] at held
  | ok _ =>
    simp only [admitted] at held
    split at held
    · cases held
    · split at held
      · obtain rfl := Except.ok.inj held
        exact venue.admitCommandPrice_ok U admitted
      · cases held

theorem applyStep_admitted (nowMs : Nat) (underlying : String) (price : Nat) (bid ask : Option Nat) :
    ∀ delivery ∈ (venue.applyStep nowMs underlying price bid ask).toList, Admits U venue.microstructure delivery := by
  unfold applyStep
  cases band : venue.microstructure.admitPrice underlying price with
  | error error => simp
  | ok _ =>
    intro delivery member
    simp only at member
    split at member
    · cases member
    · obtain rfl := List.mem_singleton.1 member
      simp [Admits, checkOrderAdmission, offered, band]

/-- The forwarder's own conditions on a command. -/
def Forwards (command : VenueCommand) : Prop :=
  (∃ underlying ∈ venue.underlyings, routableUnderlying U command = some underlying) ∧
    checkPriceBand U venue.microstructure command = .ok ()

theorem forward_eq_some_iff {command : VenueCommand} {delivery : Delivery} :
    venue.forward U command = some delivery ↔
      venue.Forwards U command ∧ routableUnderlying U command = some delivery.underlying ∧
        delivery.command = command := by
  unfold forward Forwards
  cases routed : routableUnderlying U command with
  | none => simp
  | some underlying =>
    by_cases hosted : underlying ∈ venue.underlyings
    · cases band : checkPriceBand U venue.microstructure command with
      | error error => simp [hosted]
      | ok _ => cases delivery; grind
    · simp [hosted]

/-- The forwarder checks the band only: what it forwards is admitted exactly when the quote has the shape
the specs ask for. -/
theorem forward_admitted_iff (command : VenueCommand) :
    (∀ delivery ∈ (venue.forward U command).toList, Admits U venue.microstructure delivery) ↔
      (venue.Forwards U command → SpecShaped U venue.microstructure command) := by
  constructor
  · intro admitted forwards
    obtain ⟨underlying, -, routed⟩ := forwards.1
    have forwarded : venue.forward U command = some ⟨underlying, command⟩ :=
      (venue.forward_eq_some_iff U).2 ⟨forwards, routed, rfl⟩
    have passes : checkOrderAdmission U venue.microstructure command = .ok () :=
      admitted ⟨underlying, command⟩ (by simp [forwarded])
    exact ((checkOrderAdmission_ok_iff U _ command).1 passes).2
  · intro shaped delivery member
    obtain ⟨forwards, -, same⟩ := (venue.forward_eq_some_iff U).1 (Option.mem_toList.1 member)
    rw [Admits, same, checkOrderAdmission_ok_iff]
    exact ⟨forwards.2, shaped forwards⟩

/-- Every command that waits in the ingress buffers has been admitted. -/
def HeldAdmitted : Prop := ∀ pending ∈ venue.ingress, Admits U venue.microstructure pending

@[simp] theorem act_microstructure (action : Action) : (venue.act U action).2.microstructure = venue.microstructure := by
  cases action with
  | submitReordered command room =>
    simp only [act]
    split <;> rfl
  | _ => rfl

@[simp] theorem act_underlyings (action : Action) : (venue.act U action).2.underlyings = venue.underlyings := by
  cases action with
  | submitReordered command room =>
    simp only [act]
    split <;> rfl
  | _ => rfl

theorem HeldAdmitted.act {venue : VenueState} (held : venue.HeldAdmitted U) (action : Action) :
    (venue.act U action).2.HeldAdmitted U := by
  cases action with
  | submitReordered command room =>
    simp only [VenueState.act]
    split
    next => exact held
    next pending entered =>
      intro waiting member
      rcases List.mem_append.1 member with old | new
      · exact held waiting old
      · obtain rfl := List.mem_singleton.1 new
        exact venue.submitReordered_admitted U entered
  | release position =>
    exact fun waiting member => held waiting (List.mem_of_mem_eraseIdx member)
  | submit | requote | step => exact held

/-- The quote of an action has the shape the specs ask for, if the forwarder lets it through. -/
def QuoteShaped (action : Action) : Prop :=
  ∀ maker, action = .requote maker → venue.Forwards U maker.command →
    SpecShaped U venue.microstructure maker.command

/-- One action delivers admitted commands only, exactly when its quote, if it is one, is shaped. -/
theorem act_admitted_iff (held : venue.HeldAdmitted U) (action : Action) :
    (∀ delivery ∈ (venue.act U action).1, Admits U venue.microstructure delivery) ↔
      venue.QuoteShaped U action := by
  cases action with
  | submit command => simpa [act, QuoteShaped] using venue.submit_admitted U command
  | submitReordered command room =>
    simp only [act, QuoteShaped]
    split <;> simp
  | release position =>
    simp only [act, QuoteShaped, Option.mem_toList, reduceCtorEq, false_implies, implies_true, iff_true]
    exact fun delivery found => held delivery (List.mem_of_getElem? found)
  | requote maker => simpa [act, QuoteShaped] using venue.forward_admitted_iff U maker.command
  | step nowMs underlying price bid ask =>
    simpa [act, QuoteShaped] using venue.applyStep_admitted U nowMs underlying price bid ask

end VenueState

/-- A lot of four contracts, everything else as in the baseline. -/
def lotOfFour : MicrostructureConfig :=
  { MicrostructureConfig.default with defaultSpecs := { ResolvedContractSpecs.baseline with lotSize := 4 } }

/-- A bid of the default quoter: ten contracts. -/
def defaultQuote : MakerCommand := .add "BTC-20351231-50000-C" "run-1:MM:0" .buy 995 10

end Fauxchange.Venue
