import Fauxchange.Fix.Router
import Fauxchange.Lib.GuardedRuns

/-! The acceptor with its connections: each serves one session, and they share the durable store and the
registry of live leases. -/

namespace Fauxchange.Fix
open Exchange Lib Fallible

/-- What the acceptor hands to a session: a decoded frame, one that fails to decode, or the cadence tick. -/
inductive SessionEvent where
  | message (message : DecodedMessage)
  | decodeError (error : FixDecodeError)
  | tick

/-- The connections with what outlives them. `calls` and `emitted` record the submissions of every session and
the frames of the bound ones, for the statements about runs only. -/
structure Acceptor where
  config : SessionConfig
  store : FixSessionStore
  leases : List SessionKey
  sessions : Nat → Option VenueFixSession
  calls : List ExchangeCall
  emitted : List (SessionKey × Frame)

/-- A dispatch brings the venue as it finds it, the outages that its store operations meet, and the room left
in the outbound mailbox. An outage also stands for a crash before the operation that meets it, and a submission
without an answer for a dispatch that is dropped while it waits. -/
inductive AcceptorAction where
  | accept (connection : Nat) (peer : String) (nowMs : Nat)
  | dispatch (connection : Nat) (event : SessionEvent) (venue : AppState) (outages : List (Option String)) (room : Nat)
  | disconnect (connection : Nat)
  | crash

def FixSessionStore.restarted (store : FixSessionStore) : FixSessionStore :=
  match store.backend with
  | .inMemory => .new .inMemory
  | .postgres => store

/-- Whether a session outlives a dispatch: no error, no close, and no frame past the mailbox. -/
def outlives (result : Except Halt Reaction) (room : Nat) : Bool :=
  match result with
  | .ok reaction => reaction.control = .continued ∧ reaction.frames.length ≤ room
  | .error _ => false

def shownFrames (result : Except Halt Reaction) : List Frame :=
  match result with
  | .ok reaction => reaction.frames
  | .error _ => []

section Events
variable [Ironfix] (U : Upstream)

def SessionEvent.handle (venue : AppState) : SessionEvent → SessionM Reaction
  | message decoded => onMessage U venue decoded
  | decodeError error => onDecodeError venue error
  | tick => onTick venue

end Events

namespace Acceptor

def new (backend : Backend) (config : SessionConfig) : Acceptor := ⟨config, .new backend, [], fun _ => none, [], []⟩

def seat (acceptor : Acceptor) (connection : Nat) (session : Option VenueFixSession) : Nat → Option VenueFixSession :=
  fun other => if other = connection then session else acceptor.sessions other

/-- The lease of a session is released when the session is dropped. -/
def released (lease : Option SessionKey) (leases : List SessionKey) : List SessionKey :=
  match lease with
  | some key => leases.filter fun other => other ≠ key
  | none => leases

/-- What a dispatch of a session works on. -/
def load (acceptor : Acceptor) (session : VenueFixSession) (outages : List (Option String)) : Dispatch :=
  { session with
    store := { acceptor.store with outages := outages }
    leases := acceptor.leases
    calls := acceptor.calls }

/-- What a dispatch leaves behind. -/
def unload (acceptor : Acceptor) (connection room : Nat) (outcome : Except Halt Reaction × Dispatch) : Acceptor :=
  let live := outlives outcome.1 room
  { acceptor with
    store := outcome.2.store
    leases := if live then outcome.2.leases else released outcome.2.lease outcome.2.leases
    sessions := acceptor.seat connection (if live then some outcome.2.toVenueFixSession else none)
    calls := outcome.2.calls
    emitted := acceptor.emitted ++ (outcome.2.fsm.key.toList.flatMap fun key =>
      (shownFrames outcome.1).map fun frame => (key, frame)) }

def drop (acceptor : Acceptor) (connection : Nat) (session : VenueFixSession) : Acceptor :=
  { acceptor with
    leases := released session.lease acceptor.leases
    sessions := acceptor.seat connection none }

variable [Ironfix] (U : Upstream)

def step (acceptor : Acceptor) : AcceptorAction → Option Acceptor
  | .accept connection peer nowMs =>
    match acceptor.sessions connection with
    | some _ => none
    | none => some { acceptor with sessions := acceptor.seat connection (some (.new peer acceptor.config nowMs)) }
  | .dispatch connection event venue outages room =>
    match acceptor.sessions connection with
    | some session =>
      some (acceptor.unload connection room ((event.handle U venue).exec (acceptor.load session outages)))
    | none => none
  | .disconnect connection =>
    match acceptor.sessions connection with
    | some session => some (acceptor.drop connection session)
    | none => none
  | .crash => some { acceptor with store := acceptor.store.restarted, leases := [], sessions := fun _ => none }

end Acceptor

end Fauxchange.Fix
