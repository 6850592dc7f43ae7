import Fauxchange.Lib.GuardedRuns
import Fauxchange.MarketData.Broadcast
import Fauxchange.Rest.Orders

/-! One WebSocket connection: its subscriptions, the baselines of its order books, and what it answers to its client; and the
loop of its socket between the folds and the sends of the actors. -/

namespace Fauxchange.Ws
open Lib MarketData
open Exchange hiding VenueError
open Fauxchange.Fix (Permission VenueError)
open Fauxchange.Rest (parseSymbol)

inductive SubscriptionChannel where
  | orderbook
  | trades
  | quotes
  | prices
  | fills
  deriving DecidableEq, Repr

namespace SubscriptionChannel

def discriminant : SubscriptionChannel → Nat
  | orderbook => 0
  | trades => 1
  | quotes => 2
  | prices => 3
  | fills => 4

def debug : SubscriptionChannel → String
  | orderbook => "Orderbook"
  | trades => "Trades"
  | quotes => "Quotes"
  | prices => "Prices"
  | fills => "Fills"

instance : Ord SubscriptionChannel := ⟨compareOn discriminant⟩

instance : Std.TransOrd SubscriptionChannel := inferInstanceAs (Std.TransCmp (compareOn discriminant))

instance : Std.LawfulEqOrd SubscriptionChannel where
  eq_of_compare {left right} same := by
    have numbers : left.discriminant = right.discriminant := Nat.compare_eq_eq.1 same
    revert numbers
    cases left <;> cases right <;> simp [discriminant]

end SubscriptionChannel

inductive WsErrorCode where
  | badRequest
  | invalidOrder
  | unauthorized
  | forbidden
  | instrumentHalted
  | throttled
  | notFound
  | unavailable
  | internal
  deriving DecidableEq, Repr

inductive WsErrorCategory where
  | decode
  | validation
  | authorization
  | throttle
  | notFound
  | unavailable
  | internal
  deriving DecidableEq, Repr

structure WsError where
  schema : String
  code : WsErrorCode
  category : WsErrorCategory
  message : String
  requestId : Option String
  retryable : Bool
  retryAfterMs : Option Nat
  terminal : Bool
  deriving DecidableEq, Repr

def wsErrorSchema : String := "ws-error.v1"
def rateLimitRetryAfterMs : Nat := 60000

def wsCodeCategory : VenueError → WsErrorCode × WsErrorCategory
  | .notFound _ => (.notFound, .notFound)
  | .invalidOrder _ => (.invalidOrder, .validation)
  | .unauthorized => (.unauthorized, .authorization)
  | .forbidden _ => (.forbidden, .authorization)
  | .instrumentHalted _ => (.instrumentHalted, .validation)
  | .rateLimited => (.throttled, .throttle)
  | .shuttingDown => (.unavailable, .unavailable)
  | .overflow | .sequenceExhausted | .journalUnavailable | .upstream _ => (.internal, .internal)

/-- Only a failed authentication closes the socket; only a throttle and a shutdown are worth a retry. -/
def wsError (error : VenueError) (requestId : Option String) : WsError :=
  let (code, category) := wsCodeCategory error
  let (retryable, retryAfterMs, terminal) :=
    match error with
    | .unauthorized => (false, none, true)
    | .rateLimited => (true, some rateLimitRetryAfterMs, false)
    | .shuttingDown => (true, none, false)
    | _ => (false, none, false)
  ⟨wsErrorSchema, code, category, error.redactedMessage, requestId, retryable, retryAfterMs, terminal⟩

def decodeError (requestId : Option String) (message : String) : WsError :=
  ⟨wsErrorSchema, .badRequest, .decode, message, requestId, false, none, false⟩

def orderEntryRejected (requestId : Option String) : WsError :=
  ⟨wsErrorSchema, .badRequest, .validation, "WebSocket is not an order-entry surface; place orders over REST or FIX",
    requestId, false, none, false⟩

def capError (requestId : Option String) : WsError :=
  { decodeError requestId "subscription cap reached (max 256 per connection)" with category := .validation }

def batchTooLarge (requestId : Option String) : WsError :=
  { decodeError requestId "batch too large (max 64 items per batch action)" with category := .validation }

structure SubscribeParams where
  channel : SubscriptionChannel
  symbol : String
  depth : Option Nat
  deriving DecidableEq, Repr

structure BatchParams where
  requestId : Option String
  subscriptions : List SubscribeParams
  deriving DecidableEq, Repr

/-- The filter by underlying is never set. -/
structure SubscriptionResult where
  channel : SubscriptionChannel
  symbol : String
  status : String
  deriving DecidableEq, Repr

structure ActiveSubscription where
  channel : SubscriptionChannel
  symbol : String
  depth : Option Nat
  deriving DecidableEq, Repr

/-- What the venue answers to a control action that it carries out. -/
inductive ControlAck where
  | config (okCount total : Nat) (fullyApplied : Bool)
  | recordingState (recording : Bool)
  | replayComplete
  deriving DecidableEq, Repr

/-- A message to the client. -/
inductive Reply where
  | connected (message : String)
  | heartbeat (timestamp : Nat)
  | market (message : WsMessage)
  | subscribed (channel : SubscriptionChannel) (symbol : String)
  | unsubscribed (channel : SubscriptionChannel) (symbol : String)
  | batchSubscribed (requestId : Option String) (subscriptions : List SubscriptionResult)
  | batchUnsubscribed (requestId : Option String) (subscriptions : List SubscriptionResult)
  | subscriptionList (active : List ActiveSubscription)
  | resync (channel : SubscriptionChannel) (symbol : String) (sequence : Option Nat)
  | control (ack : ControlAck)
  | error (error : WsError)
  deriving DecidableEq, Repr

def maxSubscriptionsPerConnection : Nat := 256
def maxBatchSize : Nat := 64

/-- The subscriptions with their depths, in the order in which a laggard goes through them: by key and then by channel. -/
structure Connection where
  subscriptions : PairMap String SubscriptionChannel (Option Nat)
  baselines : Std.ExtTreeMap String Nat

/-- The channel of a message of the broadcast, its key, and the sequence of a delta. No quote is broadcast. -/
def classify : WsMessage → Option (SubscriptionChannel × String × Option Nat)
  | .orderbookDelta symbol sequence _ => some (.orderbook, symbol, some sequence)
  | .trade _ symbol .. => some (.trades, symbol, none)
  | .fill _ _ _ _ _ instrument .. => some (.fills, instrument, none)
  | .price symbol _ => some (.prices, symbol, none)
  | .orderbookSnapshot .. => none

/-- The prices of an underlying have no sequence of their own. -/
def resyncMarker (U : Upstream) (channel : SubscriptionChannel) (symbol : String) (manager : OrderbookSubscriptionManager) : Reply :=
  let sequence :=
    match channel with
    | .prices => none
    | _ => (parseSymbol U symbol).toOption.map fun parsed => (manager.instrument parsed).sequence
  .resync channel symbol sequence

namespace Connection

def new : Connection := ⟨∅, ∅⟩

variable (U : Upstream) (connection : Connection) (manager : OrderbookSubscriptionManager)

/-- The key of a subscription; for the channels of an instrument its contract too. -/
def resolveKey (channel : SubscriptionChannel) (symbol : String) : Except WsError (String × Option Symbol) :=
  match channel with
  | .prices => .ok (symbol, none)
  | _ =>
    match parseSymbol U symbol with
    | .ok parsed => .ok (parsed, some parsed)
    | .error error => .error (wsError error none)

/-- The snapshot of an order book, and the connection at its sequence. -/
def snapshotAt (key : String) (symbol : Symbol) (depth : Option Nat) : Reply × Connection :=
  (.market (manager.orderbookSnapshot symbol depth),
    { connection with baselines := connection.baselines.insert key (manager.instrument symbol).sequence })

def subscribe (params : SubscribeParams) : List Reply × Connection :=
  match resolveKey U params.channel params.symbol with
  | .error error => ([.error error], connection)
  | .ok (key, parsed) =>
    if (key, params.channel) ∉ connection.subscriptions ∧ maxSubscriptionsPerConnection ≤ connection.subscriptions.size then
      ([.error (capError none)], connection)
    else
      let connection := { connection with subscriptions := connection.subscriptions.insert (key, params.channel) params.depth }
      match params.channel, parsed with
      | .orderbook, some symbol =>
        let (snapshot, connection) := connection.snapshotAt manager key symbol params.depth
        ([snapshot, .subscribed params.channel key], connection)
      | _, _ => ([.subscribed params.channel key], connection)

/-- A symbol that does not parse is torn down as it is written. -/
def tornDown (channel : SubscriptionChannel) (symbol : String) : String :=
  match channel with
  | .prices => symbol
  | _ => (parseSymbol U symbol).toOption.getD symbol

def unsubscribe (channel : SubscriptionChannel) (symbol : String) : List Reply × Connection :=
  let key := tornDown U channel symbol
  ([.unsubscribed channel key],
    { subscriptions := connection.subscriptions.erase (key, channel)
      baselines := if channel = .orderbook then connection.baselines.erase key else connection.baselines })

/-- The replies of a batch's item that are passed on, and its result. -/
def batchItem (item : SubscribeParams) : List Reply × SubscriptionResult × Connection :=
  let (messages, connection) := connection.subscribe U manager item
  let forwarded := messages.filter fun
    | .market (.orderbookSnapshot ..) | .error _ => true
    | _ => false
  let status := (messages.findSome? fun
    | .error error => some error.message
    | _ => none).getD "ok"
  (forwarded, ⟨item.channel, item.symbol, status⟩, connection)

def batchUnsubscribe (batch : BatchParams) : List Reply × Connection :=
  if maxBatchSize < batch.subscriptions.length then ([.error (batchTooLarge batch.requestId)], connection)
  else
    let results := batch.subscriptions.map fun item => ⟨item.channel, item.symbol, "ok"⟩
    ([.batchUnsubscribed batch.requestId results],
      batch.subscriptions.foldl (fun connection item => (connection.unsubscribe U item.channel item.symbol).2) connection)

def listSubscriptions : Reply :=
  let active := connection.subscriptions.toList.map fun entry => ⟨entry.1.2, entry.1.1, entry.2⟩
  .subscriptionList (active.mergeSort fun left right =>
    left.symbol < right.symbol || (left.symbol = right.symbol && left.channel.debug ≤ right.channel.debug))

/-- Whether a message of the broadcast is passed on. A delta that the client has is not, and one that is moves the baseline. -/
def filter (message : WsMessage) : Option WsMessage × Connection :=
  match classify message with
  | none => (none, connection)
  | some (channel, key, sequence) =>
    if (key, channel) ∉ connection.subscriptions then (none, connection)
    else
      match channel, sequence with
      | .orderbook, some sequence =>
        if sequence ≤ connection.baselines[key]?.getD 0 then (none, connection)
        else (some message, { connection with baselines := connection.baselines.insert key sequence })
      | _, _ => (some message, connection)

/-- What a laggard is told of one subscription: a fresh snapshot of an order book, or a marker. -/
def resnapshotItem (item : (String × SubscriptionChannel) × Option Nat) : List Reply × Connection :=
  match item with
  | ((key, .orderbook), depth) =>
    match parseSymbol U key with
    | .ok symbol =>
      let (snapshot, connection) := connection.snapshotAt manager key symbol depth
      ([snapshot], connection)
    | .error _ => ([], connection)
  | ((key, channel), _) => ([resyncMarker U channel key manager], connection)

end Connection

/-! The loop. A batch and a resync read the book item by item, and the actors go on in between; the broadcast keeps only so
many messages for a receiver that is behind. -/

def maxIdleTicks : Nat := 4

/-- A control action stands with what the venue answers: it leaves the subscriptions alone. -/
inductive ClientAction where
  | subscribe (params : SubscribeParams)
  | unsubscribe (params : SubscribeParams)
  | batchSubscribe (batch : BatchParams)
  | batchUnsubscribe (batch : BatchParams)
  | listSubscriptions
  | control (answer : Except VenueError ControlAck)
  deriving DecidableEq, Repr

inductive FrameOutcome where
  | action (action : ClientAction) (requestId : Option String)
  | undecodable (requestId : Option String) (message : String)
  | orderEntry (requestId : Option String)
  deriving DecidableEq, Repr

/-- What a socket is in the middle of: the items that are left. -/
inductive Task where
  | subscribing (requestId : Option String) (rest : List SubscribeParams) (results : List SubscriptionResult)
  | resnapshotting (rest : List ((String × SubscriptionChannel) × Option Nat))
  deriving DecidableEq, Repr

/-- An open socket: the place of its receiver in the broadcast, and what it has sent. The replies of a task are sent when
it is done. -/
structure Socket where
  connection : Connection
  position : Nat
  idleTicks : Nat
  task : Option Task
  out : List Reply
  told : List Reply
  live : Bool

def Reply.terminal : Reply → Bool
  | .error failure => failure.terminal
  | _ => false

/-- What a batch of replies comes to: nothing after a terminal error. -/
def deliverable : List Reply → List Reply
  | [] => []
  | reply :: rest => if reply.terminal then [reply] else reply :: deliverable rest

namespace Socket

def opened (sent : List WsMessage) : Socket := ⟨.new, sent.length, 0, none, [], [.connected "connected to fauxchange"], true⟩

variable (U : Upstream) (manager : OrderbookSubscriptionManager) (socket : Socket)

/-- All that the client has been told or is about to be. -/
def all : List Reply := socket.told ++ socket.out

def sendAll (messages : List Reply) : Socket :=
  { socket with told := socket.told ++ deliverable messages, live := messages.all fun reply => ¬ reply.terminal }

/-- The replies of an action that is carried out at once. -/
def answering (answer : List Reply × Connection) : Socket := { socket with connection := answer.2 }.sendAll answer.1

def onAction (action : ClientAction) (requestId : Option String) : Socket :=
  match action with
  | .subscribe params => socket.answering (socket.connection.subscribe U manager params)
  | .unsubscribe params => socket.answering (socket.connection.unsubscribe U params.channel params.symbol)
  | .batchSubscribe batch =>
    if maxBatchSize < batch.subscriptions.length then socket.sendAll [.error (batchTooLarge batch.requestId)]
    else { socket with task := some (.subscribing batch.requestId batch.subscriptions []) }
  | .batchUnsubscribe batch => socket.answering (socket.connection.batchUnsubscribe U batch)
  | .listSubscriptions => socket.sendAll [socket.connection.listSubscriptions]
  | .control (.ok ack) => socket.sendAll [.control ack]
  | .control (.error error) => socket.sendAll [.error (wsError error requestId)]

def onFrame (frame : FrameOutcome) : Socket :=
  match frame with
  | .action action requestId => socket.onAction U manager action requestId
  | .undecodable requestId message => socket.sendAll [.error (decodeError requestId message)]
  | .orderEntry requestId => socket.sendAll [.error (orderEntryRejected requestId)]

/-- One pull from the broadcast. A receiver that has lost something goes on at the oldest message that is kept. -/
def receive (capacity : Nat) (sent : List WsMessage) : Option Socket :=
  match sent[socket.position]? with
  | none => none
  | some message =>
    if capacity < sent.length - socket.position then
      some { socket with
        position := sent.length - capacity
        task := some (.resnapshotting socket.connection.subscriptions.toList) }
    else
      let (forward, connection) := socket.connection.filter message
      some { socket with
        position := socket.position + 1
        connection := connection
        told := socket.told ++ (forward.map Reply.market).toList }

/-- The next item of a task, or its end. -/
def work : Task → Socket
  | .subscribing requestId [] results =>
    { socket with task := none, out := [] }.sendAll (socket.out ++ [Reply.batchSubscribed requestId results])
  | .subscribing requestId (item :: rest) results =>
    let (forwarded, result, connection) := socket.connection.batchItem U manager item
    { socket with
      connection := connection
      task := some (.subscribing requestId rest (results ++ [result]))
      out := socket.out ++ forwarded }
  | .resnapshotting [] => { socket with task := none, out := [] }.sendAll socket.out
  | .resnapshotting (item :: rest) =>
    let (replies, connection) := socket.connection.resnapshotItem U manager item
    { socket with connection := connection, task := some (.resnapshotting rest), out := socket.out ++ replies }

/-- The heartbeat: the session is validated again, and a silent peer is let go. -/
def tick (revalidated : Except VenueError Unit) (timestamp : Nat) : Socket :=
  match revalidated with
  | .error error => { socket with told := socket.told ++ [.error (wsError error none)], live := false }
  | .ok () =>
    let idleTicks := socket.idleTicks + 1
    if maxIdleTicks ≤ idleTicks then { socket with idleTicks := idleTicks, live := false }
    else { socket with idleTicks := idleTicks, told := socket.told ++ [.heartbeat timestamp] }

end Socket

/-- A step of the actors or of the socket's loop. -/
inductive SocketStep where
  | feed (step : FeedStep)
  | frame (frame : FrameOutcome)
  | binary
  | alive
  | receive
  | work
  | tick (revalidated : Except VenueError Unit) (timestamp : Nat)
  | close

/-- What the actors have done, and the socket. -/
structure Watch where
  history : List FeedStep
  socket : Socket

namespace Watch
variable (U : Upstream) (capacity : Nat)

def feed (watch : Watch) : Feed := Feed.new.run U watch.history

/-- A socket that is opened at one moment. -/
def opened (history : List FeedStep) : Watch := ⟨history, .opened (Feed.new.run U history).sent⟩

/-- Any inbound frame is a sign of life; the loop takes up nothing in the middle of a task. -/
def step (watch : Watch) : SocketStep → Option Watch
  | .feed step => some { watch with history := watch.history ++ [step] }
  | .work =>
    match watch.socket.live, watch.socket.task with
    | true, some task => some { watch with socket := watch.socket.work U (watch.feed U).manager task }
    | _, _ => none
  | .frame frame =>
    if watch.socket.live = true ∧ watch.socket.task = none then
      some { watch with socket := { watch.socket with idleTicks := 0 }.onFrame U (watch.feed U).manager frame }
    else none
  | .binary =>
    if watch.socket.live = true ∧ watch.socket.task = none then
      some { watch with
        socket := { watch.socket with idleTicks := 0 }.sendAll [.error (decodeError none "binary frames are not supported")] }
    else none
  | .alive =>
    if watch.socket.live = true ∧ watch.socket.task = none then
      some { watch with socket := { watch.socket with idleTicks := 0 } }
    else none
  | .receive =>
    if watch.socket.live = true ∧ watch.socket.task = none then
      (watch.socket.receive capacity (watch.feed U).sent).map fun socket => { watch with socket := socket }
    else none
  | .tick revalidated timestamp =>
    if watch.socket.live = true ∧ watch.socket.task = none then
      some { watch with socket := watch.socket.tick revalidated timestamp }
    else none
  | .close => some { watch with socket := { watch.socket with live := false } }

end Watch

end Fauxchange.Ws
