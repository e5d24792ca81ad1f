import Ill.Base.Fifo
import Ill.Base.Transition
import Ill.Actor.MqttClient

/-!
# One connection of an `mqtt_client`

The actor's task and the event-loop task as interleaved steps over what they
share: the request channel, the two inboxes and the waiter queues. The broker
may send any packet at any time. The driver is represented by what it is
documented to do: a request whose topic it takes is accepted into a bounded
channel and later taken off it and written by a poll, and a poll hands out
incoming packets in order, but fails on an acknowledgement with a failure code.
Which topics it takes is left open: any request with one may be refused.
Arguments a command rejects before it touches the connection are left out.
-/

namespace Ill.Mqtt

open Base Actor.MqttClient

/-- Buffer between the client's callers and the event loop. -/
def requestChannelCap : Nat := 10

/-- Buffer for incoming PUBLISH packets. -/
def inboxCap : Nat := 64

/-! ## Waiters -/

/-- The acknowledgements a command can wait for. -/
inductive AckKind where
  | sub | qos1 | qos2
deriving DecidableEq, Repr

/-- The sender of a oneshot channel, by the order of creation. -/
abbrev WaiterTx := Nat

/-- Three FIFO queues for in-flight round-trips, one per kind. -/
structure Waiters where
  sub : List WaiterTx
  qos1 : List WaiterTx
  qos2 : List WaiterTx
deriving DecidableEq

namespace Waiters

def new : Waiters := ⟨[], [], []⟩

def queue (waiters : Waiters) : AckKind → List WaiterTx
  | .sub => waiters.sub
  | .qos1 => waiters.qos1
  | .qos2 => waiters.qos2

def setQueue (waiters : Waiters) (kind : AckKind) (queue : List WaiterTx) : Waiters :=
  match kind with
  | .sub => { waiters with sub := queue }
  | .qos1 => { waiters with qos1 := queue }
  | .qos2 => { waiters with qos2 := queue }

@[simp] theorem queue_new (kind : AckKind) : new.queue kind = [] := by
  cases kind <;> rfl

theorem queue_setQueue (waiters : Waiters) (kind other : AckKind) (queue : List WaiterTx) :
    (waiters.setQueue kind queue).queue other =
      if other = kind then queue else waiters.queue other := by
  cases kind <;> cases other <;> rfl

end Waiters

/-! ## Messages -/

/-- The packets a poll hands out. -/
inductive Incoming where
  | publish (p : Publish)
  | disconnect (d : DisconnectPacket)
  | subAck (codes : List SubscribeReasonCode)
  | pubAck (reason : PubAckReason)
  | pubComp
  | other
deriving DecidableEq

/-- The queue an acknowledgement belongs to. -/
def Incoming.ackKind? : Incoming → Option AckKind
  | .subAck _ => some .sub
  | .pubAck _ => some .qos1
  | .pubComp => some .qos2
  | _ => none

/-- The driver hands out no acknowledgement with a failure code: its poll returns an
error for it. -/
def Incoming.failsPoll : Incoming → Bool
  | .subAck codes => codes.any fun code => (subackFailureAtom code).isSome
  | .pubAck reason => (pubackFailureAtom reason).isSome
  | _ => false

/-- The requests a client places on the channel. -/
inductive Request where
  | subscribe (qos : QoS) (topic : String)
  | publish (qos : QoS) (topic : String) (payload : List UInt8)
  | disconnect
deriving DecidableEq

/-- The commands of a connected client, past the check of their arguments. -/
inductive Call where
  | subscribe (qos : QoS) (topic : String)
  | publish (qos : QoS) (topic : String) (payload : List UInt8)
  | receivePublish
  | receiveDisconnect
  | disconnect
  | teardown
deriving DecidableEq

/-- What a command that drops the connection returned. -/
inductive Farewell where
  | gotDisconnect (d : DisconnectPacket)
  | disconnectLost
  | disconnected
deriving DecidableEq

/-- What a command returned. -/
inductive Reply where
  | answered (kind : AckKind) (waiter : WaiterTx) (outcome : Except RunOutcome Unit)
  | requestLost (kind : AckKind) (waiter : WaiterTx)
  | published (request : Request)
  | publishLost (request : Request)
  | received (p : Publish)
  | receiveTimedOut
  | receiveLost
  | disconnectTimedOut
  | farewell (farewell : Farewell)

/-! ## Tasks -/

/-- Where the actor's task stands in its current command. -/
inductive ActorPhase where
  | idle
  /-- The waiter is pushed; the request is being sent. -/
  | requesting (kind : AckKind) (waiter : WaiterTx) (request : Request)
  /-- The send failed; the just-pushed waiter is about to be popped. -/
  | popping (kind : AckKind) (waiter : WaiterTx)
  | awaiting (kind : AckKind) (waiter : WaiterTx)
  | publishing (request : Request)
  | receiving
  | receivingDisconnect
  | disconnecting
  /-- `Connected` is about to go out of scope. -/
  | leaving (farewell : Farewell)
  | left

/-- The waiter of the current command. -/
def ActorPhase.pending? : ActorPhase → Option (AckKind × WaiterTx)
  | .requesting kind waiter _ | .popping kind waiter | .awaiting kind waiter => some (kind, waiter)
  | _ => none

/-- Whether `Connected` was dropped. -/
def ActorPhase.hasLeft : ActorPhase → Bool
  | .left => true
  | _ => false

/-- Where the event-loop task stands. -/
inductive LoopPhase where
  | polling
  | sendingPublish (p : Publish)
  | sendingDisconnect (d : DisconnectPacket)
  /-- A waiter is popped and about to be sent its outcome. -/
  | resolving (waiter : WaiterTx) (outcome : Except RunOutcome Unit)
  /-- `fail_all_with`: the queues still to drain, and the waiters drained last. -/
  | failing (queues : List AckKind) (drained : List WaiterTx)
  /-- The task's variables are dropped in reverse order of declaration. -/
  | droppingDisconnectTx
  | droppingPublishTx
  | droppingEventLoop
  | ended

namespace LoopPhase

/-- Whether the request channel is open: the event loop holds its receiver. -/
def requestsOpen : LoopPhase → Bool
  | .ended => false
  | _ => true

/-- Whether the task still holds the sender of the publish inbox. -/
def holdsPublishTx : LoopPhase → Bool
  | .droppingEventLoop | .ended => false
  | _ => true

/-- Whether the task still holds the sender of the disconnect inbox. -/
def holdsDisconnectTx : LoopPhase → Bool
  | .droppingPublishTx | .droppingEventLoop | .ended => false
  | _ => true

/-- Whether the task is suspended where it can be cancelled. -/
def suspended : LoopPhase → Bool
  | .polling | .sendingPublish _ | .sendingDisconnect _ => true
  | _ => false

end LoopPhase

/-! ## The state -/

/-- One connection, with the history that its properties are about. -/
structure Session where
  actor : ActorPhase
  loop : LoopPhase
  /-- The event-loop task was aborted. -/
  aborted : Bool
  requests : Fifo Request requestChannelCap
  publishInbox : Fifo Publish inboxCap
  disconnectInbox : Fifo DisconnectPacket 1
  waiters : Waiters
  /-- How many waiters were ever pushed. -/
  pushed : Nat
  /-- The waiters that were sent an outcome. -/
  resolved : List (WaiterTx × Except RunOutcome Unit)
  /-- The waiters popped by a command whose request was refused. -/
  popped : List WaiterTx
  /-- The packets the broker sent that no poll has taken. -/
  wire : List Incoming
  live : Bool
  /-- The PUBLISH packets polled so far. -/
  polled : List Publish
  replies : List Reply
  /-- The event loop had ended when `Connected` was dropped. -/
  endedBefore : Bool

/-- A connection just accepted by the broker. -/
def Session.connected : Session where
  actor := .idle
  loop := .polling
  aborted := false
  requests := .empty
  publishInbox := .empty
  disconnectInbox := .empty
  waiters := .new
  pushed := 0
  resolved := []
  popped := []
  wire := []
  live := true
  polled := []
  replies := []
  endedBefore := false

/-! ## Steps of the actor's task -/

inductive ActorLabel where
  | call (call : Call)
  /-- The channel accepts the current request. -/
  | send
  /-- The client refuses the current request. -/
  | refuse
  | pop
  /-- The awaited waiter was resolved. -/
  | wake
  | recv
  | timeout
  /-- `Drop for Connected` aborts the event loop; the receivers go with it. -/
  | drop
deriving DecidableEq

namespace Session

/-- The current command returns. -/
def returns (s : Session) (reply : Reply) : Session :=
  { s with actor := .idle, replies := s.replies ++ [reply] }

/-- `push_waiter`, after which the request is sent. -/
def pushWaiter (s : Session) (kind : AckKind) (request : Request) : Session :=
  { s with
    actor := .requesting kind s.pushed request
    waiters := s.waiters.setQueue kind (s.waiters.queue kind ++ [s.pushed])
    pushed := s.pushed + 1 }

/-- The first step of a command. -/
def begin (s : Session) : Call → Session
  | .subscribe qos topic => s.pushWaiter .sub (.subscribe qos topic)
  | .publish .atMostOnce topic payload =>
    { s with actor := .publishing (.publish .atMostOnce topic payload) }
  | .publish .atLeastOnce topic payload =>
    s.pushWaiter .qos1 (.publish .atLeastOnce topic payload)
  | .publish .exactlyOnce topic payload =>
    s.pushWaiter .qos2 (.publish .exactlyOnce topic payload)
  | .receivePublish => { s with actor := .receiving }
  | .receiveDisconnect => { s with actor := .receivingDisconnect }
  | .disconnect | .teardown => { s with actor := .disconnecting }

/-- Place a request on the channel if it is open and has room. -/
def offer (s : Session) (request : Request) : Option Session :=
  if s.loop.requestsOpen then
    (s.requests.send? request).map fun requests => { s with requests }
  else none

/-- The channel accepts the request of the current command. A QoS 0 publish
returns as soon as it is accepted. -/
def send (s : Session) : Option Session :=
  match s.actor with
  | .requesting kind waiter request =>
    (s.offer request).map fun s => { s with actor := .awaiting kind waiter }
  | .publishing request => (s.offer request).map fun s => s.returns (.published request)
  | .disconnecting =>
    (s.offer .disconnect).map fun s => { s with actor := .leaving .disconnected }
  | _ => none

/-- The client refuses the request: the channel is closed, or, on an open channel
too, the driver takes no such topic. `disconnect` names no topic, and ignores a
closed channel. -/
def refuse (s : Session) : Option Session :=
  match s.actor with
  | .requesting kind waiter _ => some { s with actor := .popping kind waiter }
  | .publishing request => some (s.returns (.publishLost request))
  | .disconnecting =>
    if s.loop.requestsOpen then none else some { s with actor := .leaving .disconnected }
  | _ => none

/-- `pop_waiter` takes the front of the queue, whatever it is. -/
def pop (s : Session) : Option Session :=
  match s.actor with
  | .popping kind waiter =>
    some (({ s with
      waiters := s.waiters.setQueue kind (s.waiters.queue kind).tail
      popped := s.popped ++ (s.waiters.queue kind).head?.toList }).returns
        (.requestLost kind waiter))
  | _ => none

def wake (s : Session) : Option Session :=
  match s.actor with
  | .awaiting kind waiter =>
    (s.resolved.lookup waiter).map fun outcome => s.returns (.answered kind waiter outcome)
  | _ => none

/-- A receive takes the front of its inbox; an empty inbox whose sender is gone
is closed. -/
def recv (s : Session) : Option Session :=
  match s.actor with
  | .receiving =>
    match s.publishInbox.recv? with
    | some (p, publishInbox) => some (({ s with publishInbox }).returns (.received p))
    | none => if s.loop.holdsPublishTx then none else some (s.returns .receiveLost)
  | .receivingDisconnect =>
    match s.disconnectInbox.recv? with
    | some (d, disconnectInbox) =>
      some { s with disconnectInbox, actor := .leaving (.gotDisconnect d) }
    | none =>
      if s.loop.holdsDisconnectTx then none
      else some { s with actor := .leaving .disconnectLost }
  | _ => none

def timeout (s : Session) : Option Session :=
  match s.actor with
  | .receiving => some (s.returns .receiveTimedOut)
  | .receivingDisconnect => some (s.returns .disconnectTimedOut)
  | _ => none

def drop (s : Session) : Option Session :=
  match s.actor with
  | .leaving farewell =>
    some { s with
      actor := .left
      aborted := true
      replies := s.replies ++ [.farewell farewell]
      endedBefore := !s.loop.requestsOpen }
  | _ => none

def actorStep (s : Session) : ActorLabel → Option Session
  | .call call =>
    match s.actor with
    | .idle => some (s.begin call)
    | _ => none
  | .send => s.send
  | .refuse => s.refuse
  | .pop => s.pop
  | .wake => s.wake
  | .recv => s.recv
  | .timeout => s.timeout
  | .drop => s.drop

end Session

/-! ## Steps of the event-loop task -/

inductive LoopLabel where
  /-- A poll takes a request off the channel and writes it. -/
  | pollRequest
  /-- A poll comes to the next packet. -/
  | pollPacket
  /-- A poll fails, on a server's DISCONNECT with a reason code or for another reason. -/
  | pollError (serverDisconnect : Option Int)
  /-- The task continues past what it is doing between two polls. -/
  | proceed
  /-- The aborted task is dropped where it is suspended. -/
  | cancel
deriving DecidableEq

namespace Session

/-- Whether the task is about to poll; an aborted one does not poll again. -/
def canPoll (s : Session) : Bool :=
  match s.loop with
  | .polling => !s.aborted
  | _ => false

def connectionLost : Except RunOutcome Unit := .error (networkError "connection_lost")

/-- Start `fail_all_with`. -/
def failAll (s : Session) : Session :=
  { s with loop := .failing [.sub, .qos1, .qos2] [] }

/-- Pop the front waiter of a queue for its outcome, if there is one. -/
def acknowledge (s : Session) (kind : AckKind) (outcome : Except RunOutcome Unit) : Session :=
  match s.waiters.queue kind with
  | [] => s
  | waiter :: rest =>
    { s with waiters := s.waiters.setQueue kind rest, loop := .resolving waiter outcome }

/-- What the task does with a packet. -/
def dispatch (s : Session) : Incoming → Session
  | .publish p => { s with loop := .sendingPublish p, polled := s.polled ++ [p] }
  | .disconnect d => { s with loop := .sendingDisconnect d, live := false }
  | .subAck codes => s.acknowledge .sub (subackOutcome codes)
  | .pubAck reason => s.acknowledge .qos1 (pubackOutcome reason)
  | .pubComp => s.acknowledge .qos2 (pubcompOutcome ())
  | .other => s

def pollRequest (s : Session) : Option Session :=
  if s.canPoll then s.requests.recv?.map fun taken => { s with requests := taken.2 } else none

/-- A poll fails on an acknowledgement the driver does not hand out. -/
def pollPacket (s : Session) : Option Session :=
  if s.canPoll && s.live then
    match s.wire with
    | packet :: wire =>
      if packet.failsPoll then some ({ s with wire, live := false }).failAll
      else some (({ s with wire }).dispatch packet)
    | [] => none
  else none

/-- The DISCONNECT passed on for a server's has its reason code only. -/
def pollError (s : Session) (serverDisconnect : Option Int) : Option Session :=
  if s.canPoll then
    match serverDisconnect with
    | some reasonCode =>
      some { s with loop := .sendingDisconnect ⟨reasonCode, none⟩, live := false }
    | none => some ({ s with live := false }).failAll
  else none

/-- A send on an inbox waits for room, or loses the packet if the receiver went
with `Connected`. -/
def proceed (s : Session) : Option Session :=
  match s.loop with
  | .polling | .ended => none
  | .sendingPublish p =>
    if s.actor.hasLeft then some { s with loop := .polling }
    else (s.publishInbox.send? p).map fun publishInbox => { s with publishInbox, loop := .polling }
  | .sendingDisconnect d =>
    if s.actor.hasLeft then some s.failAll
    else (s.disconnectInbox.send? d).map fun disconnectInbox => ({ s with disconnectInbox }).failAll
  | .resolving waiter outcome =>
    some { s with resolved := (waiter, outcome) :: s.resolved, loop := .polling }
  | .failing queues (waiter :: drained) =>
    some { s with
      resolved := (waiter, connectionLost) :: s.resolved, loop := .failing queues drained }
  | .failing (kind :: queues) [] =>
    some { s with
      waiters := s.waiters.setQueue kind [], loop := .failing queues (s.waiters.queue kind) }
  | .failing [] [] => some { s with loop := .droppingDisconnectTx }
  | .droppingDisconnectTx => some { s with loop := .droppingPublishTx }
  | .droppingPublishTx => some { s with loop := .droppingEventLoop }
  | .droppingEventLoop => some { s with loop := .ended, live := false }

def cancel (s : Session) : Option Session :=
  if s.aborted && s.loop.suspended then some { s with loop := .droppingDisconnectTx } else none

def loopStep (s : Session) : LoopLabel → Option Session
  | .pollRequest => s.pollRequest
  | .pollPacket => s.pollPacket
  | .pollError serverDisconnect => s.pollError serverDisconnect
  | .proceed => s.proceed
  | .cancel => s.cancel

end Session

/-! ## The system -/

inductive Label where
  | actor (label : ActorLabel)
  | loop (label : LoopLabel)
  /-- The broker sends a packet. -/
  | broker (packet : Incoming)
deriving DecidableEq

/-- Whether a label is a step of one of the two tasks, other than the network
failing under a poll. -/
def Label.ofTask : Label → Bool
  | .actor _ => true
  | .loop (.pollError _) => false
  | .loop _ => true
  | .broker _ => false

def Session.step (s : Session) : Label → Option Session
  | .actor label => s.actorStep label
  | .loop label => s.loopStep label
  | .broker packet => if s.live then some { s with wire := s.wire ++ [packet] } else none

/-- All interleavings of one connection. -/
def system : TransitionSystem Session Label where
  initial s := s = .connected
  step := Session.step

/-- A schedule that can be run from an accepted connection reaches its end. -/
theorem reaches_of_schedule {labels : List Label} {s : Session}
    (ran : system.run .connected labels = some s) : system.Reaches s :=
  TransitionSystem.reaches_of_run (.initial rfl) ran

/-- The same for schedules whose every step is allowed. -/
theorem reachable_of_schedule {allowed : Session → Label → Bool} {labels : List Label} {s : Session}
    (ran : system.runWhere allowed .connected labels = some s) :
    system.Reachable (fun s label => allowed s label) s :=
  TransitionSystem.reachable_of_runWhere (.initial rfl) ran

end Ill.Mqtt
