import FlowGraph.Notice.Event
import FlowGraph.Program.Attempt

/-!
Event buses. Each subscriber reads the events at its own pace from the moment it subscribed. Only the latest
events can be read, as many as the bus has room for; whoever falls further behind learns how many it has
missed.
-/

namespace FlowGraph

structure EventBus where
  capacity : Nat
  /-- All events that were ever published to somebody, the newest first. The first `capacity` of them can
  still be read. -/
  events : List Event
  /-- For each subscriber, how many events it is past. -/
  subscribers : Dict String Nat

inductive Reception where
  | event (event : Event)
  | lagged (missed : Nat)
  | empty

namespace EventBus

/-- A capacity is rounded up to a power of two. -/
def roundedCapacity (capacity : Nat) : Nat :=
  let size := max capacity 1
  if Nat.pow 2 size.log2 = size then size else Nat.pow 2 (size.log2 + 1)

def new (capacity : Nat) : EventBus := ⟨roundedCapacity capacity, [], .empty⟩

def sizeLimit : Nat := 0x7FFFFFFFFFFFFFFF

def slotSize : Nat := 120

/-- A bus of the capacity. Making one panics if its slots cannot be addressed. -/
def ofCapacity (capacity : Nat) : Attempt EventBus :=
  if sizeLimit < capacity then
    .error (.text "broadcast channel capacity exceeded `usize::MAX / 2`")
  else if sizeLimit < roundedCapacity capacity * slotSize then .error (.text "capacity overflow")
  else .ok (new capacity)

def subscriberCount (bus : EventBus) : Nat := bus.subscribers.size

def subscribe (bus : EventBus) (name : String) : EventBus :=
  { bus with subscribers := bus.subscribers.insert name bus.events.length }

def unsubscribe (bus : EventBus) (name : String) : EventBus :=
  { bus with subscribers := bus.subscribers.erase name }

/-- An event that nobody subscribes to is not kept. -/
def publish (bus : EventBus) (event : Event) : EventBus :=
  if bus.subscribers.isEmpty then bus else { bus with events := event :: bus.events }

/-- The next event of a subscriber, if there is such a subscriber. One that fell behind by more than the
capacity goes on with the oldest event that can be read. -/
def receive? (bus : EventBus) (name : String) : Option (Reception × EventBus) :=
  (bus.subscribers.get? name).map fun past =>
    let moved (past : Nat) : EventBus :=
      { bus with subscribers := bus.subscribers.insert name past }
    let unread := bus.events.length - past
    if bus.capacity < unread then
      (.lagged (unread - bus.capacity), moved (bus.events.length - bus.capacity))
    else
      match unread with
      | 0 => (.empty, bus)
      | ahead + 1 =>
        match bus.events[ahead]? with
        | some event => (.event event, moved (past + 1))
        | none => (.empty, bus)

end EventBus

end FlowGraph
