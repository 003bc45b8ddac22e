import Minemu.Library.Fifo
import Minemu.Library.Runs
import Minemu.Platform.Listing
import Minemu.Runtime.Service

/-! UART bytes on their way from the host to the guest: through the bounded inbox that the host
and the emulator thread share, the emulator thread itself and the receive queue of a port. -/

namespace Minemu.Runtime

open Library Platform Minemu.Core

structure UartInbox where
  bytes : UartPort → List U8
  capacity : Nat

namespace UartInbox

def new (capacity : Nat) : UartInbox := ⟨fun _ => [], capacity⟩

def push (inbox : UartInbox) (port : UartPort) (bytes : List U8) : UartInbox :=
  if inbox.capacity = 0 then inbox
  else
    { inbox with
      bytes := Function.update inbox.bytes port
        (bytes.foldl (fun queue byte => pushBounded queue inbox.capacity byte) (inbox.bytes port)) }

def drain (inbox : UartInbox) (port : UartPort) : List U8 × UartInbox :=
  (inbox.bytes port, { inbox with bytes := Function.update inbox.bytes port [] })

end UartInbox

/-- The UART of a port. -/
def uartOf (bus : MmioBus) : UartPort → Uart
  | .uart0 => bus.uart0
  | .uart1 => bus.uart1

def deliverByte (bus : MmioBus) (port : UartPort) (byte : U8) : MmioBus :=
  match port with
  | .uart0 => bus.updateUart0 (.receive byte)
  | .uart1 => bus.updateUart1 (.receive byte)

/-- What `deliver_uart` does to the bus. -/
def deliverBytes (bus : MmioBus) (port : UartPort) (bytes : List U8) : MmioBus :=
  bytes.foldl (fun bus byte => deliverByte bus port byte) bus

/-- The RX_DATA register of a port. -/
def rxData : UartPort → MmioRegister
  | .uart0 => .uart0 .receiveData
  | .uart1 => .uart1 .receiveData

/-- The port whose RX_DATA register an access reads. -/
def readsPort (transaction : MmioTransaction) : Option UartPort :=
  match decodeMmio transaction with
  | .ok (.uart0 .receiveData) => some .uart0
  | .ok (.uart1 .receiveData) => some .uart1
  | _ => none

/-- Where the emulator thread has a byte from. -/
inductive Origin where
  | inbox
  | schedule
deriving DecidableEq

/-- The two threads that move UART bytes. `drained` holds what the emulator thread has taken from
the inbox and not yet delivered; the last three fields record what was handed to `send_uart`,
delivered to a port and obtained from its nonempty reads. -/
structure Ingress where
  inbox : UartInbox
  drained : Option (UartPort → List U8)
  bus : MmioBus
  sent : UartPort → List U8
  delivered : UartPort → List (Origin × U8)
  obtained : UartPort → List U8

/-- A step of either thread. The lock is held during `send` and during `drain`. -/
inductive IngressStep where
  | send (port : UartPort) (bytes : List U8)
  | drain
  | deliver
  | scheduled (port : UartPort) (bytes : List U8)
  | access (transaction : MmioTransaction) (now : Nat)
  | advanceTo (now : Nat) (memory : PhysicalMemory)

/-- Appends to the record of one port. -/
def record (log : UartPort → List α) (port : UartPort) (items : List α) : UartPort → List α :=
  Function.update log port (log port ++ items)

theorem record_self (log : UartPort → List α) (port : UartPort) (items : List α) :
    record log port items port = log port ++ items := by
  simp [record]

theorem record_other (log : UartPort → List α) {port other : UartPort} (different : other ≠ port)
    (items : List α) : record log other items port = log port := by
  simp [record, different.symm]

namespace Ingress

def start (capacity : Nat) (block : BlockDevice) : Ingress where
  inbox := .new capacity
  drained := none
  bus := { MmioBus.new with block }
  sent _ := []
  delivered _ := []
  obtained _ := []

def send (ingress : Ingress) (port : UartPort) (bytes : List U8) : Ingress :=
  { ingress with
    inbox := ingress.inbox.push port bytes
    sent := record ingress.sent port bytes }

/-- The first half of `drain_uart`, up to the release of the lock. -/
def drain (ingress : Ingress) : Ingress :=
  let (uart0, inbox) := ingress.inbox.drain .uart0
  let (uart1, inbox) := inbox.drain .uart1
  { ingress with
    inbox
    drained := some fun
      | .uart0 => uart0
      | .uart1 => uart1 }

def deliver (ingress : Ingress) (origin : Origin) (port : UartPort) (bytes : List U8) : Ingress :=
  { ingress with
    bus := deliverBytes ingress.bus port bytes
    delivered := record ingress.delivered port (bytes.map (origin, ·)) }

/-- An access of the guest. A read of RX_DATA obtains a byte when the port has one. -/
def access (ingress : Ingress) (transaction : MmioTransaction) (now : Nat) : Ingress :=
  match ingress.bus.access transaction now with
  | .error _ => ingress
  | .ok (value, bus) =>
    { ingress with
      bus
      obtained :=
        match readsPort transaction, value with
        | some port, some value =>
          if (uartOf ingress.bus port).rx = [] then ingress.obtained
          else record ingress.obtained port [value.setWidth 8]
        | _, _ => ingress.obtained }

/-- The emulator thread does nothing between its two halves of `drain_uart`. -/
def step (ingress : Ingress) : IngressStep → Ingress
  | .send port bytes => ingress.send port bytes
  | .drain => if ingress.drained.isSome then ingress else ingress.drain
  | .deliver =>
    match ingress.drained with
    | none => ingress
    | some bytes =>
      { (ingress.deliver .inbox .uart0 (bytes .uart0)).deliver .inbox .uart1 (bytes .uart1) with
        drained := none }
  | .scheduled port bytes =>
    if ingress.drained.isSome then ingress else ingress.deliver .schedule port bytes
  | .access transaction now => if ingress.drained.isSome then ingress else ingress.access transaction now
  | .advanceTo now memory =>
    if ingress.drained.isSome then ingress
    else { ingress with bus := (ingress.bus.advanceTo now memory).1 }

end Ingress

/-! ### The line of one port -/

/-- One port's way: the inbox and the receive queue as accounted queues, and the bytes between
them. -/
structure Line where
  inbox : Fifo U8
  drained : Option (List U8)
  rx : Fifo U8

namespace Line

def start (capacity : Nat) : Line := ⟨.empty capacity, none, .empty 4096⟩

/-- What a step does to the line of a port. -/
def step (port : UartPort) (line : Line) : IngressStep → Line
  | .send other bytes => if other = port then { line with inbox := line.inbox.addAll bytes } else line
  | .drain =>
    if line.drained.isSome then line
    else { line with inbox := line.inbox.takeAll, drained := some line.inbox.queue }
  | .deliver =>
    match line.drained with
    | none => line
    | some bytes => { line with rx := line.rx.addAll bytes, drained := none }
  | .scheduled other bytes =>
    if line.drained.isSome then line
    else if other = port then { line with rx := line.rx.addAll bytes } else line
  | .access transaction _ =>
    if line.drained.isSome then line
    else if readsPort transaction = some port then { line with rx := line.rx.take } else line
  | .advanceTo _ _ => line

end Line

/-- The bytes a port was delivered from the inbox. -/
def fromInbox (delivered : List (Origin × U8)) : List U8 :=
  (delivered.filter fun entry => entry.1 = .inbox).map Prod.snd

theorem fromInbox_inbox (delivered : List (Origin × U8)) (bytes : List U8) :
    fromInbox (delivered ++ bytes.map (Origin.inbox, ·)) = fromInbox delivered ++ bytes := by
  simp [fromInbox, Function.comp_def, List.filter_map]

theorem fromInbox_schedule (delivered : List (Origin × U8)) (bytes : List U8) :
    fromInbox (delivered ++ bytes.map (Origin.schedule, ·)) = fromInbox delivered := by
  simp [fromInbox, Function.comp_def, List.filter_map]

/-- The line is the part of the system that belongs to the port. -/
structure Follows (port : UartPort) (ingress : Ingress) (line : Line) : Prop where
  capacity : line.inbox.capacity = ingress.inbox.capacity
  inbox : line.inbox.queue = ingress.inbox.bytes port
  sent : line.inbox.added = ingress.sent port
  drained : line.drained = ingress.drained.map fun bytes => bytes port
  handed : line.inbox.taken = fromInbox (ingress.delivered port) ++ line.drained.getD []
  rxCapacity : line.rx.capacity = 4096
  uartCapacity : (uartOf ingress.bus port).rxCapacity = 4096
  rx : line.rx.queue = (uartOf ingress.bus port).rx
  delivered : line.rx.added = (ingress.delivered port).map Prod.snd
  obtained : line.rx.taken = ingress.obtained port

variable {port : UartPort} {ingress : Ingress} {line : Line}

/-! ### Queues -/

theorem queue_addAll (fifo : Fifo U8) (bytes : List U8) (positive : fifo.capacity ≠ 0) :
    (fifo.addAll bytes).queue =
      bytes.foldl (fun queue byte => pushBounded queue fifo.capacity byte) fifo.queue := by
  induction bytes generalizing fifo with
  | nil => rfl
  | cons byte bytes ih =>
    have added := fifo.queue_add byte (Nat.pos_of_ne_zero positive)
    rw [Fifo.addAll_cons, ih (fifo.add byte) (by simpa using positive), Fifo.capacity_add, added]
    rfl

theorem queue_addAll_zero (fifo : Fifo U8) (bytes : List U8) (nothing : fifo.capacity = 0) :
    (fifo.addAll bytes).queue = [] := by
  have bounded := (fifo.addAll bytes).bounded
  rw [Fifo.capacity_addAll, nothing] at bounded
  exact List.length_eq_zero_iff.mp (Nat.le_zero.mp bounded)

theorem push_other (inbox : UartInbox) {port other : UartPort} (different : other ≠ port)
    (bytes : List U8) : (inbox.push other bytes).bytes port = inbox.bytes port := by
  unfold UartInbox.push
  split
  · rfl
  · simp [different.symm]

theorem push_capacity (inbox : UartInbox) (port : UartPort) (bytes : List U8) :
    (inbox.push port bytes).capacity = inbox.capacity := by
  unfold UartInbox.push
  split <;> rfl

/-- Pushing into the inbox is adding to its queue. -/
theorem push_queue {inbox : UartInbox} {fifo : Fifo U8} (capacity : fifo.capacity = inbox.capacity)
    (queue : fifo.queue = inbox.bytes port) (bytes : List U8) :
    (fifo.addAll bytes).queue = (inbox.push port bytes).bytes port := by
  unfold UartInbox.push
  split
  · rename_i nothing
    rw [queue_addAll_zero fifo bytes (capacity.trans nothing), ← queue]
    have bounded := fifo.bounded
    rw [capacity, nothing] at bounded
    exact (List.length_eq_zero_iff.mp (Nat.le_zero.mp bounded)).symm
  · rename_i positive
    rw [queue_addAll fifo bytes (capacity ▸ positive), capacity, queue]
    simp

/-! ### Deliveries -/

theorem uartOf_deliver_other (bus : MmioBus) {port other : UartPort} (different : other ≠ port)
    (bytes : List U8) : uartOf (deliverBytes bus other bytes) port = uartOf bus port := by
  induction bytes generalizing bus with
  | nil => rfl
  | cons byte bytes ih =>
    rw [deliverBytes, List.foldl_cons]
    refine (ih _).trans ?_
    cases port <;> cases other <;> first | rfl | exact absurd rfl different

/-- Delivering is adding to the receive queue. -/
theorem uartOf_deliver (bus : MmioBus) (port : UartPort) (bytes : List U8)
    (positive : (uartOf bus port).rxCapacity ≠ 0) :
    (uartOf (deliverBytes bus port bytes) port).rxCapacity = (uartOf bus port).rxCapacity ∧
      (uartOf (deliverBytes bus port bytes) port).rx =
        bytes.foldl (fun queue byte => pushBounded queue (uartOf bus port).rxCapacity byte)
          (uartOf bus port).rx := by
  induction bytes generalizing bus with
  | nil => exact ⟨rfl, rfl⟩
  | cons byte bytes ih =>
    have first : uartOf (deliverByte bus port byte) port = ((uartOf bus port).receive byte).1 := by
      cases port <;> rfl
    have received : ((uartOf bus port).receive byte).1 = { uartOf bus port with
        rx := pushBounded (uartOf bus port).rx (uartOf bus port).rxCapacity byte } := by
      rw [Uart.receive, if_neg positive]
    rw [received] at first
    rw [deliverBytes, List.foldl_cons]
    obtain ⟨capacity, queue⟩ := ih (deliverByte bus port byte) (by rw [first]; exact positive)
    rw [first] at capacity queue
    exact ⟨capacity, queue⟩

/-- The emulator's own delivery is the delivery to its bus. -/
theorem Emulator.deliverUart_eq (emulator : Emulator) (port : UartPort) (bytes : List U8) :
    emulator.deliverUart port bytes =
      emulator.setBus (deliverBytes emulator.backend.machine.bus port bytes) := by
  unfold deliverUart deliverBytes
  induction bytes generalizing emulator with
  | nil => rfl
  | cons byte bytes ih =>
    rw [List.foldl_cons, List.foldl_cons, ih]
    cases port <;> rfl

/-! ### Guest accesses -/

theorem readsPort_iff {transaction : MmioTransaction} :
    readsPort transaction = some port ↔ decodeMmio transaction = .ok (rxData port) := by
  unfold readsPort
  constructor
  · intro reads
    split at reads
    · cases reads
      assumption
    · cases reads
      assumption
    · cases reads
  · intro decoded
    rw [decoded]
    cases port <;> rfl

/-- A read of RX_DATA returns the oldest byte and removes it. -/
theorem access_reads (bus : MmioBus) {transaction : MmioTransaction} (now : Nat)
    (reads : readsPort transaction = some port) :
    ∃ after, bus.access transaction now = .ok (some (((uartOf bus port).rx.headD 0).setWidth 32), after) ∧
      uartOf after port = { uartOf bus port with rx := (uartOf bus port).rx.drop 1 } ∧
      ∀ other, other ≠ port → uartOf after other = uartOf bus other := by
  have decoded := readsPort_iff.mp reads
  obtain ⟨_, _, admitted⟩ := decodeMmio_iff_listed.mp decoded
  have read : transaction.access = .read := by
    cases direction : transaction.access with
    | read => rfl
    | fetch | write =>
      rw [direction] at admitted
      cases port <;> cases admitted
  cases port with
  | uart0 =>
    refine ⟨_, by rw [MmioBus.access, decoded]; simp only [read]; rfl, rfl, ?_⟩
    intro other different
    cases other with
    | uart0 => exact absurd rfl different
    | uart1 => rfl
  | uart1 =>
    refine ⟨_, by rw [MmioBus.access, decoded]; simp only [read]; rfl, rfl, ?_⟩
    intro other different
    cases other with
    | uart0 => rfl
    | uart1 => exact absurd rfl different

/-- A port still has the receive queue it had. -/
def KeepsRx (bus after : MmioBus) (port : UartPort) : Prop :=
  (uartOf after port).rx = (uartOf bus port).rx ∧
    (uartOf after port).rxCapacity = (uartOf bus port).rxCapacity

theorem read_keeps (bus : MmioBus) {register : MmioRegister} (other : register ≠ rxData port) :
    KeepsRx bus (bus.readRegister register).2 port := by
  cases register with
  | uart0 register =>
    cases port with
    | uart0 =>
      cases register with
      | receiveData => exact absurd rfl other
      | transmitData | status | control => exact ⟨rfl, rfl⟩
    | uart1 => cases register <;> exact ⟨rfl, rfl⟩
  | uart1 register =>
    cases port with
    | uart0 => cases register <;> exact ⟨rfl, rfl⟩
    | uart1 =>
      cases register with
      | receiveData => exact absurd rfl other
      | transmitData | status | control => exact ⟨rfl, rfl⟩
  | interrupt register | sysTick register | dma register | rng register | trace register =>
    cases port <;> exact ⟨rfl, rfl⟩

/-- No register write touches a receive queue. -/
theorem update_keeps (uart : Uart) (register : UartRegister) (value : U32) :
    (uart.update (.write register value)).1.rx = uart.rx ∧
      (uart.update (.write register value)).1.rxCapacity = uart.rxCapacity := by
  cases register with
  | transmitData =>
    simp only [Uart.update, Uart.writeTx]
    split <;> exact ⟨rfl, rfl⟩
  | receiveData | status | control => exact ⟨rfl, rfl⟩

theorem write_keeps {bus after : MmioBus} {register : MmioRegister} {value : U32} {now : Nat}
    (port : UartPort) (written : bus.writeRegister register value now = .ok after) :
    KeepsRx bus after port := by
  cases register with
  | interrupt register =>
    simp only [MmioBus.writeRegister, MmioBus.updateInterrupts] at written
    cases updated : bus.interrupts.update (.write register value) with
    | error error =>
      rw [updated] at written
      cases written
    | ok interrupts =>
      rw [updated] at written
      cases written
      cases port <;> exact ⟨rfl, rfl⟩
  | uart0 register =>
    cases written
    cases port with
    | uart0 => exact update_keeps bus.uart0 register value
    | uart1 => exact ⟨rfl, rfl⟩
  | uart1 register =>
    cases written
    cases port with
    | uart0 => exact ⟨rfl, rfl⟩
    | uart1 => exact update_keeps bus.uart1 register value
  | sysTick register | dma register | rng register | trace register =>
    cases written
    cases port <;> exact ⟨rfl, rfl⟩

/-- Every access but a read of RX_DATA keeps the receive queue of the port. -/
theorem access_keeps {bus after : MmioBus} {transaction : MmioTransaction} {now : Nat}
    {value : Option U32} (accessed : bus.access transaction now = .ok (value, after))
    (other : readsPort transaction ≠ some port) : KeepsRx bus after port := by
  unfold MmioBus.access at accessed
  cases decoded : decodeMmio transaction with
  | error error =>
    rw [decoded] at accessed
    cases accessed
  | ok register =>
    have elsewhere : register ≠ rxData port := fun same => other (readsPort_iff.mpr (same ▸ decoded))
    simp only [decoded] at accessed
    split at accessed
    · cases written : bus.writeRegister register transaction.value now with
      | error error =>
        rw [written] at accessed
        cases accessed
      | ok left =>
        rw [written] at accessed
        cases accessed
        have kept : KeepsRx bus left port := write_keeps port written
        cases port <;> exact kept
    · cases accessed
      exact read_keeps bus elsewhere

theorem advanceTo_keeps (bus : MmioBus) (now : Nat) (memory : PhysicalMemory) (port : UartPort) :
    KeepsRx bus (bus.advanceTo now memory).1 port := by
  cases port <;> exact ⟨rfl, rfl⟩

/-! ### The system follows the line -/

theorem follows_start (capacity : Nat) (block : BlockDevice) (port : UartPort) :
    Follows port (.start capacity block) (.start capacity) := by
  constructor <;> first | rfl | (cases port <;> rfl)

namespace Follows

theorem send (follows : Follows port ingress line) (other : UartPort) (bytes : List U8) :
    Follows port (ingress.step (.send other bytes)) (line.step port (.send other bytes)) := by
  by_cases same : other = port
  · subst same
    simp only [Line.step, ↓reduceIte, Ingress.step, Ingress.send]
    exact { follows with
      capacity := by
        dsimp only
        rw [Fifo.capacity_addAll, push_capacity, follows.capacity]
      inbox := push_queue follows.capacity follows.inbox bytes
      sent := by
        dsimp only
        rw [Fifo.added_addAll, follows.sent, record_self]
      handed := by
        dsimp only
        rw [Fifo.taken_addAll, follows.handed] }
  · simp only [Line.step, same, ↓reduceIte, Ingress.step, Ingress.send]
    exact { follows with
      capacity := by rw [push_capacity, follows.capacity]
      inbox := by rw [push_other ingress.inbox same, follows.inbox]
      sent := by
        dsimp only
        rw [record_other _ same, follows.sent] }

theorem isSome_drained (follows : Follows port ingress line) :
    line.drained.isSome = ingress.drained.isSome := by
  rw [follows.drained, Option.isSome_map]

theorem drain (follows : Follows port ingress line) :
    Follows port (ingress.step .drain) (line.step port .drain) := by
  simp only [Line.step, Ingress.step, follows.isSome_drained]
  cases drained : ingress.drained with
  | some bytes => exact follows
  | none =>
    have empty : line.drained = none := by rw [follows.drained, drained]; rfl
    have handed := follows.handed
    rw [empty] at handed
    simp only [Option.isSome_none, Bool.false_eq_true, ↓reduceIte, Ingress.drain, UartInbox.drain]
    exact { follows with
      inbox := by cases port <;> rfl
      sent := by
        dsimp only
        rw [Fifo.added_takeAll, follows.sent]
      drained := by cases port <;> simp [follows.inbox]
      handed := by
        dsimp only
        rw [Fifo.taken_takeAll, handed]
        simp }

/-- Delivering to the port is adding to its receive queue. -/
theorem rx_deliver (follows : Follows port ingress line) {bus : MmioBus}
    (same : uartOf bus port = uartOf ingress.bus port) (bytes : List U8) :
    (uartOf (deliverBytes bus port bytes) port).rxCapacity = 4096 ∧
      (line.rx.addAll bytes).queue = (uartOf (deliverBytes bus port bytes) port).rx := by
  have positive : (uartOf bus port).rxCapacity ≠ 0 := by
    rw [same, follows.uartCapacity]
    decide
  have room : line.rx.capacity ≠ 0 := by
    rw [follows.rxCapacity]
    decide
  obtain ⟨capacity, queue⟩ := uartOf_deliver bus port bytes positive
  rw [same, follows.uartCapacity] at capacity queue
  refine ⟨capacity, ?_⟩
  rw [queue, queue_addAll line.rx bytes room, follows.rxCapacity, follows.rx]

theorem scheduled (follows : Follows port ingress line) (other : UartPort) (bytes : List U8) :
    Follows port (ingress.step (.scheduled other bytes)) (line.step port (.scheduled other bytes)) := by
  simp only [Line.step, Ingress.step, follows.isSome_drained]
  split
  · exact follows
  by_cases same : other = port
  · subst same
    obtain ⟨capacity, queue⟩ := follows.rx_deliver rfl bytes
    simp only [↓reduceIte, Ingress.deliver]
    exact { follows with
      rxCapacity := by
        dsimp only
        rw [Fifo.capacity_addAll, follows.rxCapacity]
      uartCapacity := capacity
      rx := queue
      handed := by
        dsimp only
        rw [record_self, fromInbox_schedule, follows.handed]
      delivered := by
        dsimp only
        rw [Fifo.added_addAll, follows.delivered, record_self]
        simp [Function.comp_def]
      obtained := by
        dsimp only
        rw [Fifo.taken_addAll, follows.obtained] }
  · simp only [same, ↓reduceIte, Ingress.deliver]
    have kept := uartOf_deliver_other ingress.bus same bytes
    exact { follows with
      uartCapacity := by
        dsimp only
        rw [kept, follows.uartCapacity]
      rx := by
        dsimp only
        rw [kept, follows.rx]
      handed := by
        dsimp only
        rw [record_other _ same, follows.handed]
      delivered := by
        dsimp only
        rw [record_other _ same, follows.delivered] }

theorem deliver (follows : Follows port ingress line) :
    Follows port (ingress.step .deliver) (line.step port .deliver) := by
  cases drained : ingress.drained with
  | none =>
    have empty : line.drained = none := by rw [follows.drained, drained]; rfl
    simp only [Line.step, Ingress.step, drained, empty]
    exact follows
  | some bytes =>
    have held : line.drained = some (bytes port) := by rw [follows.drained, drained]; rfl
    have handed := follows.handed
    rw [held, Option.getD_some] at handed
    have uart : (uartOf (deliverBytes (deliverBytes ingress.bus .uart0 (bytes .uart0)) .uart1
          (bytes .uart1)) port).rxCapacity = 4096 ∧
        (line.rx.addAll (bytes port)).queue = (uartOf (deliverBytes
          (deliverBytes ingress.bus .uart0 (bytes .uart0)) .uart1 (bytes .uart1)) port).rx := by
      cases port with
      | uart0 =>
        rw [uartOf_deliver_other _ (by decide)]
        exact follows.rx_deliver rfl (bytes .uart0)
      | uart1 => exact follows.rx_deliver (uartOf_deliver_other _ (by decide) _) (bytes .uart1)
    have log : record (record ingress.delivered .uart0 ((bytes .uart0).map (Origin.inbox, ·))) .uart1
        ((bytes .uart1).map (Origin.inbox, ·)) port =
          ingress.delivered port ++ (bytes port).map (Origin.inbox, ·) := by
      cases port <;> simp [record]
    simp only [Line.step, Ingress.step, drained, held, Ingress.deliver]
    exact { follows with
      drained := rfl
      rxCapacity := by
        dsimp only
        rw [Fifo.capacity_addAll, follows.rxCapacity]
      uartCapacity := uart.1
      rx := uart.2
      handed := by
        dsimp only
        rw [log, fromInbox_inbox, handed]
        simp
      delivered := by
        dsimp only
        rw [Fifo.added_addAll, follows.delivered, log]
        simp [Function.comp_def]
      obtained := by
        dsimp only
        rw [Fifo.taken_addAll, follows.obtained] }

theorem access (follows : Follows port ingress line) (transaction : MmioTransaction) (now : Nat) :
    Follows port (ingress.step (.access transaction now)) (line.step port (.access transaction now)) := by
  simp only [Line.step, Ingress.step, follows.isSome_drained]
  split
  · exact follows
  by_cases reads : readsPort transaction = some port
  · obtain ⟨after, accessed, uart, _⟩ := access_reads ingress.bus now reads
    simp only [Ingress.access, accessed, reads, ↓reduceIte]
    exact { follows with
      uartCapacity := by
        dsimp only
        rw [uart, follows.uartCapacity]
      rx := by
        dsimp only
        rw [uart, Fifo.queue_take, follows.rx, List.drop_one]
      delivered := by
        dsimp only
        rw [Fifo.added_take, follows.delivered]
      obtained := by
        dsimp only
        rw [Fifo.taken_take, follows.obtained, follows.rx]
        cases queued : (uartOf ingress.bus port).rx with
        | nil => simp
        | cons byte rest => simp [record_self] }
  · simp only [reads, ↓reduceIte]
    cases accessed : ingress.bus.access transaction now with
    | error error =>
      simp only [Ingress.access, accessed]
      exact follows
    | ok returned =>
      obtain ⟨value, after⟩ := returned
      obtain ⟨rx, capacity⟩ := access_keeps accessed reads
      simp only [Ingress.access, accessed]
      exact { follows with
        uartCapacity := by
          dsimp only
          rw [capacity, follows.uartCapacity]
        rx := by
          dsimp only
          rw [rx, follows.rx]
        obtained := by
          dsimp only
          cases reading : readsPort transaction with
          | none => exact follows.obtained
          | some other =>
            have different : other ≠ port := fun same => reads (same ▸ reading)
            cases value with
            | none => exact follows.obtained
            | some value =>
              dsimp only
              split
              · exact follows.obtained
              · rw [record_other _ different, follows.obtained] }

theorem step (follows : Follows port ingress line) (next : IngressStep) :
    Follows port (ingress.step next) (line.step port next) := by
  cases next with
  | send other bytes => exact follows.send other bytes
  | drain => exact follows.drain
  | deliver => exact follows.deliver
  | scheduled other bytes => exact follows.scheduled other bytes
  | access transaction now => exact follows.access transaction now
  | advanceTo now memory =>
    simp only [Line.step, Ingress.step]
    split
    · exact follows
    · obtain ⟨rx, capacity⟩ := advanceTo_keeps ingress.bus now memory port
      exact { follows with
        uartCapacity := capacity.trans follows.uartCapacity
        rx := follows.rx.trans rx.symm }

theorem run (follows : Follows port ingress line) (steps : List IngressStep) :
    Follows port (Library.run Ingress.step ingress steps) (Library.run (Line.step port) line steps) := by
  induction steps generalizing ingress line with
  | nil => exact follows
  | cons next steps ih => exact ih (follows.step next)

end Follows

/-! ### Losses -/

/-- A step that concerns the port: it moves its bytes. -/
def IngressStep.concerns (port : UartPort) : IngressStep → Bool
  | .send other _ | .scheduled other _ => other = port
  | .drain | .deliver => true
  | .access transaction _ => readsPort transaction = some port
  | .advanceTo _ _ => false

/-- Steps that concern other ports only can be left out. -/
theorem Line.run_filter (line : Line) (steps : List IngressStep) :
    run (Line.step port) line (steps.filter (·.concerns port)) = run (Line.step port) line steps := by
  induction steps generalizing line with
  | nil => rfl
  | cons next steps ih =>
    cases concerned : next.concerns port with
    | true =>
      rw [List.filter_cons_of_pos concerned, run_cons, run_cons]
      exact ih _
    | false =>
      have idle : line.step port next = line := by
        cases next with
        | send other bytes =>
          have different : ¬ other = port := by simpa [IngressStep.concerns] using concerned
          rw [Line.step, if_neg different]
        | scheduled other bytes =>
          have different : ¬ other = port := by simpa [IngressStep.concerns] using concerned
          rw [Line.step, if_neg different, ite_self]
        | access transaction now =>
          have different : ¬ readsPort transaction = some port := by
            simpa [IngressStep.concerns] using concerned
          rw [Line.step, if_neg different, ite_self]
        | advanceTo now memory => rfl
        | drain | deliver => cases concerned
      rw [List.filter_cons_of_neg (by simp [concerned]), run_cons, idle]
      exact ih line

/-- The step keeps both queues of the port within their capacities. -/
def Line.Room (port : UartPort) (line : Line) : IngressStep → Prop
  | .send other bytes =>
    other = port → line.inbox.queue.length + bytes.length ≤ line.inbox.capacity
  | .deliver => line.rx.queue.length + (line.drained.getD []).length ≤ line.rx.capacity
  | .scheduled other bytes =>
    other = port → line.rx.queue.length + bytes.length ≤ line.rx.capacity
  | .drain | .access _ _ | .advanceTo _ _ => True

theorem Line.lossless_step (line : Line) (next : IngressStep) (room : line.Room port next) :
    (line.step port next).inbox.lost = line.inbox.lost ∧
      (line.step port next).rx.lost = line.rx.lost := by
  cases next with
  | send other bytes =>
    simp only [Line.step]
    split
    · rename_i same
      exact ⟨line.inbox.lost_addAll bytes (room same), rfl⟩
    · exact ⟨rfl, rfl⟩
  | drain =>
    simp only [Line.step]
    split
    · exact ⟨rfl, rfl⟩
    · exact ⟨Fifo.lost_takeAll, rfl⟩
  | deliver =>
    cases drained : line.drained with
    | none =>
      rw [Line.step, drained]
      exact ⟨rfl, rfl⟩
    | some bytes =>
      simp only [Line.Room, drained, Option.getD_some] at room
      rw [Line.step, drained]
      exact ⟨rfl, line.rx.lost_addAll bytes room⟩
  | scheduled other bytes =>
    simp only [Line.step]
    split
    · exact ⟨rfl, rfl⟩
    · split
      · rename_i same
        exact ⟨rfl, line.rx.lost_addAll bytes (room same)⟩
      · exact ⟨rfl, rfl⟩
  | access transaction now =>
    simp only [Line.step]
    split
    · exact ⟨rfl, rfl⟩
    · split
      · exact ⟨rfl, Fifo.lost_take⟩
      · exact ⟨rfl, rfl⟩
  | advanceTo now memory => exact ⟨rfl, rfl⟩

theorem Line.lossless (line : Line) (steps : List IngressStep)
    (room : Throughout (Line.step port) (Line.Room port) line steps) :
    (run (Line.step port) line steps).inbox.lost = line.inbox.lost ∧
      (run (Line.step port) line steps).rx.lost = line.rx.lost := by
  induction steps generalizing line with
  | nil => exact ⟨rfl, rfl⟩
  | cons next steps ih =>
    obtain ⟨first, rest⟩ := room
    obtain ⟨inbox, rx⟩ := line.lossless_step next first
    obtain ⟨inbox', rx'⟩ := ih _ rest
    exact ⟨inbox'.trans inbox, rx'.trans rx⟩

theorem Line.capacity_step (line : Line) (next : IngressStep) :
    (line.step port next).inbox.capacity = line.inbox.capacity := by
  cases next with
  | send other bytes =>
    simp only [Line.step]
    split
    · exact Fifo.capacity_addAll _ _
    · rfl
  | drain =>
    simp only [Line.step]
    split <;> rfl
  | deliver => cases drained : line.drained <;> simp [Line.step, drained]
  | scheduled other bytes =>
    simp only [Line.step]
    split
    · rfl
    · split <;> rfl
  | access transaction now =>
    simp only [Line.step]
    split
    · rfl
    · split <;> rfl
  | advanceTo now memory => rfl

theorem Line.run_capacity (line : Line) (steps : List IngressStep) :
    (run (Line.step port) line steps).inbox.capacity = line.inbox.capacity := by
  induction steps generalizing line with
  | nil => rfl
  | cons next steps ih => exact (ih _).trans (line.capacity_step next)

/-- Every loss was the loss of the oldest of a full queue to the byte added after it. -/
def OldestOnly (fifo : Fifo U8) : Prop :=
  ∀ byte queue newcomer, (byte, .displaced queue newcomer) ∈ fifo.past →
    queue.length = fifo.capacity ∧ queue.head? = some byte

theorem oldestOnly (fifo : Fifo U8) (positive : fifo.capacity ≠ 0) : OldestOnly fifo := by
  intro byte queue newcomer member
  obtain ⟨full, oldest⟩ := fifo.sound byte (.displaced queue newcomer) member
  exact ⟨full, oldest.resolve_right fun nothing => positive nothing.1⟩

/-- What the bytes of a port can expect of a run. -/
structure IngressContract (capacity : Nat) (port : UartPort) (steps : List IngressStep)
    (ingress : Ingress) (line : Line) : Prop where
  follows : Follows port ingress line
  order : (ingress.obtained port).Sublist ((ingress.delivered port).map Prod.snd)
  inbox : capacity ≠ 0 → OldestOnly line.inbox
  discarded : capacity = 0 → line.inbox.lost = ingress.sent port
  rx : OldestOnly line.rx
  lossless : Throughout (Line.step port) (Line.Room port) (.start capacity) steps →
    line.inbox.lost = [] ∧ line.rx.lost = []
  ready : (uartOf ingress.bus port).status &&& 1#32 ≠ 0#32 ↔ line.rx.queue ≠ []
  separate : run (Line.step port) (.start capacity) (steps.filter (·.concerns port)) = line

/-- Bytes from the host reach the guest in order and once, and are lost only to newer bytes from
the front of a full queue, or at an inbox that was given no capacity. -/
theorem uart_ingress (capacity : Nat) (block : BlockDevice) (port : UartPort)
    (steps : List IngressStep) :
    IngressContract capacity port steps (run Ingress.step (.start capacity block) steps)
      (run (Line.step port) (.start capacity) steps) := by
  have follows := (follows_start capacity block port).run steps
  have capacities : (run (Line.step port) (.start capacity) steps).inbox.capacity = capacity :=
    Line.run_capacity (.start capacity) steps
  constructor
  · exact follows
  · rw [← follows.obtained, ← follows.delivered]
    exact Fifo.taken_sublist _
  · intro positive
    apply oldestOnly
    rwa [capacities]
  · intro nothing
    rw [← follows.sent]
    exact Fifo.lost_eq_added _ (capacities.trans nothing)
  · apply oldestOnly
    rw [follows.rxCapacity]
    decide
  · intro room
    exact Line.lossless (.start capacity) steps room
  · rw [follows.rx, Uart.status]
    cases (uartOf _ port).rx with
    | nil => simp
    | cons byte rest => simp
  · exact Line.run_filter (.start capacity) steps

/-- An inbox without capacity loses the first byte it is sent, while it holds no byte at all. -/
theorem inbox_without_capacity :
    (run Ingress.step (.start 0 .new) [.send .uart0 [0x61]]).sent .uart0 = [0x61] ∧
      (run Ingress.step (.start 0 .new) [.send .uart0 [0x61]]).inbox.bytes .uart0 = [] ∧
      (run Ingress.step (.start 0 .new) [.send .uart0 [0x61]]).drained.isNone = true ∧
      (run Ingress.step (.start 0 .new) [.send .uart0 [0x61]]).delivered .uart0 = [] ∧
      ¬ OldestOnly (run (Line.step .uart0) (.start 0) [.send .uart0 [0x61]]).inbox := by
  refine ⟨by decide, by decide, by decide, by decide, ?_⟩
  intro oldest
  have first := oldest 0x61 [] 0x61 (List.mem_singleton_self _)
  cases first.2

end Minemu.Runtime
