import EmsGateway.Library.Exec

/-!
The AMQP client of `connect.py`: the attributes of `ConnectClass`, the calls it
makes to pika, `initamqp` and `kirimdatakeserver`.

What pika does in a call is an input: a `Reply` for each call site. The state
keeps the calls made so far, so that what reached the broker can be stated.
-/

namespace EmsGateway.Connect

open EmsGateway.Library

namespace Config

def server : String := "35.240.228.215"
def port : String := "5672"
def queue : String := "environment_sensor"
def routingKey : String := "environment_sensor"

end Config

/-- The exceptions the handlers tell apart, or that the code itself raises. -/
inductive PyError
  | unroutable
  | amqp
  | attributeError
  | osError
  deriving DecidableEq

/-- What a pika call does: it returns normally, raises `UnroutableError`, raises
another exception, or raises because the connection under it failed. -/
inductive Reply
  | ok
  | unroutable
  | error
  | lost
  deriving DecidableEq

/-- How a call with this reply ends for the caller. -/
def Reply.result : Reply → Except PyError Unit
  | .ok => .ok ()
  | .unroutable => .error .unroutable
  | .error => .error .amqp
  | .lost => .error .amqp

/-- A channel: whether `confirm_delivery` has returned on it, and whether it
still serves calls. pika raises on every call to a channel on which
`confirm_delivery` raised or whose connection failed. -/
structure Channel where
  confirmMode : Bool
  usable : Bool
  deriving DecidableEq

namespace Channel

/-- The reply a caller gets, given the reply of a working channel. -/
def answer (ch : Channel) (r : Reply) : Reply := if ch.usable then r else .error

def after (ch : Channel) (r : Reply) : Channel :=
  match r with
  | .lost => { ch with usable := false }
  | _ => ch

/-- The channel after `confirm_delivery` ended with the reply. -/
def confirm (ch : Channel) (r : Reply) : Channel :=
  match r with
  | .ok => { ch with confirmMode := true }
  | _ => { ch with usable := false }

end Channel

/-- A call to pika with its arguments. -/
inductive Call (α : Type)
  | connection (server port : String)
  | channel
  | confirmDelivery
  | queueDeclare (queue : String) (durable : Bool)
  | basicPublish (exchange routingKey : String) (body : α) (mandatory : Bool)
  deriving DecidableEq

/-- The body a call publishes. -/
def Call.body? {α : Type} : Call α → Option α
  | .basicPublish _ _ body _ => some body
  | _ => none

/-- A call that was made, its reply, and whether its channel was in confirm
mode. -/
structure Event (α : Type) where
  call : Call α
  reply : Reply
  confirmMode : Bool
  deriving DecidableEq

/-- The broker confirmed the message: in confirm mode `basic_publish` returns
normally only then. -/
def Event.confirmed {α : Type} (e : Event α) : Bool := decide (e.reply = .ok) && e.confirmMode

/-- The calls of `basic_publish`. -/
def publishes {α : Type} (es : List (Event α)) : List (Event α) :=
  es.filter fun e => e.call.body?.isSome

/-- The bodies passed to `basic_publish`, in order. -/
def bodies {α : Type} (es : List (Event α)) : List α :=
  (publishes es).filterMap fun e => e.call.body?

/-- The bodies the broker confirmed, in order. -/
def confirmedBodies {α : Type} (es : List (Event α)) : List α :=
  ((publishes es).filter Event.confirmed).filterMap fun e => e.call.body?

/-- The last call of `basic_publish`. -/
def lastPublish {α : Type} (es : List (Event α)) : Option (Event α) := (publishes es).getLast?

/-- The attributes of a `ConnectClass` object, with the calls made to pika, the
lines printed and the messages logged. The spool file of a day is named
`Data <%Y-%m-%d>.txt`; the number of the day stands for the name. -/
structure ConnectClass (α : Type) where
  dataflag : Bool
  channel : Option Channel
  filekirimsensor : Option ℕ
  calls : List (Event α)
  printed : List α
  log : List String
  deriving DecidableEq

/-- The replies met by the calls of `initamqp`. -/
structure AmqpReplies where
  connection : Reply
  channel : Reply
  confirm : Reply
  deriving DecidableEq

/-- The replies met by the calls of `kirimdatakeserver`, one for each call
site. -/
structure SendReplies where
  declare : Reply
  publish : Reply
  amqp : AmqpReplies
  declareAgain : Reply
  publishAgain : Reply
  deriving DecidableEq

/-- Every call meets the same reply. -/
def AmqpReplies.all (r : Reply) : AmqpReplies := ⟨r, r, r⟩

/-- Every call meets the same reply. -/
def SendReplies.all (r : Reply) : SendReplies := ⟨r, r, .all r, r, r⟩

abbrev ConnectM (α : Type) := Stmt (ConnectClass α) PyError

variable {α : Type}

/-- `logging.exception(message)`. -/
def logException (message : String) : ConnectM α Unit :=
  modify fun s => { s with log := s.log ++ [message] }

def setDataflag (flag : Bool) : ConnectM α Unit :=
  modify fun s => { s with dataflag := flag }

/-- Make a call that meets the reply. -/
def call (c : Call α) (r : Reply) (confirmMode : Bool) : ConnectM α Unit := do
  modify fun s => { s with calls := s.calls ++ [⟨c, r, confirmMode⟩] }
  match r.result with
  | .ok _ => pure ()
  | .error e => throw e

/-- Make a call on `self.channel`, an attribute that is missing until `initamqp`
has set it. -/
def callOnChannel (c : Call α) (r : Reply) : ConnectM α Unit := do
  match (← get).channel with
  | none => throw .attributeError
  | some ch =>
      modify fun s => { s with channel := some (ch.after r) }
      call c (ch.answer r) ch.confirmMode

def queueDeclare (r : Reply) : ConnectM α Unit :=
  callOnChannel (.queueDeclare Config.queue false) r

def basicPublish (body : α) (r : Reply) : ConnectM α Unit :=
  callOnChannel (.basicPublish "" Config.routingKey body true) r

def confirmDelivery (r : Reply) : ConnectM α Unit := do
  match (← get).channel with
  | none => throw .attributeError
  | some ch =>
      modify fun s => { s with channel := some (ch.confirm (ch.answer r)) }
      call .confirmDelivery (ch.answer r) ch.confirmMode

/-- connect.py, lines 59-66. -/
def initamqp (r : AmqpReplies) : ConnectM α Unit :=
  tryCatch (do
    call (.connection Config.server Config.port) r.connection false
    call .channel r.channel false
    modify fun s => { s with channel := some ⟨false, true⟩ }
    confirmDelivery r.confirm)
  fun _ => logException "Exception occurred reset AMQP"

/-- connect.py, lines 40-56. -/
def kirimdatakeserver (r : SendReplies) (data : α) : ConnectM α Unit :=
  tryCatch
    (tryCatch (do
      queueDeclare r.declare
      Stmt.tryExceptElse (basicPublish data r.publish)
        (fun e => if e = .unroutable then some (setDataflag false) else none)
        fun _ => setDataflag true)
    fun _ => do
      initamqp r.amqp
      queueDeclare r.declareAgain
      basicPublish data r.publishAgain
      setDataflag true)
  fun _ => logException "Exception occurred server"

/-- connect.py, lines 26-28: `ConnectClass()`. -/
def ConnectClass.new (r : AmqpReplies) (calls : List (Event α)) (printed : List α) :
    ConnectClass α :=
  (initamqp r).final ⟨false, none, none, calls, printed, []⟩

/-! ### What the calls leave behind -/

/-- How a call on a channel ends: the two ways of raising that the handlers
tell apart. -/
inductive Outcome
  | returned
  | unroutable
  | raised
  deriving DecidableEq

def Reply.outcome : Reply → Outcome
  | .ok => .returned
  | .unroutable => .unroutable
  | .error => .raised
  | .lost => .raised

/-- The outcome on a channel that may not be there. -/
def outcomeOn (ch : Option Channel) (r : Reply) : Outcome :=
  match ch with
  | none => .raised
  | some k => (k.answer r).outcome

/-- The events of a call on a channel that may not be there. -/
def eventsOn (ch : Option Channel) (c : Call α) (r : Reply) : List (Event α) :=
  match ch with
  | none => []
  | some k => [⟨c, k.answer r, k.confirmMode⟩]

def channelAfter (ch : Option Channel) (r : Reply) : Option Channel := ch.map (·.after r)

/-- The state after calls that left the channel `ch` and made the events. -/
def ConnectClass.pika (s : ConnectClass α) (ch : Option Channel) (es : List (Event α)) :
    ConnectClass α :=
  { s with channel := ch, calls := s.calls ++ es }

@[simp] theorem pika_channel (s : ConnectClass α) (ch : Option Channel) (es : List (Event α)) :
    (s.pika ch es).channel = ch := rfl

@[simp] theorem pika_pika (s : ConnectClass α) (ch ch' : Option Channel) (es es' : List (Event α)) :
    (s.pika ch es).pika ch' es' = s.pika ch' (es ++ es') := by
  simp [ConnectClass.pika]

theorem exec_call (c : Call α) (r : Reply) (mode : Bool) (s : ConnectClass α) :
    (call c r mode).exec s = (r.result, { s with calls := s.calls ++ [⟨c, r, mode⟩] }) := by
  cases r <;> rfl

theorem exec_callOnChannel (c : Call α) (r : Reply) (s : ConnectClass α) :
    ∃ e, e ≠ .unroutable ∧ (callOnChannel c r).exec s =
      (match outcomeOn s.channel r with
        | .returned => .ok ()
        | .unroutable => .error .unroutable
        | .raised => .error e,
      s.pika (channelAfter s.channel r) (eventsOn s.channel c r)) := by
  rw [callOnChannel, Stmt.exec_bind, Stmt.exec_get]
  obtain ⟨flag, channel, file, calls, printed, log⟩ := s
  cases channel with
  | none => exact ⟨.attributeError, by decide, by simp [outcomeOn, channelAfter, eventsOn,
      ConnectClass.pika]⟩
  | some k =>
      refine ⟨.amqp, by decide, ?_⟩
      simp only [Stmt.exec_bind, Stmt.exec_modify, exec_call, outcomeOn, channelAfter, eventsOn,
        ConnectClass.pika, Option.map_some]
      cases k.answer r <;> rfl

/-- A call that returned normally left the channel as it was. -/
theorem channelAfter_of_returned {ch : Option Channel} {r : Reply}
    (h : outcomeOn ch r = .returned) : channelAfter ch r = ch := by
  cases ch with
  | none => rfl
  | some k =>
      cases r with
      | lost =>
          have hraised : outcomeOn (some k) .lost = .raised := by
            simp only [outcomeOn, Channel.answer]
            split <;> rfl
          rw [hraised] at h
          cases h
      | ok | unroutable | error => rfl

/-! An attempt is `queue_declare` followed by `basic_publish`. Only
`basic_publish` can end it in `UnroutableError`: what `queue_declare` raises is
not caught as one. -/

/-- How an attempt ends. -/
def attemptOutcome (ch : Option Channel) (declare publish : Reply) : Outcome :=
  match outcomeOn ch declare with
  | .returned => outcomeOn ch publish
  | _ => .raised

/-- The channel an attempt leaves. -/
def attemptChannel (ch : Option Channel) (declare publish : Reply) : Option Channel :=
  match outcomeOn ch declare with
  | .returned => channelAfter ch publish
  | _ => channelAfter ch declare

/-- The calls an attempt makes. -/
def attemptEvents (ch : Option Channel) (data : α) (declare publish : Reply) : List (Event α) :=
  eventsOn ch (.queueDeclare Config.queue false) declare ++
    match outcomeOn ch declare with
    | .returned => eventsOn ch (.basicPublish "" Config.routingKey data true) publish
    | _ => []

/-- The state after an attempt. -/
def ConnectClass.attempted (s : ConnectClass α) (data : α) (declare publish : Reply) :
    ConnectClass α :=
  s.pika (attemptChannel s.channel declare publish) (attemptEvents s.channel data declare publish)

/-- The first call of an attempt: whatever comes next runs only if it returns,
and then on the same channel. -/
theorem exec_queueDeclare_bind (declare : Reply) (rest : ConnectM α Unit) (s : ConnectClass α) :
    ∃ e, (do queueDeclare declare; rest : ConnectM α Unit).exec s =
      let declared := eventsOn s.channel (.queueDeclare Config.queue false) declare
      match outcomeOn s.channel declare with
      | .returned => rest.exec (s.pika s.channel declared)
      | _ => (.error e, s.pika (channelAfter s.channel declare) declared) := by
  obtain ⟨e, -, hdeclare⟩ :=
    exec_callOnChannel (.queueDeclare Config.queue false : Call α) declare s
  rw [queueDeclare, Stmt.exec_bind, hdeclare]
  cases hd : outcomeOn s.channel declare with
  | returned => exact ⟨e, by simp [channelAfter_of_returned hd]⟩
  | unroutable => exact ⟨.unroutable, rfl⟩
  | raised => exact ⟨e, rfl⟩

/-- The first attempt of `kirimdatakeserver`, with its own handler. -/
theorem exec_firstAttempt (data : α) (declare publish : Reply) (s : ConnectClass α) :
    ∃ e : PyError, (do
      queueDeclare declare
      Stmt.tryExceptElse (basicPublish data publish)
        (fun e => if e = .unroutable then some (setDataflag false) else none)
        fun _ => setDataflag true : ConnectM α Unit).exec s =
      match attemptOutcome s.channel declare publish with
      | .returned => (.ok (), { s.attempted data declare publish with dataflag := true })
      | .unroutable => (.ok (), { s.attempted data declare publish with dataflag := false })
      | .raised => (.error e, s.attempted data declare publish) := by
  obtain ⟨e₁, hdeclare⟩ := exec_queueDeclare_bind declare
    (Stmt.tryExceptElse (basicPublish data publish)
      (fun e => if e = .unroutable then some (setDataflag false) else none)
      fun _ => setDataflag true) s
  obtain ⟨e₂, he₂, hpublish⟩ := exec_callOnChannel (.basicPublish "" Config.routingKey data true)
    publish (s.pika s.channel (eventsOn s.channel (.queueDeclare Config.queue false) declare))
  rw [hdeclare]
  unfold attemptOutcome ConnectClass.attempted attemptChannel attemptEvents
  cases outcomeOn s.channel declare with
  | returned =>
      simp only [Stmt.exec_tryExceptElse, basicPublish, hpublish, pika_channel, pika_pika]
      cases outcomeOn s.channel publish with
      | returned => exact ⟨e₂, rfl⟩
      | unroutable => exact ⟨e₂, rfl⟩
      | raised => exact ⟨e₂, by simp [he₂]⟩
  | unroutable | raised => exact ⟨e₁, by simp⟩

/-- The second attempt, made by the handler after `initamqp`. -/
theorem exec_secondAttempt (data : α) (declare publish : Reply) (s : ConnectClass α) :
    ∃ e : PyError, (do
      queueDeclare declare
      basicPublish data publish
      setDataflag true : ConnectM α Unit).exec s =
      match attemptOutcome s.channel declare publish with
      | .returned => (.ok (), { s.attempted data declare publish with dataflag := true })
      | _ => (.error e, s.attempted data declare publish) := by
  obtain ⟨e₁, hdeclare⟩ := exec_queueDeclare_bind declare
    (do basicPublish data publish; setDataflag true) s
  obtain ⟨e₂, -, hpublish⟩ := exec_callOnChannel (.basicPublish "" Config.routingKey data true)
    publish (s.pika s.channel (eventsOn s.channel (.queueDeclare Config.queue false) declare))
  rw [hdeclare]
  unfold attemptOutcome ConnectClass.attempted attemptChannel attemptEvents
  cases outcomeOn s.channel declare with
  | returned =>
      simp only [Stmt.exec_bind, basicPublish, hpublish, pika_channel, pika_pika]
      cases outcomeOn s.channel publish with
      | returned => exact ⟨e₂, rfl⟩
      | unroutable => exact ⟨.unroutable, rfl⟩
      | raised => exact ⟨e₂, rfl⟩
  | unroutable | raised => exact ⟨e₁, by simp⟩

/-! ### `initamqp` and `kirimdatakeserver` -/

/-- The channel `initamqp` leaves: a new one as soon as `channel()` has
returned, the old one before. -/
def amqpChannel (ch : Option Channel) (r : AmqpReplies) : Option Channel :=
  match r.connection, r.channel with
  | .ok, .ok => some ((⟨false, true⟩ : Channel).confirm r.confirm)
  | _, _ => ch

/-- The calls `initamqp` makes: it stops at the first that raises. -/
def amqpEvents (r : AmqpReplies) : List (Event α) :=
  ⟨.connection Config.server Config.port, r.connection, false⟩ ::
    match r.connection with
    | .ok => ⟨.channel, r.channel, false⟩ ::
        match r.channel with
        | .ok => [⟨.confirmDelivery, r.confirm, false⟩]
        | _ => []
    | _ => []

/-- `initamqp` returns, whatever its calls raise. -/
theorem exec_initamqp (r : AmqpReplies) (s : ConnectClass α) :
    ∃ log, (initamqp r).exec s =
      (.ok (), { s.pika (amqpChannel s.channel r) (amqpEvents r) with log := log }) := by
  have hconfirm : ∀ t : ConnectClass α, t.channel = some ⟨false, true⟩ →
      (confirmDelivery r.confirm).exec t = (r.confirm.result,
        t.pika (some ((⟨false, true⟩ : Channel).confirm r.confirm))
          [⟨.confirmDelivery, r.confirm, false⟩]) := by
    intro t ht
    rw [confirmDelivery, Stmt.exec_bind, Stmt.exec_get]
    simp only [ht, Stmt.exec_bind, Stmt.exec_modify, exec_call, Channel.answer, if_true]
    rfl
  obtain ⟨connection, channel, confirm⟩ := r
  unfold initamqp logException
  cases connection with
  | ok =>
      cases channel with
      | ok =>
          cases confirm with
          | ok => exact ⟨s.log, by
              simp [Stmt.exec_tryCatch, Stmt.exec_bind, exec_call, hconfirm, Reply.result,
                amqpChannel, amqpEvents, ConnectClass.pika]⟩
          | unroutable | error | lost => exact ⟨s.log ++ ["Exception occurred reset AMQP"], by
              simp [Stmt.exec_tryCatch, Stmt.exec_bind, exec_call, hconfirm, Reply.result,
                amqpChannel, amqpEvents, ConnectClass.pika]⟩
      | unroutable | error | lost => exact ⟨s.log ++ ["Exception occurred reset AMQP"], by
          simp [Stmt.exec_tryCatch, Stmt.exec_bind, exec_call, Reply.result, amqpChannel,
            amqpEvents, ConnectClass.pika]⟩
  | unroutable | error | lost => exact ⟨s.log ++ ["Exception occurred reset AMQP"], by
      simp [Stmt.exec_tryCatch, Stmt.exec_bind, exec_call, Reply.result, amqpChannel,
        amqpEvents, ConnectClass.pika]⟩

/-- The channel on which the second attempt is made. -/
def retryChannel (ch : Option Channel) (r : SendReplies) : Option Channel :=
  amqpChannel (attemptChannel ch r.declare r.publish) r.amqp

/-- Whether a call of `kirimdatakeserver` ends with a confirmed publish: its
first attempt returns, or it raises anything but `UnroutableError` from
`basic_publish` and the second attempt returns. -/
def confirms (ch : Option Channel) (r : SendReplies) : Bool :=
  match attemptOutcome ch r.declare r.publish with
  | .returned => true
  | .unroutable => false
  | .raised =>
      decide (attemptOutcome (retryChannel ch r) r.declareAgain r.publishAgain = .returned)

/-- The channel a call of `kirimdatakeserver` leaves. -/
def sendChannel (ch : Option Channel) (r : SendReplies) : Option Channel :=
  match attemptOutcome ch r.declare r.publish with
  | .raised => attemptChannel (retryChannel ch r) r.declareAgain r.publishAgain
  | _ => attemptChannel ch r.declare r.publish

/-- The calls a call of `kirimdatakeserver` makes. -/
def sendEvents (ch : Option Channel) (r : SendReplies) (data : α) : List (Event α) :=
  attemptEvents ch data r.declare r.publish ++
    match attemptOutcome ch r.declare r.publish with
    | .raised => amqpEvents r.amqp ++
        attemptEvents (retryChannel ch r) data r.declareAgain r.publishAgain
    | _ => []

/-- The flag a call of `kirimdatakeserver` leaves: it is not touched when the
second attempt raises. -/
def sendFlag (ch : Option Channel) (r : SendReplies) (flag : Bool) : Bool :=
  match attemptOutcome ch r.declare r.publish with
  | .returned => true
  | .unroutable => false
  | .raised =>
      match attemptOutcome (retryChannel ch r) r.declareAgain r.publishAgain with
      | .returned => true
      | _ => flag

/-- `kirimdatakeserver` returns, whatever its calls raise. -/
theorem exec_kirimdatakeserver (r : SendReplies) (data : α) (s : ConnectClass α) :
    ∃ log, (kirimdatakeserver r data).exec s =
      (.ok (), { s.pika (sendChannel s.channel r) (sendEvents s.channel r data) with
        dataflag := sendFlag s.channel r s.dataflag, log := log }) := by
  obtain ⟨e, hfirst⟩ := exec_firstAttempt data r.declare r.publish s
  rw [kirimdatakeserver, sendChannel, sendEvents, sendFlag, Stmt.exec_tryCatch, Stmt.exec_tryCatch,
    hfirst]
  cases hout : attemptOutcome s.channel r.declare r.publish with
  | returned | unroutable => exact ⟨s.log, by simp [ConnectClass.attempted, ConnectClass.pika]⟩
  | raised =>
      obtain ⟨log, hamqp⟩ := exec_initamqp r.amqp (s.attempted data r.declare r.publish)
      obtain ⟨e', hsecond⟩ := exec_secondAttempt data r.declareAgain r.publishAgain
        { (s.attempted data r.declare r.publish).pika (retryChannel s.channel r)
          (amqpEvents r.amqp) with log := log }
      have hchannel : amqpChannel (s.attempted data r.declare r.publish).channel r.amqp =
          retryChannel s.channel r := rfl
      simp only [Stmt.exec_bind, hamqp, hchannel] at hsecond ⊢
      rw [hsecond]
      simp only [pika_channel]
      cases attemptOutcome (retryChannel s.channel r) r.declareAgain r.publishAgain with
      | returned => exact ⟨log, by simp [ConnectClass.attempted, ConnectClass.pika]⟩
      | unroutable | raised => exact ⟨log ++ ["Exception occurred server"], by
          simp [ConnectClass.attempted, ConnectClass.pika, logException]⟩

end EmsGateway.Connect
