import EmsGateway.Connect.Client

/-!
What a call of `kirimdatakeserver` tells the broker, and what its flag tells
the caller: at most two publishes of the one body, and a flag that is set
exactly when the last of them was confirmed.
-/

namespace EmsGateway.Connect

open EmsGateway.Library

variable {α : Type}

@[simp] theorem publishes_append (es fs : List (Event α)) :
    publishes (es ++ fs) = publishes es ++ publishes fs := by
  simp [publishes]

@[simp] theorem bodies_append (es fs : List (Event α)) :
    bodies (es ++ fs) = bodies es ++ bodies fs := by
  simp [bodies]

@[simp] theorem confirmedBodies_append (es fs : List (Event α)) :
    confirmedBodies (es ++ fs) = confirmedBodies es ++ confirmedBodies fs := by
  simp [confirmedBodies]

@[simp] theorem bodies_nil : bodies ([] : List (Event α)) = [] := rfl

@[simp] theorem confirmedBodies_nil : confirmedBodies ([] : List (Event α)) = [] := rfl

theorem confirmedBodies_subset_bodies (es : List (Event α)) : confirmedBodies es ⊆ bodies es :=
  List.filterMap_subset _ List.filter_sublist.subset

/-- A channel that still serves calls is in confirm mode. This is what makes a
`basic_publish` that returns a confirmed one. -/
def ConfirmMode (ch : Option Channel) : Prop :=
  ∀ k, ch = some k → k.usable = true → k.confirmMode = true

theorem confirmMode_channelAfter {ch : Option Channel} (h : ConfirmMode ch) (r : Reply) :
    ConfirmMode (channelAfter ch r) := by
  intro k hk husable
  obtain ⟨k', hk', rfl⟩ := Option.map_eq_some_iff.mp hk
  cases r with
  | lost => cases husable
  | ok | unroutable | error => exact h k' hk' husable

theorem confirmMode_amqpChannel {ch : Option Channel} (h : ConfirmMode ch) (r : AmqpReplies) :
    ConfirmMode (amqpChannel ch r) := by
  obtain ⟨connection, channel, confirm⟩ := r
  intro k hk husable
  unfold amqpChannel at hk
  split at hk
  · obtain rfl := Option.some.inj hk
    cases confirm with
    | ok => rfl
    | unroutable | error | lost => cases husable
  · exact h k hk husable

theorem confirmMode_attemptChannel {ch : Option Channel} (h : ConfirmMode ch)
    (declare publish : Reply) : ConfirmMode (attemptChannel ch declare publish) := by
  unfold attemptChannel
  split
  · exact confirmMode_channelAfter h publish
  · exact confirmMode_channelAfter h declare

theorem confirmMode_retryChannel {ch : Option Channel} (h : ConfirmMode ch) (r : SendReplies) :
    ConfirmMode (retryChannel ch r) :=
  confirmMode_amqpChannel (confirmMode_attemptChannel h r.declare r.publish) r.amqp

theorem confirmMode_sendChannel {ch : Option Channel} (h : ConfirmMode ch) (r : SendReplies) :
    ConfirmMode (sendChannel ch r) := by
  unfold sendChannel
  split
  · exact confirmMode_attemptChannel (confirmMode_retryChannel h r) r.declareAgain r.publishAgain
  · exact confirmMode_attemptChannel h r.declare r.publish

theorem publishes_amqpEvents (r : AmqpReplies) :
    publishes (amqpEvents r : List (Event α)) = [] := by
  unfold amqpEvents
  split
  · split <;> rfl
  · rfl

/-- An attempt publishes nothing and does not return, or it publishes the body
once, and the broker confirms it exactly when the attempt returns. -/
theorem publishes_attemptEvents (ch : Option Channel) (data : α) (declare publish : Reply) :
    publishes (attemptEvents ch data declare publish) = [] ∧
        attemptOutcome ch declare publish = .raised ∨
      ∃ e, publishes (attemptEvents ch data declare publish) = [e] ∧ e.call.body? = some data ∧
        (ConfirmMode ch →
          (e.confirmed = true ↔ attemptOutcome ch declare publish = .returned)) := by
  cases ch with
  | none => exact .inl ⟨rfl, rfl⟩
  | some k =>
      unfold attemptEvents attemptOutcome
      cases outcomeOn (some k) declare with
      | unroutable | raised => exact .inl ⟨rfl, rfl⟩
      | returned =>
          refine .inr ⟨⟨.basicPublish "" Config.routingKey data true, k.answer publish,
            k.confirmMode⟩, rfl, rfl, fun hmode => ?_⟩
          have hok : k.answer publish = .ok → k.confirmMode = true := by
            intro hanswer
            apply hmode k rfl
            by_contra husable
            simp [Channel.answer, husable] at hanswer
          unfold Event.confirmed outcomeOn
          cases hanswer : k.answer publish with
          | ok => simp [hok hanswer, hanswer, Reply.outcome]
          | unroutable | error | lost => simp [hanswer, Reply.outcome]

theorem bodies_attemptEvents (ch : Option Channel) (data : α) (declare publish : Reply) :
    ∃ n ≤ 1, bodies (attemptEvents ch data declare publish) = List.replicate n data := by
  unfold bodies
  rcases publishes_attemptEvents ch data declare publish with ⟨hnil, -⟩ | ⟨e, hone, hbody, -⟩
  · exact ⟨0, by omega, by simp [hnil]⟩
  · exact ⟨1, by omega, by simp [hone, hbody]⟩

/-- A call of `kirimdatakeserver` passes its line to `basic_publish` at most
twice, and nothing else. -/
theorem bodies_sendEvents (ch : Option Channel) (r : SendReplies) (data : α) :
    ∃ n ≤ 2, bodies (sendEvents ch r data) = List.replicate n data := by
  obtain ⟨n, hn, hfirst⟩ := bodies_attemptEvents ch data r.declare r.publish
  obtain ⟨m, hm, hsecond⟩ :=
    bodies_attemptEvents (retryChannel ch r) data r.declareAgain r.publishAgain
  have hamqp : bodies (amqpEvents r.amqp : List (Event α)) = [] := by
    simp [bodies, publishes_amqpEvents]
  unfold sendEvents
  split
  · exact ⟨n + m, by omega, by
      rw [bodies_append, bodies_append, hfirst, hamqp, hsecond, List.nil_append,
        List.replicate_append_replicate]⟩
  · exact ⟨n, by omega, by rw [bodies_append, hfirst, bodies_nil, List.append_nil]⟩

theorem confirmedBodies_attemptEvents {ch : Option Channel} (hmode : ConfirmMode ch) (data : α)
    (declare publish : Reply) :
    confirmedBodies (attemptEvents ch data declare publish) =
      if attemptOutcome ch declare publish = .returned then [data] else [] := by
  unfold confirmedBodies
  rcases publishes_attemptEvents ch data declare publish with
    ⟨hnil, hraised⟩ | ⟨e, hone, hbody, hconfirmed⟩
  · simp [hnil, hraised]
  · by_cases hout : attemptOutcome ch declare publish = .returned
    · simp [hone, hbody, hout, (hconfirmed hmode).mpr hout]
    · have : e.confirmed = false := by simpa using fun h => hout ((hconfirmed hmode).mp h)
      simp [hone, hout, this]

/-- The broker confirms the line at most once in a call, and exactly when the
call ends with a confirmed publish. -/
theorem confirmedBodies_sendEvents {ch : Option Channel} (hmode : ConfirmMode ch)
    (r : SendReplies) (data : α) :
    confirmedBodies (sendEvents ch r data) = if confirms ch r then [data] else [] := by
  have hamqp : confirmedBodies (amqpEvents r.amqp : List (Event α)) = [] := by
    simp [confirmedBodies, publishes_amqpEvents]
  unfold sendEvents confirms
  cases hout : attemptOutcome ch r.declare r.publish with
  | returned | unroutable => simp [confirmedBodies_attemptEvents hmode, hout]
  | raised =>
      simp [confirmedBodies_attemptEvents hmode,
        confirmedBodies_attemptEvents (confirmMode_retryChannel hmode r), hout, hamqp]

/-- The last publish of an attempt, if it makes one, was confirmed exactly when
the attempt returned. -/
theorem lastPublish_attemptEvents {ch : Option Channel} (hmode : ConfirmMode ch) (data : α)
    (declare publish : Reply) :
    (∃ e, lastPublish (attemptEvents ch data declare publish) = some e ∧ e.confirmed = true) ↔
      attemptOutcome ch declare publish = .returned := by
  unfold lastPublish
  rcases publishes_attemptEvents ch data declare publish with
    ⟨hnil, hraised⟩ | ⟨e, hone, -, hconfirmed⟩
  · simp [hnil, hraised]
  · simp [hone, hconfirmed hmode]

/-- The last publish of a call was confirmed exactly when the call ends with a
confirmed publish. -/
theorem lastPublish_sendEvents {ch : Option Channel} (hmode : ConfirmMode ch) (r : SendReplies)
    (data : α) :
    (∃ e, lastPublish (sendEvents ch r data) = some e ∧ e.confirmed = true) ↔
      confirms ch r = true := by
  have hfirst := lastPublish_attemptEvents hmode data r.declare r.publish
  have hsecond := lastPublish_attemptEvents (confirmMode_retryChannel hmode r) data r.declareAgain
    r.publishAgain
  unfold sendEvents confirms
  cases hout : attemptOutcome ch r.declare r.publish with
  | returned | unroutable => simpa [hout] using hfirst
  | raised =>
      have hlast : lastPublish (attemptEvents ch data r.declare r.publish ++
          (amqpEvents r.amqp ++
            attemptEvents (retryChannel ch r) data r.declareAgain r.publishAgain)) =
          (lastPublish (attemptEvents (retryChannel ch r) data r.declareAgain r.publishAgain)).or
            (lastPublish (attemptEvents ch data r.declare r.publish)) := by
        simp [lastPublish, publishes_amqpEvents, List.getLast?_append]
      simp only [hlast, decide_eq_true_eq]
      -- a second attempt without a publish leaves the last publish of the first,
      -- which was not confirmed, since the first attempt raised
      cases hpublish : lastPublish
          (attemptEvents (retryChannel ch r) data r.declareAgain r.publishAgain) with
      | none =>
          rw [Option.none_or, hfirst, hout, ← hsecond, hpublish]
          simp
      | some e => rw [Option.some_or, ← hpublish, hsecond]

/-- The calls to pika made in a call of `kirimdatakeserver`. -/
def callsOf (s : ConnectClass α) (r : SendReplies) (data : α) : List (Event α) :=
  ((kirimdatakeserver r data).final s).calls.drop s.calls.length

/-- The last publish made in a call of `kirimdatakeserver` is confirmed. -/
def endsConfirmed (s : ConnectClass α) (r : SendReplies) (data : α) : Bool :=
  (lastPublish (callsOf s r data)).any Event.confirmed

theorem callsOf_eq (s : ConnectClass α) (r : SendReplies) (data : α) :
    callsOf s r data = sendEvents s.channel r data := by
  obtain ⟨log, hsend⟩ := exec_kirimdatakeserver r data s
  rw [callsOf, Stmt.final, hsend]
  exact List.drop_left

theorem endsConfirmed_eq_confirms {s : ConnectClass α} (hmode : ConfirmMode s.channel)
    (r : SendReplies) (data : α) : endsConfirmed s r data = confirms s.channel r := by
  rw [Bool.eq_iff_iff, ← lastPublish_sendEvents hmode r data, endsConfirmed, callsOf_eq]
  exact Option.any_eq_true _ _

theorem sendFlag_of_false (ch : Option Channel) (r : SendReplies) :
    sendFlag ch r false = confirms ch r := by
  unfold sendFlag confirms
  cases attemptOutcome ch r.declare r.publish with
  | returned | unroutable => rfl
  | raised => cases attemptOutcome (retryChannel ch r) r.declareAgain r.publishAgain <;> rfl

end EmsGateway.Connect
