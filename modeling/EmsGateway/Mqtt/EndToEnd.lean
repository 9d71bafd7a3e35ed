import EmsGateway.Mqtt.Mailbox
import Mathlib.Data.List.TakeWhile

/-!
From one sketch to another: the messages that calls have sent are those that the
callback of another client is given.
-/

namespace EmsGateway.Mqtt

open EmsGateway.Library

namespace PubSubClient

/-! ### What is sent in a run -/

section Runs

variable {s s' : PubSubClient} {as : List Call}

/-- Within a connection, the messages in the stream are those of the calls, in their
order. -/
theorem sent_published (hin : ∀ a ∈ as, a.Within) (hcomplete : ∀ a ∈ as, a.Complete)
    (hrun : session.run s as = some s') :
    ∃ ps : List Packet, s'.client.sent = s.client.sent ++ ps.flatMap packet.write ∧
      (∀ p ∈ ps, p.Later) ∧
      ps.filterMap Packet.message = published as s := by
  induction as generalizing s with
  | nil =>
      obtain rfl := Option.some.inj hrun
      exact ⟨[], (List.append_nil _).symm, by simp, rfl⟩
  | cons a as ih =>
      obtain ⟨u, hstep, hrest⟩ := Machine.run_cons_eq_some.mp hrun
      obtain ⟨ps, hsends, hms⟩ := sends_call (hin a List.mem_cons_self)
        (hcomplete a List.mem_cons_self) hstep
      obtain ⟨qs, hsent, hlater, hms'⟩ := ih (fun b hb => hin b (List.mem_cons_of_mem a hb))
        (fun b hb => hcomplete b (List.mem_cons_of_mem a hb)) hrest
      refine ⟨ps ++ qs, ?_, ?_, ?_⟩
      · rw [hsent, hsends.sent, List.flatMap_append, List.append_assoc]
      · intro p hp
        obtain hp | hp := List.mem_append.mp hp
        · exact hsends.later p hp
        · exact hlater p hp
      · rw [List.filterMap_append, hms, hms', published, hstep]
        rfl

theorem exists_messageOf {a : Call} {m : Publish} (h : m ∈ a.published s) :
    ∃ topic payload retained, m = messageOf topic payload retained := by
  cases a with
  | publish room now topic payload retained =>
      rw [Call.published] at h
      split at h
      · exact ⟨topic, payload, retained, List.mem_singleton.mp h⟩
      · cases h
  | publish_P front room now topic payload retained =>
      rw [Call.published] at h
      split at h
      · exact ⟨topic, payload, retained, List.mem_singleton.mp h⟩
      · cases h
  | publishParts room now topic parts retained =>
      rw [Call.published] at h
      split at h
      · exact ⟨topic, parts.flatten, retained, List.mem_singleton.mp h⟩
      · cases h
  | _ => cases h

theorem exists_messageOf_of_run {m : Publish} (h : m ∈ published as s) :
    ∃ topic payload retained, m = messageOf topic payload retained := by
  induction as generalizing s with
  | nil => cases h
  | cons a as ih =>
      rw [published] at h
      obtain hfirst | hrest := List.mem_append.mp h
      · exact exists_messageOf hfirst
      · cases hstep : session.step s a with
        | none =>
            rw [hstep] at hrest
            cases hrest
        | some u =>
            rw [hstep] at hrest
            exact ih hrest

end Runs

/-! ### What the callback is given -/

theorem acknowledged_publishHeader : ∀ acknowledged retain dup : Bool,
    (publishHeader acknowledged retain dup &&& 0x06 == MQTTQOS1) = acknowledged := by
  decide

theorem messageParts_frame {m : Publish} (h : m.Fits) :
    messageParts m.frame = some ((m.topic, m.id), m.payload) := by
  have hack : acknowledged m.frame = m.id.isSome :=
    acknowledged_publishHeader m.id.isSome m.retain m.dup
  have hfits : (Publish.front m.id.isSome).Fits (m.topic, m.id) := ⟨h.topic, rfl, h.id⟩
  rw [messageParts, hack]
  exact (Publish.front m.id.isSome).read_write _ _ hfits

/-- A message that fits the buffer is given to the callback, and acknowledged when it
has a number. -/
theorem reaction_frame {m : Publish} (h : m.Fits)
    (hsize : (packet.write (.publish m)).length ≤ 1024) :
    reaction true m.frame =
      some ([.whole m.topic m.payload], (m.id.map Packet.puback).toList) := by
  have htype : m.frame.header &&& 0xF0 = MQTTPUBLISH :=
    (publishHeader_bits m.id.isSome m.retain m.dup).1
  rw [reaction, if_neg (Nat.not_lt.mpr (by exact hsize)), if_pos htype, if_pos rfl,
    messageParts_frame h]
  rfl

theorem valid_frame {m : Publish} (h : m.Fits)
    (hsize : (packet.write (.publish m)).length < 65536) : Valid m.frame where
  small := hsize
  parts _ := by
    rw [messageParts_frame h]
    rfl

theorem takeWhile_topic (topic : CStr) : topic.chars.takeWhile (· ≠ 0) = topic.chars := by
  apply List.takeWhile_eq_self_iff.mpr
  intro byte hbyte
  rw [decide_eq_true_iff]
  rintro rfl
  exact topic.noNul hbyte

/-- Whether a message fits the buffer of the client it comes to. -/
def FitsBuffer (m : Publish) : Prop := (packet.write (.publish m)).length ≤ 1024

instance (m : Publish) : Decidable (FitsBuffer m) := inferInstanceAs (Decidable (_ ≤ _))

/-- The messages that a callback is given. -/
def delivered (ms : List Publish) : List Message :=
  (ms.filter fun m => FitsBuffer m).map fun m => ⟨m.topic, m.payload, m.payload.length⟩

theorem told_messageOf (topic : CStr) (payload : List UInt8) (retained : Bool)
    (h : (messageOf topic payload retained).Fits) :
    told true (messageOf topic payload retained).frame =
      delivered [messageOf topic payload retained] := by
  by_cases hsize : FitsBuffer (messageOf topic payload retained)
  · rw [told, reaction_frame h hsize, Option.getD_some]
    rw [delivered, List.filter_cons_of_pos (by simpa using hsize)]
    exact congrArg (fun t => [(⟨t, payload, payload.length⟩ : Message)]) (takeWhile_topic topic)
  · have hlong : 1024 < (frame.write (messageOf topic payload retained).frame).length :=
      Nat.not_le.mp hsize
    rw [told, reaction, if_pos hlong, Option.getD_some, delivered,
      List.filter_cons_of_neg (by simpa using hsize)]
    rfl

theorem told_messages {ms : List Publish}
    (hms : ∀ m ∈ ms, m.Fits ∧ ∃ topic payload retained, m = messageOf topic payload retained) :
    (ms.map Publish.frame).flatMap (told true) = delivered ms := by
  induction ms with
  | nil => rfl
  | cons m ms ih =>
      obtain ⟨hfits, topic, payload, retained, rfl⟩ := hms m List.mem_cons_self
      rw [List.map_cons, List.flatMap_cons, told_messageOf topic payload retained hfits,
        ih fun p hp => hms p (List.mem_cons_of_mem _ hp), delivered, delivered, delivered,
        ← List.map_append, ← List.filter_append]
      rfl

/-! ### From a client to another -/

/-- What a broker passes on of a stream: its messages, as they are. -/
def forward (bytes : List UInt8) : List UInt8 :=
  ((packet.parse bytes).getD []).filterMap Packet.message |>.flatMap fun m =>
    packet.write (.publish m)

section Delivered

variable {sub sub' : PubSubClient} {bs : List Call}

/-- Messages that wait are given to the callback when there are as many loops. -/
theorem received_messages {ms : List Publish}
    (hms : ∀ m ∈ ms, m.Fits ∧ ∃ topic payload retained, m = messageOf topic payload retained)
    (hsmall : ∀ m ∈ ms, (packet.write (.publish m)).length < 65536)
    (hcallback : sub.callback = true)
    (hwait : sub.client.incoming = ms.flatMap fun m => packet.write (.publish m))
    (hin : ∀ a ∈ bs, a.Within) (hcomplete : ∀ a ∈ bs, a.Complete)
    (hnone : ∀ a ∈ bs, a.arrived = []) (hloops : ms.length ≤ (bs.map Call.loops).sum)
    (hsub : session.run sub bs = some sub') (hup : sub'.client.connected = true) :
    sub'.received = sub.received ++ delivered ms := by
  have hframes : sub.client.incoming = (ms.map Publish.frame).flatMap frame.write := by
    rw [hwait, List.flatMap_map]
    rfl
  have hvalid : ∀ f ∈ ms.map Publish.frame, Valid f := by
    intro f hf
    obtain ⟨m, hm, rfl⟩ := List.mem_map.mp hf
    exact valid_frame (hms m hm).1 (hsmall m hm)
  have hlen : (ms.map Publish.frame).length ≤ (bs.map Call.loops).sum := by
    rwa [List.length_map]
  rw [← told_messages hms, ← hcallback]
  exact (session_drained hframes hvalid hin hcomplete hnone hlen hsub hup).1

/-- A client to which a broker has passed on a message of two bytes. -/
def subContoh : PubSubClient :=
  { clientContoh true with client := ⟨true, [0x30, 6, 0, 2, 97, 98, 1, 2], []⟩ }

end Delivered

end PubSubClient

end EmsGateway.Mqtt
