import EmsGateway.Mqtt.Delivery
import EmsGateway.Mqtt.Streaming

/-!
What the calls of a client send: whole packets, behind those of the connection.
-/

namespace EmsGateway.Mqtt

open EmsGateway.Library

/-- The number of a request, which its acknowledgement repeats. -/
def Packet.requestId : Packet → Option ℕ
  | .subscribe id _ _ | .unsubscribe id _ => some id
  | _ => none

/-- The number of the message that is acknowledged. -/
def Packet.ackId : Packet → Option ℕ
  | .puback id => some id
  | _ => none

/-- The message that is published. -/
def Packet.message : Packet → Option Publish
  | .publish m => some m
  | _ => none

/-- The packets after the first of a connection. -/
structure Packet.Later (p : Packet) : Prop where
  fits : packet.Fits p
  notConnect : ∀ c, p ≠ .connect c

namespace PubSubClient

/-! ### What reading leaves as it is -/

/-- Reading may close the connection, and touches nothing of what is sent. -/
structure Reads (s s' : PubSubClient) : Prop where
  sent : s'.client.sent = s.client.sent
  nextMsgId : s'.nextMsgId = s.nextMsgId
  callback : s'.callback = s.callback
  received : s'.received = s.received
  lastOut : s'.lastOutActivity = s.lastOutActivity
  lastIn : s'.lastInActivity = s.lastInActivity
  pingOutstanding : s'.pingOutstanding = s.pingOutstanding
  timeout : s'.state = MQTT_CONNECTION_TIMEOUT → s.state = MQTT_CONNECTION_TIMEOUT
  up : s'.client.connected = true → s.client.connected = true ∧ s'.state = s.state

theorem Reads.refl (s : PubSubClient) : Reads s s :=
  ⟨rfl, rfl, rfl, rfl, rfl, rfl, rfl, id, fun h => ⟨h, rfl⟩⟩

theorem Reads.trans {s u t : PubSubClient} (h : Reads s u) (h' : Reads u t) : Reads s t where
  sent := h'.sent.trans h.sent
  nextMsgId := h'.nextMsgId.trans h.nextMsgId
  callback := h'.callback.trans h.callback
  received := h'.received.trans h.received
  lastOut := h'.lastOut.trans h.lastOut
  lastIn := h'.lastIn.trans h.lastIn
  pingOutstanding := h'.pingOutstanding.trans h.pingOutstanding
  timeout ht := h.timeout (h'.timeout ht)
  up hup := ⟨(h.up (h'.up hup).1).1, (h'.up hup).2.trans (h.up (h'.up hup).1).2⟩

/-- A part of `readPacket` only reads, and with a result it leaves the connection open. -/
def Quiet {α : Type} (x : Reading α) : Prop :=
  ∀ s, Reads s (x s).2 ∧ ((x s).1.isSome → (x s).2.client.connected = s.client.connected)

theorem quiet_pure {α : Type} (a : α) : Quiet (pure a : Reading α) := fun s =>
  ⟨Reads.refl s, fun _ => rfl⟩

theorem Quiet.bind {α β : Type} {x : Reading α} {f : α → Reading β} (hx : Quiet x)
    (hf : ∀ a, Quiet (f a)) : Quiet (x >>= f) := by
  intro s
  obtain ⟨hfirst, hopen⟩ := hx s
  cases hxs : x s with
  | mk o u =>
      rw [hxs] at hfirst hopen
      cases o with
      | none =>
          rw [bind_of_none f hxs]
          exact ⟨hfirst, (by rintro ⟨⟩)⟩
      | some a =>
          obtain ⟨hrest, hstill⟩ := hf a u
          rw [bind_of_some hxs]
          exact ⟨hfirst.trans hrest, fun h => (hstill h).trans (hopen rfl)⟩

theorem quiet_readByte : Quiet readByte := by
  intro s
  cases hin : s.client.incoming with
  | nil =>
      rw [readByte_eq_none hin]
      exact ⟨Reads.refl s, (by rintro ⟨⟩)⟩
  | cons byte rest =>
      rw [readByte_eq_some hin]
      exact ⟨⟨rfl, rfl, rfl, rfl, rfl, rfl, rfl, id, fun h => ⟨h, rfl⟩⟩, fun _ => rfl⟩

theorem quiet_setCell (i : ℕ) (byte : UInt8) : Quiet (setCell i byte) := fun _ =>
  ⟨⟨rfl, rfl, rfl, rfl, rfl, rfl, rfl, id, fun h => ⟨h, rfl⟩⟩, fun _ => rfl⟩

theorem quiet_readByteAt (len : ℕ) : Quiet (readByteAt len) :=
  quiet_readByte.bind fun byte => (quiet_setCell len byte).bind fun _ => quiet_pure _

theorem quiet_readLength (k length multiplier : ℕ) : Quiet (readLength k length multiplier) := by
  induction k generalizing length multiplier with
  | zero =>
      exact fun _ => ⟨⟨rfl, rfl, rfl, rfl, rfl, rfl, rfl, (by rintro ⟨⟩), (by rintro ⟨⟩)⟩,
        (by rintro ⟨⟩)⟩
  | succ k ih =>
      apply quiet_readByte.bind
      intro digit
      apply (quiet_setCell (4 - k) digit).bind
      intro _
      dsimp only
      split
      · exact ih _ _
      · exact quiet_pure _

theorem quiet_readRest (n len : ℕ) : Quiet (readRest n len) := by
  induction n generalizing len with
  | zero => exact quiet_pure _
  | succ n ih =>
      apply quiet_readByte.bind
      intro digit
      dsimp only
      split
      · exact (quiet_setCell len digit).bind fun _ => ih _
      · exact ih _

theorem quiet_readPacket : Quiet readPacket := by
  apply quiet_readByte.bind
  intro header
  apply (quiet_setCell 0 header).bind
  intro _
  apply (quiet_readLength 4 0 1).bind
  rintro ⟨len, length⟩
  dsimp only
  split
  · apply (quiet_readByteAt len).bind
    intro len
    apply (quiet_readByteAt len).bind
    intro len
    exact (quiet_readRest _ len).bind fun _ => quiet_pure _
  · exact (quiet_readRest length len).bind fun _ => quiet_pure _

/-! ### What a call sends -/

/-- The requests among the packets take the next numbers. -/
def Numbered (s s' : PubSubClient) (ps : List Packet) : Prop :=
  ps.filterMap Packet.requestId = [] ∧ s'.nextMsgId = s.nextMsgId ∨
    ps.filterMap Packet.requestId = [s'.nextMsgId.toNat] ∧ s'.nextMsgId = s.newMsgId.nextMsgId

/-- Packets are sent behind those of the connection. -/
structure Sends (s s' : PubSubClient) (ps : List Packet) : Prop where
  sent : s'.client.sent = s.client.sent ++ ps.flatMap packet.write
  later : ∀ p ∈ ps, p.Later
  numbered : Numbered s s' ps
  opened : ps ≠ [] → s.client.connected = true
  idle : s'.client.connected = true → ps = [] → s'.lastOutActivity = s.lastOutActivity
  up : s'.client.connected = true → s.client.connected = true ∧ s'.state = s.state

theorem Reads.sends {s s' : PubSubClient} (h : Reads s s') : Sends s s' [] where
  sent := by rw [h.sent, List.flatMap_nil, List.append_nil]
  later := by simp
  numbered := .inl ⟨rfl, h.nextMsgId⟩
  opened h := absurd rfl h
  idle _ _ := h.lastOut
  up := h.up

theorem Reads.trans_sends {s u t : PubSubClient} {ps : List Packet} (h : Reads s u)
    (h' : Sends u t ps) : Sends s t ps where
  sent := by rw [h'.sent, h.sent]
  later := h'.later
  numbered := by
    have hnumbered := h'.numbered
    rwa [Numbered, newMsgId, h.nextMsgId] at hnumbered
  opened hne := (h.up (h'.opened hne)).1
  idle hup hnil := (h'.idle hup hnil).trans h.lastOut
  up hup := ⟨(h.up (h'.up hup).1).1, (h'.up hup).2.trans (h.up (h'.up hup).1).2⟩

/-- Packets without a number are sent behind others. -/
theorem Sends.trans {s u t : PubSubClient} {ps qs : List Packet} (h : Sends s u ps)
    (h' : Sends u t qs) (hnone : qs.filterMap Packet.requestId = []) :
    Sends s t (ps ++ qs) where
  sent := by rw [h'.sent, h.sent, List.flatMap_append, List.append_assoc]
  later p hp := by
    obtain hp | hp := List.mem_append.mp hp
    · exact h.later p hp
    · exact h'.later p hp
  numbered := by
    -- the number moves only with a request
    have hid : t.nextMsgId = u.nextMsgId := by
      obtain ⟨-, hid⟩ | ⟨hsome, -⟩ := h'.numbered
      · exact hid
      · rw [hnone] at hsome
        cases hsome
    rw [Numbered, List.filterMap_append, hnone, List.append_nil, hid]
    exact h.numbered
  opened hne := by
    cases hps : ps with
    | nil =>
        rw [hps, List.nil_append] at hne
        exact (h.up (h'.opened hne)).1
    | cons p rest => exact h.opened (by simp [hps])
  idle hup hnil := by
    obtain ⟨hps, hqs⟩ := List.append_eq_nil_iff.mp hnil
    exact (h'.idle hup hqs).trans (h.idle (h'.up hup).1 hps)
  up hup := ⟨(h.up (h'.up hup).1).1, (h'.up hup).2.trans (h.up (h'.up hup).1).2⟩

theorem reads_connected (s : PubSubClient) : Reads s s.connected.2 := by
  rw [connected]
  split
  · exact Reads.refl s
  · split
    · exact ⟨rfl, rfl, rfl, rfl, rfl, rfl, rfl, (by rintro ⟨⟩), (by rintro ⟨⟩)⟩
    · exact Reads.refl s

theorem closed_connected {s : PubSubClient} (h : s.client.connected = false) :
    s.connected.2.client.connected = false := by
  by_contra hopen
  rw [((reads_connected s).up (by simpa using hopen)).1] at h
  cases h

theorem connected_snd (s : PubSubClient) : s.connected.2.client.connected = s.client.connected := by
  rcases Bool.eq_false_or_eq_true s.client.connected with hup | hdown
  · rw [connected_of_true hup]
  · rw [closed_connected hdown, hdown]

theorem of_connected_eq_true {s u : PubSubClient} (h : s.connected = (true, u)) :
    s.client.connected = true ∧ u = s := by
  have hfst := s.connected_fst
  rw [h] at hfst
  rw [connected_of_true hfst.symm] at h
  exact ⟨hfst.symm, (Prod.mk.inj h).2.symm⟩

/-- What a client sends besides messages and requests, at most one packet at a time. -/
inductive Control : List Packet → Prop
  | none : Control []
  | pingreq : Control [.pingreq]
  | pingresp : Control [.pingresp]
  | disconnect : Control [.disconnect]
  | puback (id : ℕ) (h : id < 65536) : Control [.puback id]

theorem Control.later {ps : List Packet} (h : Control ps) : ∀ p ∈ ps, p.Later := by
  cases h with
  | none => simp
  | pingreq => exact List.forall_mem_singleton.mpr ⟨⟨trivial, by decide⟩, by simp⟩
  | pingresp => exact List.forall_mem_singleton.mpr ⟨⟨trivial, by decide⟩, by simp⟩
  | disconnect => exact List.forall_mem_singleton.mpr ⟨⟨trivial, by decide⟩, by simp⟩
  | puback id hid =>
      have hbody : (Packet.puback id).toFrame.body.length < 128 ^ 4 :=
        (length_uint16 id).trans_lt (by decide)
      exact List.forall_mem_singleton.mpr ⟨⟨hid, hbody⟩, by simp⟩

theorem Control.message {ps : List Packet} (h : Control ps) :
    ps.filterMap Packet.message = [] := by
  cases h <;> rfl

theorem Control.requestId {ps : List Packet} (h : Control ps) :
    ps.filterMap Packet.requestId = [] := by
  cases h <;> rfl

/-- A client that answers. -/
theorem Control.sends {ps : List Packet} (h : Control ps) {s s' : PubSubClient}
    (hup : s.client.connected = true)
    (hsent : s'.client.sent = s.client.sent ++ ps.flatMap packet.write)
    (hid : s'.nextMsgId = s.nextMsgId) (hstate : s'.state = s.state)
    (hidle : ps = [] → s'.lastOutActivity = s.lastOutActivity) : Sends s s' ps where
  sent := hsent
  later := h.later
  numbered := .inl ⟨h.requestId, hid⟩
  opened _ := hup
  idle _ := hidle
  up _ := ⟨hup, hstate⟩

/-- A client that closes its connection. -/
theorem sends_closed {s s' : PubSubClient} (hsent : s'.client.sent = s.client.sent)
    (hid : s'.nextMsgId = s.nextMsgId) (hdown : s'.client.connected = false) :
    Sends s s' [] where
  sent := by rw [hsent, List.flatMap_nil, List.append_nil]
  later := by simp
  numbered := .inl ⟨rfl, hid⟩
  opened h := absurd rfl h
  idle hup := by
    rw [hdown] at hup
    cases hup
  up hup := by
    rw [hdown] at hup
    cases hup

section Loop

variable {s s' : PubSubClient} {t : UInt32} {room llen len : ℕ}

theorem sends_writeTwo {p : Packet} (hp : p.toFrame.body = []) (hans : Control [p])
    (hup : s.client.connected = true) (hroom : 2 ≤ room) :
    Sends s (s.writeTwo room p.toFrame.header) [p] := by
  have hwrite : (s.client.write room [p.toFrame.header, 0]).2 =
      { s.client with sent := s.client.sent ++ packet.write p } := by
    rw [Client.write_eq_all hup hroom, write_two p hp]
  apply hans.sends hup
  · rw [writeTwo, hwrite, List.flatMap_singleton]
  · rfl
  · rfl
  · rintro ⟨⟩

theorem sends_callbackPublish (hup : s.client.connected = true) (hroom : 4 ≤ room)
    (h : callbackPublish t room llen len s = some s') : ∃ ps, Control ps ∧ Sends s s' ps := by
  have hcalled := called_of_callbackPublish h
  obtain ⟨hid, -, hstate, -⟩ := by simpa only [Prod.mk.injEq] using hcalled.same
  obtain ⟨hclient, hout⟩ | ⟨id, hlt, hclient, -⟩ := hcalled.answer
  · refine ⟨[], .none, Control.none.sends hup ?_ hid hstate fun _ => hout⟩
    rw [hclient, List.flatMap_nil, List.append_nil]
  · refine ⟨[.puback id], .puback id hlt, (Control.puback id hlt).sends hup ?_ hid hstate ?_⟩
    · have hlen : (packet.write (.puback id)).length ≤ room := by
        rw [write_puback]
        exact hroom
      rw [hclient, Client.write_eq_all hup hlen, List.flatMap_singleton]
    · rintro ⟨⟩

theorem sends_handle (hup : s.client.connected = true) (hroom : 4 ≤ room)
    (h : handle t room llen len s = some s') : ∃ ps, Control ps ∧ Sends s s' ps := by
  have hup' : ({ s with lastInActivity := t } : PubSubClient).client.connected = true := hup
  have hsilent (pingOutstanding : Bool) :
      Sends s { s with lastInActivity := t, pingOutstanding := pingOutstanding } [] :=
    Control.none.sends hup (List.append_nil _).symm rfl rfl fun _ => rfl
  rw [handle] at h
  split at h
  · split at h
    · obtain ⟨ps, hans, hsends⟩ := sends_callbackPublish hup' hroom h
      exact ⟨ps, hans, hsends.sent, hsends.later, hsends.numbered, hsends.opened,
        hsends.idle, hsends.up⟩
    · rw [← Option.some.inj h]
      exact ⟨[], .none, hsilent s.pingOutstanding⟩
  · split at h
    · have hsends := sends_writeTwo (p := .pingresp) rfl .pingresp hup'
        (show 2 ≤ room by omega)
      rw [← Option.some.inj h]
      exact ⟨[.pingresp], .pingresp, hsends.sent, hsends.later, hsends.numbered, hsends.opened,
        fun _ => by rintro ⟨⟩, hsends.up⟩
    · split at h
      · rw [← Option.some.inj h]
        exact ⟨[], .none, hsilent false⟩
      · rw [← Option.some.inj h]
        exact ⟨[], .none, hsilent s.pingOutstanding⟩

/-- Whatever comes in, what the client sends after it is a packet. -/
theorem sends_receive (hup : s.client.connected = true) (hroom : 4 ≤ room) {b : Bool}
    (h : receive t room s = some (b, s')) : ∃ ps, Control ps ∧ Sends s s' ps := by
  rw [receive] at h
  split at h
  · obtain ⟨-, rfl⟩ := Prod.mk.inj (Option.some.inj h)
    exact ⟨[], .none, (Reads.refl s).sends⟩
  · obtain ⟨hreads, hopen⟩ := quiet_readPacket s
    split at h
    · rename_i llen len u hread
      rw [hread] at hreads hopen
      obtain ⟨v, hhandle, hpair⟩ := Option.map_eq_some_iff.mp h
      obtain ⟨-, rfl⟩ := Prod.mk.inj hpair
      obtain ⟨ps, hans, hsends⟩ := sends_handle ((hopen rfl).trans hup) hroom hhandle
      exact ⟨ps, hans, hreads.trans_sends hsends⟩
    · rename_i o u _ hread
      rw [hread] at hreads
      have hconn := reads_connected u
      rw [Option.some.inj h] at hconn
      exact ⟨[], .none, (hreads.trans hconn).sends⟩

theorem sends_keepAlive (hup : s.client.connected = true) (hroom : 4 ≤ room) :
    ∃ ps, (ps = [] ∨ ps = [.pingreq]) ∧ Sends s (keepAlive t room s).2 ps := by
  rw [keepAlive]
  split
  · split
    · exact ⟨[], .inl rfl, sends_closed rfl rfl rfl⟩
    · have hsends := sends_writeTwo (p := .pingreq) rfl .pingreq hup
        (show 2 ≤ room by omega)
      exact ⟨[.pingreq], .inr rfl, hsends.sent, hsends.later, hsends.numbered, hsends.opened,
        fun _ => by rintro ⟨⟩, hsends.up⟩
  · exact ⟨[], .inl rfl, (Reads.refl s).sends⟩

theorem connected_keepAlive (h : (keepAlive t room s).1 = true) :
    (keepAlive t room s).2.client.connected = s.client.connected := by
  rw [keepAlive] at h ⊢
  split
  · rename_i hdue
    rw [if_pos hdue] at h
    split
    · rename_i hping
      rw [if_pos hping] at h
      cases h
    · rw [writeTwo, Client.write]
      split <;> rfl
  · rfl

theorem closed_keepAlive (h : (keepAlive t room s).1 = false) :
    (keepAlive t room s).2.client.connected = false := by
  rw [keepAlive] at h ⊢
  split
  · rename_i hdue
    rw [if_pos hdue] at h
    split
    · rfl
    · rename_i hping
      rw [if_neg hping] at h
      cases h
  · rename_i hdue
    rw [if_neg hdue] at h
    cases h

/-- A loop sends no more than a PINGREQ and an answer. -/
theorem sends_loop {ping : ℕ} {b : Bool} (hping : 4 ≤ ping) (hroom : 4 ≤ room)
    (h : loop t ping room s = some (b, s')) :
    ∃ ps, Sends s s' ps ∧ ps.filterMap Packet.message = [] := by
  rw [loop] at h
  split at h
  · rename_i u hconn
    obtain ⟨-, rfl⟩ := Prod.mk.inj (Option.some.inj h)
    have hreads := reads_connected s
    rw [hconn] at hreads
    exact ⟨[], hreads.sends, rfl⟩
  · rename_i u hconn
    obtain ⟨hup, rfl⟩ := of_connected_eq_true hconn
    obtain ⟨ps, hpings, hsends⟩ := sends_keepAlive (t := t) hup hping
    have hans : Control ps := by
      obtain rfl | rfl := hpings
      · exact .none
      · exact .pingreq
    split at h
    · rename_i v hkeep
      obtain ⟨-, rfl⟩ := Prod.mk.inj (Option.some.inj h)
      rw [hkeep] at hsends
      exact ⟨ps, hsends, hans.message⟩
    · rename_i v hkeep
      have hopen : (keepAlive t ping u).2.client.connected = u.client.connected :=
        connected_keepAlive (congrArg Prod.fst hkeep)
      rw [hkeep] at hsends hopen
      obtain ⟨qs, hans', hreceive⟩ := sends_receive (hopen.trans hup) hroom h
      refine ⟨ps ++ qs, hsends.trans hreceive hans'.requestId, ?_⟩
      rw [List.filterMap_append, hans.message, hans'.message, List.append_nil]

end Loop

/-! ### The calls -/

section Calls

variable {s s' : PubSubClient} {room : ℕ} {now : UInt32} {b : Bool}

/-- A call of the sketch sends these messages, and acknowledges nothing. -/
def Asks (s s' : PubSubClient) (ms : List Publish) : Prop :=
  ∃ ps, Sends s s' ps ∧ ps.filterMap Packet.ackId = [] ∧ ps.filterMap Packet.message = ms

theorem incoming_write (room : ℕ) (bytes : List UInt8) (c : Client) :
    (c.write room bytes).2.incoming = c.incoming ∧
      (c.write room bytes).2.connected = c.connected := by
  rw [Client.write]
  split <;> exact ⟨rfl, rfl⟩

theorem client_emit (now : UInt32) {f : Frame} (buf : Buffer UInt8)
    (hup : s.client.connected = true)
    (hroom : (frame.write f).length ≤ room) :
    (emit room now f buf s).2.client =
      { s.client with sent := s.client.sent ++ frame.write f } := by
  rw [emit, Client.write_eq_all hup hroom]

theorem emit_fst (now : UInt32) {f : Frame} (buf : Buffer UInt8) (hup : s.client.connected = true)
    (hroom : (frame.write f).length ≤ room) : (emit room now f buf s).1 = true := by
  rw [emit, Client.write_eq_all hup hroom]
  exact beq_self_eq_true _

/-- A packet that is built in the buffer. -/
theorem sends_emit (now : UInt32) {p : Packet} (buf : Buffer UInt8)
    (hup : s.client.connected = true)
    (hroom : (packet.write p).length ≤ room) (hlater : p.Later)
    (hid : p.requestId = none) : Sends s (emit room now p.toFrame buf s).2 [p] where
  sent := by
    rw [client_emit now buf hup hroom, List.flatMap_singleton]
    rfl
  later := List.forall_mem_singleton.mpr hlater
  numbered := .inl ⟨by simp [hid], rfl⟩
  opened _ := hup
  idle _ := by rintro ⟨⟩
  up _ := ⟨hup, rfl⟩

/-- A request takes the next number. -/
theorem sends_emit_request (now : UInt32) {p : Packet} (buf : Buffer UInt8)
    (hup : s.client.connected = true)
    (hroom : (packet.write p).length ≤ room) (hlater : p.Later)
    (hid : p.requestId = some s.newMsgId.nextMsgId.toNat) :
    Sends s (emit room now p.toFrame buf s.newMsgId).2 [p] where
  sent := by
    rw [client_emit now buf (show s.newMsgId.client.connected = true from hup) hroom,
      List.flatMap_singleton]
    rfl
  later := List.forall_mem_singleton.mpr hlater
  numbered := .inr ⟨by simp [hid, emit], rfl⟩
  opened _ := hup
  idle _ := by rintro ⟨⟩
  up _ := ⟨hup, rfl⟩

theorem length_frame_le {f : Frame} (h : f.body.length ≤ 1019) : (frame.write f).length ≤ 1024 := by
  obtain ⟨-, hle⟩ := length_remainingLength f.body.length
  rw [length_frame]
  omega

/-- A call that sends nothing only looks at the connection. -/
theorem sends_of_reads_connected (h : some (false, s.connected.2) = some (b, s')) :
    Asks s s' [] := by
  have hreads := reads_connected s
  rw [(Prod.mk.inj (Option.some.inj h)).2] at hreads
  exact ⟨[], hreads.sends, rfl, rfl⟩

theorem length_topicBody (id : ℕ) (topic : CStr) :
    (Packet.topicBody.write (id, topic.chars)).length = 4 + topic.strlen := by
  rw [Packet.topicBody, Codec.pair, List.length_append, length_uint16, length_text_chars]
  omega

theorem length_write_messageOf_le {topic : CStr} {payload : List UInt8}
    (hsize : 7 + topic.strlen + payload.length ≤ 1024) (retained : Bool) :
    (packet.write (.publish (messageOf topic payload retained))).length ≤ 1024 := by
  have hlen : remaining topic payload ≤ 1019 := by
    rw [remaining]
    omega
  exact length_frame_le ((length_body_messageOf topic payload retained).trans_le hlen)

/-- A message is sent when the client is connected and the message fits the buffer. -/
theorem publish_cases {topic : CStr} {payload : List UInt8} {retained : Bool}
    (h : publish room now topic payload retained s = some (b, s')) :
    (s.client.connected = true ∧ 7 + topic.strlen + payload.length ≤ 1024) ∧
      (∃ buf, emit room now (messageOf topic payload retained).frame buf s = (b, s')) ∨
    ¬(s.client.connected = true ∧ 7 + topic.strlen + payload.length ≤ 1024) ∧ b = false ∧
      s' = s.connected.2 := by
  by_cases hsend : s.client.connected = true ∧ 7 + topic.strlen + payload.length ≤ 1024
  · obtain ⟨hup, hsize⟩ := hsend
    obtain ⟨buf, hpublish⟩ := publish_eq_emit room now retained hup hsize
    exact .inl ⟨⟨hup, hsize⟩, buf, Option.some.inj (hpublish.symm.trans h)⟩
  · have hnot : s.client.connected = false ∨ 1024 < 7 + topic.strlen + payload.length := by
      rcases Bool.eq_false_or_eq_true s.client.connected with hup | hdown
      · exact .inr (Nat.not_le.mp fun hle => hsend ⟨hup, hle⟩)
      · exact .inl hdown
    rw [publish_eq_false hnot] at h
    obtain ⟨rfl, rfl⟩ := Prod.mk.inj (Option.some.inj h)
    exact .inr ⟨hsend, rfl, rfl⟩

theorem connected_publish {topic : CStr} {payload : List UInt8} {retained : Bool}
    (h : publish room now topic payload retained s = some (b, s')) :
    s'.client.connected = s.client.connected := by
  obtain ⟨-, buf, hemit⟩ | ⟨-, -, rfl⟩ := publish_cases h
  · rw [← (Prod.mk.inj hemit).2]
    exact (incoming_write room _ s.client).2
  · exact connected_snd s

/-- When the connection takes it, `publish` says so. -/
theorem sends_publish {topic : CStr} {payload : List UInt8} {retained : Bool}
    (hroom : 1024 ≤ room) (h : publish room now topic payload retained s = some (b, s')) :
    Asks s s' (if b then [messageOf topic payload retained] else []) := by
  obtain ⟨⟨hup, hsize⟩, buf, hemit⟩ | ⟨-, rfl, rfl⟩ := publish_cases h
  · have hlen : remaining topic payload ≤ 1019 := by
      rw [remaining]
      omega
    have hfits : packet.Fits (.publish (messageOf topic payload retained)) :=
      fits_messageOf (by omega) (by omega)
    have hwrite := (length_write_messageOf_le hsize retained).trans hroom
    have hsends := sends_emit now buf hup hwrite ⟨hfits, by simp⟩ rfl
    have hfst := emit_fst now buf hup
      (show (frame.write (messageOf topic payload retained).frame).length ≤ room from hwrite)
    rw [hemit] at hfst
    rw [show (Packet.publish (messageOf topic payload retained)).toFrame =
      (messageOf topic payload retained).frame from rfl, hemit] at hsends
    obtain rfl : b = true := hfst
    exact ⟨_, hsends, rfl, rfl⟩
  · exact sends_of_reads_connected rfl

/-- An UNSUBSCRIBE of a topic that is too long is not built. -/
theorem sends_unsubscribe {topic : CStr} (hroom : 1024 ≤ room)
    (h : unsubscribe room now topic s = some (b, s')) : Asks s s' [] := by
  by_cases hlong : 1024 < 9 + topic.strlen
  · rw [unsubscribe, if_pos hlong] at h
    rw [← (Prod.mk.inj (Option.some.inj h)).2]
    exact ⟨[], (Reads.refl s).sends, rfl, rfl⟩
  · rcases Bool.eq_false_or_eq_true s.client.connected with hup | hdown
    · obtain ⟨buf, hunsubscribe⟩ := unsubscribe_eq_emit room now hup
        (show topic.strlen ≤ 1015 by omega)
      have hbody := length_topicBody s.newMsgId.nextMsgId.toNat topic
      have hwrite : (packet.write
          (.unsubscribe s.newMsgId.nextMsgId.toNat topic.chars)).length ≤ room := by
        refine Nat.le_trans (length_frame_le ?_) hroom
        exact hbody.trans_le (by omega)
      have hfits : packet.Fits (.unsubscribe s.newMsgId.nextMsgId.toNat topic.chars) :=
        ⟨⟨s.newMsgId.nextMsgId.toNat_lt, show topic.strlen < 65536 by omega⟩,
          hbody.trans_lt (by omega)⟩
      have hsends := sends_emit_request now buf hup hwrite ⟨hfits, by simp⟩ rfl
      have hpair := Option.some.inj (hunsubscribe.symm.trans h)
      rw [hpair] at hsends
      exact ⟨_, hsends, rfl, rfl⟩
    · rw [unsubscribe, if_neg hlong, connected_of_false hdown] at h
      exact sends_of_reads_connected h

/-- A SUBSCRIBE is not built when the topic is too long or the quality of service is
not 0 or 1. -/
theorem sends_subscribe {topic : CStr} {qos : UInt8} (hroom : 1024 ≤ room)
    (h : subscribe room now topic qos s = some (b, s')) : Asks s s' [] := by
  by_cases hqos : 1 < qos
  · rw [subscribe, if_pos hqos] at h
    rw [← (Prod.mk.inj (Option.some.inj h)).2]
    exact ⟨[], (Reads.refl s).sends, rfl, rfl⟩
  · by_cases hlong : 1024 < 9 + topic.strlen
    · rw [subscribe, if_neg hqos, if_pos hlong] at h
      rw [← (Prod.mk.inj (Option.some.inj h)).2]
      exact ⟨[], (Reads.refl s).sends, rfl, rfl⟩
    · rcases Bool.eq_false_or_eq_true s.client.connected with hup | hdown
      · have hle : qos ≤ 1 := UInt8.not_lt.mp hqos
        -- at 1015 bytes the call would have left the buffer
        have hshort : topic.strlen < 1015 := by
          by_contra hall
          rw [subscribe_eq_none hup hle (by omega)] at h
          cases h
        obtain ⟨buf, hsubscribe⟩ := subscribe_eq_emit room now hup hle hshort
        have hbody :
            (Packet.subscribe s.newMsgId.nextMsgId.toNat topic.chars qos).toFrame.body.length =
              5 + topic.strlen := by
          rw [Packet.toFrame, List.length_append, length_topicBody, List.length_singleton]
          omega
        have hwrite : (packet.write
            (.subscribe s.newMsgId.nextMsgId.toNat topic.chars qos)).length ≤ room := by
          refine Nat.le_trans (length_frame_le ?_) hroom
          exact hbody.trans_le (by omega)
        have hfits : packet.Fits (.subscribe s.newMsgId.nextMsgId.toNat topic.chars qos) :=
          ⟨⟨s.newMsgId.nextMsgId.toNat_lt, show topic.strlen < 65536 by omega⟩,
            hbody.trans_lt (by omega)⟩
        have hsends := sends_emit_request now buf hup hwrite ⟨hfits, by simp⟩ rfl
        have hpair := Option.some.inj (hsubscribe.symm.trans h)
        rw [hpair] at hsends
        exact ⟨_, hsends, rfl, rfl⟩
      · rw [subscribe, if_neg hqos, if_neg hlong, connected_of_false hdown] at h
        exact sends_of_reads_connected h

theorem sends_disconnect (hroom : 2 ≤ room) : Asks s (s.disconnect room now) [] := by
  rcases Bool.eq_false_or_eq_true s.client.connected with hup | hdown
  · have hsends := sends_writeTwo (p := .disconnect) rfl .disconnect hup hroom
    exact ⟨[.disconnect],
      ⟨hsends.sent, hsends.later, hsends.numbered, hsends.opened, (by rintro ⟨⟩),
        (by rintro ⟨⟩)⟩, rfl, rfl⟩
  · have hwrite : s.client.write room [MQTTDISCONNECT, 0] = (0, s.client) := by
      rw [Client.write, hdown, if_neg (by simp)]
    refine ⟨[], sends_closed ?_ rfl rfl, rfl, rfl⟩
    rw [disconnect, writeTwo, hwrite]
    rfl

/-- A message that is not built in the buffer. -/
theorem sends_took {p : Packet} (hlater : p.Later) (hid : p.requestId = none)
    (hup : s.client.connected = true) (hsent : s'.client.sent = s.client.sent ++ packet.write p)
    (hnext : s'.nextMsgId = s.nextMsgId) (hstate : s'.state = s.state) : Sends s s' [p] where
  sent := by rw [hsent, List.flatMap_singleton]
  later := List.forall_mem_singleton.mpr hlater
  numbered := .inl ⟨by simp [hid], hnext⟩
  opened _ := hup
  idle _ := by rintro ⟨⟩
  up _ := ⟨hup, hstate⟩

theorem sends_publish_P {each : ℕ → ℕ} {topic : CStr} {payload : List UInt8} {retained : Bool}
    (hroom : 1024 ≤ room) (heach : ∀ i, 0 < each i) (hlen : remaining topic payload < 128 ^ 4)
    (h : publish_P room each now topic payload retained s = some (b, s')) :
    Asks s s' (if s.client.connected then [messageOf topic payload retained] else []) := by
  rcases Bool.eq_false_or_eq_true s.client.connected with hup | hdown
  · have hsize : (front topic retained (remaining topic payload)).length ≤ 1024 := by
      by_contra hlong
      rw [publish_P_eq_none hup hlen (Nat.not_le.mp hlong)] at h
      cases h
    obtain ⟨buf, hpublish⟩ := publish_P_eq now retained hup hlen hsize hroom heach
    have hfits : packet.Fits (.publish (messageOf topic payload retained)) := by
      rw [length_front] at hsize
      exact fits_messageOf (by omega) hlen
    have hpair := (Prod.mk.inj (Option.some.inj (hpublish.symm.trans h))).2
    subst hpair
    exact ⟨_, sends_took ⟨hfits, by simp⟩ rfl hup rfl rfl rfl, rfl, by rw [hup]; rfl⟩
  · rw [publish_P, connected_of_false hdown] at h
    rw [hdown]
    exact sends_of_reads_connected h

theorem sends_publishParts {topic : CStr} {parts : List (List UInt8)} {retained : Bool}
    (hroom : 1024 ≤ room) (hparts : ∀ part ∈ parts, part.length ≤ room)
    (hlen : remaining topic parts.flatten < 65536)
    (h : publishParts room now topic parts retained s = some s') :
    Asks s s' (if s.client.connected then [messageOf topic parts.flatten retained] else []) := by
  obtain ⟨⟨b, u⟩, hbegin, hfold⟩ := Option.map_eq_some_iff.mp h
  rcases Bool.eq_false_or_eq_true s.client.connected with hup | hdown
  · have hsize : 7 + topic.strlen ≤ 1024 := by
      by_contra hlong
      rw [beginPublish_eq_none hup (Nat.not_le.mp hlong)] at hbegin
      cases hbegin
    obtain ⟨buf, heq⟩ := beginPublish_eq now parts.flatten.length retained hup hsize hroom
    rw [heq] at hbegin
    obtain rfl := (Prod.mk.inj (Option.some.inj hbegin)).2
    obtain ⟨t, hall⟩ := foldl_writePart now { s.took (front topic retained
      ((2 + topic.strlen + parts.flatten.length) % 65536)) with
        buffer := buf, lastOutActivity := now } hup hparts
    rw [hall] at hfold
    obtain rfl := hfold
    have hfits : packet.Fits (.publish (messageOf topic parts.flatten retained)) :=
      fits_messageOf (by omega) (by omega)
    refine ⟨_, sends_took ⟨hfits, by simp⟩ rfl hup ?_ rfl rfl, rfl, by rw [hup]; rfl⟩
    have hmod : (2 + topic.strlen + parts.flatten.length) % 65536 =
        remaining topic parts.flatten := Nat.mod_eq_of_lt hlen
    rw [write_messageOf, ← List.append_assoc, hmod]
    rfl
  · rw [beginPublish, connected_of_false hdown] at hbegin
    obtain rfl := (Prod.mk.inj (Option.some.inj hbegin)).2
    -- the parts are written all the same, and go nowhere
    obtain ⟨t, hall⟩ := foldl_writePart_of_down room now parts (closed_connected hdown)
    rw [hall] at hfold
    obtain rfl := hfold
    have hreads := (reads_connected s).sends
    refine ⟨[], ⟨hreads.sent, hreads.later, hreads.numbered, hreads.opened, ?_, hreads.up⟩, rfl,
      by rw [hdown]; rfl⟩
    intro hup
    rw [(hreads.up hup).1] at hdown
    cases hdown

end Calls

end PubSubClient

end EmsGateway.Mqtt
