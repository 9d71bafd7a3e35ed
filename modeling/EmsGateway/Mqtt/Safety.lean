import EmsGateway.Mqtt.KeepAlive

/-!
Which calls leave the buffer and which mislead the callback, whatever comes in.
-/

namespace EmsGateway.Mqtt

open EmsGateway.Library

namespace PubSubClient

/-! ### Calls that send -/

section Sent

variable {room : ℕ} {now : UInt32} {topic : CStr} {payload : List UInt8} {retained : Bool}
  {s : PubSubClient}

theorem publish_ne_none : publish room now topic payload retained s ≠ none := by
  by_cases h : s.client.connected = true ∧ 7 + topic.strlen + payload.length ≤ 1024
  · obtain ⟨buf, heq⟩ := publish_eq_emit room now retained h.1 h.2
    rw [heq]
    exact Option.some_ne_none _
  · have hnot : s.client.connected = false ∨ 1024 < 7 + topic.strlen + payload.length := by
      by_contra hcon
      rw [not_or, Bool.not_eq_false, Nat.not_lt] at hcon
      exact h hcon
    rw [publish_eq_false hnot]
    exact Option.some_ne_none _

theorem subscribe_eq_none_iff {qos : UInt8} :
    subscribe room now topic qos s = none ↔
      s.client.connected = true ∧ qos ≤ 1 ∧ topic.strlen = 1015 := by
  by_cases h : s.client.connected = true ∧ qos ≤ 1 ∧ topic.strlen = 1015
  · exact iff_of_true (subscribe_eq_none h.1 h.2.1 h.2.2) h
  · refine iff_of_false ?_ h
    by_cases hqos : qos ≤ 1
    · obtain hup | hdown := Bool.eq_false_or_eq_true s.client.connected
      · by_cases hsize : topic.strlen < 1015
        · obtain ⟨buf, heq⟩ := subscribe_eq_emit room now hup hqos hsize
          rw [heq]
          exact Option.some_ne_none _
        · have hlong : 1024 < 9 + topic.strlen := by
            have hne : topic.strlen ≠ 1015 := fun heq => h ⟨hup, hqos, heq⟩
            omega
          rw [subscribe, MQTT_MAX_PACKET_SIZE, if_pos hlong]
          split <;> exact Option.some_ne_none _
      · rw [subscribe, connected_of_false hdown]
        split
        · exact Option.some_ne_none _
        · split <;> exact Option.some_ne_none _
    · rw [subscribe, if_pos (UInt8.not_le.mp hqos)]
      exact Option.some_ne_none _

theorem unsubscribe_ne_none : unsubscribe room now topic s ≠ none := by
  obtain hup | hdown := Bool.eq_false_or_eq_true s.client.connected
  · by_cases hsize : topic.strlen ≤ 1015
    · obtain ⟨buf, heq⟩ := unsubscribe_eq_emit room now hup hsize
      rw [heq]
      exact Option.some_ne_none _
    · have hlong : 1024 < 9 + topic.strlen := by omega
      rw [unsubscribe, MQTT_MAX_PACKET_SIZE, if_pos hlong]
      exact Option.some_ne_none _
  · rw [unsubscribe, connected_of_false hdown]
    split <;> exact Option.some_ne_none _

/-- The bytes of `publish_P` before the payload. -/
def frontLength (topic : CStr) (payload : List UInt8) : ℕ :=
  3 + (digits 5 ((payload.length + 2 + topic.strlen % 65536) % 2 ^ 32)).length + topic.strlen

theorem publish_P_eq_none_iff {front : ℕ} {each : ℕ → ℕ} :
    publish_P front each now topic payload retained s = none ↔
      s.client.connected = true ∧ 1024 < frontLength topic payload := by
  obtain ⟨len, hlen⟩ : ∃ len, len =
    digits 5 ((payload.length + 2 + topic.strlen % 65536) % 2 ^ 32) := ⟨_, rfl⟩
  obtain hup | hdown := Bool.eq_false_or_eq_true s.client.connected
  · rw [publish_P, connected_of_true hup, frontLength, ← hlen, and_iff_right hup]
    by_cases hlong : 1024 < 3 + len.length + topic.strlen
    · have hstring (buf : Buffer UInt8) : writeString topic buf (1 + len.length) = none :=
        writeString_eq_none (by omega)
      refine iff_of_true ?_ hlong
      simp only [Option.bind_eq_bind, ← hlen, hstring, Option.bind_none, Option.bind_fun_none]
    · have hput : Buffer.putAll 1024 s.buffer 0 (publishType retained :: len) =
          some (Buffer.overwrite s.buffer 0 (publishType retained :: len)) :=
        Buffer.putAll_eq_some (by rw [List.length_cons]; omega)
      have hstring := writeString_eq_some topic
        (Buffer.overwrite s.buffer 0 (publishType retained :: len))
        (show 1 + len.length + 2 + topic.strlen ≤ 1024 by omega)
      have hread (buf : Buffer UInt8) :
          Buffer.read 1024 buf 0 (1 + len.length + 2 + topic.strlen) = some _ :=
        if_pos (by omega)
      refine iff_of_false ?_ hlong
      simp only [Option.bind_eq_bind, MQTT_MAX_PACKET_SIZE, ← hlen, hput, Option.bind_some, hstring,
        hread]
      exact Option.some_ne_none _
  · rw [publish_P, connected_of_false hdown, hdown]
    simp

theorem publishParts_eq_none_iff {parts : List (List UInt8)} :
    publishParts room now topic parts retained s = none ↔
      s.client.connected = true ∧ 1017 < topic.strlen := by
  rw [publishParts, Option.map_eq_none_iff]
  obtain hup | hdown := Bool.eq_false_or_eq_true s.client.connected
  · rw [and_iff_right hup]
    by_cases hlong : 1017 < topic.strlen
    · exact iff_of_true (beginPublish_eq_none hup (by omega)) hlong
    · have hstring := writeString_eq_some topic s.buffer
        (show 5 + 2 + topic.strlen ≤ 1024 by omega)
      have hread (buf : Buffer UInt8) (k : ℕ) :
          Buffer.read 1024 buf (5 - k) (5 + 2 + topic.strlen - (5 - k)) = some _ :=
        if_pos (by omega)
      refine iff_of_false ?_ hlong
      rw [beginPublish, connected_of_true hup]
      simp only [Option.bind_eq_bind, MQTT_MAX_PACKET_SIZE, MQTT_MAX_HEADER_SIZE, hstring,
        Option.bind_some, hread]
      exact Option.some_ne_none _
  · rw [beginPublish, connected_of_false hdown, hdown]
    simp

end Sent

/-! ### Messages at the front of what comes in -/

/-- The cells of a packet. -/
def Taken.buffer (p : Taken) : Buffer UInt8 := fun i => p.cells.getD i 0

/-- Where the payload of a message begins. -/
def Taken.payload (p : Taken) : ℕ := payloadAt p.llen p.buffer

/-- A packet that `loop` takes for a message. -/
structure Taken.IsMessage (p : Taken) : Prop where
  pos : 0 < p.len
  le : p.len ≤ 1024
  type : p.buffer 0 &&& 0xF0 = MQTTPUBLISH

/-- The next packet is a message for the callback, of which `C` holds. -/
def Comes (C : Taken → Prop) (s : PubSubClient) : Prop :=
  s.callback = true ∧ ∃ p ∈ taken s.client.incoming, p.IsMessage ∧ C p

section Messages

variable {p : Taken} {s : PubSubClient} {t : UInt32} {room : ℕ}

theorem buffer_holding {i : ℕ} (hi : i < p.cells.length) (s : PubSubClient) :
    (s.holding p).buffer i = p.buffer i := by
  rw [cell_holding hi, Taken.buffer, List.getD_eq_getElem?_getD, List.getElem?_eq_getElem hi,
    Option.getD_some]

/-- A packet has a first cell, and a message has the length of its topic. -/
theorem lt_length_cells (h : taken s.client.incoming = some p) :
    0 < p.cells.length ∧ (p.IsMessage → p.llen + 2 < p.cells.length) := by
  cases hin : s.client.incoming with
  | nil => rw [hin] at h; cases h
  | cons header bytes =>
      rw [hin] at h
      obtain ⟨hsize, hlarge, hleast, hpos, hllen, hcells⟩ := bounds_of_taken h
      have hlen := length_cells_of_taken h
      refine ⟨by omega, fun hmessage => ?_⟩
      obtain hsmall | hwrap := Nat.lt_or_ge p.size 65536
      · -- the first cell still has the header
        have htype : header &&& 0xF0 = MQTTPUBLISH := by
          have hfirst : p.buffer 0 = header := by
            rw [Taken.buffer, hcells, cells_of_lt (by rw [List.length_take]; omega),
              List.take_take, List.getD_eq_getElem?_getD, List.getElem?_take_of_lt (by omega),
              List.getElem?_cons_zero, Option.getD_some]
          rw [← hfirst]
          exact hmessage.type
        rw [if_pos htype] at hleast
        omega
      · omega

theorem payloadAt_holding (h : taken s.client.incoming = some p) (hmessage : p.IsMessage) :
    payloadAt p.llen (s.holding p).buffer = p.payload := by
  have hcells := (lt_length_cells h).2 hmessage
  simp only [Taken.payload, payloadAt, topicLength,
    buffer_holding (show p.llen + 1 < p.cells.length by omega), buffer_holding hcells,
    buffer_holding (show 0 < p.cells.length by omega)]

theorem receive_of_taken (h : taken s.client.incoming = some p) :
    receive t room s = if 0 < p.len ∧ p.len ≤ 1024 then
        (handle t room p.llen p.len (s.holding p)).map fun s => (true, s)
      else some (s.holding p).connected := by
  have hne : ¬s.client.incoming.isEmpty = true := by
    intro hnil
    rw [List.isEmpty_iff.mp hnil] at h
    cases h
  rw [receive, if_neg hne, readPacket_eq h]
  by_cases hlong : 1024 < p.len
  · rw [if_neg (show ¬(0 < p.len ∧ p.len ≤ 1024) by omega)]
    simp only [if_pos hlong]
  · cases hlen : p.len with
    | zero => simp
    | succ n =>
        rw [hlen] at hlong
        simp [hlong, Nat.not_lt.mp hlong]

/-- What `handle` does with any packet but a message for the callback. -/
theorem received_handle {llen len : ℕ}
    (hnot : ¬(s.buffer 0 &&& 0xF0 = MQTTPUBLISH ∧ s.callback = true)) :
    ∃ s', handle t room llen len s = some s' ∧ s'.received = s.received := by
  rw [handle]
  split
  · rename_i htype
    rw [if_neg (fun hcallback => hnot ⟨htype, hcallback⟩)]
    exact ⟨_, rfl, rfl⟩
  · split
    · exact ⟨_, rfl, rfl⟩
    · split
      · exact ⟨_, rfl, rfl⟩
      · exact ⟨_, rfl, rfl⟩

/-- Either a message for the callback comes, or the callback is given nothing. -/
theorem receive_cases (t : UInt32) (room : ℕ) (s : PubSubClient) :
    (s.callback = true ∧ ∃ p ∈ taken s.client.incoming, p.IsMessage ∧
      ∃ u, u.received = s.received ∧ payloadAt p.llen u.buffer = p.payload ∧
        receive t room s = (callbackPublish t room p.llen p.len u).map fun s => (true, s)) ∨
    (∀ C, ¬Comes C s) ∧ ∃ b s', receive t room s = some (b, s') ∧ s'.received = s.received := by
  cases htaken : taken s.client.incoming with
  | none =>
      have hnone (C : Taken → Prop) : ¬Comes C s := by
        rintro ⟨-, p, hp, -⟩
        rw [htaken] at hp
        cases hp
      refine .inr ⟨hnone, ?_⟩
      rw [receive]
      split
      · exact ⟨true, s, rfl, rfl⟩
      · have hfst := readPacket_eq_none htaken
        obtain ⟨hreads, -⟩ := quiet_readPacket s
        cases hread : readPacket s with
        | mk o u =>
            rw [hread] at hfst hreads
            obtain rfl : o = none := hfst
            exact ⟨_, _, rfl, (reads_connected u).received.trans hreads.received⟩
  | some p =>
      rw [receive_of_taken htaken]
      have hfirst := buffer_holding (lt_length_cells htaken).1 s
      by_cases hlen : 0 < p.len ∧ p.len ≤ 1024
      · rw [if_pos hlen]
        -- `callbackPublish` is called for a message, and every other packet leaves `received`
        by_cases htold : p.buffer 0 &&& 0xF0 = MQTTPUBLISH ∧ s.callback = true
        · obtain ⟨htype, hcallback⟩ := htold
          have hmessage : p.IsMessage := ⟨hlen.1, hlen.2, htype⟩
          refine .inl ⟨hcallback, p, rfl, hmessage, { s.holding p with lastInActivity := t },
            rfl, payloadAt_holding htaken hmessage, ?_⟩
          rw [handle]
          simp only [hfirst, htype, if_true]
          rw [if_pos (by exact hcallback)]
        · have hnot : ¬((s.holding p).buffer 0 &&& 0xF0 = MQTTPUBLISH ∧
              (s.holding p).callback = true) := by
            rw [hfirst]
            exact htold
          obtain ⟨u, hhandle, hsame⟩ := @received_handle _ t room p.llen p.len hnot
          rw [hhandle]
          refine .inr ⟨?_, true, u, rfl, hsame⟩
          rintro C ⟨hcallback, q, hq, hmessage, -⟩
          rw [htaken] at hq
          obtain rfl := Option.some.inj hq
          exact htold ⟨hmessage.type, hcallback⟩
      · rw [if_neg hlen]
        refine .inr ⟨?_, _, _, rfl, (reads_connected (s.holding p)).received⟩
        rintro C ⟨-, q, hq, hmessage, -⟩
        rw [htaken] at hq
        obtain rfl := Option.some.inj hq
        exact hlen ⟨hmessage.pos, hmessage.le⟩

end Messages

/-! ### A loop -/

/-- A loop looks for packets unless there is no connection, or it gives it up. -/
def Listens (t : UInt32) (s : PubSubClient) : Prop :=
  s.client.connected = true ∧ ¬(Due t s ∧ s.pingOutstanding = true)

section Loop

variable {s s' : PubSubClient} {t : UInt32} {ping room : ℕ} {b : Bool}

theorem loop_cases (t : UInt32) (ping room : ℕ) (s : PubSubClient) :
    (Listens t s ∧ ∃ u, u.received = s.received ∧ (∀ C, Comes C u ↔ Comes C s) ∧
      loop t ping room s = receive t room u) ∨
    ¬Listens t s ∧ ∃ b s', loop t ping room s = some (b, s') ∧ s'.received = s.received := by
  obtain hup | hdown := Bool.eq_false_or_eq_true s.client.connected
  · rw [loop, connected_of_true hup]
    obtain ⟨hdue, hping, heq⟩ | ⟨-, hping, heq⟩ | ⟨hdue, heq⟩ := keepAlive_cases t ping s
    · simp only [heq]
      exact .inr ⟨fun h => h.2 ⟨hdue, hping⟩, _, _, rfl, rfl⟩
    · simp only [heq]
      refine .inl ⟨⟨hup, ?_⟩, s.asking ping t, rfl, fun C => ?_, rfl⟩
      · rw [hping]
        exact fun h => Bool.false_ne_true h.2
      · rw [Comes, incoming_asking]
        rfl
    · simp only [heq]
      exact .inl ⟨⟨hup, fun h => hdue h.1⟩, s, rfl, fun C => Iff.rfl, rfl⟩
  · rw [loop, connected_of_false hdown]
    refine .inr ⟨?_, false, s.connected.2, rfl, (reads_connected s).received⟩
    rintro ⟨hup, -⟩
    rw [hdown] at hup
    cases hup

/-- A loop leaves the buffer for a message whose topic or number is beyond it. -/
theorem loop_eq_none_iff : loop t ping room s = none ↔
    Listens t s ∧ Comes (fun p => 1024 < p.payload) s := by
  obtain ⟨hlistens, u, -, hcomes, heq⟩ | ⟨hnot, b, s', heq, -⟩ := loop_cases t ping room s
  · rw [heq, ← hcomes, and_iff_right hlistens]
    obtain ⟨hcallback, p, hp, hmessage, v, -, hpayload, heq⟩ | ⟨hnone, b, s', heq, -⟩ :=
      receive_cases t room u
    · rw [heq, Option.map_eq_none_iff, callbackPublish_eq_none_iff, hpayload]
      constructor
      · exact fun hlong => ⟨hcallback, p, hp, hmessage, hlong⟩
      · rintro ⟨-, q, hq, -, hlong⟩
        rw [Option.mem_def.mp hp] at hq
        rwa [Option.some.inj hq]
    · exact iff_of_false (heq ▸ Option.some_ne_none _) (hnone _)
  · exact iff_of_false (heq ▸ Option.some_ne_none _) fun h => hnot h.1

/-- What the callback is told of in a loop is in the buffer unless the message ends before
its payload. -/
theorem loop_told (h : loop t ping room s = some (b, s')) :
    ∃ ms, s'.received = s.received ++ ms ∧ ((∃ m ∈ ms, m.payload.length < m.length) ↔
      Listens t s ∧ Comes (fun p => p.len < p.payload) s) := by
  obtain ⟨hlistens, u, hsame, hcomes, heq⟩ | ⟨hnot, b', u, heq, hsame⟩ := loop_cases t ping room s
  · rw [← hcomes, and_iff_right hlistens]
    obtain ⟨hcallback, p, hp, hmessage, v, hsame', hpayload, heq'⟩ | ⟨hnone, b', v, heq', hsame'⟩ :=
      receive_cases t room u
    · rw [heq, heq'] at h
      obtain ⟨w, hcall, hpair⟩ := Option.map_eq_some_iff.mp h
      obtain ⟨-, rfl⟩ := Prod.mk.inj hpair
      obtain ⟨m, hm, hbeyond⟩ := (called_of_callbackPublish hcall).beyond_iff hmessage.le
      refine ⟨[m], by rw [hm, hsame', hsame], ?_⟩
      rw [hpayload] at hbeyond
      simp only [List.mem_singleton, exists_eq_left, hbeyond]
      constructor
      · exact fun hshort => ⟨hcallback, p, hp, hmessage, hshort⟩
      · rintro ⟨-, q, hq, -, hshort⟩
        rw [Option.mem_def.mp hp] at hq
        rwa [Option.some.inj hq]
    · rw [heq, heq'] at h
      obtain ⟨-, rfl⟩ := Prod.mk.inj (Option.some.inj h)
      exact ⟨[], by rw [hsame', hsame, List.append_nil], iff_of_false (by simp) (hnone _)⟩
  · rw [heq] at h
    obtain ⟨-, rfl⟩ := Prod.mk.inj (Option.some.inj h)
    exact ⟨[], by rw [hsame, List.append_nil], iff_of_false (by simp) fun h => hnot h.1⟩

end Loop

/-! ### Every run -/

/-- Whether a call leaves the buffer. -/
def Call.Leaves (s : PubSubClient) : Call → Prop
  | subscribe _ _ topic qos => s.client.connected = true ∧ qos ≤ 1 ∧ topic.strlen = 1015
  | publish_P _ _ _ topic payload _ =>
      s.client.connected = true ∧ 1024 < frontLength topic payload
  | publishParts _ _ topic _ _ => s.client.connected = true ∧ 1017 < topic.strlen
  | loop t _ _ => Listens t s ∧ Comes (fun p => 1024 < p.payload) s
  | _ => False

/-- Nothing comes in without a connection. -/
def Call.Impossible (s : PubSubClient) : Call → Prop
  | arrive _ => s.client.connected = false
  | _ => False

/-- Whether a call tells the callback of more than there is in the buffer. -/
def Call.Misleads (s : PubSubClient) : Call → Prop
  | loop t _ _ => Listens t s ∧ Comes (fun p => p.len < p.payload) s
  | _ => False

section Runs

variable {s s' : PubSubClient} {a : Call} {as : List Call}

theorem connect_ne_none (d : Dial) (id : CStr) (user pass : Option CStr)
    (will : Option WillArgs) (cleanSession : Bool) (s : PubSubClient) :
    connect d id user pass will cleanSession s ≠ none := by
  obtain hup | hdown := Bool.eq_false_or_eq_true s.client.connected
  · rw [connect, connected_of_true hup]
    exact Option.some_ne_none _
  · cases hdial : d.result with
    | false =>
        rw [connect_of_not_dialed hdown hdial]
        exact Option.some_ne_none _
    | true =>
        by_cases hfits : Dialable id user pass will
        · obtain ⟨u, -, -, heq⟩ := exists_awaitConnack hdown hdial hfits cleanSession
          rw [heq]
          exact Option.some_ne_none _
        · obtain ⟨buf, heq⟩ := connect_eq_stop hdown hdial hfits cleanSession
          rw [heq]
          exact Option.some_ne_none _

theorem call_eq_none_iff : session.step s a = none ↔ a.Leaves s ∨ a.Impossible s := by
  cases a with
  | connect d id user pass will cleanSession =>
      refine iff_of_false (fun h => ?_) (by rintro (h | h) <;> exact h)
      exact connect_ne_none d id user pass will cleanSession s (Option.map_eq_none_iff.mp h)
  | publish =>
      refine iff_of_false (fun h => ?_) (by rintro (h | h) <;> exact h)
      exact publish_ne_none (Option.map_eq_none_iff.mp h)
  | publish_P =>
      exact Option.map_eq_none_iff.trans (publish_P_eq_none_iff.trans (or_iff_left id).symm)
  | publishParts => exact publishParts_eq_none_iff.trans (or_iff_left id).symm
  | subscribe =>
      exact Option.map_eq_none_iff.trans (subscribe_eq_none_iff.trans (or_iff_left id).symm)
  | unsubscribe =>
      refine iff_of_false (fun h => ?_) (by rintro (h | h) <;> exact h)
      exact unsubscribe_ne_none (Option.map_eq_none_iff.mp h)
  | loop => exact Option.map_eq_none_iff.trans (loop_eq_none_iff.trans (or_iff_left id).symm)
  | arrive bytes =>
      have hstep : session.step s (.arrive bytes) =
          if s.client.connected then some (s.arrive bytes) else none := rfl
      rw [hstep]
      cases hup : s.client.connected <;> simp [Call.Leaves, Call.Impossible, hup]
  | _ => exact iff_of_false (Option.some_ne_none _) (by rintro (h | h) <;> exact h)

/-! What a call tells the callback -/

theorem received_awaitConnack (d : Dial) (s : PubSubClient) :
    (awaitConnack d s).2.received = s.received := by
  rw [awaitConnack]
  split
  · rfl
  · obtain ⟨hreads, -⟩ :=
      quiet_readPacket { s with client := { s.client with incoming := d.incoming } }
    split
    · rename_i u hread
      rw [hread] at hreads
      split <;> exact hreads.received
    · rename_i o u _ hread
      rw [hread] at hreads
      exact hreads.received

theorem received_connect {d : Dial} {id : CStr} {user pass : Option CStr}
    {will : Option WillArgs} {cleanSession b : Bool}
    (h : connect d id user pass will cleanSession s = some (b, s')) :
    s'.received = s.received := by
  obtain hup | hdown := Bool.eq_false_or_eq_true s.client.connected
  · rw [connect, connected_of_true hup] at h
    rw [← (Prod.mk.inj (Option.some.inj h)).2]
  · have hsame := (reads_connected s).received
    cases hdial : d.result with
    | false =>
        rw [connect_of_not_dialed hdown hdial] at h
        rw [← (Prod.mk.inj (Option.some.inj h)).2]
        exact hsame
    | true =>
        by_cases hfits : Dialable id user pass will
        · obtain ⟨u, -, hu, heq⟩ := exists_awaitConnack hdown hdial hfits cleanSession
          have hawait := received_awaitConnack d u
          rw [← Option.some.inj (heq.symm.trans h).symm] at hawait
          exact hawait.trans hu
        · obtain ⟨buf, heq⟩ := connect_eq_stop hdown hdial hfits cleanSession
          rw [← (Prod.mk.inj (Option.some.inj (heq.symm.trans h))).2]
          exact hsame

theorem call_told (h : session.step s a = some s') :
    ∃ ms, s'.received = s.received ++ ms ∧
      ((∃ m ∈ ms, m.payload.length < m.length) ↔ a.Misleads s) := by
  have hnone (hsame : s'.received = s.received) (hnot : ¬a.Misleads s) :
      ∃ ms, s'.received = s.received ++ ms ∧
        ((∃ m ∈ ms, m.payload.length < m.length) ↔ a.Misleads s) :=
    ⟨[], by rw [hsame, List.append_nil], iff_of_false (by simp) hnot⟩
  cases a with
  | connect =>
      obtain ⟨⟨b, u⟩, hconnect, rfl⟩ := Option.map_eq_some_iff.mp h
      exact hnone (received_connect hconnect) id
  | loop =>
      obtain ⟨⟨b, u⟩, hloop, rfl⟩ := Option.map_eq_some_iff.mp h
      exact loop_told hloop
  | arrive =>
      obtain rfl := Option.some.inj (Option.ite_none_right_eq_some.mp h).2
      exact hnone rfl id
  | _ => exact hnone (keeps_call (by exact trivial) h).received id

/-- A run comes to its end unless it comes to a call that leaves the buffer. What the
callback is told of in it is in the buffer, unless the run comes to a loop that takes a
message which ends before its payload. -/
theorem session_leaves :
    (session.run s as = none ↔ session.Meets (fun u a => a.Leaves u ∨ a.Impossible u) s as) ∧
      ∀ s', session.run s as = some s' → ∃ ms, s'.received = s.received ++ ms ∧
        ((∃ m ∈ ms, m.payload.length < m.length) ↔
          session.Meets (fun u a => a.Misleads u) s as) := by
  constructor
  · simp only [Machine.run_eq_none_iff, call_eq_none_iff]
  · intro s' hrun
    induction as generalizing s with
    | nil =>
        obtain rfl := Option.some.inj hrun
        exact ⟨[], (List.append_nil _).symm, iff_of_false (by simp) (Machine.not_meets_nil s)⟩
    | cons a as ih =>
        obtain ⟨u, hstep, hrest⟩ := Machine.run_cons_eq_some.mp hrun
        obtain ⟨ms, hms, hfirst⟩ := call_told hstep
        obtain ⟨ms', hms', hlater⟩ := ih hrest
        refine ⟨ms ++ ms', by rw [hms', hms, List.append_assoc], ?_⟩
        have hmem : (∃ m ∈ ms ++ ms', m.payload.length < m.length) ↔
            (∃ m ∈ ms, m.payload.length < m.length) ∨ ∃ m ∈ ms', m.payload.length < m.length := by
          simp only [List.mem_append, or_and_right, exists_or]
        rw [hmem, hfirst, hlater, Machine.meets_cons, hstep]
        simp

end Runs

end PubSubClient

end EmsGateway.Mqtt
