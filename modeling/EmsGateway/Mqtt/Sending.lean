import EmsGateway.Mqtt.PubSubClient
import Mathlib.Algebra.Order.Ring.Nat

/-!
What the client sends. Each call that builds a packet in the buffer writes one
frame.
-/

namespace EmsGateway.Mqtt

open EmsGateway.Library

theorem Client.write_eq_all {room : ℕ} {bytes : List UInt8} {c : Client} (hup : c.connected = true)
    (hroom : bytes.length ≤ room) :
    c.write room bytes = (bytes.length, { c with sent := c.sent ++ bytes }) := by
  rw [Client.write, if_pos hup, Nat.min_eq_right hroom, List.take_of_length_le hroom]

namespace PubSubClient

/-! ### The header -/

theorem or_mark : ∀ d < 128, UInt8.ofNat d ||| 0x80 = UInt8.ofNat (d + 128) := by
  decide

theorem digits_eq (k len : ℕ) : digits k len = (Varlen.encode 128 k len).map UInt8.ofNat := by
  induction k generalizing len with
  | zero => rfl
  | succ k ih =>
      rw [digits, Varlen.encode]
      split
      · rename_i hmore
        rw [if_neg (by omega), List.map_cons, ih, or_mark _ (Nat.mod_lt len (by omega))]
      · rename_i hlast
        rw [if_pos (by omega), List.map_singleton]

theorem digits_eq_remainingLength {k len : ℕ} (hk : 0 < k) (hlen : len < 128 ^ k)
    (h : len < 128 ^ 4) : digits k len = remainingLength len := by
  rw [digits_eq, remainingLength, Varlen.encode_eq_encode hk (by omega) hlen h]

/-- A length has between one and four digits. -/
theorem length_remainingLength (len : ℕ) :
    1 ≤ (remainingLength len).length ∧ (remainingLength len).length ≤ 4 := by
  have hne := Varlen.encode_ne_nil (b := 128) (show 0 < 4 by omega) len
  rw [remainingLength, List.length_map]
  exact ⟨List.length_pos_iff.mpr hne, Varlen.length_encode_le 128 4 len⟩

/-- The header ends where the body begins. -/
theorem buildHeader_eq (header : UInt8) (buf : Buffer UInt8) {length : ℕ} (h : length < 128 ^ 4) :
    buildHeader header buf length = ((remainingLength length).length + 1,
      Buffer.overwrite buf (4 - (remainingLength length).length)
        (header :: remainingLength length)) := by
  obtain ⟨hpos, hle⟩ := length_remainingLength length
  have hnext : 4 - (remainingLength length).length + 1 = 5 - (remainingLength length).length := by
    omega
  rw [buildHeader, digits_eq_remainingLength (by omega) h h, Buffer.overwrite_cons, hnext]

theorem length_frame (f : Frame) :
    (frame.write f).length = 1 + (remainingLength f.body.length).length + f.body.length := by
  simp only [frame, List.length_cons, List.length_append]
  omega

/-- The header stands before the body. -/
theorem slice_buildHeader (header : UInt8) (n : ℕ) {buf : Buffer UInt8} {body : List UInt8}
    (hbody : Buffer.slice buf 5 body.length = body) :
    Buffer.slice (Buffer.overwrite buf (4 - (remainingLength n).length)
        (header :: remainingLength n))
        (4 - (remainingLength n).length) ((remainingLength n).length + 1 + body.length) =
      header :: remainingLength n ++ body := by
  obtain ⟨hpos, hle⟩ := length_remainingLength n
  have hend : 4 - (remainingLength n).length + ((remainingLength n).length + 1) = 5 := by
    omega
  have hfront := Buffer.slice_overwrite buf (4 - (remainingLength n).length)
    (header :: remainingLength n)
  rw [List.length_cons] at hfront
  rw [Buffer.slice_add, hfront, hend, Buffer.slice_overwrite_of_disjoint, hbody]
  right
  rw [List.length_cons]
  omega

/-- Write a frame, and say whether all of it was taken. -/
def emit (room : ℕ) (now : UInt32) (f : Frame) (buffer : Buffer UInt8) (s : PubSubClient) :
    Bool × PubSubClient :=
  ((s.client.write room (frame.write f)).1 == (frame.write f).length,
    { s with
      client := (s.client.write room (frame.write f)).2, buffer, lastOutActivity := now })

/-- `write` sends the frame whose body is in the buffer. -/
theorem write_eq_emit (room : ℕ) (now : UInt32) (header : UInt8) (s : PubSubClient)
    {buf : Buffer UInt8} {body : List UInt8} (hbody : Buffer.slice buf 5 body.length = body)
    (hsize : 5 + body.length ≤ 1024) :
    ∃ buf', write room now header body.length { s with buffer := buf } =
      some (emit room now ⟨header, body⟩ buf' s) := by
  obtain ⟨hpos, hle⟩ := length_remainingLength body.length
  refine ⟨Buffer.overwrite buf (4 - (remainingLength body.length).length)
    (header :: remainingLength body.length), ?_⟩
  -- the header is written so that it ends where the body begins
  have hstart : 5 - ((remainingLength body.length).length + 1) =
      4 - (remainingLength body.length).length := by
    omega
  have hlen : (remainingLength body.length).length + 1 + body.length =
      (frame.write ⟨header, body⟩).length := by
    simp only [length_frame]
    omega
  have hroom : 4 - (remainingLength body.length).length +
      (body.length + ((remainingLength body.length).length + 1)) ≤ MQTT_MAX_PACKET_SIZE := by
    simp only [MQTT_MAX_PACKET_SIZE]
    omega
  rw [write, buildHeader_eq header buf (by omega)]
  simp only [hstart, Buffer.read]
  rw [if_pos hroom, Option.map_some, Nat.add_comm body.length, slice_buildHeader header _ hbody,
    hlen]
  rfl

/-! ### Strings -/

theorem text_chars (string : CStr) : text.write string.chars =
    UInt8.ofNat (string.strlen / 256) :: UInt8.ofNat string.strlen :: string.chars := rfl

theorem length_text_chars (string : CStr) : (text.write string.chars).length = 2 + string.strlen :=
  length_text string.chars

/-- A string is written with its length before it. -/
theorem writeString_eq_some (string : CStr) (buf : Buffer UInt8) {pos : ℕ}
    (h : pos + 2 + string.strlen ≤ 1024) :
    writeString string buf pos =
      some (pos + 2 + string.strlen, Buffer.overwrite buf pos (text.write string.chars)) := by
  have hhigh : pos + 2 + string.strlen - string.strlen - 2 = pos := by omega
  have hlow : pos + 2 + string.strlen - string.strlen - 1 = pos + 1 := by omega
  have hall : Buffer.putAll 1024 buf (pos + 2) string.chars =
      some (Buffer.overwrite buf (pos + 2) string.chars) := Buffer.putAll_eq_some h
  simp only [writeString, MQTT_MAX_PACKET_SIZE, hall, Option.bind_eq_bind, Option.bind_some]
  rw [hhigh, hlow, Buffer.put_eq_some (by omega), Option.bind_some, Buffer.put_eq_some (by omega),
    Option.bind_some, text_chars, Buffer.overwrite_cons, Buffer.overwrite_cons,
    Buffer.update_overwrite_of_lt _ _ _ (by omega), Buffer.update_overwrite_of_lt _ _ _ (by omega)]
  rfl

theorem writeString_eq_none {string : CStr} {buf : Buffer UInt8} {pos : ℕ}
    (h : 1024 < pos + 2 + string.strlen) : writeString string buf pos = none := by
  by_cases hnil : string.chars = []
  · have hzero : string.strlen = 0 := by rw [CStr.strlen, hnil, List.length_nil]
    have hall : Buffer.putAll 1024 buf (pos + 2) string.chars = some buf := by
      rw [hnil, Buffer.putAll]
    simp only [writeString, MQTT_MAX_PACKET_SIZE, hall, hzero, Option.bind_eq_bind,
      Option.bind_some]
    cases Buffer.put 1024 buf (pos + 2 + 0 - 0 - 2) (UInt8.ofNat (0 / 256)) with
    | none => rfl
    | some buf => rw [Option.bind_some, Buffer.put_eq_none (by omega), Option.bind_none]
  · have hall : Buffer.putAll 1024 buf (pos + 2) string.chars = none :=
      Buffer.putAll_eq_none hnil h
    simp only [writeString, hall, Option.bind_eq_bind, Option.bind_none]

/-! ### The calls -/

theorem connected_of_true {s : PubSubClient} (h : s.client.connected = true) :
    s.connected = (true, s) := if_pos h

theorem connected_fst (s : PubSubClient) : s.connected.1 = s.client.connected := by
  rw [connected]
  split
  · rename_i h
    exact h.symm
  · rename_i h
    have hdown : s.client.connected = false := by simpa using h
    rw [hdown]
    split <;> rfl

/-- A message of the sketch. -/
def messageOf (topic : CStr) (payload : List UInt8) (retained : Bool) : Publish :=
  ⟨topic.chars, payload, none, retained, false⟩

theorem frame_messageOf (topic : CStr) (payload : List UInt8) (retained : Bool) :
    (messageOf topic payload retained).frame = ⟨publishType retained,
      text.write topic.chars ++ payload⟩ := by
  cases retained <;> simp +decide [messageOf, Publish.frame, Publish.header, publishType,
    Publish.front, Codec.pair, Codec.opt, publishHeader]

theorem publish_eq_emit (room : ℕ) (now : UInt32) {topic : CStr} {payload : List UInt8}
    (retained : Bool) {s : PubSubClient} (hup : s.client.connected = true)
    (hsize : 7 + topic.strlen + payload.length ≤ 1024) :
    ∃ buf, publish room now topic payload retained s =
      some (emit room now (messageOf topic payload retained).frame buf s) := by
  have hstring := writeString_eq_some topic s.buffer (show 5 + 2 + topic.strlen ≤ 1024 by omega)
  have hall : Buffer.putAll 1024 (Buffer.overwrite s.buffer 5 (text.write topic.chars))
      (7 + topic.strlen) payload =
      some (Buffer.overwrite (Buffer.overwrite s.buffer 5 (text.write topic.chars))
        (7 + topic.strlen) payload) := Buffer.putAll_eq_some hsize
  have hlen : 7 + topic.strlen + payload.length - 5 =
      (text.write topic.chars ++ payload).length := by
    rw [List.length_append, length_text_chars]
    omega
  have hbody := Buffer.slice_overwrite_append
    (Buffer.slice_overwrite s.buffer 5 (text.write topic.chars)) payload
  have hpos : 5 + (text.write topic.chars).length = 7 + topic.strlen := by
    rw [length_text_chars]
    omega
  rw [hpos] at hbody
  have hfits : ¬1024 < 5 + 2 + topic.strlen + payload.length := by omega
  obtain ⟨buf, hwrite⟩ := write_eq_emit room now (publishType retained) s hbody (by omega)
  refine ⟨buf, ?_⟩
  simp only [publish, connected_of_true hup, MQTT_MAX_PACKET_SIZE, MQTT_MAX_HEADER_SIZE,
    if_neg hfits, hstring, Option.bind_eq_bind, Option.bind_some]
  rw [hall, Option.bind_some, hlen, hwrite, frame_messageOf]

theorem publish_eq_false {room : ℕ} {now : UInt32} {topic : CStr} {payload : List UInt8}
    {retained : Bool} {s : PubSubClient}
    (h : s.client.connected = false ∨ 1024 < 7 + topic.strlen + payload.length) :
    publish room now topic payload retained s = some (false, s.connected.2) := by
  have hfst := s.connected_fst
  rw [publish]
  obtain hup | hdown := Bool.eq_false_or_eq_true s.client.connected
  · have hlong : 1024 < 7 + topic.strlen + payload.length := by simpa [hup] using h
    have hlimit : 1024 < 5 + 2 + topic.strlen + payload.length := by omega
    simp only [connected_of_true hup, MQTT_MAX_PACKET_SIZE, MQTT_MAX_HEADER_SIZE, if_pos hlimit]
  · rw [hdown] at hfst
    split
    · rename_i heq
      rw [heq]
    · rename_i heq
      rw [heq] at hfst
      cases hfst

theorem msgIdBytes_eq (s : PubSubClient) : s.msgIdBytes = uint16.write s.nextMsgId.toNat := by
  have hhigh : (s.nextMsgId >>> 8).toUInt8 = UInt8.ofNat (s.nextMsgId.toNat / 256) := by
    apply UInt8.toNat_inj.mp
    simp [Nat.shiftRight_eq_div_pow]
  have hlow : (s.nextMsgId &&& 0xFF).toUInt8 = UInt8.ofNat s.nextMsgId.toNat := by
    apply UInt8.toNat_inj.mp
    have hmask := Nat.and_two_pow_sub_one_eq_mod (s.nextMsgId.toNat % 256) 8
    simpa using hmask
  rw [msgIdBytes, hhigh, hlow]
  rfl

/-- The number and the topic of a SUBSCRIBE or an UNSUBSCRIBE stand in the buffer. -/
theorem topicBody_in_buffer (s : PubSubClient) (topic : CStr) (hsize : 9 + topic.strlen ≤ 1024) :
    ∃ buf, (Buffer.putAll 1024 s.buffer 5 s.msgIdBytes).bind
        (fun buf => writeString topic buf (5 + 2)) =
        some (9 + topic.strlen, buf) ∧
      Buffer.slice buf 5 (4 + topic.strlen) =
        Packet.topicBody.write (s.nextMsgId.toNat, topic.chars) := by
  have hids : (uint16.write s.nextMsgId.toNat).length = 2 := rfl
  have hall : Buffer.putAll 1024 s.buffer 5 (uint16.write s.nextMsgId.toNat) =
      some (Buffer.overwrite s.buffer 5 (uint16.write s.nextMsgId.toNat)) :=
    Buffer.putAll_eq_some (by omega)
  have hbody := Buffer.slice_overwrite_append
    (Buffer.slice_overwrite s.buffer 5 (uint16.write s.nextMsgId.toNat)) (text.write topic.chars)
  rw [List.length_append, hids, length_text_chars] at hbody
  refine ⟨Buffer.overwrite (Buffer.overwrite s.buffer 5 (uint16.write s.nextMsgId.toNat)) 7
    (text.write topic.chars), ?_, ?_⟩
  · have hpos : 9 + topic.strlen = 7 + 2 + topic.strlen := rfl
    rw [msgIdBytes_eq, hall, Option.bind_some, writeString_eq_some _ _ (by omega), hpos]
  · have hlen : 4 + topic.strlen = 2 + (2 + topic.strlen) := by omega
    rw [hlen]
    exact hbody

theorem subscribe_eq_emit (room : ℕ) (now : UInt32) {topic : CStr} {qos : UInt8} {s : PubSubClient}
    (hup : s.client.connected = true) (hqos : qos ≤ 1) (hsize : topic.strlen < 1015) :
    ∃ buf, subscribe room now topic qos s =
      some (emit room now
        (Packet.subscribe s.newMsgId.nextMsgId.toNat topic.chars qos).toFrame buf s.newMsgId) := by
  obtain ⟨buf, hbuf, hslice⟩ := topicBody_in_buffer s.newMsgId topic (by omega)
  have hlen : (Packet.topicBody.write (s.newMsgId.nextMsgId.toNat, topic.chars)).length =
      4 + topic.strlen := by
    rw [← hslice, Buffer.length_slice]
  -- line 538 does not count the quality of service
  have hput : Buffer.put 1024 buf (9 + topic.strlen) qos =
      some (Function.update buf (9 + topic.strlen) qos) := Buffer.put_eq_some (by omega)
  rw [← hlen] at hslice
  have hbody := Buffer.slice_overwrite_append hslice [qos]
  have hpos : 5 + (Packet.topicBody.write (s.newMsgId.nextMsgId.toNat, topic.chars)).length =
      9 + topic.strlen := by
    omega
  rw [hpos, Buffer.overwrite_singleton] at hbody
  have hsize : (Packet.topicBody.write (s.newMsgId.nextMsgId.toNat, topic.chars) ++ [qos]).length =
      9 + topic.strlen + 1 - 5 := by
    rw [List.length_append, List.length_singleton]
    omega
  obtain ⟨buf', hwrite⟩ := write_eq_emit room now (MQTTSUBSCRIBE ||| MQTTQOS1) s.newMsgId hbody
    (by omega)
  rw [hsize] at hwrite
  have hshort : ¬1024 < 9 + topic.strlen := by omega
  refine ⟨buf', ?_⟩
  simp only [subscribe, if_neg (UInt8.not_lt.mpr hqos), connected_of_true hup, MQTT_MAX_PACKET_SIZE,
    MQTT_MAX_HEADER_SIZE, if_neg hshort, Option.bind_eq_bind]
  rw [← Option.bind_assoc, hbuf, Option.bind_some, hput, Option.bind_some, hwrite]
  rfl

/-- The topic and the quality of service together may take one byte too many. -/
theorem subscribe_eq_none {room : ℕ} {now : UInt32} {topic : CStr} {qos : UInt8} {s : PubSubClient}
    (hup : s.client.connected = true) (hqos : qos ≤ 1) (hsize : topic.strlen = 1015) :
    subscribe room now topic qos s = none := by
  obtain ⟨buf, hbuf, -⟩ := topicBody_in_buffer s.newMsgId topic (by omega)
  have hshort : ¬1024 < 9 + topic.strlen := by omega
  simp only [subscribe, if_neg (UInt8.not_lt.mpr hqos), connected_of_true hup, MQTT_MAX_PACKET_SIZE,
    MQTT_MAX_HEADER_SIZE, if_neg hshort, Option.bind_eq_bind]
  rw [← Option.bind_assoc, hbuf, Option.bind_some, Buffer.put_eq_none (by omega), Option.bind_none]

theorem unsubscribe_eq_emit (room : ℕ) (now : UInt32) {topic : CStr} {s : PubSubClient}
    (hup : s.client.connected = true) (hsize : topic.strlen ≤ 1015) :
    ∃ buf, unsubscribe room now topic s =
      some (emit room now
        (Packet.unsubscribe s.newMsgId.nextMsgId.toNat topic.chars).toFrame buf s.newMsgId) := by
  obtain ⟨buf, hbuf, hslice⟩ := topicBody_in_buffer s.newMsgId topic (by omega)
  have hlen : (Packet.topicBody.write (s.newMsgId.nextMsgId.toNat, topic.chars)).length =
      9 + topic.strlen - 5 := by
    rw [← hslice, Buffer.length_slice]
    omega
  have hsum : 4 + topic.strlen = 9 + topic.strlen - 5 := by omega
  rw [hsum, ← hlen] at hslice
  obtain ⟨buf', hwrite⟩ := write_eq_emit room now (MQTTUNSUBSCRIBE ||| MQTTQOS1) s.newMsgId hslice
    (by omega)
  rw [hlen] at hwrite
  have hshort : ¬1024 < 9 + topic.strlen := by omega
  refine ⟨buf', ?_⟩
  simp only [unsubscribe, connected_of_true hup, MQTT_MAX_PACKET_SIZE, MQTT_MAX_HEADER_SIZE,
    if_neg hshort, Option.bind_eq_bind]
  rw [← Option.bind_assoc, hbuf, Option.bind_some, hwrite]
  rfl

/-! ### CONNECT -/

/-- The strings as they stand in the packet. -/
def texts (strings : List CStr) : List UInt8 :=
  strings.flatMap fun string => text.write string.chars

@[simp] theorem texts_nil : texts [] = [] := rfl

theorem texts_cons (string : CStr) (strings : List CStr) :
    texts (string :: strings) = text.write string.chars ++ texts strings := rfl

theorem writeStrings_eq_true {strings : List CStr} {pos : ℕ} {buf : Buffer UInt8}
    (h : pos + (texts strings).length ≤ 1024) :
    writeStrings strings pos buf =
      some (true, pos + (texts strings).length, Buffer.overwrite buf pos (texts strings)) := by
  induction strings generalizing pos buf with
  | nil => rw [texts_nil, Buffer.overwrite_nil, List.length_nil, Nat.add_zero, writeStrings]
  | cons string strings ih =>
      rw [texts_cons, List.length_append, length_text_chars] at h
      have hfits : ¬1024 < pos + 2 + string.strlen := by omega
      have hsum : pos + (2 + string.strlen + (texts strings).length) =
          pos + 2 + string.strlen + (texts strings).length := by
        omega
      have hend : pos + (text.write string.chars).length = pos + 2 + string.strlen := by
        rw [length_text_chars, Nat.add_assoc]
      rw [writeStrings, MQTT_MAX_PACKET_SIZE, if_neg hfits, writeString_eq_some _ _ (by omega),
        Option.bind_some, texts_cons, Buffer.overwrite_append, hend, List.length_append,
        length_text_chars, hsum]
      exact ih (by omega)

/-- Strings that do not all fit are not sent, and the buffer is kept to. -/
theorem writeStrings_eq_false (strings : List CStr) (buf : Buffer UInt8) {pos : ℕ}
    (hpos : pos ≤ 1024) (h : 1024 < pos + (texts strings).length) :
    ∃ pos' buf', writeStrings strings pos buf = some (false, pos', buf') := by
  induction strings generalizing pos buf with
  | nil =>
      rw [texts_nil, List.length_nil] at h
      omega
  | cons string strings ih =>
      rw [texts_cons, List.length_append, length_text_chars] at h
      rw [writeStrings, MQTT_MAX_PACKET_SIZE]
      split
      · exact ⟨pos, buf, rfl⟩
      · rename_i hfits
        rw [writeString_eq_some _ _ (by omega), Option.bind_some]
        exact ih _ (by omega) (by omega)

/-- What the arguments of `connect` say, when the quality of service of the will is
one of MQTT's. -/
def connectOf (id : CStr) (user pass : Option CStr) (will : Option WillArgs)
    (cleanSession : Bool) : Connect where
  id := id.chars
  login := user.map fun user => (user.chars, pass.map CStr.chars)
  will := will.map fun w => ⟨w.topic.chars, w.message.chars, Fin.ofNat 3 w.qos.toNat, w.retain⟩
  cleanSession
  keepAlive := MQTT_KEEPALIVE

theorem eq_of_le_two {qos : UInt8} (h : qos ≤ 2) : qos = 0 ∨ qos = 1 ∨ qos = 2 := by
  have hle : qos.toNat ≤ 2 := UInt8.le_iff_toNat_le.mp h
  simp only [← UInt8.toNat_inj, UInt8.reduceToNat]
  omega

theorem connectByte_eq_flags (id : CStr) {user pass : Option CStr} {will : Option WillArgs}
    (hqos : ∀ w ∈ will, w.qos ≤ 2) (cleanSession : Bool) :
    connectByte user pass will cleanSession = (connectOf id user pass will cleanSession).flags := by
  rcases will with _ | ⟨topic, qos, retain, message⟩
  · cases user <;> cases pass <;> cases cleanSession <;>
      simp +decide [connectByte, Connect.flags, connectFlags, connectOf, Connect.user, Connect.pass]
  · obtain rfl | rfl | rfl := eq_of_le_two (hqos _ rfl) <;>
      cases retain <;> cases user <;> cases pass <;> cases cleanSession <;>
        simp +decide [connectByte, Connect.flags, connectFlags, connectOf, Connect.user,
          Connect.pass]

theorem write_body (c : Connect) : Connect.body.write c =
    Connect.protocol ++ c.flags :: (uint16.write c.keepAlive ++ (text.write c.id ++
      ((c.willTexts.map (text.pair text).write).getD [] ++
        ((c.user.map text.write).getD [] ++ (c.pass.map text.write).getD [])))) := rfl

/-- The strings of the packet, in the order of the body. -/
theorem texts_connectOf (id : CStr) (user pass : Option CStr) (will : Option WillArgs)
    (cleanSession : Bool) :
    let c := connectOf id user pass will cleanSession
    text.write c.id ++ ((c.willTexts.map (text.pair text).write).getD [] ++
      ((c.user.map text.write).getD [] ++ (c.pass.map text.write).getD [])) =
        texts (connectStrings id user pass will) := by
  have hwill (w : WillArgs) : (text.pair text).write (w.topic.chars, w.message.chars) =
      text.write w.topic.chars ++ text.write w.message.chars := rfl
  cases will <;> cases user <;> cases pass <;>
    simp only [connectOf, Connect.willTexts, Connect.user, Connect.pass, connectStrings, texts_cons,
      texts_nil, Option.map_some, Option.map_none, Option.getD_some, Option.getD_none,
      Option.bind_some, Option.bind_none, hwill, Option.toList_some, Option.toList_none,
      List.append_assoc, List.cons_append, List.nil_append, List.append_nil]

theorem body_connectOf (id : CStr) {user pass : Option CStr} {will : Option WillArgs}
    (hqos : ∀ w ∈ will, w.qos ≤ 2) (cleanSession : Bool) :
    Connect.body.write (connectOf id user pass will cleanSession) =
      Connect.protocol ++ connectByte user pass will cleanSession ::
        (uint16.write MQTT_KEEPALIVE ++ texts (connectStrings id user pass will)) := by
  rw [connectByte_eq_flags id hqos, write_body, texts_connectOf]
  rfl

/-- Whether the strings of a CONNECT fit. -/
def Dialable (id : CStr) (user pass : Option CStr) (will : Option WillArgs) : Prop :=
  15 + (texts (connectStrings id user pass will)).length ≤ 1024

instance (id : CStr) (user pass : Option CStr) (will : Option WillArgs) :
    Decidable (Dialable id user pass will) := inferInstanceAs (Decidable (_ ≤ _))

/-- The client when the TCP connection is made. -/
def dialed (s : PubSubClient) : PubSubClient :=
  { s.connected.2 with client := ⟨true, [], []⟩, nextMsgId := 1 }

theorem connected_of_false {s : PubSubClient} (h : s.client.connected = false) :
    s.connected = (false, s.connected.2) := by
  rw [← h, ← connected_fst]

section Connect

variable {d : Dial} {id : CStr} {user pass : Option CStr} {will : Option WillArgs}
  {cleanSession : Bool} {s : PubSubClient}

/-- The strings of a CONNECT follow its protocol, its flags and its keep alive. -/
theorem buildConnect_eq (id : CStr) (user pass : Option CStr) (will : Option WillArgs)
    (cleanSession : Bool) (buf : Buffer UInt8) : buildConnect id user pass will cleanSession buf =
      writeStrings (connectStrings id user pass will) 15 (Buffer.overwrite buf 5
        (Connect.protocol ++
          connectByte user pass will cleanSession :: uint16.write MQTT_KEEPALIVE)) := by
  have hput : Buffer.putAll 1024 buf 5 (Connect.protocol ++
      connectByte user pass will cleanSession :: uint16.write MQTT_KEEPALIVE) = some _ :=
    Buffer.putAll_eq_some (by simp [Connect.protocol])
  exact congrArg (fun o => Option.bind o fun buf =>
    writeStrings (connectStrings id user pass will) 15 buf) hput

/-- The body of the CONNECT stands in the buffer. -/
theorem buildConnect_eq_true (hqos : ∀ w ∈ will, w.qos ≤ 2) (hfits : Dialable id user pass will)
    (cleanSession : Bool) (buf : Buffer UInt8) :
    let body := Connect.body.write (connectOf id user pass will cleanSession)
    5 + body.length ≤ 1024 ∧
    ∃ buf', buildConnect id user pass will cleanSession buf = some (true, 5 + body.length, buf') ∧
      Buffer.slice buf' 5 body.length = body := by
  let front := Connect.protocol ++
    connectByte user pass will cleanSession :: uint16.write MQTT_KEEPALIVE
  let strings := texts (connectStrings id user pass will)
  have hfront : front.length = 10 := rfl
  have hbody : Connect.body.write (connectOf id user pass will cleanSession) =
      front ++ strings := by
    rw [body_connectOf id hqos, List.append_assoc, List.cons_append]
  have hlen : 5 + (front ++ strings).length = 15 + strings.length := by
    rw [List.length_append, hfront]
    omega
  have hslice := Buffer.slice_overwrite_append (Buffer.slice_overwrite buf 5 front) strings
  rw [hbody]
  refine ⟨by rw [hlen]; exact hfits, Buffer.overwrite (Buffer.overwrite buf 5 front) 15 strings,
    ?_, hslice⟩
  rw [hlen, buildConnect_eq]
  exact writeStrings_eq_true hfits

theorem buildConnect_eq_false (hlong : ¬Dialable id user pass will) (cleanSession : Bool)
    (buf : Buffer UInt8) :
    ∃ pos buf', buildConnect id user pass will cleanSession buf = some (false, pos, buf') := by
  rw [buildConnect_eq]
  exact writeStrings_eq_false _ _ (by omega) (Nat.not_le.mp hlong)

/-- The CONNECT is sent, and its answer waited for. -/
theorem connect_eq_await (hdown : s.client.connected = false) (hdial : d.result = true)
    (hqos : ∀ w ∈ will, w.qos ≤ 2) (hfits : Dialable id user pass will) (cleanSession : Bool) :
    ∃ buf, connect d id user pass will cleanSession s = some (awaitConnack d
      { (emit d.room d.now
          (Packet.connect (connectOf id user pass will cleanSession)).toFrame buf s.dialed).2 with
        lastInActivity := d.now }) := by
  obtain ⟨hsize, buf, hbuild, hslice⟩ :=
    buildConnect_eq_true hqos hfits cleanSession s.dialed.buffer
  obtain ⟨buf', hwrite⟩ := write_eq_emit d.room d.now MQTTCONNECT s.dialed hslice hsize
  refine ⟨buf', ?_⟩
  have hlen (n : ℕ) : 5 + n - 5 = n := Nat.add_sub_cancel_left 5 n
  rw [connect, connected_of_false hdown]
  simp only [hdial, if_true, MQTT_MAX_HEADER_SIZE]
  refine (congrArg (Option.bind · _) hbuild).trans ?_
  simp only [Option.bind_some, hlen, if_true]
  exact congrArg (Option.bind · _) hwrite

/-- Nothing is sent when the strings do not fit. -/
theorem connect_eq_stop (hdown : s.client.connected = false) (hdial : d.result = true)
    (hlong : ¬Dialable id user pass will) (cleanSession : Bool) :
    ∃ buf, connect d id user pass will cleanSession s =
      some (false, { s.dialed with buffer := buf }.stop) := by
  obtain ⟨pos, buf, hbuild⟩ :=
    buildConnect_eq_false hlong cleanSession s.dialed.buffer
  refine ⟨buf, ?_⟩
  rw [connect, connected_of_false hdown]
  simp only [hdial, if_true]
  exact congrArg (Option.bind · _) hbuild

end Connect

end PubSubClient

end EmsGateway.Mqtt
