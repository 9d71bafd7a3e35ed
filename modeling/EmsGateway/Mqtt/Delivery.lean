import EmsGateway.Mqtt.Receiving

/-!
What `loop` does with the packets it reads: which messages the callback is given and
which answers are written, for any packet in the buffer and for frames in particular.
-/

namespace EmsGateway.Mqtt

open EmsGateway.Library

/-- A number of two bytes that were read. -/
theorem uint16_write_bytes (high low : UInt8) :
    uint16.write (high.toNat * 256 + low.toNat) = [high, low] := by
  have hlow := low.toNat_lt
  have hhigh : (high.toNat * 256 + low.toNat) / 256 = high.toNat := by omega
  have hmod : UInt8.ofNat (high.toNat * 256 + low.toNat) = low := by
    apply UInt8.toNat_inj.mp
    rw [UInt8.toNat_ofNat']
    omega
  rw [uint16]
  simp only [hhigh, hmod, UInt8.ofNat_toNat]

/-- A message that is told with all of its payload. -/
def Message.whole (topic payload : List UInt8) : Message :=
  ⟨topic.takeWhile (· ≠ 0), payload, payload.length⟩

namespace PubSubClient

theorem unsignedInt_natCast {n : ℕ} (h : n < 2 ^ 32) : unsignedInt n = n := by
  rw [unsignedInt]
  omega

/-- A length below zero is beyond every buffer. -/
theorem lt_unsignedInt {n : ℤ} (hneg : n < 0) (hint : -2 ^ 31 ≤ n) : 1024 < unsignedInt n := by
  rw [unsignedInt]
  omega

theorem write_puback (id : ℕ) :
    packet.write (.puback id) = [MQTTPUBACK, 2] ++ uint16.write id := by
  have hlength : remainingLength 2 = [2] := by decide
  show MQTTPUBACK :: (remainingLength (uint16.write id).length ++ uint16.write id) = _
  rw [length_uint16, hlength]
  rfl

/-! ### Any packet in the buffer -/

/-- The length of the topic. -/
def topicLength (llen : ℕ) (buf : Buffer UInt8) : ℕ :=
  (buf (llen + 1)).toNat * 256 + (buf (llen + 2)).toNat

/-- The cell where the payload begins, behind the topic and the number. -/
def payloadAt (llen : ℕ) (buf : Buffer UInt8) : ℕ :=
  llen + 3 + topicLength llen buf + if buf 0 &&& 0x06 = MQTTQOS1 then 2 else 0

/-- The client after the callback was called. -/
structure Called (t : UInt32) (room llen len : ℕ) (s s' : PubSubClient) : Prop where
  within : payloadAt llen s.buffer ≤ 1024
  received : ∃ m : Message, s'.received = s.received ++ [m] ∧
    m.length = unsignedInt (len - payloadAt llen s.buffer) ∧
    m.payload.length = min m.length (1024 - payloadAt llen s.buffer)
  answer : s'.client = s.client ∧ s'.lastOutActivity = s.lastOutActivity ∨
    ∃ id < 65536, s'.client = (s.client.write room (packet.write (.puback id))).2 ∧
      s'.lastOutActivity = t
  same : (s'.nextMsgId, s'.callback, s'.state, s'.lastInActivity, s'.pingOutstanding) =
    (s.nextMsgId, s.callback, s.state, s.lastInActivity, s.pingOutstanding)

section Called

variable {t : UInt32} {room llen len : ℕ} {s s' : PubSubClient}

theorem received_callCallback (topic tl payload : ℕ) (length : ℤ) (s : PubSubClient) :
    ∃ m : Message, (s.callCallback topic tl payload length).received = s.received ++ [m] ∧
      m.length = unsignedInt length ∧ m.payload.length = min m.length (1024 - payload) :=
  ⟨_, rfl, rfl, Buffer.length_slice _ _ _⟩

/-- A message whose topic or number is beyond the buffer makes the client leave it, any
other is given to the callback. -/
theorem callbackPublish_cases (t : UInt32) (room llen len : ℕ) (s : PubSubClient) :
    1024 < payloadAt llen s.buffer ∧ callbackPublish t room llen len s = none ∨
      ∃ s', callbackPublish t room llen len s = some s' ∧ Called t room llen len s s' := by
  obtain ⟨tl, hdef⟩ : ∃ tl, tl = topicLength llen s.buffer := ⟨_, rfl⟩
  have htl : (s.buffer (llen + 1)).toNat * 256 + (s.buffer (llen + 2)).toNat = tl := hdef.symm
  have hpayload : payloadAt llen s.buffer =
      llen + 3 + tl + if s.buffer 0 &&& 0x06 = MQTTQOS1 then 2 else 0 := by
    rw [payloadAt, hdef]
  by_cases hmove : llen + 3 + tl ≤ 1024
  · obtain ⟨buf, hbuf⟩ : ∃ buf, buf = Function.update (Buffer.overwrite s.buffer (llen + 2)
      (Buffer.slice s.buffer (llen + 3) tl)) (llen + 2 + tl) 0 := ⟨_, rfl⟩
    have hread : Buffer.read 1024 s.buffer (llen + 3) tl =
        some (Buffer.slice s.buffer (llen + 3) tl) := if_pos hmove
    have hput : Buffer.put 1024 (Buffer.overwrite s.buffer (llen + 2)
        (Buffer.slice s.buffer (llen + 3) tl)) (llen + 2 + tl) 0 = some buf := by
      rw [Buffer.put_eq_some (by omega), hbuf]
    have hheader : buf 0 = s.buffer 0 := by
      rw [hbuf, Function.update_of_ne (by omega), Buffer.overwrite_of_lt (by omega)]
    simp only [callbackPublish, MQTT_MAX_PACKET_SIZE, htl, hread, hput, Option.bind_eq_bind,
      Option.bind_some, hheader]
    by_cases hqos : s.buffer 0 &&& 0x06 = MQTTQOS1
    · -- two more bytes are read, and the payload begins behind them
      rw [if_pos hqos] at hpayload
      rw [if_pos hqos]
      by_cases hid : llen + 3 + tl + 2 ≤ 1024
      · obtain ⟨m, hm, hlength, hbytes⟩ := received_callCallback (llen + 2) tl
          (llen + 3 + tl + 2) (len - llen - 3 - tl - 2) { s with buffer := buf }
        have hmsgId : Buffer.read 1024 buf (llen + 3 + tl) 2 =
            some [buf (llen + 3 + tl), buf (llen + 3 + tl + 1)] := if_pos hid
        have hack : [MQTTPUBACK, 2] ++ [buf (llen + 3 + tl), buf (llen + 3 + tl + 1)] =
            packet.write (.puback ((buf (llen + 3 + tl)).toNat * 256 +
              (buf (llen + 3 + tl + 1)).toNat)) := by
          rw [write_puback, uint16_write_bytes]
        have hhigh := (buf (llen + 3 + tl)).toNat_lt
        have hlow := (buf (llen + 3 + tl + 1)).toNat_lt
        have hint : (len : ℤ) - llen - 3 - tl - 2 = len - payloadAt llen s.buffer := by
          rw [hpayload]
          push_cast
          omega
        rw [hmsgId, Option.bind_some, hack]
        refine .inr ⟨_, rfl, by omega, ⟨m, hm, ?_, ?_⟩, .inr ⟨_, ?_, rfl, rfl⟩, rfl⟩
        · rw [hlength, hint]
        · rw [hbytes, hpayload]
        · omega
      · have hmsgId : Buffer.read 1024 buf (llen + 3 + tl) 2 = none := if_neg hid
        rw [hmsgId]
        exact .inl ⟨by omega, rfl⟩
    · obtain ⟨m, hm, hlength, hbytes⟩ := received_callCallback (llen + 2) tl
        (llen + 3 + tl) (len - llen - 3 - tl) { s with buffer := buf }
      rw [if_neg hqos] at hpayload
      have hint : (len : ℤ) - llen - 3 - tl = len - payloadAt llen s.buffer := by
        rw [hpayload]
        push_cast
        omega
      rw [if_neg hqos]
      refine .inr ⟨_, rfl, by omega, ⟨m, hm, ?_, ?_⟩, .inl ⟨rfl, rfl⟩, rfl⟩
      · rw [hlength, hint]
      · rw [hbytes, hpayload]
        rfl
  · have hread : Buffer.read 1024 s.buffer (llen + 3) tl = none := if_neg hmove
    simp only [callbackPublish, MQTT_MAX_PACKET_SIZE, htl, hread]
    exact .inl ⟨by omega, rfl⟩

theorem called_of_callbackPublish (h : callbackPublish t room llen len s = some s') :
    Called t room llen len s s' := by
  obtain ⟨-, hnone⟩ | ⟨u, hsome, hcalled⟩ := callbackPublish_cases t room llen len s
  · rw [hnone] at h
    cases h
  · rw [hsome] at h
    rwa [← Option.some.inj h]

theorem callbackPublish_eq_none_iff :
    callbackPublish t room llen len s = none ↔ 1024 < payloadAt llen s.buffer := by
  obtain ⟨hlong, hnone⟩ | ⟨u, hsome, hcalled⟩ := callbackPublish_cases t room llen len s
  · exact iff_of_true hnone hlong
  · exact iff_of_false (hsome ▸ Option.some_ne_none u) (Nat.not_lt.mpr hcalled.within)

/-- A callback is told of bytes beyond the buffer when the packet ends before the
payload. -/
theorem Called.beyond_iff (h : Called t room llen len s s') (hlen : len ≤ 1024) :
    ∃ m : Message, s'.received = s.received ++ [m] ∧
      (m.payload.length < m.length ↔ len < payloadAt llen s.buffer) := by
  obtain ⟨m, hm, hlength, hbytes⟩ := h.received
  have hwithin := h.within
  refine ⟨m, hm, ?_⟩
  obtain hshort | hlong := Nat.lt_or_ge len (payloadAt llen s.buffer)
  · have hhuge : 1024 < m.length := by
      rw [hlength]
      exact lt_unsignedInt (by omega) (by omega)
    exact iff_of_true (by omega) hshort
  · have hrest : m.length = len - payloadAt llen s.buffer := by
      rw [hlength, ← Nat.cast_sub hlong, unsignedInt_natCast (by omega)]
    exact iff_of_false (by omega) (Nat.not_lt.mpr hlong)

end Called

/-! ### Messages that are told as they were sent -/

/-- The callback is given a message, and one with a number is acknowledged. -/
def deliver (t : UInt32) (room : ℕ) (topic : List UInt8) (id : Option ℕ) (payload : List UInt8)
    (buffer : Buffer UInt8) (s : PubSubClient) : PubSubClient :=
  let s := { s with buffer, received := s.received ++ [.whole topic payload] }
  match id with
  | none => s
  | some id => { s with
      client := (s.client.write room (packet.write (.puback id))).2, lastOutActivity := t }

theorem takeWhile_nul (topic : List UInt8) :
    (topic ++ [0]).takeWhile (· ≠ 0) = topic.takeWhile (· ≠ 0) := by
  rw [List.takeWhile_append]
  split
  · rename_i hall
    have heq : topic.takeWhile (· ≠ 0) = topic :=
      (List.takeWhile_prefix _).eq_of_length hall
    rw [heq]
    simp
  · rfl

section CallbackPublish

variable {f : Frame} {s : PubSubClient} {high low : UInt8} {more : List UInt8} {t : UInt32}
  {room : ℕ} (hbody : f.body = high :: low :: more)

include hbody

theorem length_more : (frame.write f).length = lengthLength f + 3 + more.length := by
  rw [length_frame_eq, hbody, List.length_cons, List.length_cons]
  omega

variable (h : InBuffer f s.buffer)

include h

/-- The length of the topic. -/
theorem topicLength_eq : (s.buffer (lengthLength f + 1)).toNat * 256 +
    (s.buffer (lengthLength f + 2)).toNat = high.toNat * 256 + low.toNat := by
  have hfirst := h.body (i := 0) (by simp [hbody])
  have hsecond := h.body (i := 1) (by simp [hbody])
  simp only [hbody, Nat.add_zero, List.getElem_cons_zero, List.getElem_cons_succ] at hfirst hsecond
  rw [hfirst, hsecond]

/-- What follows the length of the topic. -/
theorem slice_more {i n : ℕ} (hn : i + n ≤ more.length) :
    Buffer.slice s.buffer (lengthLength f + 3 + i) n = (more.drop i).take n := by
  have hcells := h.slice_body (i := 2 + i) (n := n)
    (by rw [hbody]; simp only [List.length_cons]; omega)
  rw [hbody, ← List.drop_drop, List.drop_succ_cons, List.drop_succ_cons, List.drop_zero] at hcells
  rw [← hcells]
  congr 1
  omega

/-- The topic is moved by one cell and ended with a zero. -/
theorem moveTopic_eq {tl : ℕ} (htl : tl ≤ more.length) :
    Buffer.read 1024 s.buffer (lengthLength f + 3) tl = some (more.take tl) ∧
      Buffer.put 1024 (Buffer.overwrite s.buffer (lengthLength f + 2) (more.take tl))
        (lengthLength f + 2 + tl) 0 =
          some (Buffer.overwrite s.buffer (lengthLength f + 2) (more.take tl ++ [0])) := by
  have hsize := h.size
  rw [length_more hbody] at hsize
  have hlen : (more.take tl).length = tl := List.length_take_of_le htl
  have hcells := slice_more hbody h (i := 0) (n := tl) (by omega)
  constructor
  · rw [Buffer.read, if_pos (by omega)]
    exact congrArg some hcells
  · rw [Buffer.put_eq_some (by omega), Buffer.overwrite_append, Buffer.overwrite_singleton, hlen]

/-- The cells behind the moved topic, and the first, are as they were read. -/
theorem slice_movedTopic {tl i n : ℕ} (htl : tl ≤ i) (hn : i + n ≤ more.length) :
    Buffer.slice (Buffer.overwrite s.buffer (lengthLength f + 2) (more.take tl ++ [0]))
      (lengthLength f + 3 + i) n = (more.drop i).take n := by
  rw [Buffer.slice_overwrite_of_disjoint, slice_more hbody h hn]
  right
  rw [List.length_append, List.length_take_of_le (by omega), List.length_singleton]
  omega

/-- The callback is given the payload, which begins at `i`, and all of it. -/
theorem callCallback_eq {tl i : ℕ} {n : ℤ} {buf : Buffer UInt8} (htl : tl ≤ i)
    (hi : i ≤ more.length) (hn : n = ((frame.write f).length : ℤ) - lengthLength f - 3 - i)
    (hbuf : buf = Buffer.overwrite s.buffer (lengthLength f + 2) (more.take tl ++ [0])) :
    ({ s with buffer := buf } : PubSubClient).callCallback (lengthLength f + 2) tl
      (lengthLength f + 3 + i) n =
      { s with
        buffer := buf, received := s.received ++ [.whole (more.take tl) (more.drop i)] } := by
  have hsize := h.size
  rw [length_more hbody] at hsize hn
  have hdrop : (more.drop i).length = more.length - i := List.length_drop
  have hlength : unsignedInt n = (more.drop i).length := by
    have hint : n = ((more.length - i : ℕ) : ℤ) := by omega
    rw [hint, unsignedInt_natCast (by omega), hdrop]
  have hpayload := slice_movedTopic hbody h htl (n := (more.drop i).length) (by omega)
  rw [List.take_length] at hpayload
  have htopic : (Buffer.slice buf (lengthLength f + 2) (tl + 1)).takeWhile (· ≠ 0) =
      (more.take tl).takeWhile (· ≠ 0) := by
    have hlen : tl + 1 = (more.take tl ++ [0]).length := by
      rw [List.length_append, List.length_take_of_le (htl.trans hi), List.length_singleton]
    rw [hbuf, hlen, Buffer.slice_overwrite, takeWhile_nul]
  have hmin : min (more.drop i).length (1024 - (lengthLength f + 3 + i)) =
      (more.drop i).length := by
    omega
  rw [← hbuf] at hpayload
  simp only [callCallback, MQTT_MAX_PACKET_SIZE, htopic, hlength, hmin, hpayload]
  rfl

omit hbody in
theorem movedTopic_zero (tl : ℕ) :
    Buffer.overwrite s.buffer (lengthLength f + 2) (more.take tl ++ [0]) 0 = f.header := by
  rw [Buffer.overwrite_of_lt (by omega), h.header]

/-- A message without a number. -/
theorem callbackPublish_eq_deliver (hqos : f.header &&& 0x06 ≠ MQTTQOS1)
    (htl : high.toNat * 256 + low.toNat ≤ more.length) :
    ∃ buf, callbackPublish t room (lengthLength f) (frame.write f).length s =
      some (deliver t room (more.take (high.toNat * 256 + low.toNat)) none
        (more.drop (high.toNat * 256 + low.toNat)) buf s) := by
  obtain ⟨tl, hdef⟩ : ∃ tl, tl = high.toNat * 256 + low.toNat := ⟨_, rfl⟩
  rw [← hdef] at htl ⊢
  obtain ⟨hread, hput⟩ := moveTopic_eq hbody h htl
  have hcall := callCallback_eq hbody h (Nat.le_refl tl) htl rfl rfl
  refine ⟨Buffer.overwrite s.buffer (lengthLength f + 2) (more.take tl ++ [0]), ?_⟩
  simp only [callbackPublish, topicLength_eq hbody h, ← hdef, MQTT_MAX_PACKET_SIZE, hread, hput,
    Option.bind_eq_bind, Option.bind_some, movedTopic_zero h, if_neg hqos, hcall]
  rfl

/-- A message with a number. -/
theorem callbackPublish_eq_deliver_id (hqos : f.header &&& 0x06 = MQTTQOS1) {id : ℕ}
    (htl : high.toNat * 256 + low.toNat + 2 ≤ more.length)
    (hid : uint16.write id = (more.drop (high.toNat * 256 + low.toNat)).take 2) :
    ∃ buf, callbackPublish t room (lengthLength f) (frame.write f).length s =
      some (deliver t room (more.take (high.toNat * 256 + low.toNat)) (some id)
        (more.drop (high.toNat * 256 + low.toNat + 2)) buf s) := by
  obtain ⟨tl, hdef⟩ : ∃ tl, tl = high.toNat * 256 + low.toNat := ⟨_, rfl⟩
  rw [← hdef] at htl hid ⊢
  obtain ⟨hread, hput⟩ := moveTopic_eq hbody h (show tl ≤ more.length by omega)
  have hsize := h.size
  rw [length_more hbody] at hsize
  have hmsgId : Buffer.read 1024
      (Buffer.overwrite s.buffer (lengthLength f + 2) (more.take tl ++ [0]))
      (lengthLength f + 3 + tl) 2 = some (uint16.write id) := by
    rw [Buffer.read, if_pos (by omega), slice_movedTopic hbody h (Nat.le_refl tl) htl, hid]
  have hcall := callCallback_eq hbody h (Nat.le_add_right tl 2) htl
    (show ((frame.write f).length : ℤ) - lengthLength f - 3 - tl - 2 = _ by omega) rfl
  refine ⟨Buffer.overwrite (Buffer.overwrite s.buffer (lengthLength f + 2) (more.take tl ++ [0])) 0
    (packet.write (.puback id)), ?_⟩
  simp only [callbackPublish, topicLength_eq hbody h, ← hdef, MQTT_MAX_PACKET_SIZE, hread, hput,
    Option.bind_eq_bind, Option.bind_some, movedTopic_zero h, if_pos hqos, hmsgId]
  rw [← Nat.add_assoc] at hcall
  rw [hcall, deliver, write_puback]
  rfl

end CallbackPublish

/-! ### What is made of a frame -/

/-- Whether a message has a number, as line 334 looks for it. -/
def acknowledged (f : Frame) : Bool := f.header &&& 0x06 == MQTTQOS1

/-- The topic, the number and the payload of a message, if the body has them. -/
def messageParts (f : Frame) : Option ((List UInt8 × Option ℕ) × List UInt8) :=
  (Publish.front (acknowledged f)).read f.body

theorem front_read_cons (b : Bool) (high low : UInt8) (more : List UInt8) :
    (Publish.front b).read (high :: low :: more) =
      if high.toNat * 256 + low.toNat ≤ more.length then
        ((uint16.opt b).read (more.drop (high.toNat * 256 + low.toNat))).map fun q =>
          ((more.take (high.toNat * 256 + low.toNat), q.1), q.2)
      else none := by
  simp only [Publish.front, Codec.pair, text, uint16, Option.bind_some, List.splitAt_eq]
  split
  · rfl
  · rfl

/-- A number that is read is what its two bytes are written as. -/
theorem exists_of_read_uint16 {bytes rest : List UInt8} {n : ℕ}
    (h : uint16.read bytes = some (n, rest)) :
    ∃ high low, bytes = high :: low :: rest ∧ uint16.write n = [high, low] := by
  match bytes, h with
  | high :: low :: rest', h =>
      obtain ⟨rfl, rfl⟩ := Prod.mk.inj (Option.some.inj h)
      exact ⟨high, low, rfl, uint16_write_bytes high low⟩

theorem lt_of_read_uint16 {bytes rest : List UInt8} {n : ℕ}
    (h : uint16.read bytes = some (n, rest)) : n < 65536 := by
  match bytes, h with
  | high :: low :: rest', h =>
      obtain ⟨rfl, -⟩ := Prod.mk.inj (Option.some.inj h)
      have hlow := low.toNat_lt
      have hhigh := high.toNat_lt
      omega

theorem two_le_of_parts {f : Frame} {p : (List UInt8 × Option ℕ) × List UInt8}
    (hparts : messageParts f = some p) : 2 ≤ f.body.length := by
  unfold messageParts at hparts
  match hbody : f.body, hparts with
  | [], hparts => simp [Publish.front, Codec.pair, text, uint16] at hparts
  | [byte], hparts => simp [Publish.front, Codec.pair, text, uint16] at hparts
  | high :: low :: more, _ => simp

/-- The number of a message has two bytes. -/
theorem lt_of_messageParts {f : Frame} {topic payload : List UInt8} {n : ℕ}
    (hparts : messageParts f = some ((topic, some n), payload)) : n < 65536 := by
  simp only [messageParts, Publish.front, Codec.pair, Option.bind_eq_some_iff,
    Option.map_eq_some_iff] at hparts
  obtain ⟨⟨s, bs⟩, -, ⟨o, rest⟩, hopt, hpair⟩ := hparts
  obtain ⟨⟨-, rfl⟩, -⟩ := by simpa using hpair
  rw [Codec.opt] at hopt
  split at hopt
  · obtain ⟨⟨k, bs'⟩, hread, hk⟩ := Option.map_eq_some_iff.mp hopt
    obtain ⟨hn, -⟩ := Prod.mk.inj hk
    rw [← Option.some.inj hn]
    exact lt_of_read_uint16 hread
  · cases hopt

theorem exists_topic {f : Frame} (h : 2 ≤ f.body.length) :
    ∃ high low more, f.body = high :: low :: more := by
  match f.body, h with
  | high :: low :: more, _ => exact ⟨high, low, more, rfl⟩

theorem callbackPublish_of_parts {f : Frame} {s : PubSubClient} {topic payload : List UInt8}
    {id : Option ℕ} (t : UInt32) (room : ℕ) (h : InBuffer f s.buffer)
    (hparts : messageParts f = some ((topic, id), payload)) :
    ∃ buf, callbackPublish t room (lengthLength f) (frame.write f).length s =
      some (deliver t room topic id payload buf s) := by
  obtain ⟨high, low, more, hbody⟩ := exists_topic (two_le_of_parts hparts)
  rw [messageParts, hbody, front_read_cons] at hparts
  split at hparts
  · rename_i htl
    obtain ⟨⟨number, rest⟩, hread, hpair⟩ := Option.map_eq_some_iff.mp hparts
    obtain ⟨hfront, rfl⟩ := Prod.mk.inj hpair
    obtain ⟨rfl, rfl⟩ := Prod.mk.inj hfront
    cases hqos : acknowledged f with
    | false =>
        rw [hqos] at hread
        obtain ⟨rfl, rfl⟩ := Prod.mk.inj (Option.some.inj hread)
        exact callbackPublish_eq_deliver hbody h (by simpa [acknowledged] using hqos) htl
    | true =>
        rw [hqos] at hread
        obtain ⟨⟨n, after⟩, hnumber, hpair⟩ := Option.map_eq_some_iff.mp hread
        obtain ⟨rfl, rfl⟩ := Prod.mk.inj hpair
        obtain ⟨b, b', hdrop, hwrite⟩ := exists_of_read_uint16 hnumber
        have hlen := congrArg List.length hdrop
        rw [List.length_drop, List.length_cons, List.length_cons] at hlen
        have hle : 2 ≤ more.length - (high.toNat * 256 + low.toNat) := by
          rw [hlen]
          exact Nat.le_add_left 2 after.length
        have htwo : high.toNat * 256 + low.toNat + 2 ≤ more.length := by
          rw [Nat.add_comm]
          exact Nat.add_le_of_le_sub htl hle
        have hafter : after = more.drop (high.toNat * 256 + low.toNat + 2) := by
          rw [← List.drop_drop, hdrop, List.drop_succ_cons, List.drop_succ_cons, List.drop_zero]
        have hid : uint16.write n = (more.drop (high.toNat * 256 + low.toNat)).take 2 := by
          rw [hdrop, hwrite, List.take_succ_cons, List.take_succ_cons, List.take_zero]
        rw [hafter]
        exact callbackPublish_eq_deliver_id hbody h (beq_iff_eq.mp hqos) htwo hid
  · cases hparts

/-- What the callback is given for a frame and what is answered, unless it is a message
that has not its topic or number. -/
def reaction (callback : Bool) (f : Frame) : Option (List Message × List Packet) :=
  if 1024 < (frame.write f).length then some ([], [])
  else if f.header &&& 0xF0 = MQTTPUBLISH then
    if callback then
      (messageParts f).map fun ((topic, id), payload) =>
        ([.whole topic payload], (id.map Packet.puback).toList)
    else some ([], [])
  else if f.header &&& 0xF0 = MQTTPINGREQ then some ([], [.pingresp])
  else some ([], [])

/-- Whether a frame answers a PINGREQ. -/
def IsPong (f : Frame) : Prop :=
  (frame.write f).length ≤ 1024 ∧ f.header &&& 0xF0 = MQTTPINGRESP

instance (f : Frame) : Decidable (IsPong f) := inferInstanceAs (Decidable (_ ∧ _))

/-- The client after a frame. -/
structure Takes (t : UInt32) (f : Frame) (rest : List UInt8) (ms : List Message) (ps : List Packet)
    (s s' : PubSubClient) : Prop where
  incoming : s'.client.incoming = rest
  connected : s'.client.connected = s.client.connected
  sent : s'.client.sent = s.client.sent ++ ps.flatMap packet.write
  received : s'.received = s.received ++ ms
  callback : s'.callback = s.callback
  state : s'.state = s.state
  nextMsgId : s'.nextMsgId = s.nextMsgId
  lastIn : s'.lastInActivity = if (frame.write f).length ≤ 1024 then t else s.lastInActivity
  lastOut : s'.lastOutActivity = t ∨ s'.lastOutActivity = s.lastOutActivity
  pingOutstanding : s'.pingOutstanding = if IsPong f then false else s.pingOutstanding

section Receive

variable {f : Frame} {rest : List UInt8} {s : PubSubClient} {t : UInt32} {room : ℕ}
  {ms : List Message} {ps : List Packet}

theorem write_two (p : Packet) (hp : p.toFrame.body = []) :
    packet.write p = [p.toFrame.header, 0] := by
  have hlength : remainingLength 0 = [0] := by decide
  show p.toFrame.header :: (remainingLength p.toFrame.body.length ++ p.toFrame.body) = _
  rw [hp, List.length_nil, hlength]
  rfl

/-- The answers of a frame are written behind what the client has sent. -/
theorem Takes.deliver {u : PubSubClient} (h : Takes t f rest [] [] s u)
    (hup : s.client.connected = true) (hroom : 4 ≤ room) (topic payload : List UInt8)
    (id : Option ℕ) (buf : Buffer UInt8) :
    Takes t f rest [.whole topic payload] (id.map Packet.puback).toList s
      (deliver t room topic id payload buf u) := by
  have hsent : u.client.sent = s.client.sent := by
    rw [h.sent, List.flatMap_nil, List.append_nil]
  have hreceived : u.received = s.received := by
    rw [h.received, List.append_nil]
  cases id with
  | none =>
      refine ⟨h.incoming, h.connected, h.sent, ?_, h.callback, h.state, h.nextMsgId, h.lastIn,
        h.lastOut, h.pingOutstanding⟩
      rw [← hreceived]
      rfl
  | some n =>
      have hwrite : (u.client.write room (packet.write (.puback n))).2 =
          { u.client with sent := u.client.sent ++ packet.write (.puback n) } := by
        rw [Client.write_eq_all (h.connected.trans hup)]
        rw [write_puback]
        exact hroom
      simp only [PubSubClient.deliver, hwrite]
      refine ⟨h.incoming, h.connected, ?_, ?_, h.callback, h.state, h.nextMsgId, h.lastIn,
        .inl rfl, h.pingOutstanding⟩
      · simp [hsent]
      · simp [hreceived]

theorem Takes.pingresp {u : PubSubClient} (h : Takes t f rest [] [] s u)
    (hup : s.client.connected = true) (hroom : 4 ≤ room) :
    Takes t f rest [] [.pingresp] s (u.writeTwo room MQTTPINGRESP) := by
  have hbytes : packet.write .pingresp = [MQTTPINGRESP, 0] := write_two .pingresp rfl
  have hwrite : u.client.write room [MQTTPINGRESP, 0] =
      (2, { u.client with sent := u.client.sent ++ [MQTTPINGRESP, 0] }) :=
    Client.write_eq_all (h.connected.trans hup)
      (by rw [List.length_cons, List.length_singleton]; omega)
  have hsent := h.sent
  rw [List.flatMap_nil, List.append_nil] at hsent
  simp only [writeTwo, hwrite]
  refine ⟨h.incoming, h.connected, ?_, h.received, h.callback, h.state, h.nextMsgId, h.lastIn,
    h.lastOut, h.pingOutstanding⟩
  rw [List.flatMap_singleton, hbytes, ← hsent]

theorem incoming_of_front (hin : s.client.incoming = frame.write f ++ rest) :
    (s.fill 0 (frame.write f).length).client.incoming = rest := by
  rw [incoming_fill, hin, List.drop_left]

theorem receive_eq (hf : Readable f) (hin : s.client.incoming = frame.write f ++ rest) :
    receive t room s =
      if 1024 < (frame.write f).length then some (s.fill 0 (frame.write f).length).connected
      else (handle t room (lengthLength f) (frame.write f).length
        (s.fill 0 (frame.write f).length)).map fun s => (true, s) := by
  have hne : s.client.incoming.isEmpty = false := by
    rw [hin]
    rfl
  rw [receive, hne, if_neg (by decide), readPacket_frame hf hin]
  by_cases hlong : 1024 < (frame.write f).length
  · simp only [if_pos hlong]
  · obtain ⟨n, hn⟩ := Nat.exists_eq_succ_of_ne_zero
      (List.length_pos_iff.mpr (frame_write_ne_nil f)).ne'
    simp only [if_neg hlong]
    rw [hn]

/-- The client after the bytes of a frame, at the time `t`. -/
theorem takes_fill (hin : s.client.incoming = frame.write f ++ rest)
    (hshort : (frame.write f).length ≤ 1024) (hpong : ¬IsPong f) :
    Takes t f rest [] [] s { s.fill 0 (frame.write f).length with lastInActivity := t } := by
  refine ⟨incoming_of_front hin, rfl, by simp [fill], by simp [fill], rfl, rfl, rfl, ?_, .inr rfl,
    ?_⟩
  · rw [if_pos hshort]
  · rw [if_neg hpong]
    rfl

/-- A frame that fits the buffer. -/
theorem handle_of_reaction (hup : s.client.connected = true)
    (hin : s.client.incoming = frame.write f ++ rest) (hroom : 4 ≤ room)
    (hshort : (frame.write f).length ≤ 1024) (hre : reaction s.callback f = some (ms, ps)) :
    ∃ s', handle t room (lengthLength f) (frame.write f).length
        (s.fill 0 (frame.write f).length) = some s' ∧ Takes t f rest ms ps s s' := by
  obtain ⟨u, hu⟩ : ∃ u, u = { s.fill 0 (frame.write f).length with lastInActivity := t } :=
    ⟨_, rfl⟩
  have hbuf : InBuffer f u.buffer := by
    rw [hu]
    exact inBuffer_fill hshort hin
  have hhandle : handle t room (lengthLength f) (frame.write f).length
      (s.fill 0 (frame.write f).length) =
      if f.header &&& 0xF0 = MQTTPUBLISH then
        if s.callback then callbackPublish t room (lengthLength f) (frame.write f).length u
        else some u
      else if f.header &&& 0xF0 = MQTTPINGREQ then some (u.writeTwo room MQTTPINGRESP)
      else if f.header &&& 0xF0 = MQTTPINGRESP then some { u with pingOutstanding := false }
      else some u := by
    rw [← hbuf.header, hu]
    rfl
  have hnot (hpong : ¬IsPong f) : Takes t f rest [] [] s u := hu ▸ takes_fill hin hshort hpong
  rw [hhandle]
  rw [reaction, if_neg (Nat.not_lt.mpr hshort)] at hre
  split at hre
  · rename_i htype
    have hbase := hnot fun h => absurd (h.2.symm.trans htype) (by decide)
    rw [if_pos htype]
    split at hre
    · rename_i hcallback
      obtain ⟨⟨⟨topic, id⟩, payload⟩, hparts, hpair⟩ := Option.map_eq_some_iff.mp hre
      obtain ⟨rfl, rfl⟩ := Prod.mk.inj hpair
      obtain ⟨buf, hdeliver⟩ := callbackPublish_of_parts t room hbuf hparts
      rw [if_pos hcallback, hdeliver]
      exact ⟨_, rfl, hbase.deliver hup hroom topic payload id buf⟩
    · rename_i hcallback
      obtain ⟨rfl, rfl⟩ := Prod.mk.inj (Option.some.inj hre)
      rw [if_neg hcallback]
      exact ⟨_, rfl, hbase⟩
  · rename_i htype
    rw [if_neg htype]
    split at hre
    · rename_i hping
      obtain ⟨rfl, rfl⟩ := Prod.mk.inj (Option.some.inj hre)
      have hbase := hnot fun h => absurd (h.2.symm.trans hping) (by decide)
      rw [if_pos hping]
      exact ⟨_, rfl, hbase.pingresp hup hroom⟩
    · rename_i hping
      obtain ⟨rfl, rfl⟩ := Prod.mk.inj (Option.some.inj hre)
      rw [if_neg hping]
      split
      · -- a PINGRESP answers the ping, and `takes_fill` speaks of the others
        rename_i hpong
        refine ⟨_, rfl, ?_⟩
        rw [hu]
        refine ⟨incoming_of_front hin, rfl, by simp [fill], by simp [fill], rfl, rfl, rfl, ?_,
          .inr rfl, ?_⟩
        · rw [if_pos hshort]
        · rw [if_pos ⟨hshort, hpong⟩]
      · rename_i hpong
        exact ⟨_, rfl, hnot fun h => hpong h.2⟩

/-- A frame that the client can take. -/
theorem receive_of_reaction (hf : Readable f) (hup : s.client.connected = true)
    (hin : s.client.incoming = frame.write f ++ rest) (hroom : 4 ≤ room)
    (hre : reaction s.callback f = some (ms, ps)) :
    ∃ s', receive t room s = some (true, s') ∧ Takes t f rest ms ps s s' := by
  rw [receive_eq hf hin]
  by_cases hlong : 1024 < (frame.write f).length
  · -- it is read to its end and passed over, and does not count as activity
    have hshort : ¬(frame.write f).length ≤ 1024 := Nat.not_le.mpr hlong
    have hpong : ¬IsPong f := fun h => hshort h.1
    rw [reaction, if_pos hlong] at hre
    obtain ⟨rfl, rfl⟩ := Prod.mk.inj (Option.some.inj hre)
    refine ⟨s.fill 0 (frame.write f).length, ?_, incoming_of_front hin, rfl, by simp [fill],
      by simp [fill], rfl, rfl, rfl, ?_, .inr rfl, ?_⟩
    · rw [if_pos hlong, connected_of_true (by exact hup)]
    · rw [if_neg hshort]
      rfl
    · rw [if_neg hpong]
      rfl
  · obtain ⟨s', hhandle, htakes⟩ :=
      handle_of_reaction (t := t) hup hin hroom (Nat.not_lt.mp hlong) hre
    rw [if_neg hlong, hhandle]
    exact ⟨s', rfl, htakes⟩

end Receive

end PubSubClient

end EmsGateway.Mqtt
