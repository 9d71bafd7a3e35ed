import EmsGateway.Mqtt.Sending

/-!
Messages that are not built in the buffer: `publish_P`, and `beginPublish` with the
parts of the payload after it.
-/

namespace EmsGateway.Mqtt

open EmsGateway.Library

namespace PubSubClient

/-- The connection took bytes. -/
def took (bytes : List UInt8) (s : PubSubClient) : PubSubClient :=
  { s with client := { s.client with sent := s.client.sent ++ bytes } }

@[simp] theorem sent_took (bytes : List UInt8) (s : PubSubClient) :
    (s.took bytes).client.sent = s.client.sent ++ bytes := rfl

@[simp] theorem connected_took (bytes : List UInt8) (s : PubSubClient) :
    (s.took bytes).client.connected = s.client.connected := rfl

/-- Every byte is taken when there is room for each. -/
theorem writeEach_eq_all {room : ℕ → ℕ} {bytes : List UInt8} {c : Client}
    (hup : c.connected = true) (hroom : ∀ i, 0 < room i) :
    writeEach room bytes c = (bytes.length, { c with sent := c.sent ++ bytes }) := by
  have hfold (n : ℕ) : ∀ (i : ℕ) (c : Client), c.connected = true →
      (bytes.zipIdx i).foldl (writeByte room) (n, c) =
        (n + bytes.length, { c with sent := c.sent ++ bytes }) := by
    induction bytes generalizing n with
    | nil => simp
    | cons b bytes ih =>
        intro i c hc
        have hwrite := Client.write_eq_all hc (show [b].length ≤ room i from hroom i)
        simp only [List.zipIdx_cons, List.foldl_cons, writeByte, hwrite, List.length_singleton]
        rw [ih (n + 1) (i + 1) { c with sent := c.sent ++ [b] } hc]
        simp [Nat.add_assoc, Nat.add_comm 1]
  have hall := hfold 0 0 c hup
  rw [Nat.zero_add] at hall
  exact hall

section Whole

variable {room : ℕ} {each : ℕ → ℕ} {now : UInt32} {topic : CStr} {payload : List UInt8}
  {retained : Bool} {s : PubSubClient}

/-- What the remaining length of a message counts. -/
def remaining (topic : CStr) (payload : List UInt8) : ℕ := 2 + topic.strlen + payload.length

theorem length_body_messageOf (topic : CStr) (payload : List UInt8) (retained : Bool) :
    (messageOf topic payload retained).frame.body.length = remaining topic payload := by
  rw [frame_messageOf, List.length_append, length_text_chars, remaining]

theorem fits_messageOf (htopic : topic.strlen < 65536) (hlen : remaining topic payload < 128 ^ 4) :
    packet.Fits (.publish (messageOf topic payload retained)) := by
  refine ⟨⟨htopic, by simp [messageOf]⟩, ?_⟩
  rw [← length_body_messageOf topic payload retained] at hlen
  exact hlen

/-- The first byte, the length and the topic of a message. -/
def front (topic : CStr) (retained : Bool) (n : ℕ) : List UInt8 :=
  publishType retained :: remainingLength n ++ text.write topic.chars

theorem length_front (topic : CStr) (retained : Bool) (n : ℕ) :
    (front topic retained n).length = 3 + (remainingLength n).length + topic.strlen := by
  rw [front, List.length_append, List.length_cons, length_text_chars]
  omega

theorem write_messageOf (topic : CStr) (payload : List UInt8) (retained : Bool) :
    packet.write (.publish (messageOf topic payload retained)) =
      front topic retained (remaining topic payload) ++ payload := by
  show frame.write (messageOf topic payload retained).frame = _
  rw [frame_messageOf, front, ← length_body_messageOf topic payload retained, frame_messageOf]
  simp [frame]

/-- The length that `publish_P` writes. -/
theorem digits_remaining (htopic : topic.strlen < 65536)
    (hlen : remaining topic payload < 128 ^ 4) :
    digits 5 ((payload.length + 2 + topic.strlen % 65536) % 2 ^ 32) =
      remainingLength (remaining topic payload) := by
  have hsum : (payload.length + 2 + topic.strlen % 65536) % 2 ^ 32 = remaining topic payload := by
    unfold remaining at *
    omega
  rw [hsum]
  exact digits_eq_remainingLength (by omega) (by omega) hlen

/-- The topic of a message is built in the buffer, and has to fit. -/
theorem publish_P_eq_none (hup : s.client.connected = true)
    (hlen : remaining topic payload < 128 ^ 4)
    (hsize : 1024 < (front topic retained (remaining topic payload)).length) :
    publish_P room each now topic payload retained s = none := by
  have hstring (buf : Buffer UInt8) : writeString topic buf
      (1 + (digits 5 ((payload.length + 2 + topic.strlen % 65536) % 2 ^ 32)).length) = none := by
    apply writeString_eq_none
    by_cases htopic : topic.strlen < 65536
    · rw [digits_remaining htopic hlen]
      rw [length_front] at hsize
      omega
    · omega
  rw [publish_P, connected_of_true hup]
  simp only [Option.bind_eq_bind, hstring, Option.bind_none, Option.bind_fun_none]

/-- `publish_P` writes the message, its topic out of the buffer, and the length it
compares is that of a message whose remaining length has one digit. -/
theorem publish_P_eq (now : UInt32) (retained : Bool) (hup : s.client.connected = true)
    (hlen : remaining topic payload < 128 ^ 4)
    (hsize : (front topic retained (remaining topic payload)).length ≤ 1024)
    (hroom : 1024 ≤ room) (heach : ∀ i, 0 < each i) :
    ∃ buf, publish_P room each now topic payload retained s =
      some (decide ((remainingLength (remaining topic payload)).length = 1),
        { s.took (packet.write (.publish (messageOf topic payload retained))) with
          buffer := buf, lastOutActivity := now }) := by
  rw [length_front] at hsize
  have htlen : topic.strlen % 65536 = topic.strlen := Nat.mod_eq_of_lt (by omega)
  have hdigits := digits_remaining (show topic.strlen < 65536 by omega) hlen
  rw [htlen] at hdigits
  obtain ⟨header, hheader⟩ : ∃ header,
      header = publishType retained :: remainingLength (remaining topic payload) := ⟨_, rfl⟩
  have hstart : 1 + (remainingLength (remaining topic payload)).length = header.length := by
    rw [hheader, List.length_cons, Nat.add_comm]
  have hput : Buffer.putAll 1024 s.buffer 0 header = some (Buffer.overwrite s.buffer 0 header) :=
    Buffer.putAll_eq_some (by omega)
  have hstring := writeString_eq_some topic (Buffer.overwrite s.buffer 0 header)
    (show header.length + 2 + topic.strlen ≤ 1024 by omega)
  have hslice := Buffer.slice_overwrite_append (Buffer.slice_overwrite s.buffer 0 header)
    (text.write topic.chars)
  have hpos : (header ++ text.write topic.chars).length = header.length + 2 + topic.strlen := by
    rw [List.length_append, length_text_chars, Nat.add_assoc]
  rw [Nat.zero_add, hpos] at hslice
  have hread : Buffer.read 1024 (Buffer.overwrite (Buffer.overwrite s.buffer 0 header) header.length
      (text.write topic.chars)) 0 (header.length + 2 + topic.strlen) =
      some (front topic retained (remaining topic payload)) := by
    rw [Buffer.read, if_pos (by omega), hslice, hheader]
    rfl
  have hfront := Client.write_eq_all hup
    (show (front topic retained (remaining topic payload)).length ≤ room by
      rw [length_front]
      omega)
  -- the payload is written byte by byte and never stands in the buffer
  have hpayload : ∀ sent, writeEach each payload { s.client with sent } =
      (payload.length, { s.client with sent := sent ++ payload }) := by
    intro sent
    exact writeEach_eq_all hup heach
  -- line 448 counts one digit of the length
  have hcount : ((front topic retained (remaining topic payload)).length + payload.length ==
      topic.strlen + 4 + payload.length) =
        decide ((remainingLength (remaining topic payload)).length = 1) := by
    rw [length_front, Bool.eq_iff_iff, beq_iff_eq, decide_eq_true_iff]
    omega
  refine ⟨Buffer.overwrite (Buffer.overwrite s.buffer 0 header) header.length
    (text.write topic.chars), ?_⟩
  rw [publish_P, connected_of_true hup]
  simp only [htlen, hdigits, ← hheader, hstart, MQTT_MAX_PACKET_SIZE, Option.bind_eq_bind,
    hput, Option.bind_some, hstring, hread, hfront, hpayload, hcount, write_messageOf,
    List.append_assoc, took]
  rfl

/-- `publish_P` puts the message on the wire and says so only when the remaining length
has one digit. -/
theorem publish_P_says (hup : s.client.connected = true) (hlen : remaining topic payload < 128 ^ 4)
    (hsize : (front topic retained (remaining topic payload)).length ≤ 1024)
    (hroom : 1024 ≤ room) (heach : ∀ i, 0 < each i) :
    ∃ t, publish_P room each now topic payload retained s =
        some (decide (remaining topic payload < 128), t) ∧
      t.client.sent =
        s.client.sent ++ packet.write (.publish (messageOf topic payload retained)) := by
  obtain ⟨buf, hpublish⟩ := publish_P_eq now retained hup hlen hsize hroom heach
  have hdigit : (remainingLength (remaining topic payload)).length = 1 ↔
      remaining topic payload < 128 := by
    rw [remainingLength, List.length_map]
    exact Varlen.length_encode_eq_one_iff (by omega) hlen
  simp only [hdigit] at hpublish
  exact ⟨_, hpublish, rfl⟩

/-- A client whose callback is set. -/
def clientContoh (connected : Bool) : PubSubClient where
  client := ⟨connected, [], []⟩
  buffer := fun _ => 0
  nextMsgId := 1
  lastOutActivity := 0
  lastInActivity := 0
  pingOutstanding := false
  callback := true
  state := MQTT_DISCONNECTED
  received := []

/-- The topic `ab`. -/
def topicContoh : CStr := ⟨[97, 98], by decide⟩

theorem publish_P_says_contoh :
    ∃ t, publish_P 1024 (fun _ => 1) 0 topicContoh (List.replicate 200 7) false
        (clientContoh true) =
          some (decide (remaining topicContoh (List.replicate 200 7) < 128), t) ∧
      t.client.sent = (clientContoh true).client.sent ++
        packet.write (.publish (messageOf topicContoh (List.replicate 200 7) false)) :=
  publish_P_says rfl (by rw [remaining, List.length_replicate]; decide)
    (by rw [length_front, remaining, List.length_replicate]; decide) (by decide)
    fun _ => Nat.one_pos

end Whole

/-! ### beginPublish -/

/-- `beginPublish`, the parts of the payload and `endPublish`. -/
def publishParts (room : ℕ) (now : UInt32) (topic : CStr) (parts : List (List UInt8))
    (retained : Bool) (s : PubSubClient) : Option PubSubClient :=
  (beginPublish room now topic parts.flatten.length retained s).map fun p =>
    parts.foldl (fun s part => (s.writePart room now part).2) p.2

section Parts

variable {room : ℕ} {now : UInt32} {topic : CStr} {parts : List (List UInt8)}
  {retained : Bool} {s : PubSubClient}

theorem beginPublish_eq (now : UInt32) (plength : ℕ) (retained : Bool)
    (hup : s.client.connected = true)
    (hsize : 7 + topic.strlen ≤ 1024) (hroom : 1024 ≤ room) :
    ∃ buf, beginPublish room now topic plength retained s =
      some (true, { s.took (front topic retained ((2 + topic.strlen + plength) % 65536)) with
        buffer := buf, lastOutActivity := now }) := by
  have hstring := writeString_eq_some topic s.buffer (show 5 + 2 + topic.strlen ≤ 1024 by omega)
  have hlen : plength + (5 + 2 + topic.strlen) - 5 = 2 + topic.strlen + plength := by omega
  -- `buildHeader` takes the length as 16 bits
  obtain ⟨n, hn⟩ : ∃ n, n = (2 + topic.strlen + plength) % 65536 := ⟨_, rfl⟩
  obtain ⟨hpos, hle⟩ := length_remainingLength n
  have hheader := buildHeader_eq (publishType retained)
    (Buffer.overwrite s.buffer 5 (text.write topic.chars)) (show n < 128 ^ 4 by omega)
  have hslice := slice_buildHeader (publishType retained) n
    (Buffer.slice_overwrite s.buffer 5 (text.write topic.chars))
  have hstart : 5 - ((remainingLength n).length + 1) = 4 - (remainingLength n).length := by omega
  have hcount : 5 + 2 + topic.strlen - (4 - (remainingLength n).length) =
      (remainingLength n).length + 1 + (text.write topic.chars).length := by
    rw [length_text_chars]
    omega
  have hfront : (front topic retained n).length =
      (remainingLength n).length + 1 + (text.write topic.chars).length := by
    rw [length_front, length_text_chars]
    omega
  have hwrite := Client.write_eq_all hup
    (show (front topic retained n).length ≤ room by rw [length_front]; omega)
  have hread : Buffer.read 1024 (Buffer.overwrite
      (Buffer.overwrite s.buffer 5 (text.write topic.chars)) (4 - (remainingLength n).length)
      (publishType retained :: remainingLength n)) (4 - (remainingLength n).length)
      ((remainingLength n).length + 1 + (text.write topic.chars).length) =
        some (front topic retained n) := by
    rw [Buffer.read, if_pos (by rw [length_text_chars]; omega), hslice, front]
  refine ⟨Buffer.overwrite (Buffer.overwrite s.buffer 5 (text.write topic.chars))
    (4 - (remainingLength n).length) (publishType retained :: remainingLength n), ?_⟩
  rw [beginPublish, connected_of_true hup]
  simp only [MQTT_MAX_HEADER_SIZE, MQTT_MAX_PACKET_SIZE, hstring, Option.bind_eq_bind,
    Option.bind_some, hlen, ← hn, hheader, hstart, hcount, hread, hwrite, hfront, beq_self_eq_true]
  rfl

theorem beginPublish_eq_none {plength : ℕ} (hup : s.client.connected = true)
    (hsize : 1024 < 7 + topic.strlen) : beginPublish room now topic plength retained s = none := by
  have hstring : writeString topic s.buffer 5 = none := writeString_eq_none (by omega)
  rw [beginPublish, connected_of_true hup]
  simp only [hstring, Option.bind_eq_bind, Option.bind_none]

/-- The parts follow one another. -/
theorem foldl_writePart (now : UInt32) (s : PubSubClient) (hup : s.client.connected = true)
    (hroom : ∀ part ∈ parts, part.length ≤ room) :
    ∃ t, parts.foldl (fun s part => (s.writePart room now part).2) s =
      { s.took parts.flatten with lastOutActivity := t } := by
  induction parts generalizing s with
  | nil => exact ⟨s.lastOutActivity, by simp [took]⟩
  | cons part parts ih =>
      have hwrite := Client.write_eq_all hup (hroom part List.mem_cons_self)
      have hpart : (s.writePart room now part).2 = { s.took part with lastOutActivity := now } := by
        rw [writePart, hwrite, took]
      obtain ⟨t, hrest⟩ := ih { s.took part with lastOutActivity := now } hup
        fun p hp => hroom p (List.mem_cons_of_mem part hp)
      refine ⟨t, ?_⟩
      rw [List.foldl_cons, hpart, hrest, List.flatten_cons, took, took, List.append_assoc]
      rfl

/-- Nothing is written when the connection is lost. -/
theorem foldl_writePart_of_down (room : ℕ) (now : UInt32) (parts : List (List UInt8))
    (hdown : s.client.connected = false) :
    ∃ t, parts.foldl (fun s part => (s.writePart room now part).2) s =
      { s with lastOutActivity := t } := by
  induction parts generalizing s with
  | nil => exact ⟨s.lastOutActivity, rfl⟩
  | cons part parts ih =>
      have hpart : (s.writePart room now part).2 = { s with lastOutActivity := now } := by
        rw [writePart, Client.write, if_neg (by simp [hdown])]
      rw [List.foldl_cons, hpart]
      exact ih hdown

/-- A message whose length is announced too short leaves bytes of its payload in the
stream. -/
theorem read_front (topic : CStr) (payload : List UInt8) (retained : Bool) {m : ℕ}
    (hm : m ≤ remaining topic payload) (hlen : m < 128 ^ 4) (rest : List UInt8) :
    frame.read (front topic retained m ++ payload ++ rest) =
      some (⟨publishType retained, (text.write topic.chars ++ payload).take m⟩,
        (text.write topic.chars ++ payload).drop m ++ rest) := by
  have hbody : (text.write topic.chars ++ payload).length = remaining topic payload := by
    rw [List.length_append, length_text_chars, remaining]
  have htake : ((text.write topic.chars ++ payload).take m).length = m := by
    rw [List.length_take, hbody, Nat.min_eq_left hm]
  have hread := frame.read_write ⟨publishType retained, (text.write topic.chars ++ payload).take m⟩
    ((text.write topic.chars ++ payload).drop m ++ rest) (show _ < 128 ^ 4 by rwa [htake])
  have hwrite : frame.write ⟨publishType retained, (text.write topic.chars ++ payload).take m⟩ =
      publishType retained ::
        (remainingLength m ++ (text.write topic.chars ++ payload).take m) := by
    simp only [frame, htake]
  rw [← hread, hwrite, front]
  simp only [List.cons_append, List.append_assoc, ← List.append_assoc (List.take m _),
    List.take_append_drop]

/-- The parts of a message make up its packet exactly when the remaining length is
below 65536. In any case a reader takes as much of them as the 16 bits say, and goes on in
the middle of the payload. -/
theorem publishParts_packet_iff (hup : s.client.connected = true) (hsize : 7 + topic.strlen ≤ 1024)
    (hlen : remaining topic parts.flatten < 128 ^ 4) (hroom : 1024 ≤ room)
    (hparts : ∀ part ∈ parts, part.length ≤ room) :
    ∃ t bytes, publishParts room now topic parts retained s = some t ∧
      t.client.sent = s.client.sent ++ bytes ∧
      ((∀ rest, packet.read (bytes ++ rest) =
          some (.publish (messageOf topic parts.flatten retained), rest)) ↔
        remaining topic parts.flatten < 65536) ∧
      ∀ rest, frame.read (bytes ++ rest) =
        some (⟨publishType retained, (text.write topic.chars ++ parts.flatten).take
            (remaining topic parts.flatten % 65536)⟩,
          (text.write topic.chars ++ parts.flatten).drop
            (remaining topic parts.flatten % 65536) ++ rest) := by
  obtain ⟨buf, hbegin⟩ := beginPublish_eq now parts.flatten.length retained hup hsize hroom
  obtain ⟨t, hfold⟩ := foldl_writePart now { s.took (front topic retained
    (remaining topic parts.flatten % 65536)) with buffer := buf, lastOutActivity := now } hup hparts
  have hmod := Nat.mod_lt (remaining topic parts.flatten) (show 0 < 65536 by omega)
  have hframe := read_front topic parts.flatten retained
    (Nat.mod_le (remaining topic parts.flatten) 65536) (by omega)
  refine ⟨_, front topic retained (remaining topic parts.flatten % 65536) ++ parts.flatten,
    congrArg (Option.map _) hbegin, ?_, ?_, hframe⟩
  · rw [← List.append_assoc]
    exact congrArg (fun t : PubSubClient => t.client.sent) hfold
  · constructor
    · -- a reader that is given no more than the parts has some of them left
      intro hread
      by_contra hlong
      have hrest := hread []
      have hfirst := hframe []
      simp only [List.append_nil] at hrest hfirst
      simp only [packet, hfirst, Option.bind_some, Option.map_eq_some_iff, Prod.mk.injEq] at hrest
      obtain ⟨q, -, -, hdrop⟩ := hrest
      have hover := List.drop_eq_nil_iff.mp hdrop
      rw [List.length_append, length_text_chars] at hover
      unfold remaining at *
      omega
    · intro hshort rest
      rw [Nat.mod_eq_of_lt hshort, ← write_messageOf]
      exact packet.read_write _ rest (fits_messageOf (by omega) hlen)

theorem publishParts_packet_iff_contoh :
    ∃ t bytes, publishParts 1024 0 topicContoh [[1, 2], [3]] false (clientContoh true) = some t ∧
      t.client.sent = [] ++ bytes ∧
      ((∀ rest, packet.read (bytes ++ rest) =
          some (.publish (messageOf topicContoh [1, 2, 3] false), rest)) ↔
        remaining topicContoh [1, 2, 3] < 65536) ∧
      ∀ rest, frame.read (bytes ++ rest) =
        some (⟨publishType false, (text.write topicContoh.chars ++ [1, 2, 3]).take
            (remaining topicContoh [1, 2, 3] % 65536)⟩,
          (text.write topicContoh.chars ++ [1, 2, 3]).drop
            (remaining topicContoh [1, 2, 3] % 65536) ++ rest) :=
  publishParts_packet_iff rfl (by decide) (by decide) (by decide) (by decide)

end Parts

end PubSubClient

end EmsGateway.Mqtt
