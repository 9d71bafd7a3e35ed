import EmsGateway.Library.Buffer
import EmsGateway.Mqtt.Packet

/-!
PubSubClient.cpp, the MQTT client of the sketches, with a `_client` and without a
`stream`. A call is `none` when it reads or writes beyond `buffer` itself. What a
callback does with the pointers and the length that it is given is not part of it.
-/

namespace EmsGateway.Mqtt

open EmsGateway.Library

abbrev MQTT_MAX_PACKET_SIZE : ℕ := 1024
abbrev MQTT_MAX_HEADER_SIZE : ℕ := 5
abbrev MQTT_KEEPALIVE : ℕ := 15
abbrev MQTT_CONNECTION_TIMEOUT : ℤ := -4
abbrev MQTT_CONNECTION_LOST : ℤ := -3
abbrev MQTT_CONNECT_FAILED : ℤ := -2
abbrev MQTT_DISCONNECTED : ℤ := -1
abbrev MQTT_CONNECTED : ℤ := 0

/-- A C string, without the zero that ends it. -/
structure CStr where
  chars : List UInt8
  noNul : 0 ∉ chars

def CStr.strlen (s : CStr) : ℕ := s.chars.length

/-- The TCP connection. -/
structure Client where
  connected : Bool
  /-- what comes in before the wait for a byte is given up -/
  incoming : List UInt8
  /-- what was taken since it was connected -/
  sent : List UInt8

namespace Client

/-- Writes bytes while there is room for them, and says how many were taken. -/
def write (room : ℕ) (bytes : List UInt8) (c : Client) : ℕ × Client :=
  if c.connected then (min room bytes.length, { c with sent := c.sent ++ bytes.take room })
  else (0, c)

def stop (c : Client) : Client := { c with connected := false, incoming := [] }

end Client

/-- What the callback is given. -/
structure Message where
  topic : List UInt8
  /-- the bytes behind the pointer, as far as they are in `buffer` -/
  payload : List UInt8
  /-- how many bytes it is told of -/
  length : ℕ
  deriving DecidableEq

structure PubSubClient where
  client : Client
  buffer : Buffer UInt8
  nextMsgId : UInt16
  lastOutActivity : UInt32
  lastInActivity : UInt32
  pingOutstanding : Bool
  /-- whether a callback is set -/
  callback : Bool
  state : ℤ
  /-- what the callback was given -/
  received : List Message

namespace PubSubClient

def stop (s : PubSubClient) : PubSubClient := { s with client := s.client.stop }

/-- `connected()` -/
def connected (s : PubSubClient) : Bool × PubSubClient :=
  if s.client.connected then (true, s)
  else if s.state = MQTT_CONNECTED then (false, { s with state := MQTT_CONNECTION_LOST }.stop)
  else (false, s)

/-! ### Packets that are built in the buffer -/

/-- The `do ... while (len > 0)` of `buildHeader` and of `publish_P`, for a `len` of
at most so many digits. -/
def digits : ℕ → ℕ → List UInt8
  | 0, _ => []
  | k + 1, len =>
      let digit := UInt8.ofNat (len % 128)
      let len := len / 128
      if 0 < len then (digit ||| 0x80) :: digits k len else [digit]

/-- The size of the header and the buffer with it. -/
def buildHeader (header : UInt8) (buf : Buffer UInt8) (length : ℕ) : ℕ × Buffer UInt8 :=
  let lenBuf := digits 4 length
  let llen := lenBuf.length
  let buf := Function.update buf (4 - llen) header
  (llen + 1, Buffer.overwrite buf (MQTT_MAX_HEADER_SIZE - llen) lenBuf)

/-- `write(header, buf, length)`, at the time `now`. -/
def write (room : ℕ) (now : UInt32) (header : UInt8) (length : ℕ) (s : PubSubClient) :
    Option (Bool × PubSubClient) :=
  let (hlen, buf) := buildHeader header s.buffer length
  (Buffer.read MQTT_MAX_PACKET_SIZE buf (MQTT_MAX_HEADER_SIZE - hlen) (length + hlen)).map
    fun bytes =>
      let (rc, client) := s.client.write room bytes
      (rc == hlen + length, { s with client, buffer := buf, lastOutActivity := now })

/-- Writes a string after its length; the position after it and the buffer. -/
def writeString (string : CStr) (buf : Buffer UInt8) (pos : ℕ) : Option (ℕ × Buffer UInt8) := do
  let i := string.strlen
  let buf ← Buffer.putAll MQTT_MAX_PACKET_SIZE buf (pos + 2) string.chars
  let pos := pos + 2 + i
  let buf ← Buffer.put MQTT_MAX_PACKET_SIZE buf (pos - i - 2) (UInt8.ofNat (i / 256))
  let buf ← Buffer.put MQTT_MAX_PACKET_SIZE buf (pos - i - 1) (UInt8.ofNat i)
  return (pos, buf)

/-- `header |= 1` -/
def publishType (retained : Bool) : UInt8 := if retained then MQTTPUBLISH ||| 1 else MQTTPUBLISH

def publish (room : ℕ) (now : UInt32) (topic : CStr) (payload : List UInt8) (retained : Bool)
    (s : PubSubClient) : Option (Bool × PubSubClient) :=
  match s.connected with
  | (false, s) => some (false, s)
  | (true, s) =>
      if MQTT_MAX_PACKET_SIZE < MQTT_MAX_HEADER_SIZE + 2 + topic.strlen + payload.length then
        some (false, s)
      else do
        let (length, buf) ← writeString topic s.buffer MQTT_MAX_HEADER_SIZE
        let buf ← Buffer.putAll MQTT_MAX_PACKET_SIZE buf length payload
        let length := length + payload.length
        write room now (publishType retained) (length - MQTT_MAX_HEADER_SIZE)
          { s with buffer := buf }

/-- `nextMsgId++`, and 1 after the last. -/
def newMsgId (s : PubSubClient) : PubSubClient :=
  let nextMsgId := s.nextMsgId + 1
  { s with nextMsgId := if nextMsgId = 0 then 1 else nextMsgId }

/-- The bytes of `nextMsgId`. -/
def msgIdBytes (s : PubSubClient) : List UInt8 :=
  [(s.nextMsgId >>> 8).toUInt8, (s.nextMsgId &&& 0xFF).toUInt8]

def subscribe (room : ℕ) (now : UInt32) (topic : CStr) (qos : UInt8) (s : PubSubClient) :
    Option (Bool × PubSubClient) :=
  if 1 < qos then some (false, s)
  else if MQTT_MAX_PACKET_SIZE < 9 + topic.strlen then some (false, s)
  else
    match s.connected with
    | (false, s) => some (false, s)
    | (true, s) => do
        let s := s.newMsgId
        let length := MQTT_MAX_HEADER_SIZE
        let buf ← Buffer.putAll MQTT_MAX_PACKET_SIZE s.buffer length s.msgIdBytes
        let (length, buf) ← writeString topic buf (length + 2)
        let buf ← Buffer.put MQTT_MAX_PACKET_SIZE buf length qos
        let length := length + 1
        write room now (MQTTSUBSCRIBE ||| MQTTQOS1) (length - MQTT_MAX_HEADER_SIZE)
          { s with buffer := buf }

def unsubscribe (room : ℕ) (now : UInt32) (topic : CStr) (s : PubSubClient) :
    Option (Bool × PubSubClient) :=
  if MQTT_MAX_PACKET_SIZE < 9 + topic.strlen then some (false, s)
  else
    match s.connected with
    | (false, s) => some (false, s)
    | (true, s) => do
        let s := s.newMsgId
        let length := MQTT_MAX_HEADER_SIZE
        let buf ← Buffer.putAll MQTT_MAX_PACKET_SIZE s.buffer length s.msgIdBytes
        let (length, buf) ← writeString topic buf (length + 2)
        write room now (MQTTUNSUBSCRIBE ||| MQTTQOS1) (length - MQTT_MAX_HEADER_SIZE)
          { s with buffer := buf }

/-- Two bytes at the front of the buffer, and their write. -/
def writeTwo (room : ℕ) (header : UInt8) (s : PubSubClient) : PubSubClient :=
  let buffer := Buffer.overwrite s.buffer 0 [header, 0]
  { s with buffer, client := (s.client.write room [header, 0]).2 }

/-- `disconnect()`, at the time `now`. -/
def disconnect (room : ℕ) (now : UInt32) (s : PubSubClient) : PubSubClient :=
  { (s.writeTwo room MQTTDISCONNECT).stop with
    state := MQTT_DISCONNECTED, lastInActivity := now, lastOutActivity := now }

/-! ### Messages that are written in parts -/

/-- Writes a byte, the `i`-th, and adds to `rc`. -/
def writeByte (room : ℕ → ℕ) (p : ℕ × Client) (q : UInt8 × ℕ) : ℕ × Client :=
  let n := p.2.write (room q.2) [q.1]
  (p.1 + n.1, n.2)

/-- Bytes that are written one by one; `room i` is the room for the `i`-th. -/
def writeEach (room : ℕ → ℕ) (bytes : List UInt8) (c : Client) : ℕ × Client :=
  bytes.zipIdx.foldl (writeByte room) (0, c)

/-- `publish_P`; `room i` is for the `i`-th byte of the payload. -/
def publish_P (front : ℕ) (room : ℕ → ℕ) (now : UInt32) (topic : CStr) (payload : List UInt8)
    (retained : Bool) (s : PubSubClient) : Option (Bool × PubSubClient) :=
  match s.connected with
  | (false, s) => some (false, s)
  | (true, s) => do
      let tlen := topic.strlen % 65536
      let len := digits 5 ((payload.length + 2 + tlen) % 2 ^ 32)
      let buf ← Buffer.putAll MQTT_MAX_PACKET_SIZE s.buffer 0 (publishType retained :: len)
      let (pos, buf) ← writeString topic buf (1 + len.length)
      let bytes ← Buffer.read MQTT_MAX_PACKET_SIZE buf 0 pos
      let (rc, client) := s.client.write front bytes
      let (rc', client) := writeEach room payload client
      return (rc + rc' == tlen + 4 + payload.length,
        { s with client, buffer := buf, lastOutActivity := now })

/-- `beginPublish`, for a payload of `plength` bytes. -/
def beginPublish (room : ℕ) (now : UInt32) (topic : CStr) (plength : ℕ) (retained : Bool)
    (s : PubSubClient) : Option (Bool × PubSubClient) :=
  match s.connected with
  | (false, s) => some (false, s)
  | (true, s) => do
      let (length, buf) ← writeString topic s.buffer MQTT_MAX_HEADER_SIZE
      let (hlen, buf) := buildHeader (publishType retained) buf
        ((plength + length - MQTT_MAX_HEADER_SIZE) % 65536)
      let start := MQTT_MAX_HEADER_SIZE - hlen
      let bytes ← Buffer.read MQTT_MAX_PACKET_SIZE buf start (length - start)
      let (rc, client) := s.client.write room bytes
      return (rc == length - start, { s with client, buffer := buf, lastOutActivity := now })

/-- `write(buffer, size)`, a part of the payload. -/
def writePart (room : ℕ) (now : UInt32) (bytes : List UInt8) (s : PubSubClient) :
    ℕ × PubSubClient :=
  let (rc, client) := s.client.write room bytes
  (rc, { s with client, lastOutActivity := now })

/-! ### Packets that are read into the buffer -/

/-- A part of `readPacket`: without a result it makes `readPacket` return 0. -/
def Reading (α : Type) := PubSubClient → Option α × PubSubClient

instance : Monad Reading where
  pure a s := (some a, s)
  bind x f s :=
    match x s with
    | (some a, s) => f a s
    | (none, s) => (none, s)

/-- `readByte(result)` -/
def readByte : Reading UInt8 := fun s =>
  match s.client.incoming with
  | [] => (none, s)
  | byte :: incoming => (some byte, { s with client := { s.client with incoming } })

/-- `buffer[i] = byte`, where `i` is below the size of the buffer. -/
def setCell (i : ℕ) (byte : UInt8) : Reading Unit := fun s =>
  (some (), { s with buffer := Function.update s.buffer i byte })

/-- `readByte(buffer, &len)`; the new `len` -/
def readByteAt (len : ℕ) : Reading ℕ := do
  let byte ← readByte
  setCell len byte
  return (len + 1) % 65536

/-- Lines 256-267 when `len` is `5 - k`; the new `len` and the `length`. -/
def readLength : ℕ → ℕ → ℕ → Reading (ℕ × ℕ)
  | 0, _, _ => fun s => (none, { s with state := MQTT_DISCONNECTED }.stop)
  | k + 1, length, multiplier => do
      let digit ← readByte
      setCell (4 - k) digit
      let length := (length + (digit &&& 127).toNat * multiplier) % 65536
      if digit &&& 128 ≠ 0 then readLength k length (multiplier * 128) else return (5 - k, length)

/-- Lines 282-293, for so many bytes; the new `len` -/
def readRest : ℕ → ℕ → Reading ℕ
  | 0, len => return len
  | n + 1, len => do
      let digit ← readByte
      if len < MQTT_MAX_PACKET_SIZE then setCell len digit
      readRest n ((len + 1) % 65536)

/-- `readPacket`; the `lengthLength` and the `len` -/
def readPacket : Reading (ℕ × ℕ) := do
  let header ← readByte
  setCell 0 header
  let isPublish := header &&& 0xF0 == MQTTPUBLISH
  let (len, length) ← readLength 4 0 1
  let lengthLength := len - 1
  if isPublish then
    let len ← readByteAt len
    let len ← readByteAt len
    let len ← readRest (length - 2) len
    return (lengthLength, if MQTT_MAX_PACKET_SIZE < len then 0 else len)
  else
    let len ← readRest length len
    return (lengthLength, if MQTT_MAX_PACKET_SIZE < len then 0 else len)

/-- An `int` as an `unsigned int`. -/
def unsignedInt (n : ℤ) : ℕ := (n % 2 ^ 32).toNat

/-- `callback(topic, payload, length)` with pointers into the buffer. A zero ends the
topic after `tl` bytes, if not before. -/
def callCallback (topic tl payload : ℕ) (length : ℤ) (s : PubSubClient) : PubSubClient :=
  let length := unsignedInt length
  { s with received := s.received ++
      [{ topic := (Buffer.slice s.buffer topic (tl + 1)).takeWhile (· ≠ 0)
         payload := Buffer.slice s.buffer payload (min length (MQTT_MAX_PACKET_SIZE - payload))
         length }] }

/-- Lines 329-349. -/
def callbackPublish (t : UInt32) (room llen len : ℕ) (s : PubSubClient) : Option PubSubClient := do
  let tl := (s.buffer (llen + 1)).toNat * 256 + (s.buffer (llen + 2)).toNat
  let moved ← Buffer.read MQTT_MAX_PACKET_SIZE s.buffer (llen + 3) tl
  let buf := Buffer.overwrite s.buffer (llen + 2) moved
  let buf ← Buffer.put MQTT_MAX_PACKET_SIZE buf (llen + 2 + tl) 0
  let s := { s with buffer := buf }
  let topic := llen + 2
  if buf 0 &&& 0x06 = MQTTQOS1 then
    let msgId ← Buffer.read MQTT_MAX_PACKET_SIZE buf (llen + 3 + tl) 2
    let payload := llen + 3 + tl + 2
    let s := s.callCallback topic tl payload (len - llen - 3 - tl - 2)
    let ack := [MQTTPUBACK, 2] ++ msgId
    return { s with
      buffer := Buffer.overwrite buf 0 ack, client := (s.client.write room ack).2,
      lastOutActivity := t }
  else
    let payload := llen + 3 + tl
    return s.callCallback topic tl payload (len - llen - 3 - tl)

/-- Lines 325-357, for a packet that was read. -/
def handle (t : UInt32) (room llen len : ℕ) (s : PubSubClient) : Option PubSubClient :=
  let s := { s with lastInActivity := t }
  let type := s.buffer 0 &&& 0xF0
  if type = MQTTPUBLISH then
    if s.callback then callbackPublish t room llen len s else some s
  else if type = MQTTPINGREQ then some (s.writeTwo room MQTTPINGRESP)
  else if type = MQTTPINGRESP then some { s with pingOutstanding := false }
  else some s

/-- Lines 305-318: nothing when the connection is given up. -/
def keepAlive (t : UInt32) (room : ℕ) (s : PubSubClient) : Bool × PubSubClient :=
  if 15000 < t - s.lastInActivity ∨ 15000 < t - s.lastOutActivity then
    if s.pingOutstanding then (false, { s with state := MQTT_CONNECTION_TIMEOUT }.stop)
    else (true, { s.writeTwo room MQTTPINGREQ with
      lastOutActivity := t, lastInActivity := t, pingOutstanding := true })
  else (true, s)

/-- Lines 319-363. -/
def receive (t : UInt32) (room : ℕ) (s : PubSubClient) : Option (Bool × PubSubClient) :=
  if s.client.incoming.isEmpty then some (true, s)
  else
    match readPacket s with
    | (some (llen, len + 1), s) => (handle t room llen (len + 1) s).map fun s => (true, s)
    | (_, s) => some s.connected

/-- `loop()` at the time `t`, with room for a PINGREQ and for an answer. -/
def loop (t : UInt32) (ping room : ℕ) (s : PubSubClient) : Option (Bool × PubSubClient) :=
  match s.connected with
  | (false, s) => some (false, s)
  | (true, s) =>
      match keepAlive t ping s with
      | (false, s) => some (false, s)
      | (true, s) => receive t room s

/-! ### The connection -/

/-- How `connect` fares. -/
structure Dial where
  /-- what `_client->connect` answers -/
  result : Bool
  room : ℕ
  /-- line 189 -/
  now : UInt32
  /-- what comes in after the CONNECT -/
  incoming : List UInt8
  /-- line 204 -/
  later : UInt32

/-- `willTopic`, `willQos`, `willRetain` and `willMessage`, when there is a will. -/
structure WillArgs where
  topic : CStr
  qos : UInt8
  retain : Bool
  message : CStr

/-- The strings of a CONNECT, in order. -/
def connectStrings (id : CStr) (user pass : Option CStr) (will : Option WillArgs) : List CStr :=
  id :: (match will with
    | some w => [w.topic, w.message]
    | none => []) ++
  match user with
  | some user => user :: pass.toList
  | none => []

/-- The byte `v`, lines 146-162. -/
def connectByte (user pass : Option CStr) (will : Option WillArgs) (cleanSession : Bool) : UInt8 :=
  let v : UInt8 := match will with
    | some w => (0x04 : UInt8) ||| w.qos <<< 3 ||| (if w.retain then (1 : UInt8) else 0) <<< 5
    | none => 0x00
  let v := if cleanSession then v ||| 0x02 else v
  match user with
  | some _ =>
      let v := v ||| 0x80
      if pass.isSome then v ||| (0x80 : UInt8) >>> 1 else v
  | none => v

/-- `CHECK_STRING_LENGTH` and `writeString`, one string after the other; whether all
fit, the position after them and the buffer. -/
def writeStrings : List CStr → ℕ → Buffer UInt8 → Option (Bool × ℕ × Buffer UInt8)
  | [], length, buf => some (true, length, buf)
  | string :: strings, length, buf =>
      if MQTT_MAX_PACKET_SIZE < length + 2 + string.strlen then some (false, length, buf)
      else (writeString string buf length).bind fun (length, buf) => writeStrings strings length buf

/-- Lines 131-185: whether the strings fit, the position after them and the buffer. -/
def buildConnect (id : CStr) (user pass : Option CStr) (will : Option WillArgs)
    (cleanSession : Bool) (buf : Buffer UInt8) : Option (Bool × ℕ × Buffer UInt8) :=
  let d := [0x00, 0x04, 0x4D, 0x51, 0x54, 0x54, 0x04]
  let v := connectByte user pass will cleanSession
  let front := d ++ [v, UInt8.ofNat (MQTT_KEEPALIVE / 256), UInt8.ofNat MQTT_KEEPALIVE]
  (Buffer.putAll MQTT_MAX_PACKET_SIZE buf MQTT_MAX_HEADER_SIZE front).bind fun buf =>
    writeStrings (connectStrings id user pass will) (MQTT_MAX_HEADER_SIZE + front.length) buf

/-- Lines 191-212, when the CONNECT was written. -/
def awaitConnack (d : Dial) (s : PubSubClient) : Bool × PubSubClient :=
  if d.incoming.isEmpty then (false, { s with state := MQTT_CONNECTION_TIMEOUT }.stop)
  else
    match readPacket { s with client := { s.client with incoming := d.incoming } } with
    | (some (_, 4), s) =>
        if s.buffer 3 = 0 then
          (true, { s with
            lastInActivity := d.later, pingOutstanding := false, state := MQTT_CONNECTED })
        else (false, { s with state := (s.buffer 3).toNat }.stop)
    | (_, s) => (false, s.stop)

def connect (d : Dial) (id : CStr) (user pass : Option CStr) (will : Option WillArgs)
    (cleanSession : Bool) (s : PubSubClient) : Option (Bool × PubSubClient) :=
  match s.connected with
  | (true, s) => some (true, s)
  | (false, s) =>
      if d.result then do
        let s := { s with client := ⟨true, [], []⟩, nextMsgId := 1 }
        let (fits, length, buf) ← buildConnect id user pass will cleanSession s.buffer
        let s := { s with buffer := buf }
        if fits then
          let (_, s) ← write d.room d.now MQTTCONNECT (length - MQTT_MAX_HEADER_SIZE) s
          awaitConnack d { s with lastInActivity := d.now, lastOutActivity := d.now }
        else
          return (false, s.stop)
      else some (false, { s with state := MQTT_CONNECT_FAILED })

end PubSubClient

end EmsGateway.Mqtt
