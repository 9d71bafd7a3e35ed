import EmsGateway.Library.Codec
import EmsGateway.Library.Varlen
import Mathlib.Data.Fintype.Option
import Mathlib.Data.Fintype.Prod

/-!
The packets of MQTT 3.1.1 that pass between the sketches and the broker: what
each says, and how it stands in the stream.
-/

namespace EmsGateway.Mqtt

open EmsGateway.Library

abbrev MQTTCONNECT : UInt8 := 0x10
abbrev MQTTPUBLISH : UInt8 := 0x30
abbrev MQTTPUBACK : UInt8 := 0x40
abbrev MQTTSUBSCRIBE : UInt8 := 0x80
abbrev MQTTUNSUBSCRIBE : UInt8 := 0xA0
abbrev MQTTPINGREQ : UInt8 := 0xC0
abbrev MQTTPINGRESP : UInt8 := 0xD0
abbrev MQTTDISCONNECT : UInt8 := 0xE0
abbrev MQTTQOS1 : UInt8 := 0x02

/-! ### Numbers and texts -/

/-- A number of two bytes, the high byte first. -/
def uint16 : Codec ℕ UInt8 where
  Fits n := n < 65536
  write n := [UInt8.ofNat (n / 256), UInt8.ofNat n]
  read
    | high :: low :: rest => some (high.toNat * 256 + low.toNat, rest)
    | _ => none
  read_write n rest hn := by
    have hsum : n / 256 % 256 * 256 + n % 256 = n := by omega
    simp [hsum]

/-- A text, its length before it. -/
def text : Codec (List UInt8) UInt8 where
  Fits s := s.length < 65536
  write s := uint16.write s.length ++ s
  read bs := (uint16.read bs).bind fun p =>
    if p.1 ≤ p.2.length then some (p.2.splitAt p.1) else none
  read_write s rest hs := by
    simp [List.append_assoc, uint16.read_write s.length _ hs]

@[simp] theorem length_uint16 (n : ℕ) : (uint16.write n).length = 2 := rfl

@[simp] theorem length_text (s : List UInt8) : (text.write s).length = 2 + s.length := by
  rw [text, List.length_append, length_uint16]

/-! ### Frames -/

/-- A packet as it stands in the stream: its first byte, and what comes after its
length. -/
structure Frame where
  header : UInt8
  body : List UInt8
  deriving DecidableEq

/-- The length of the body, in digits to the base 128. -/
def remainingLength (n : ℕ) : List UInt8 := (Varlen.encode 128 4 n).map UInt8.ofNat

theorem map_toNat_remainingLength (n : ℕ) :
    (remainingLength n).map UInt8.toNat = Varlen.encode 128 4 n := by
  have hdigit : ∀ d ∈ Varlen.encode 128 4 n, (UInt8.toNat ∘ UInt8.ofNat) d = id d := by
    intro d hd
    exact UInt8.toNat_ofNat_of_lt' (Varlen.lt_of_mem_encode (by omega) hd)
  rw [remainingLength, List.map_map, List.map_congr_left hdigit, List.map_id]

def frame : Codec Frame UInt8 where
  Fits f := f.body.length < 128 ^ 4
  write f := f.header :: (remainingLength f.body.length ++ f.body)
  read
    | [] => none
    | header :: bs =>
        (Varlen.decode 128 4 (bs.map UInt8.toNat)).bind fun p =>
          if p.1 ≤ (bs.drop p.2).length then
            some (⟨header, (bs.drop p.2).take p.1⟩, (bs.drop p.2).drop p.1)
          else none
  read_write f rest hf := by
    have hlen : (Varlen.encode 128 4 f.body.length).length =
        (remainingLength f.body.length).length := by
      rw [remainingLength, List.length_map]
    simp only [List.cons_append, List.append_assoc, List.map_append, map_toNat_remainingLength,
      Varlen.decode_encode (by omega) hf, Option.bind_some, hlen, List.drop_left]
    simp

theorem frame_write_ne_nil (f : Frame) : frame.write f ≠ [] := List.cons_ne_nil _ _

/-! ### CONNECT -/

/-- What is published when the client is gone. -/
structure Will where
  topic : List UInt8
  message : List UInt8
  qos : Fin 3
  retain : Bool
  deriving DecidableEq

/-- What a client says when it connects. A password comes with a user only. -/
structure Connect where
  id : List UInt8
  login : Option (List UInt8 × Option (List UInt8))
  will : Option Will
  cleanSession : Bool
  keepAlive : ℕ
  deriving DecidableEq

def Connect.user (c : Connect) : Option (List UInt8) := c.login.map Prod.fst

def Connect.pass (c : Connect) : Option (List UInt8) := c.login.bind Prod.snd

/-- The will says how it is published, the rest only whether it is there. -/
def connectFlags (will : Option (Fin 3 × Bool)) (cleanSession user pass : Bool) : UInt8 :=
  (match will with
    | some (qos, retain) =>
        (0x04 : UInt8) ||| UInt8.ofNat qos <<< 3 ||| (if retain then 0x20 else 0)
    | none => 0x00) |||
  (if cleanSession then 0x02 else 0) ||| (if user then 0x80 else 0) ||| (if pass then 0x40 else 0)

/-- How the will of the flags is published. -/
def willOf (flags : UInt8) : Option (Fin 3 × Bool) :=
  if h : (flags >>> 3 &&& 3).toNat < 3 then
    if flags &&& 0x04 != 0 then some (⟨_, h⟩, flags &&& 0x20 != 0) else none
  else none

theorem connectFlags_bits : ∀ (will : Option (Fin 3 × Bool)) (cleanSession user pass : Bool),
    let flags := connectFlags will cleanSession user pass
    willOf flags = will ∧ (flags &&& 0x02 != 0) = cleanSession ∧
      (flags &&& 0x80 != 0) = user ∧ (flags &&& 0x40 != 0) = pass := by
  decide

namespace Connect

def willTexts (c : Connect) : Option (List UInt8 × List UInt8) :=
  c.will.map fun w => (w.topic, w.message)

def flags (c : Connect) : UInt8 :=
  connectFlags (c.will.map fun w => (w.qos, w.retain)) c.cleanSession c.user.isSome c.pass.isSome

/-- The name of the protocol and its level. -/
def protocol : List UInt8 := [0x00, 0x04, 0x4D, 0x51, 0x54, 0x54, 0x04]

/-- What follows the protocol and the flags. -/
def rest (flags : UInt8) : Codec (ℕ × List UInt8 × Option (List UInt8 × List UInt8) ×
    Option (List UInt8) × Option (List UInt8)) UInt8 :=
  uint16.pair (text.pair (((text.pair text).opt (willOf flags).isSome).pair
    ((text.opt (flags &&& 0x80 != 0)).pair (text.opt (flags &&& 0x40 != 0)))))

/-- The texts have a length that can be written. -/
structure Fits (c : Connect) : Prop where
  keepAlive : c.keepAlive < 65536
  id : c.id.length < 65536
  will : ∀ w ∈ c.will, w.topic.length < 65536 ∧ w.message.length < 65536
  user : ∀ u ∈ c.user, u.length < 65536
  pass : ∀ p ∈ c.pass, p.length < 65536

theorem flags_bits (c : Connect) : willOf c.flags = (c.will.map fun w => (w.qos, w.retain)) ∧
    (c.flags &&& 0x02 != 0) = c.cleanSession ∧ (c.flags &&& 0x80 != 0) = c.user.isSome ∧
      (c.flags &&& 0x40 != 0) = c.pass.isSome :=
  connectFlags_bits _ c.cleanSession c.user.isSome c.pass.isSome

theorem Fits.rest {c : Connect} (h : c.Fits) :
    (rest c.flags).Fits (c.keepAlive, c.id, c.willTexts, c.user, c.pass) := by
  obtain ⟨hwill, -, huser, hpass⟩ := c.flags_bits
  refine ⟨h.keepAlive, h.id, ⟨?_, ?_⟩, ⟨huser.symm, h.user⟩, hpass.symm, h.pass⟩
  · rw [hwill]
    simp [willTexts]
  · rintro a ha
    obtain ⟨w, hw, rfl⟩ := Option.map_eq_some_iff.mp ha
    exact h.will w hw

/-- The body of a CONNECT. -/
def body : Codec Connect UInt8 where
  Fits := Fits
  write c := protocol ++ c.flags ::
    (Connect.rest c.flags).write (c.keepAlive, c.id, c.willTexts, c.user, c.pass)
  read bs :=
    match bs.splitAt 7 with
    | (name, flags :: bs) =>
        if name = protocol then
          ((Connect.rest flags).read bs).map fun ((keepAlive, id, will, user, pass), bs) =>
            ({ id, keepAlive, cleanSession := flags &&& 0x02 != 0,
               login := user.map fun u => (u, pass),
               will := will.bind fun w => (willOf flags).map fun f => ⟨w.1, w.2, f.1, f.2⟩ }, bs)
        else none
    | (_, []) => none
  read_write c bs h := by
    obtain ⟨hwill, hclean, -, -⟩ := c.flags_bits
    have hsplit : (protocol ++ (c.flags :: (Connect.rest c.flags).write
        (c.keepAlive, c.id, c.willTexts, c.user, c.pass)) ++ bs).splitAt 7 =
        (protocol, c.flags :: ((Connect.rest c.flags).write
          (c.keepAlive, c.id, c.willTexts, c.user, c.pass) ++ bs)) := by
      simp [protocol]
    simp only [hsplit, if_true, (Connect.rest c.flags).read_write _ bs h.rest, Option.map_some,
      hwill, hclean]
    obtain ⟨id, login, will, cleanSession, keepAlive⟩ := c
    cases will <;> rcases login with _ | ⟨user, pass⟩ <;> rfl

end Connect

/-! ### PUBLISH -/

/-- A message. It is acknowledged when it has a number. -/
structure Publish where
  topic : List UInt8
  payload : List UInt8
  id : Option ℕ
  retain : Bool
  dup : Bool
  deriving DecidableEq

def publishHeader (acknowledged retain dup : Bool) : UInt8 :=
  MQTTPUBLISH ||| (if dup then 0x08 else 0) ||| (if acknowledged then MQTTQOS1 else 0) |||
    (if retain then 0x01 else 0)

theorem publishHeader_bits : ∀ acknowledged retain dup : Bool,
    let header := publishHeader acknowledged retain dup
    header &&& 0xF0 = MQTTPUBLISH ∧ header &&& 0x04 = 0 ∧
      (header &&& MQTTQOS1 != 0) = acknowledged ∧ (header &&& 0x01 != 0) = retain ∧
        (header &&& 0x08 != 0) = dup := by
  decide

namespace Publish

def header (p : Publish) : UInt8 := publishHeader p.id.isSome p.retain p.dup

/-- What stands before the payload. -/
def front (acknowledged : Bool) : Codec (List UInt8 × Option ℕ) UInt8 :=
  text.pair (uint16.opt acknowledged)

def frame (p : Publish) : Frame where
  header := p.header
  body := (front p.id.isSome).write (p.topic, p.id) ++ p.payload

/-- The message of a frame, if it is one of quality of service 0 or 1. -/
def ofFrame (f : Frame) : Option Publish :=
  if f.header &&& 0xF0 = MQTTPUBLISH ∧ f.header &&& 0x04 = 0 then
    ((front (f.header &&& MQTTQOS1 != 0)).read f.body).map fun ((topic, id), payload) =>
      { topic, payload, id, retain := f.header &&& 0x01 != 0, dup := f.header &&& 0x08 != 0 }
  else none

/-- The topic and the number can be written. -/
structure Fits (p : Publish) : Prop where
  topic : p.topic.length < 65536
  id : ∀ n ∈ p.id, n < 65536

theorem ofFrame_frame {p : Publish} (h : p.Fits) : ofFrame p.frame = some p := by
  obtain ⟨htype, hqos, hid, hretain, hdup⟩ := publishHeader_bits p.id.isSome p.retain p.dup
  have hfits : (front p.id.isSome).Fits (p.topic, p.id) := ⟨h.topic, rfl, h.id⟩
  simp only [ofFrame, frame, header, htype, hqos, hid, hretain, hdup, and_self, if_true,
    (front p.id.isSome).read_write _ _ hfits, Option.map_some]

end Publish

/-! ### Packets -/

/-- What a client sends. -/
inductive Packet
  | connect (c : Connect)
  | publish (p : Publish)
  | puback (id : ℕ)
  | subscribe (id : ℕ) (topic : List UInt8) (qos : UInt8)
  | unsubscribe (id : ℕ) (topic : List UInt8)
  | pingreq
  | pingresp
  | disconnect
  deriving DecidableEq

namespace Packet

/-- The body of a SUBSCRIBE for one topic, without the quality of service. -/
def topicBody : Codec (ℕ × List UInt8) UInt8 := uint16.pair text

def toFrame : Packet → Frame
  | connect c => ⟨MQTTCONNECT, Connect.body.write c⟩
  | publish p => p.frame
  | puback id => ⟨MQTTPUBACK, uint16.write id⟩
  | subscribe id topic qos => ⟨MQTTSUBSCRIBE ||| MQTTQOS1, topicBody.write (id, topic) ++ [qos]⟩
  | unsubscribe id topic => ⟨MQTTUNSUBSCRIBE ||| MQTTQOS1, topicBody.write (id, topic)⟩
  | pingreq => ⟨MQTTPINGREQ, []⟩
  | pingresp => ⟨MQTTPINGRESP, []⟩
  | disconnect => ⟨MQTTDISCONNECT, []⟩

/-- The packet of type `p`, which has no body. -/
def bare (p : Packet) (body : List UInt8) : Option Packet := if body.isEmpty then some p else none

def ofFrame (f : Frame) : Option Packet :=
  if f.header &&& 0xF0 = MQTTPUBLISH then (Publish.ofFrame f).map publish
  else if f.header = MQTTCONNECT then (Connect.body.readExactly f.body).map connect
  else if f.header = MQTTPUBACK then (uint16.readExactly f.body).map puback
  else if f.header = MQTTSUBSCRIBE ||| MQTTQOS1 then
    (topicBody.read f.body).bind fun p =>
      match p.2 with
      | [qos] => some (subscribe p.1.1 p.1.2 qos)
      | _ => none
  else if f.header = MQTTUNSUBSCRIBE ||| MQTTQOS1 then
    (topicBody.readExactly f.body).map fun p => unsubscribe p.1 p.2
  else if f.header = MQTTPINGREQ then bare pingreq f.body
  else if f.header = MQTTPINGRESP then bare pingresp f.body
  else if f.header = MQTTDISCONNECT then bare disconnect f.body
  else none

/-- Its numbers and texts can be written. -/
def Fits : Packet → Prop
  | connect c => c.Fits
  | publish p => p.Fits
  | puback id => id < 65536
  | subscribe id topic _ | unsubscribe id topic => id < 65536 ∧ topic.length < 65536
  | _ => True

theorem ofFrame_toFrame {p : Packet} (h : p.Fits) : ofFrame p.toFrame = some p := by
  cases p with
  | connect c =>
      have hread : Connect.body.readExactly (Connect.body.write c) = some c :=
        Codec.readExactly_write h
      simp +decide [ofFrame, toFrame, hread]
  | publish p =>
      have htype : p.frame.header &&& 0xF0 = MQTTPUBLISH :=
        (publishHeader_bits p.id.isSome p.retain p.dup).1
      rw [ofFrame, toFrame, if_pos htype, Publish.ofFrame_frame h, Option.map_some]
  | puback id =>
      have hread : uint16.readExactly (uint16.write id) = some id := Codec.readExactly_write h
      simp +decide [ofFrame, toFrame, hread]
  | subscribe id topic qos =>
      have hread := topicBody.read_write (id, topic) [qos] h
      simp +decide [ofFrame, toFrame, hread]
  | unsubscribe id topic =>
      have hread : topicBody.readExactly (topicBody.write (id, topic)) = some (id, topic) :=
        Codec.readExactly_write h
      simp +decide [ofFrame, toFrame, hread]
  | pingreq => rfl
  | pingresp => rfl
  | disconnect => rfl

end Packet

/-- The packets, as they stand in the stream. -/
def packet : Codec Packet UInt8 where
  Fits p := p.Fits ∧ p.toFrame.body.length < 128 ^ 4
  write p := frame.write p.toFrame
  read bs := (frame.read bs).bind fun p => (Packet.ofFrame p.1).map fun q => (q, p.2)
  read_write p rest h := by
    rw [frame.read_write _ _ h.2, Option.bind_some, Packet.ofFrame_toFrame h.1, Option.map_some]

theorem packet_write_ne_nil (p : Packet) : packet.write p ≠ [] := frame_write_ne_nil p.toFrame

end EmsGateway.Mqtt
