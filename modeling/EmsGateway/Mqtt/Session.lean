import EmsGateway.Library.Machine
import EmsGateway.Mqtt.Calls

/-!
The life of a client: the calls of a sketch in any order, bytes that come in and a
connection that is lost at any moment.
-/

namespace EmsGateway.Mqtt

open EmsGateway.Library

namespace PubSubClient

/-- A call of the sketch, with how its writes fare, or what the network does. -/
inductive Call
  | connect (d : Dial) (id : CStr) (user pass : Option CStr) (will : Option WillArgs)
      (cleanSession : Bool)
  | publish (room : ℕ) (now : UInt32) (topic : CStr) (payload : List UInt8) (retained : Bool)
  | publish_P (front : ℕ) (room : ℕ → ℕ) (now : UInt32) (topic : CStr) (payload : List UInt8)
      (retained : Bool)
  | publishParts (room : ℕ) (now : UInt32) (topic : CStr) (parts : List (List UInt8))
      (retained : Bool)
  | subscribe (room : ℕ) (now : UInt32) (topic : CStr) (qos : UInt8)
  | unsubscribe (room : ℕ) (now : UInt32) (topic : CStr)
  | loop (t : UInt32) (ping room : ℕ)
  | connected
  | disconnect (room : ℕ) (now : UInt32)
  | arrive (bytes : List UInt8)
  | lose

/-- Bytes come in. -/
def arrive (bytes : List UInt8) (s : PubSubClient) : PubSubClient :=
  { s with client := { s.client with incoming := s.client.incoming ++ bytes } }

/-- The state after a call; none when the call leaves the buffer. -/
def call (s : PubSubClient) : Call → Option PubSubClient
  | .connect d id user pass will cleanSession =>
      (connect d id user pass will cleanSession s).map Prod.snd
  | .publish room now topic payload retained =>
      (publish room now topic payload retained s).map Prod.snd
  | .publish_P front room now topic payload retained =>
      (publish_P front room now topic payload retained s).map Prod.snd
  | .publishParts room now topic parts retained => publishParts room now topic parts retained s
  | .subscribe room now topic qos => (subscribe room now topic qos s).map Prod.snd
  | .unsubscribe room now topic => (unsubscribe room now topic s).map Prod.snd
  | .loop t ping room => (loop t ping room s).map Prod.snd
  | .connected => some s.connected.2
  | .disconnect room now => some (s.disconnect room now)
  | .arrive bytes => if s.client.connected then some (s.arrive bytes) else none
  | .lose => some s.stop

/-- A client in a network. -/
def session : Machine PubSubClient Call := ⟨call⟩

/-- The connection takes what the call writes, and the will has a quality of service. -/
def Call.Complete : Call → Prop
  | connect d _ _ _ will _ => 1024 ≤ d.room ∧ ∀ w ∈ will, w.qos ≤ 2
  | publish room .. | subscribe room .. | unsubscribe room .. => 1024 ≤ room
  | publish_P front room _ topic payload _ =>
      1024 ≤ front ∧ (∀ i, 0 < room i) ∧ remaining topic payload < 128 ^ 4
  | publishParts room _ topic parts _ => 1024 ≤ room ∧ (∀ part ∈ parts, part.length ≤ room) ∧
      remaining topic parts.flatten < 65536
  | loop _ ping room => 4 ≤ ping ∧ 4 ≤ room
  | disconnect room _ => 2 ≤ room
  | connected | arrive _ | lose => True

/-- The messages of a call that are sent, for `publish` when it says so. -/
def Call.published (s : PubSubClient) : Call → List Publish
  | publish room now topic payload retained =>
      if (PubSubClient.publish room now topic payload retained s).any Prod.fst then
        [messageOf topic payload retained]
      else []
  | publish_P _ _ _ topic payload retained =>
      if s.client.connected then [messageOf topic payload retained] else []
  | publishParts _ _ topic parts retained =>
      if s.client.connected then [messageOf topic parts.flatten retained] else []
  | _ => []

/-- The messages of a run. -/
def published : List Call → PubSubClient → List Publish
  | [], _ => []
  | a :: as, s => a.published s ++ ((session.step s a).map (published as)).getD []

/-- Any call but a connect. -/
def Call.Within : Call → Prop
  | connect .. => False
  | _ => True

/-! ### What one call sends -/

/-- Any call of the sketch but a connect and a loop. -/
theorem asks_call {s s' : PubSubClient} {a : Call} (hin : a.Within) (hloop : ∀ t ping room,
    a ≠ .loop t ping room) (hcomplete : a.Complete) (h : session.step s a = some s') :
    Asks s s' (a.published s) := by
  cases a with
  | connect => exact hin.elim
  | publish room now topic payload retained =>
      obtain ⟨⟨b, u⟩, hpublish, rfl⟩ := Option.map_eq_some_iff.mp h
      simp only [Call.published, hpublish, Option.any_some]
      exact sends_publish hcomplete hpublish
  | publish_P front room now topic payload retained =>
      obtain ⟨⟨b, u⟩, hpublish, rfl⟩ := Option.map_eq_some_iff.mp h
      exact sends_publish_P hcomplete.1 hcomplete.2.1 hcomplete.2.2 hpublish
  | publishParts room now topic parts retained =>
      exact sends_publishParts hcomplete.1 hcomplete.2.1 hcomplete.2.2 h
  | subscribe room now topic qos =>
      obtain ⟨⟨b, u⟩, hsubscribe, rfl⟩ := Option.map_eq_some_iff.mp h
      exact sends_subscribe hcomplete hsubscribe
  | unsubscribe room now topic =>
      obtain ⟨⟨b, u⟩, hunsubscribe, rfl⟩ := Option.map_eq_some_iff.mp h
      exact sends_unsubscribe hcomplete hunsubscribe
  | loop t ping room => exact absurd rfl (hloop t ping room)
  | connected =>
      obtain rfl := Option.some.inj h
      exact ⟨[], (reads_connected s).sends, rfl, rfl⟩
  | disconnect room now =>
      obtain rfl := Option.some.inj h
      exact sends_disconnect hcomplete
  | arrive bytes =>
      obtain ⟨hup, hsome⟩ := Option.ite_none_right_eq_some.mp h
      obtain rfl := Option.some.inj hsome
      exact ⟨[], Control.none.sends hup (List.append_nil _).symm rfl rfl fun _ => rfl, rfl, rfl⟩
  | lose =>
      obtain rfl := Option.some.inj h
      exact ⟨[], sends_closed rfl rfl rfl, rfl, rfl⟩

theorem sends_call {s s' : PubSubClient} {a : Call} (hin : a.Within) (hcomplete : a.Complete)
    (h : session.step s a = some s') :
    ∃ ps, Sends s s' ps ∧ ps.filterMap Packet.message = a.published s := by
  by_cases hloop : ∃ t ping room, a = .loop t ping room
  · obtain ⟨t, ping, room, rfl⟩ := hloop
    obtain ⟨⟨b, u⟩, hloop, rfl⟩ := Option.map_eq_some_iff.mp h
    exact sends_loop hcomplete.1 hcomplete.2 hloop
  · obtain ⟨ps, hsends, -, hms⟩ := asks_call hin
      (fun t ping room ha => hloop ⟨t, ping, room, ha⟩) hcomplete h
    exact ⟨ps, hsends, hms⟩

/-! ### The numbers of the requests -/

/-- The numbers of so many requests: 2, 3, ..., 65535, 1, 2, ... -/
def requestIds (n : ℕ) : List ℕ := (List.range n).map fun i => (i + 1) % 65535 + 1

theorem requestIds_succ (n : ℕ) : requestIds (n + 1) = requestIds n ++ [(n + 1) % 65535 + 1] := by
  rw [requestIds, List.range_succ, List.map_append]
  rfl

theorem newMsgId_toNat {s : PubSubClient} {n : ℕ} (h : s.nextMsgId.toNat = n % 65535 + 1) :
    s.newMsgId.nextMsgId.toNat = (n + 1) % 65535 + 1 := by
  have hadd : (s.nextMsgId + 1).toNat = (n % 65535 + 2) % 65536 := by
    rw [UInt16.toNat_add, h]
    rfl
  simp only [newMsgId]
  split
  · rename_i hzero
    rw [hzero, UInt16.toNat_zero] at hadd
    rw [UInt16.toNat_one]
    omega
  · rename_i hne
    have hpos : (s.nextMsgId + 1).toNat ≠ 0 := fun h => hne (UInt16.toNat_inj.mp h)
    omega

/-! ### The connection -/

section Connect

variable {d : Dial} {id : CStr} {user pass : Option CStr} {will : Option WillArgs}
  {cleanSession b : Bool} {c : Connect} {s s' : PubSubClient}

/-- Waiting for the answer sends nothing. -/
theorem awaitConnack_spec (d : Dial) (s : PubSubClient) :
    (awaitConnack d s).2.client.sent = s.client.sent ∧
      (awaitConnack d s).2.nextMsgId = s.nextMsgId ∧
        ((awaitConnack d s).2.client.connected = true → (awaitConnack d s).2.state = 0) := by
  rw [awaitConnack]
  split
  · exact ⟨rfl, rfl, (by rintro ⟨⟩)⟩
  · have hquiet := quiet_readPacket { s with client := { s.client with incoming := d.incoming } }
    split
    · rename_i u hread
      rw [hread] at hquiet
      split
      · exact ⟨hquiet.1.sent, hquiet.1.nextMsgId, fun _ => rfl⟩
      · exact ⟨hquiet.1.sent, hquiet.1.nextMsgId, (by rintro ⟨⟩)⟩
    · rename_i o u _ hread
      rw [hread] at hquiet
      exact ⟨hquiet.1.sent, hquiet.1.nextMsgId, (by rintro ⟨⟩)⟩

/-- What was sent since the connection was made: a CONNECT and the packets after it,
the requests among them numbered in order. -/
structure Opened (s : PubSubClient) (c : Connect) (ps : List Packet) : Prop where
  sent : s.client.sent = (.connect c :: ps).flatMap packet.write
  fits : packet.Fits (.connect c)
  later : ∀ p ∈ ps, p.Later
  requests : ∃ n, ps.filterMap Packet.requestId = requestIds n ∧
    s.nextMsgId.toNat = n % 65535 + 1

/-- A CONNECT is the first packet of its connection. -/
theorem opened_emit (s : PubSubClient) (buf : Buffer UInt8)
    (hroom : (packet.write (.connect c)).length ≤ d.room)
    (hfits : packet.Fits (.connect c)) :
    Opened (emit d.room d.now (Packet.connect c).toFrame buf s.dialed).2 c [] where
  sent := by
    rw [client_emit d.now buf rfl hroom, List.flatMap_singleton]
    rfl
  fits := hfits
  later := by simp
  requests := ⟨0, rfl, rfl⟩

theorem Opened.congr {u : PubSubClient} {ps : List Packet} (h : Opened s c ps)
    (hsent : u.client.sent = s.client.sent) (hid : u.nextMsgId = s.nextMsgId) : Opened u c ps where
  sent := hsent.trans h.sent
  fits := h.fits
  later := h.later
  requests := by
    rw [hid]
    exact h.requests

/-- The broker can read the stream. -/
theorem Opened.parse {ps : List Packet} (h : Opened s c ps) :
    packet.parse s.client.sent = some (.connect c :: ps) := by
  rw [h.sent]
  apply Codec.parse_flatMap packet_write_ne_nil
  rintro p (_ | ⟨_, hp⟩)
  · exact h.fits
  · exact (h.later p hp).fits

theorem strlen_le_texts {strings : List CStr} {string : CStr} (h : string ∈ strings) :
    string.strlen ≤ (texts strings).length := by
  induction strings with
  | nil => cases h
  | cons first strings ih =>
      rw [texts_cons, List.length_append, length_text_chars]
      rcases List.mem_cons.mp h with rfl | hrest
      · omega
      · have hle := ih hrest
        omega

/-- A CONNECT whose strings fit the buffer can be written. -/
theorem fits_connectOf (hqos : ∀ w ∈ will, w.qos ≤ 2) (hfits : Dialable id user pass will)
    (cleanSession : Bool) : packet.Fits (.connect (connectOf id user pass will cleanSession)) := by
  have hsmall {string : CStr} (hmem : string ∈ connectStrings id user pass will) :
      string.strlen < 65536 := by
    have hle := strlen_le_texts hmem
    rw [Dialable] at hfits
    omega
  have hsize := (buildConnect_eq_true hqos hfits cleanSession fun _ => 0).1
  have hbody : (Connect.body.write (connectOf id user pass will cleanSession)).length <
      128 ^ 4 := by
    omega
  -- the will, the user and the password may be missing
  refine ⟨⟨show (15 : ℕ) < 65536 by omega, hsmall (by simp [connectStrings]), ?_, ?_, ?_⟩, hbody⟩
  · rintro w hw
    obtain ⟨args, hargs, rfl⟩ := Option.map_eq_some_iff.mp hw
    obtain rfl := Option.mem_def.mp hargs
    exact ⟨hsmall (by simp [connectStrings]), hsmall (by simp [connectStrings])⟩
  · cases user with
    | none => simp [Connect.user, connectOf]
    | some u =>
        have hu : u.chars.length < 65536 := hsmall (by simp [connectStrings])
        simpa [Connect.user, connectOf] using hu
  · cases user with
    | none => simp [Connect.pass, connectOf]
    | some u =>
        cases pass with
        | none => simp [Connect.pass, connectOf]
        | some p =>
            have hp : p.chars.length < 65536 := hsmall (by simp [connectStrings])
            simpa [Connect.pass, connectOf] using hp

theorem connect_of_not_dialed (hdown : s.client.connected = false) (hdial : d.result = false) :
    connect d id user pass will cleanSession s =
      some (false, { s.connected.2 with state := MQTT_CONNECT_FAILED }) := by
  rw [connect, connected_of_false hdown]
  simp only [hdial, Bool.false_eq_true, if_false]

/-- A CONNECT that is sent opens the stream. -/
theorem opened_of_connect (hdown : s.client.connected = false) (hdial : d.result = true)
    (hroom : 1024 ≤ d.room) (hqos : ∀ w ∈ will, w.qos ≤ 2) (hfits : Dialable id user pass will)
    (h : connect d id user pass will cleanSession s = some (b, s')) :
    Opened s' (connectOf id user pass will cleanSession) [] := by
  obtain ⟨buf, hconnect⟩ := connect_eq_await hdown hdial hqos hfits cleanSession
  have hwrite : (packet.write (.connect (connectOf id user pass will cleanSession))).length ≤
      d.room := by
    have hsize := (buildConnect_eq_true hqos hfits cleanSession fun _ => 0).1
    exact Nat.le_trans (length_frame_le (Nat.le_of_add_le_add_left hsize)) hroom
  have hopened := opened_emit s buf hwrite (fits_connectOf hqos hfits cleanSession)
  obtain ⟨hsent, hid, -⟩ := awaitConnack_spec d { (emit d.room d.now
    (Packet.connect (connectOf id user pass will cleanSession)).toFrame buf s.dialed).2 with
      lastInActivity := d.now }
  rw [hconnect] at h
  rw [Option.some.inj h] at hsent hid
  exact hopened.congr hsent hid

/-- A client that connects opens its stream with the CONNECT, or stays closed. -/
theorem connect_spec (hdown : s.client.connected = false) (hroom : 1024 ≤ d.room)
    (hqos : ∀ w ∈ will, w.qos ≤ 2)
    (h : connect d id user pass will cleanSession s = some (b, s')) :
    s'.client.connected = false ∧ s'.client.sent = s.client.sent ∧ s'.nextMsgId = s.nextMsgId ∨
    s'.client.connected = false ∧ s'.client.sent = [] ∨
    Opened s' (connectOf id user pass will cleanSession) [] := by
  cases hdial : d.result with
  | false =>
      rw [connect_of_not_dialed hdown hdial] at h
      obtain ⟨-, rfl⟩ := Prod.mk.inj (Option.some.inj h)
      have hreads := reads_connected s
      exact .inl ⟨closed_connected hdown, hreads.sent, hreads.nextMsgId⟩
  | true =>
      by_cases hfits : Dialable id user pass will
      · exact .inr (.inr (opened_of_connect hdown hdial hroom hqos hfits h))
      · obtain ⟨buf, hconnect⟩ := connect_eq_stop hdown hdial hfits cleanSession
        rw [hconnect] at h
        obtain rfl := (Prod.mk.inj (Option.some.inj h)).2
        exact .inr (.inl ⟨rfl, rfl⟩)

/-- A CONNECT whose strings fit is sent, whatever its will. -/
theorem exists_awaitConnack (hdown : s.client.connected = false) (hdial : d.result = true)
    (hfits : Dialable id user pass will) (cleanSession : Bool) :
    ∃ u, u.client.connected = true ∧ u.received = s.received ∧
      connect d id user pass will cleanSession s = some (awaitConnack d u) := by
  have hbuild := (buildConnect_eq id user pass will cleanSession s.dialed.buffer).trans
    (writeStrings_eq_true hfits)
  obtain ⟨n, hn⟩ : ∃ n, n = 10 + (texts (connectStrings id user pass will)).length := ⟨_, rfl⟩
  have hpos : 15 + (texts (connectStrings id user pass will)).length = 5 + n := by omega
  obtain ⟨buf, hbuf⟩ : ∃ buf, buf = Buffer.overwrite (Buffer.overwrite s.dialed.buffer 5
      (Connect.protocol ++ connectByte user pass will cleanSession :: uint16.write MQTT_KEEPALIVE))
        15 (texts (connectStrings id user pass will)) := ⟨_, rfl⟩
  rw [← hbuf, hpos] at hbuild
  have hlen : (Buffer.slice buf 5 n).length = n := Buffer.length_slice buf 5 n
  have hsize : 5 + n ≤ 1024 := by
    rw [Dialable] at hfits
    omega
  obtain ⟨buf', hwrite⟩ := write_eq_emit d.room d.now MQTTCONNECT s.dialed
    (show Buffer.slice buf 5 (Buffer.slice buf 5 n).length = Buffer.slice buf 5 n by rw [hlen])
    (by omega)
  rw [hlen] at hwrite
  refine ⟨{ (emit d.room d.now ⟨MQTTCONNECT, Buffer.slice buf 5 n⟩ buf' s.dialed).2 with
    lastInActivity := d.now }, (incoming_write d.room _ s.dialed.client).2,
    (reads_connected s).received, ?_⟩
  rw [connect, connected_of_false hdown]
  simp only [hdial, if_true, MQTT_MAX_HEADER_SIZE]
  refine (congrArg (Option.bind · _) hbuild).trans ?_
  simp only [Option.bind_some, Nat.add_sub_cancel_left, if_true]
  exact congrArg (Option.bind · _) hwrite

/-- What is taken for a yes: a packet of four bytes, as far as 16 bits tell, the last of
them zero. -/
def Accepting (bytes : List UInt8) : Prop :=
  ∃ p ∈ taken bytes, p.len = 4 ∧ bytes[p.size - 1]? = some 0

/-- Neither the type nor the length is looked at. -/
example : (taken [0x20, 0x81, 0x00, 0x00]).map Taken.len = some 4 ∧
    (taken [0x30, 0x00, 0x20, 0x00]).map Taken.len = some 4 := by
  decide

/-- Line 203 reads the last byte of such a packet. -/
theorem cell_three {bytes : List UInt8} {p : Taken} (h : taken bytes = some p) (hfour : p.len = 4)
    (s : PubSubClient) : (s.holding p).buffer 3 = 0 ↔ bytes[p.size - 1]? = some 0 := by
  have hlast := last_of_taken h (by omega) (by omega)
  have hlt : 3 < p.cells.length := by
    have hle := Nat.mod_le p.size 65536
    rw [length_cells_of_taken h]
    rw [Taken.len] at hfour
    omega
  rw [hfour] at hlast
  rw [← hlast, List.getElem?_eq_getElem hlt, cell_holding hlt, Option.some.injEq]

theorem awaitConnack_accepts (d : Dial) (hup : s.client.connected = true) :
    (awaitConnack d s).2.client.connected = (awaitConnack d s).1 ∧
      ((awaitConnack d s).1 = true ↔ Accepting d.incoming) := by
  obtain ⟨u, hu⟩ : ∃ u : PubSubClient,
    u = { s with client := { s.client with incoming := d.incoming } } := ⟨_, rfl⟩
  have hin : u.client.incoming = d.incoming := by rw [hu]
  rw [awaitConnack, ← hu]
  cases htaken : taken d.incoming with
  | none =>
      have hnot : ¬Accepting d.incoming := by
        rintro ⟨p, hp, -⟩
        rw [htaken] at hp
        cases hp
      split
      · exact ⟨rfl, iff_of_false Bool.false_ne_true hnot⟩
      · have hfst := readPacket_eq_none (hin ▸ htaken)
        split
        · rename_i v hread
          rw [hread] at hfst
          cases hfst
        · exact ⟨rfl, iff_of_false Bool.false_ne_true hnot⟩
  | some p =>
      have hne : ¬d.incoming.isEmpty = true := by
        intro hnil
        rw [List.isEmpty_iff.mp hnil] at htaken
        cases htaken
      have hyes : Accepting d.incoming ↔ p.len = 4 ∧ d.incoming[p.size - 1]? = some 0 := by
        constructor
        · rintro ⟨q, hq, hlen, hlast⟩
          rw [htaken] at hq
          obtain rfl := Option.some.inj hq
          exact ⟨hlen, hlast⟩
        · exact fun h => ⟨p, htaken, h⟩
      rw [if_neg hne, readPacket_eq (hin ▸ htaken), hyes]
      by_cases hfour : p.len = 4
      · rw [hfour]
        simp only [if_neg (show ¬1024 < 4 by omega), cell_three htaken hfour]
        split
        · rename_i hzero
          exact ⟨by rw [holding, hu]; exact hup, by simp [hzero]⟩
        · rename_i hzero
          exact ⟨rfl, iff_of_false Bool.false_ne_true fun h => hzero h.2⟩
      · -- what `readPacket` returns is not 4 either, were it 0
        have hlen : (if 1024 < p.len then 0 else p.len) ≠ 4 := by
          split
          · omega
          · exact hfour
        split
        · rename_i v hread
          exact absurd (Prod.mk.inj (Option.some.inj (Prod.mk.inj hread).1)).2 hlen
        · exact ⟨rfl, iff_of_false Bool.false_ne_true fun h => hfour h.1⟩

/-- `connect` says whether there is a connection. -/
theorem fst_of_connect (h : connect d id user pass will cleanSession s = some (b, s')) :
    b = s'.client.connected := by
  obtain hup | hdown := Bool.eq_false_or_eq_true s.client.connected
  · rw [connect, connected_of_true hup] at h
    obtain ⟨rfl, rfl⟩ := Prod.mk.inj (Option.some.inj h)
    exact hup.symm
  · cases hdial : d.result with
    | false =>
        rw [connect_of_not_dialed hdown hdial] at h
        obtain ⟨rfl, rfl⟩ := Prod.mk.inj (Option.some.inj h)
        exact (closed_connected hdown).symm
    | true =>
        by_cases hfits : Dialable id user pass will
        · obtain ⟨u, hopen, -, hconnect⟩ := exists_awaitConnack hdown hdial hfits cleanSession
          have hpair := Option.some.inj (hconnect.symm.trans h)
          have hanswer := (awaitConnack_accepts d hopen).1
          rw [hpair] at hanswer
          exact hanswer.symm
        · obtain ⟨buf, hconnect⟩ := connect_eq_stop hdown hdial hfits cleanSession
          obtain ⟨rfl, rfl⟩ := Prod.mk.inj (Option.some.inj (hconnect.symm.trans h))
          rfl

/-- `connect` says whether there is a connection that the broker has accepted, as the
client sees it. It sends nothing but the CONNECT asked for, and not even that when the
strings do not fit the buffer. -/
theorem connect_accepted (hdown : s.client.connected = false) :
    ∃ s', connect d id user pass will cleanSession s = some (s'.client.connected, s') ∧
      (s'.client.connected = true ↔
        d.result = true ∧ Dialable id user pass will ∧ Accepting d.incoming) ∧
      (d.result = false → s'.client.sent = s.client.sent) ∧
      (d.result = true → 1024 ≤ d.room → (∀ w ∈ will, w.qos ≤ 2) →
        packet.parse s'.client.sent = some (if Dialable id user pass will then
          [.connect (connectOf id user pass will cleanSession)] else [])) := by
  cases hdial : d.result with
  | false =>
      have hreads := reads_connected s
      have hclosed := closed_connected hdown
      refine ⟨{ s.connected.2 with state := MQTT_CONNECT_FAILED }, ?_, ?_, ?_, ?_⟩
      · rw [connect_of_not_dialed hdown hdial]
        exact congrArg (fun b => some (b, _)) hclosed.symm
      · rw [hclosed]
        simp
      · exact fun _ => hreads.sent
      · rintro ⟨⟩
  | true =>
      by_cases hfits : Dialable id user pass will
      · obtain ⟨u, hup, -, hconnect⟩ := exists_awaitConnack hdown hdial hfits cleanSession
        obtain ⟨hconn, hanswer⟩ := awaitConnack_accepts d hup
        refine ⟨(awaitConnack d u).2, ?_, ?_, (by rintro ⟨⟩), ?_⟩
        · rw [hconnect, hconn]
        · rw [hconn, hanswer, and_iff_right rfl, and_iff_right hfits]
        · intro _ hroom hqos
          rw [if_pos hfits]
          exact (opened_of_connect hdown hdial hroom hqos hfits hconnect).parse
      · obtain ⟨buf, hconnect⟩ := connect_eq_stop hdown hdial hfits cleanSession
        refine ⟨{ s.dialed with buffer := buf }.stop, hconnect, ?_, (by rintro ⟨⟩), ?_⟩
        · exact iff_of_false Bool.false_ne_true fun h => hfits h.2.1
        · intro _ _ _
          rw [if_neg hfits]
          rfl

/-- A broker that takes the CONNECT and accepts it. -/
def dialContoh : Dial := ⟨true, 1024, 0, [0x20, 2, 0, 0], 0⟩

theorem connect_accepted_contoh :
    ∃ s', connect dialContoh topicContoh none none none true (clientContoh false) =
        some (s'.client.connected, s') ∧
      (s'.client.connected = true ↔
        true = true ∧ Dialable topicContoh none none none ∧ Accepting [0x20, 2, 0, 0]) ∧
      (true = false → s'.client.sent = []) ∧
      (true = true → 1024 ≤ 1024 → (∀ w ∈ (none : Option WillArgs), w.qos ≤ 2) →
        packet.parse s'.client.sent = some (if Dialable topicContoh none none none then
          [.connect (connectOf topicContoh none none none true)] else [])) :=
  connect_accepted rfl

end Connect

/-! ### Every run -/

section Runs

variable {s s' : PubSubClient} {as : List Call}

/-- A client that was never connected. -/
structure Fresh (s : PubSubClient) : Prop where
  closed : s.client.connected = false
  sent : s.client.sent = []

/-- Nothing was sent on the connection, or what a CONNECT has opened. -/
def Orderly (s : PubSubClient) : Prop := Fresh s ∨ ∃ c ps, Opened s c ps

/-- Packets are sent behind those of the connection. -/
theorem Opened.sends {c : Connect} {ps qs : List Packet} (h : Opened s c ps) (h' : Sends s s' qs) :
    Opened s' c (ps ++ qs) where
  sent := by
    rw [h'.sent, h.sent, List.flatMap_cons, List.flatMap_cons, List.flatMap_append,
      List.append_assoc]
  fits := h.fits
  later p hp := by
    obtain hp | hp := List.mem_append.mp hp
    · exact h.later p hp
    · exact h'.later p hp
  requests := by
    obtain ⟨n, hids, hnext⟩ := h.requests
    rw [List.filterMap_append, hids]
    obtain ⟨hnone, hid⟩ | ⟨hone, hid⟩ := h'.numbered
    · refine ⟨n, ?_, ?_⟩
      · rw [hnone, List.append_nil]
      · rw [hid, hnext]
    · refine ⟨n + 1, ?_, ?_⟩
      · rw [hone, hid, newMsgId_toNat hnext, requestIds_succ]
      · rw [hid, newMsgId_toNat hnext]

theorem Fresh.sends {ps : List Packet} (h : Fresh s) (h' : Sends s s' ps) : Fresh s' ∧ ps = [] := by
  have hnil : ps = [] := by
    by_contra hne
    have hup := h'.opened hne
    rw [h.closed] at hup
    cases hup
  refine ⟨⟨?_, ?_⟩, hnil⟩
  · by_contra hopen
    have hup := (h'.up (by simpa using hopen)).1
    rw [h.closed] at hup
    cases hup
  · rw [h'.sent, h.sent, hnil]
    rfl

theorem Orderly.sends {ps : List Packet} (h : Orderly s) (h' : Sends s s' ps) : Orderly s' := by
  obtain hfresh | ⟨c, qs, hopened⟩ := h
  · exact .inl (hfresh.sends h').1
  · exact .inr ⟨c, qs ++ ps, hopened.sends h'⟩

/-- One call, of whatever kind, keeps the stream in order. -/
theorem orderly_call {a : Call} (h : Orderly s) (hcomplete : a.Complete)
    (hstep : session.step s a = some s') : Orderly s' := by
  cases a with
  | connect d id user pass will cleanSession =>
      obtain ⟨⟨b, u⟩, hconnect, rfl⟩ := Option.map_eq_some_iff.mp hstep
      rcases Bool.eq_false_or_eq_true s.client.connected with hup | hdown
      · rw [connect, connected_of_true hup] at hconnect
        obtain rfl := (Prod.mk.inj (Option.some.inj hconnect)).2
        exact h
      · obtain ⟨hclosed, hsent, hid⟩ | ⟨hclosed, hsent⟩ | hopened :=
          connect_spec hdown hcomplete.1 hcomplete.2 hconnect
        · obtain hfresh | ⟨c, ps, hopened⟩ := h
          · exact .inl ⟨hclosed, hsent.trans hfresh.sent⟩
          · exact .inr ⟨c, ps, hopened.congr hsent hid⟩
        · exact .inl ⟨hclosed, hsent⟩
        · exact .inr ⟨_, [], hopened⟩
  | _ =>
      obtain ⟨ps, hsends, -⟩ := sends_call (by exact trivial) hcomplete hstep
      exact h.sends hsends

theorem orderly_run (hfresh : Fresh s) (hcomplete : ∀ a ∈ as, a.Complete)
    (hrun : session.run s as = some s') : Orderly s' := by
  have halong : session.Along (fun _ a => a.Complete) s as := by
    apply Machine.along_of_visits
    intro bs a t hpre _
    exact hcomplete a (hpre.subset (by simp))
  exact halong.run_invariant (fun s a t h hc hstep => orderly_call h hc hstep) (.inl hfresh) hrun

/-- A client that connects, subscribes, publishes and is sent a message. -/
def callsContoh : List Call :=
  [.connect dialContoh topicContoh none none none true, .subscribe 1024 1 topicContoh 1,
    .publish 1024 2 topicContoh [1, 2] false, .arrive [0x30, 5, 0, 2, 97, 98, 7], .loop 3 4 4]

end Runs

end PubSubClient

end EmsGateway.Mqtt
