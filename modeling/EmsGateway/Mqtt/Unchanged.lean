import EmsGateway.Mqtt.Session

/-!
What the calls of a client leave as it is, however their writes fare.
-/

namespace EmsGateway.Mqtt

open EmsGateway.Library

namespace PubSubClient

/-- Nothing is received, and a connection that stays open is left as it is. -/
structure Keeps (s s' : PubSubClient) : Prop where
  received : s'.received = s.received
  callback : s'.callback = s.callback
  up : s'.client.connected = true → s.client.connected = true ∧
    s'.client.incoming = s.client.incoming ∧ s'.state = s.state

theorem Keeps.refl (s : PubSubClient) : Keeps s s := ⟨rfl, rfl, fun h => ⟨h, rfl, rfl⟩⟩

theorem Keeps.trans {s u t : PubSubClient} (h : Keeps s u) (h' : Keeps u t) : Keeps s t where
  received := h'.received.trans h.received
  callback := h'.callback.trans h.callback
  up hup := by
    obtain ⟨hmid, hin', hstate'⟩ := h'.up hup
    obtain ⟨hopen, hin, hstate⟩ := h.up hmid
    exact ⟨hopen, hin'.trans hin, hstate'.trans hstate⟩

/-- A call at the time `now` that asks nothing of the broker. -/
structure Ticks (now : UInt32) (s s' : PubSubClient) : Prop extends Keeps s s' where
  lastIn : s'.client.connected = true → s'.lastInActivity = s.lastInActivity
  lastOut : s'.lastOutActivity = s.lastOutActivity ∨ s'.lastOutActivity = now
  pingOutstanding : s'.pingOutstanding = s.pingOutstanding

theorem Ticks.refl (now : UInt32) (s : PubSubClient) : Ticks now s s :=
  ⟨Keeps.refl s, fun _ => rfl, .inl rfl, rfl⟩

theorem Ticks.trans {now : UInt32} {s u t : PubSubClient} (h : Ticks now s u)
    (h' : Ticks now u t) : Ticks now s t where
  toKeeps := h.toKeeps.trans h'.toKeeps
  lastIn hup := (h'.lastIn hup).trans (h.lastIn (h'.up hup).1)
  lastOut := by
    obtain hsame | hnow := h'.lastOut
    · rw [hsame]
      exact h.lastOut
    · exact .inr hnow
  pingOutstanding := h'.pingOutstanding.trans h.pingOutstanding

theorem ticks_connected (now : UInt32) (s : PubSubClient) : Ticks now s s.connected.2 := by
  rw [connected]
  split
  · exact Ticks.refl now s
  · split
    · exact ⟨⟨rfl, rfl, (by rintro ⟨⟩)⟩, (by rintro ⟨⟩), .inl rfl, rfl⟩
    · exact Ticks.refl now s

/-- A call that does no more than write to the connection. -/
theorem ticks_of_client {now : UInt32} {s s' : PubSubClient}
    (hin : s'.client.incoming = s.client.incoming ∧ s'.client.connected = s.client.connected)
    (hsame : (s'.received, s'.callback, s'.state, s'.lastInActivity, s'.pingOutstanding) =
      (s.received, s.callback, s.state, s.lastInActivity, s.pingOutstanding))
    (hlast : s'.lastOutActivity = s.lastOutActivity ∨ s'.lastOutActivity = now) :
    Ticks now s s' := by
  obtain ⟨hreceived, hcallback, hstate, hlastIn, hping⟩ := by simpa using hsame
  exact ⟨⟨hreceived, hcallback, fun hup => ⟨hin.2.symm.trans hup, hin.1, hstate⟩⟩,
    fun _ => hlastIn, hlast, hping⟩

section Calls

variable {s s' : PubSubClient} {room : ℕ} {now : UInt32} {b : Bool}

theorem ticks_write {header : UInt8} {length : ℕ}
    (h : write room now header length s = some (b, s')) : Ticks now s s' := by
  obtain ⟨bytes, -, hpair⟩ := Option.map_eq_some_iff.mp h
  obtain ⟨-, rfl⟩ := Prod.mk.inj hpair
  exact ticks_of_client (incoming_write room bytes s.client) rfl (.inr rfl)

/-- What is built in the buffer does not change the rest. -/
theorem ticks_buffer (now : UInt32) (buffer : Buffer UInt8) (s : PubSubClient) :
    Ticks now s { s with buffer } :=
  ticks_of_client ⟨rfl, rfl⟩ rfl (.inl rfl)

theorem ticks_publish {topic : CStr} {payload : List UInt8} {retained : Bool}
    (h : publish room now topic payload retained s = some (b, s')) : Ticks now s s' := by
  have hconn := ticks_connected now s
  rw [publish] at h
  split at h
  · rename_i u hdown
    obtain ⟨-, rfl⟩ := Prod.mk.inj (Option.some.inj h)
    rwa [hdown] at hconn
  · rename_i u hup
    rw [hup] at hconn
    split at h
    · obtain ⟨-, rfl⟩ := Prod.mk.inj (Option.some.inj h)
      exact hconn
    · obtain ⟨⟨length, buf⟩, -, h⟩ := Option.bind_eq_some_iff.mp h
      obtain ⟨buf', -, h⟩ := Option.bind_eq_some_iff.mp h
      exact hconn.trans ((ticks_buffer now buf' u).trans (ticks_write h))

theorem ticks_newMsgId (now : UInt32) (s : PubSubClient) : Ticks now s s.newMsgId :=
  ticks_of_client ⟨rfl, rfl⟩ rfl (.inl rfl)

theorem ticks_subscribe {topic : CStr} {qos : UInt8}
    (h : subscribe room now topic qos s = some (b, s')) : Ticks now s s' := by
  have hconn := ticks_connected now s
  rw [subscribe] at h
  split at h
  · rw [← (Prod.mk.inj (Option.some.inj h)).2]
    exact Ticks.refl now s
  · split at h
    · rw [← (Prod.mk.inj (Option.some.inj h)).2]
      exact Ticks.refl now s
    · split at h
      · rename_i u hdown
        obtain ⟨-, rfl⟩ := Prod.mk.inj (Option.some.inj h)
        rwa [hdown] at hconn
      · rename_i u hup
        rw [hup] at hconn
        obtain ⟨buf, -, h⟩ := Option.bind_eq_some_iff.mp h
        obtain ⟨⟨length, buf'⟩, -, h⟩ := Option.bind_eq_some_iff.mp h
        obtain ⟨buf'', -, h⟩ := Option.bind_eq_some_iff.mp h
        exact hconn.trans ((ticks_newMsgId now u).trans
          ((ticks_buffer now buf'' u.newMsgId).trans (ticks_write h)))

theorem ticks_unsubscribe {topic : CStr}
    (h : unsubscribe room now topic s = some (b, s')) : Ticks now s s' := by
  have hconn := ticks_connected now s
  rw [unsubscribe] at h
  split at h
  · rw [← (Prod.mk.inj (Option.some.inj h)).2]
    exact Ticks.refl now s
  · split at h
    · rename_i u hdown
      obtain ⟨-, rfl⟩ := Prod.mk.inj (Option.some.inj h)
      rwa [hdown] at hconn
    · rename_i u hup
      rw [hup] at hconn
      obtain ⟨buf, -, h⟩ := Option.bind_eq_some_iff.mp h
      obtain ⟨⟨length, buf'⟩, -, h⟩ := Option.bind_eq_some_iff.mp h
      exact hconn.trans ((ticks_newMsgId now u).trans
        ((ticks_buffer now buf' u.newMsgId).trans (ticks_write h)))

theorem incoming_writeEach (each : ℕ → ℕ) (bytes : List UInt8) (c : Client) :
    (writeEach each bytes c).2.incoming = c.incoming ∧
      (writeEach each bytes c).2.connected = c.connected := by
  have hfold : ∀ (l : List (UInt8 × ℕ)) (p : ℕ × Client),
      (l.foldl (writeByte each) p).2.incoming = p.2.incoming ∧
        (l.foldl (writeByte each) p).2.connected = p.2.connected := by
    intro l
    induction l with
    | nil => exact fun p => ⟨rfl, rfl⟩
    | cons q l ih =>
        intro p
        obtain ⟨hin, hconn⟩ := incoming_write (each q.2) [q.1] p.2
        obtain ⟨hin', hconn'⟩ := ih (p.1 + (p.2.write (each q.2) [q.1]).1,
          (p.2.write (each q.2) [q.1]).2)
        exact ⟨hin'.trans hin, hconn'.trans hconn⟩
  exact hfold bytes.zipIdx (0, c)

theorem ticks_publish_P {each : ℕ → ℕ} {topic : CStr} {payload : List UInt8} {retained : Bool}
    (h : publish_P room each now topic payload retained s = some (b, s')) : Ticks now s s' := by
  have hconn := ticks_connected now s
  rw [publish_P] at h
  split at h
  · rename_i u hdown
    obtain ⟨-, rfl⟩ := Prod.mk.inj (Option.some.inj h)
    rwa [hdown] at hconn
  · rename_i u hup
    rw [hup] at hconn
    obtain ⟨buf, -, h⟩ := Option.bind_eq_some_iff.mp h
    obtain ⟨⟨pos, buf'⟩, -, h⟩ := Option.bind_eq_some_iff.mp h
    obtain ⟨bytes, -, h⟩ := Option.bind_eq_some_iff.mp h
    obtain ⟨-, rfl⟩ := Prod.mk.inj (Option.some.inj h)
    obtain ⟨hin, hopen⟩ := incoming_write room bytes u.client
    obtain ⟨hin', hopen'⟩ := incoming_writeEach each payload (u.client.write room bytes).2
    exact hconn.trans (ticks_of_client ⟨hin'.trans hin, hopen'.trans hopen⟩ rfl (.inr rfl))

theorem ticks_beginPublish {topic : CStr} {plength : ℕ} {retained : Bool}
    (h : beginPublish room now topic plength retained s = some (b, s')) : Ticks now s s' := by
  have hconn := ticks_connected now s
  rw [beginPublish] at h
  split at h
  · rename_i u hdown
    obtain ⟨-, rfl⟩ := Prod.mk.inj (Option.some.inj h)
    rwa [hdown] at hconn
  · rename_i u hup
    rw [hup] at hconn
    obtain ⟨⟨length, buf⟩, -, h⟩ := Option.bind_eq_some_iff.mp h
    obtain ⟨bytes, -, h⟩ := Option.bind_eq_some_iff.mp h
    obtain ⟨-, rfl⟩ := Prod.mk.inj (Option.some.inj h)
    exact hconn.trans (ticks_of_client (incoming_write room bytes u.client) rfl (.inr rfl))

theorem ticks_foldl_writePart (parts : List (List UInt8)) (s : PubSubClient) :
    Ticks now s (parts.foldl (fun s part => (s.writePart room now part).2) s) := by
  induction parts generalizing s with
  | nil => exact Ticks.refl now s
  | cons part parts ih =>
      have hpart : Ticks now s (s.writePart room now part).2 :=
        ticks_of_client (incoming_write room part s.client) rfl (.inr rfl)
      exact hpart.trans (ih _)

theorem ticks_publishParts {topic : CStr} {parts : List (List UInt8)} {retained : Bool}
    (h : publishParts room now topic parts retained s = some s') : Ticks now s s' := by
  obtain ⟨⟨b, u⟩, hbegin, rfl⟩ := Option.map_eq_some_iff.mp h
  exact (ticks_beginPublish hbegin).trans (ticks_foldl_writePart parts u)

/-- A connection is given up or kept. -/
theorem keeps_keepAlive (t : UInt32) (room : ℕ) (s : PubSubClient) :
    Keeps s (keepAlive t room s).2 := by
  rw [keepAlive]
  split
  · split
    · exact ⟨rfl, rfl, (by rintro ⟨⟩)⟩
    · obtain ⟨hin, hopen⟩ := incoming_write room [MQTTPINGREQ, 0] s.client
      exact ⟨rfl, rfl, fun hup => ⟨hopen.symm.trans hup, hin, rfl⟩⟩
  · exact Keeps.refl s

/-- Calls during which nothing comes in and nothing is taken. -/
def Call.Still : Call → Prop
  | .connect .. | .loop .. | .arrive _ => False
  | _ => True

theorem Call.still_or {a : Call} (hin : a.Within) :
    a.Still ∨ (∃ t ping room, a = .loop t ping room) ∨ ∃ bytes, a = .arrive bytes := by
  cases a with
  | connect => exact hin.elim
  | loop t ping room => exact .inr (.inl ⟨t, ping, room, rfl⟩)
  | arrive bytes => exact .inr (.inr ⟨bytes, rfl⟩)
  | _ => exact .inl trivial

/-- Every call reads the time `now`. -/
def Call.At (now : UInt32) : Call → Prop
  | .publish _ t .. | .publish_P _ _ t .. | .publishParts _ t .. | .subscribe _ t ..
  | .unsubscribe _ t _ | .loop t .. | .disconnect _ t => t = now
  | .connect .. | .connected | .arrive _ | .lose => True

theorem Call.exists_at (a : Call) : ∃ now, a.At now := by
  cases a <;> first | exact ⟨_, rfl⟩ | exact ⟨0, trivial⟩

theorem ticks_call {a : Call} (hstill : a.Still) (hat : a.At now)
    (h : session.step s a = some s') : Ticks now s s' := by
  cases a with
  | connect => exact hstill.elim
  | publish room t topic payload retained =>
      obtain rfl := hat
      obtain ⟨⟨b, u⟩, hpublish, rfl⟩ := Option.map_eq_some_iff.mp h
      exact ticks_publish hpublish
  | publish_P front room t topic payload retained =>
      obtain rfl := hat
      obtain ⟨⟨b, u⟩, hpublish, rfl⟩ := Option.map_eq_some_iff.mp h
      exact ticks_publish_P hpublish
  | publishParts room t topic parts retained =>
      obtain rfl := hat
      exact ticks_publishParts h
  | subscribe room t topic qos =>
      obtain rfl := hat
      obtain ⟨⟨b, u⟩, hsubscribe, rfl⟩ := Option.map_eq_some_iff.mp h
      exact ticks_subscribe hsubscribe
  | unsubscribe room t topic =>
      obtain rfl := hat
      obtain ⟨⟨b, u⟩, hunsubscribe, rfl⟩ := Option.map_eq_some_iff.mp h
      exact ticks_unsubscribe hunsubscribe
  | loop => exact hstill.elim
  | connected =>
      obtain rfl := Option.some.inj h
      exact ticks_connected now s
  | disconnect room t =>
      obtain rfl := hat
      obtain rfl := Option.some.inj h
      exact ⟨⟨rfl, rfl, (by rintro ⟨⟩)⟩, (by rintro ⟨⟩), .inr rfl, rfl⟩
  | arrive => exact hstill.elim
  | lose =>
      obtain rfl := Option.some.inj h
      exact ⟨⟨rfl, rfl, (by rintro ⟨⟩)⟩, (by rintro ⟨⟩), .inl rfl, rfl⟩

end Calls

/-- The same, when the time does not matter. -/
theorem keeps_call {a : Call} (hstill : a.Still) (h : session.step s a = some s') :
    Keeps s s' := by
  obtain ⟨now, hat⟩ := a.exists_at
  exact (ticks_call hstill hat h).toKeeps

/-! ### What `state()` says -/

section State

variable {s s' : PubSubClient} {t : UInt32} {room llen len : ℕ} {b : Bool}

theorem handle_up (h : handle t room llen len s = some s') :
    s'.client.connected = s.client.connected ∧ s'.state = s.state ∧
      s'.client.incoming = s.client.incoming := by
  rw [handle] at h
  split at h
  · split at h
    · have hcalled := called_of_callbackPublish h
      obtain ⟨-, -, hstate, -⟩ := by simpa only [Prod.mk.injEq] using hcalled.same
      obtain ⟨hclient, -⟩ | ⟨id, -, hclient, -⟩ := hcalled.answer
      · rw [hclient]
        exact ⟨rfl, hstate, rfl⟩
      · obtain ⟨hin, hup⟩ := incoming_write room (packet.write (.puback id)) s.client
        rw [hclient]
        exact ⟨hup, hstate, hin⟩
    · obtain rfl := Option.some.inj h
      exact ⟨rfl, rfl, rfl⟩
  · split at h
    · obtain rfl := Option.some.inj h
      obtain ⟨hin, hup⟩ := incoming_write room [MQTTPINGRESP, 0] s.client
      exact ⟨hup, rfl, hin⟩
    · split at h <;>
      · obtain rfl := Option.some.inj h
        exact ⟨rfl, rfl, rfl⟩

theorem receive_up (h : receive t room s = some (b, s')) (hup : s'.client.connected = true) :
    s.client.connected = true ∧ s'.state = s.state := by
  rw [receive] at h
  split at h
  · obtain ⟨-, rfl⟩ := Prod.mk.inj (Option.some.inj h)
    exact ⟨hup, rfl⟩
  · obtain ⟨hreads, -⟩ := quiet_readPacket s
    split at h
    · rename_i llen len u hread
      rw [hread] at hreads
      obtain ⟨v, hhandle, hpair⟩ := Option.map_eq_some_iff.mp h
      obtain ⟨-, rfl⟩ := Prod.mk.inj hpair
      obtain ⟨hopen, hstate, -⟩ := handle_up hhandle
      obtain ⟨hbefore, hsame⟩ := hreads.up (hopen.symm.trans hup)
      exact ⟨hbefore, hstate.trans hsame⟩
    · rename_i o u _ hread
      rw [hread] at hreads
      have hconn := reads_connected u
      rw [Option.some.inj h] at hconn
      exact (hreads.trans hconn).up hup

theorem loop_up {ping : ℕ} (h : loop t ping room s = some (b, s'))
    (hup : s'.client.connected = true) : s.client.connected = true ∧ s'.state = s.state := by
  rw [loop] at h
  have hconn := (ticks_connected 0 s).toKeeps
  split at h
  · rename_i u hdown
    rw [hdown] at hconn
    obtain ⟨-, rfl⟩ := Prod.mk.inj (Option.some.inj h)
    exact ⟨(hconn.up hup).1, (hconn.up hup).2.2⟩
  · rename_i u hopen
    obtain ⟨-, rfl⟩ := of_connected_eq_true hopen
    have hkeep := keeps_keepAlive t ping u
    split at h
    · rename_i v hfalse
      rw [hfalse] at hkeep
      obtain ⟨-, rfl⟩ := Prod.mk.inj (Option.some.inj h)
      exact ⟨(hkeep.up hup).1, (hkeep.up hup).2.2⟩
    · rename_i v htrue
      rw [htrue] at hkeep
      obtain ⟨hmid, hsame⟩ := receive_up h hup
      exact ⟨(hkeep.up hmid).1, hsame.trans (hkeep.up hmid).2.2⟩

theorem connect_up {d : Dial} {id : CStr} {user pass : Option CStr} {will : Option WillArgs}
    {cleanSession : Bool} (h : connect d id user pass will cleanSession s = some (b, s'))
    (hup : s'.client.connected = true) : s' = s ∨ s'.state = MQTT_CONNECTED := by
  have hconn := (ticks_connected 0 s).toKeeps
  rw [connect] at h
  split at h
  · rename_i u hopen
    obtain ⟨-, rfl⟩ := of_connected_eq_true hopen
    exact .inl (Prod.mk.inj (Option.some.inj h)).2.symm
  · rename_i u hdown
    split at h
    · obtain ⟨⟨fits, length, buf⟩, -, h⟩ := Option.bind_eq_some_iff.mp h
      cases fits with
      -- strings that do not fit stop the client
      | false =>
          obtain ⟨-, rfl⟩ := Prod.mk.inj (Option.some.inj h)
          cases hup
      | true =>
          obtain ⟨⟨b', v⟩, -, h⟩ := Option.bind_eq_some_iff.mp h
          have hspec := awaitConnack_spec d { v with
            lastInActivity := d.now, lastOutActivity := d.now }
          rw [Option.some.inj h] at hspec
          exact .inr (hspec.2.2 hup)
    · rw [hdown] at hconn
      obtain ⟨-, rfl⟩ := Prod.mk.inj (Option.some.inj h)
      have hopen := (hconn.up hup).1
      have hclosed : s.client.connected = false := by rw [← connected_fst, hdown]
      rw [hclosed] at hopen
      cases hopen

theorem up_of_call {a : Call} (hin : a.Within) (hstep : session.step s a = some s')
    (hup : s'.client.connected = true) : s.client.connected = true := by
  obtain hstill | ⟨t, ping, room, rfl⟩ | ⟨bytes, rfl⟩ := Call.still_or hin
  · exact ((keeps_call hstill hstep).up hup).1
  · obtain ⟨⟨b, u⟩, hloop, rfl⟩ := Option.map_eq_some_iff.mp hstep
    exact (loop_up hloop hup).1
  · exact (Option.ite_none_right_eq_some.mp hstep).1

theorem up_of_run {as : List Call} (hin : ∀ a ∈ as, a.Within)
    (hrun : session.run s as = some s') (hup : s'.client.connected = true) :
    s.client.connected = true := by
  induction as generalizing s with
  | nil =>
      obtain rfl := Option.some.inj hrun
      exact hup
  | cons a as ih =>
      obtain ⟨u, hstep, hrest⟩ := Machine.run_cons_eq_some.mp hrun
      obtain ⟨hfirst, hin⟩ := List.forall_mem_cons.mp hin
      exact up_of_call hfirst hstep (ih hin hrest)

/-- A connection that is open was accepted. -/
def Accepted (s : PubSubClient) : Prop := s.client.connected = true → s.state = MQTT_CONNECTED

theorem accepted_call {a : Call} (h : Accepted s) (hstep : session.step s a = some s') :
    Accepted s' := by
  intro hup
  by_cases hstill : a.Still
  · obtain ⟨hopen, -, hsame⟩ := (keeps_call hstill hstep).up hup
    exact hsame.trans (h hopen)
  · cases a with
    | connect d id user pass will cleanSession =>
        obtain ⟨⟨b, u⟩, hconnect, rfl⟩ := Option.map_eq_some_iff.mp hstep
        obtain hsame | hstate := connect_up hconnect hup
        · change u = s at hsame
          rw [hsame] at hup ⊢
          exact h hup
        · exact hstate
    | loop t ping room =>
        obtain ⟨⟨b, u⟩, hloop, rfl⟩ := Option.map_eq_some_iff.mp hstep
        obtain ⟨hopen, hsame⟩ := loop_up hloop hup
        exact hsame.trans (h hopen)
    | arrive bytes =>
        obtain ⟨hopen, hsome⟩ := Option.ite_none_right_eq_some.mp hstep
        obtain rfl := Option.some.inj hsome
        exact h hopen
    | _ => exact absurd trivial hstill

/-- In every run, after `connected()` the state says whether there is a connection. -/
theorem session_state {as : List Call} (hclosed : s.client.connected = false)
    (hrun : session.run s as = some s') :
    s'.connected.1 = true ↔ s'.connected.2.state = MQTT_CONNECTED := by
  have hstart : Accepted s := by
    intro hup
    rw [hclosed] at hup
    cases hup
  have hend : Accepted s' :=
    Machine.run_invariant (fun s a t h hstep => accepted_call h hstep) hstart hrun
  rw [connected]
  split
  · rename_i hup
    exact ⟨fun _ => hend hup, fun _ => rfl⟩
  · split
    · exact ⟨(by rintro ⟨⟩), (by rintro ⟨⟩)⟩
    · rename_i hne
      exact ⟨(by rintro ⟨⟩), fun heq => absurd heq hne⟩

theorem session_state_contoh :
    ∃ s', session.run (clientContoh false) callsContoh = some s' ∧
      (s'.connected.1 = true ↔ s'.connected.2.state = MQTT_CONNECTED) := by
  have hsome : (session.run (clientContoh false) callsContoh).isSome = true := by decide +kernel
  obtain ⟨s', hrun⟩ := Option.isSome_iff_exists.mp hsome
  exact ⟨s', hrun, session_state rfl hrun⟩

end State

end PubSubClient

end EmsGateway.Mqtt
