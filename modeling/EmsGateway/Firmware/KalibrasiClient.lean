import EmsGateway.Firmware.Kalibrasi
import EmsGateway.Library.Utf8
import EmsGateway.Mqtt.EndToEnd
import EmsGateway.Mqtt.Safety

/-!
Kalibrasi_Sensor_ESP32.ino over PubSubClient.cpp: the sketch with the client it calls
and the bytes that pass, and what of it the sketch by itself says.
-/

namespace EmsGateway.Firmware.Kalibrasi

open EmsGateway.Library EmsGateway.Mqtt EmsGateway.Mqtt.PubSubClient

/-- A string as the client sees it, up to its first zero. -/
def cstr (s : String) : CStr where
  chars := (Utf8.bytes s).takeWhile (· ≠ 0)
  noNul h := by simpa using List.mem_takeWhile_imp h

/-- The board with its client. -/
structure Alat (τ : Type) where
  pc : Pc
  client : PubSubClient
  ram : Ram
  temp : CFloat τ
  hum : CFloat τ

/-- What happens next to the board, or in the network. -/
inductive Gerak (τ : Type)
  /-- line 49, whether the status is `WL_CONNECTED` -/
  | status (up : Bool)
  /-- line 61 -/
  | connected
  /-- line 64 -/
  | connect (d : Dial)
  /-- line 151 -/
  | clientLoop (t : UInt32) (ping room : ℕ)
  /-- line 152 -/
  | rtc (now : DateTime)
  /-- line 153, the two readings -/
  | sensor (temperature humidity : CFloat τ)
  /-- lines 155-156 -/
  | publish (room : ℕ) (now : UInt32)
  /-- line 158 -/
  | delay
  /-- bytes come in -/
  | arrive (bytes : List UInt8)
  /-- the connection is lost -/
  | lose

/-- The connection takes what the client writes. -/
def Gerak.Complete {τ : Type} : Gerak τ → Prop
  | connect d => 1024 ≤ d.room
  | clientLoop _ ping room => 4 ≤ ping ∧ 4 ≤ room
  | publish room _ => 1024 ≤ room
  | _ => True

variable {τ : Type}

/-- The board without what the client keeps, when it was sent these payloads. -/
def Alat.papan (s : Alat τ) (sent : List String) : Papan τ :=
  ⟨s.pc, s.client.client.connected, s.ram, s.temp, s.hum, sent⟩

/-! ### The payload as a C string -/

theorem cstr_chars {s : String} (h : Utf8.NoNul s) : (cstr s).chars = Utf8.bytes s := by
  apply List.takeWhile_eq_self_iff.mpr
  intro byte hbyte
  rw [decide_eq_true_iff]
  rintro rfl
  exact h.zero_notMem_bytes hbyte

theorem strlen_cstr {s : String} (h : Utf8.NoNul s) : (cstr s).strlen = s.utf8ByteSize := by
  rw [CStr.strlen, cstr_chars h, Utf8.length_bytes]

theorem nul_notMem_cstring (m : Memory) (n a : ℕ) : '\x00' ∉ m.cstring n a := by
  induction n generalizing a with
  | zero => simp [Memory.cstring]
  | succ n ih =>
      rw [Memory.cstring]
      split
      · simp
      · rename_i hne
        intro hmem
        obtain heq | hrest := List.mem_cons.mp hmem
        · exact hne heq.symm
        · exact ih (a + 1) hrest

theorem noNul_string (r : Ram) (a : ℕ) : Utf8.NoNul (r.string a) := by
  rw [Utf8.NoNul, Ram.string, String.toList_ofList]
  exact nul_notMem_cstring r.memory (2 ^ 32) a

theorem noNul_toText (desimal : τ → Json.Number) (x : CFloat τ) :
    Utf8.NoNul (x.toText fun x => (desimal x).toString) := by
  cases x with
  | nan =>
      show Utf8.NoNul "nan"
      decide
  | finite x =>
      rw [Utf8.NoNul, CFloat.toText, Json.Number.toString, String.toList_ofList]
      intro hmem
      have hchar := List.all_eq_true.mp (desimal x).chars _ hmem
      revert hchar
      decide

theorem noNul_jsonData {client device temperature humidity times date : String}
    (hclient : Utf8.NoNul client) (hdevice : Utf8.NoNul device)
    (htemp : Utf8.NoNul temperature) (hhum : Utf8.NoNul humidity)
    (htimes : Utf8.NoNul times) (hdate : Utf8.NoNul date) :
    Utf8.NoNul (jsonData client device temperature humidity times date) := by
  unfold jsonData
  exact (((((((((((Utf8.NoNul.append (by decide) hclient).append (by decide)).append
    hdevice).append (by decide)).append htemp).append (by decide)).append hhum).append
    (by decide)).append hdate).append (by decide)).append htimes).append (by decide)

theorem noNul_payload (desimal : τ → Json.Number) (s : Papan τ) (r : Ram) (times date : ℕ) :
    Utf8.NoNul (payload desimal s (r.string times) (r.string date)) :=
  noNul_jsonData (by decide) (by decide) (noNul_toText desimal s.temp)
    (noNul_toText desimal s.hum) (noNul_string r times) (noNul_string r date)

section Sketch

variable [Add τ] [Neg τ] [Zero τ] [OfScientific τ]

/-- The board after a reset, with a client that was never connected. -/
def Alat.boot (memory : Memory) (client : PubSubClient) : Alat τ :=
  ⟨.wifi, client, ⟨memory, []⟩, .finite 0, .finite 0⟩

/-- What the sketch does next, with these credentials. A call that leaves the buffer of
the client is not a step. -/
def sketchClient (al : Alamat) (desimal : τ → Json.Number) (mqttUser mqttPassword : CStr) :
    Machine (Alat τ) (Gerak τ) where
  step s a :=
    match s.pc, a with
    | _, .arrive bytes =>
        if s.client.client.connected then some { s with client := s.client.arrive bytes } else none
    | _, .lose =>
        if s.client.client.connected then some { s with client := s.client.stop } else none
    | .wifi, .status up => some { s with pc := if up then .guard else .wifi }
    | .guard, .connected =>
        let (up, client) := s.client.connected
        some { s with pc := if up then .loop else .connect, client }
    | .connect, .connect d =>
        (s.client.connect d (cstr device_id) (some mqttUser) (some mqttPassword) none true).map
          fun (_, client) => { s with pc := .guard, client }
    | .loop, .clientLoop t ping room =>
        (s.client.loop t ping room).map fun (_, client) => { s with pc := .rtc, client }
    | .rtc, .rtc now => some { s with pc := .sensor, ram := RTC al now s.ram }
    | .sensor, .sensor temperature humidity =>
        some { s with
          pc := .publish, temp := temperature + kalibrasi_temp, hum := humidity + kalibrasi_hum }
    | .publish, .publish room now =>
        let value := payload desimal (s.papan []) (s.ram.string al.times) (s.ram.string al.date)
        (s.client.publish room now (cstr topic) (cstr value).chars false).map
          fun (_, client) => { s with pc := .delay, client }
    | .delay, .delay => some { s with pc := .loop }
    | _, _ => none

omit [Add τ] [Neg τ] [Zero τ] [OfScientific τ] in
/-- What a step is to the sketch, which sees what the calls of its client return and
whether the connection is lost. -/
def langkah (al : Alamat) (desimal : τ → Json.Number) (mqttUser mqttPassword : CStr)
    (s : Alat τ) : Gerak τ → List (Langkah τ)
  | .status up => [.status up]
  | .connected => [.connected]
  | .connect d =>
      let answer :=
        s.client.connect d (cstr device_id) (some mqttUser) (some mqttPassword) none true
      [.connect (answer.any Prod.fst)]
  | .clientLoop t ping room =>
      let up := (s.client.loop t ping room).any fun (_, client) => client.client.connected
      if up = s.client.client.connected then [.clientLoop] else [.putus, .clientLoop]
  | .rtc now => [.rtc now]
  | .sensor temperature humidity => [.sensor temperature humidity]
  | .publish room now =>
      let value := payload desimal (s.papan []) (s.ram.string al.times) (s.ram.string al.date)
      [.publish ((s.client.publish room now (cstr topic) (cstr value).chars false).any Prod.fst)]
  | .delay => [.delay]
  | .arrive _ => []
  | .lose => [.putus]

/-- What a run of the board is to the sketch. -/
abbrev langkahs (al : Alamat) (desimal : τ → Json.Number) (mqttUser mqttPassword : CStr)
    (s : Alat τ) (as : List (Gerak τ)) : List (Langkah τ) :=
  (sketchClient al desimal mqttUser mqttPassword).image
    (langkah al desimal mqttUser mqttPassword) s as

/-! ### What is on the wire -/

/-- The message of a payload. -/
def kirim (value : String) : Publish := messageOf (cstr topic) (cstr value).chars false

/-- The messages that the client has sent are the payloads, and in `setup` there are
none. -/
structure Wire (s : Alat τ) (sent : List String) : Prop where
  setup : s.pc.Setup → sent = []
  sized : ∀ value ∈ sent, Utf8.NoNul value ∧ 7 + topic.utf8ByteSize + value.utf8ByteSize ≤ 1024
  stream : Fresh s.client ∧ sent = [] ∨
    ∃ c ps, Opened s.client c ps ∧ ps.filterMap Packet.message = sent.map kirim

omit [Add τ] [Neg τ] [Zero τ] [OfScientific τ] in
/-- A call of the client sends more payloads. -/
theorem Wire.call {s s' : Alat τ} {sent more : List String} {a : Call} (h : Wire s sent)
    (hin : a.Within) (hcomplete : a.Complete) (hcall : session.step s.client a = some s'.client)
    (hmore : a.published s.client = more.map kirim) (hsetup : s'.pc.Setup → s.pc.Setup ∧ more = [])
    (hsized : ∀ value ∈ more,
      Utf8.NoNul value ∧ 7 + topic.utf8ByteSize + value.utf8ByteSize ≤ 1024) :
    Wire s' (sent ++ more) where
  sized value hvalue := by
    obtain hbefore | hnew := List.mem_append.mp hvalue
    · exact h.sized value hbefore
    · exact hsized value hnew
  setup hpc := by
    obtain ⟨hbefore, rfl⟩ := hsetup hpc
    rw [h.setup hbefore]
    rfl
  stream := by
    obtain ⟨ps, hsends, hms⟩ := sends_call hin hcomplete hcall
    rw [hmore] at hms
    obtain ⟨hfresh, rfl⟩ | ⟨c, qs, hopened, hqs⟩ := h.stream
    · obtain ⟨hfresh', rfl⟩ := hfresh.sends hsends
      have hnil : more = [] := List.map_eq_nil_iff.mp hms.symm
      exact .inl ⟨hfresh', by rw [hnil]; rfl⟩
    · refine .inr ⟨c, qs ++ ps, hopened.sends hsends, ?_⟩
      rw [List.filterMap_append, hqs, hms, List.map_append]

omit [Add τ] [Neg τ] [Zero τ] [OfScientific τ] in
/-- A step that calls nothing. -/
theorem Wire.same {s s' : Alat τ} {sent : List String} (h : Wire s sent)
    (hclient : s'.client = s.client) (hsetup : s'.pc.Setup → s.pc.Setup) : Wire s' sent where
  setup hpc := h.setup (hsetup hpc)
  sized := h.sized
  stream := by
    rw [hclient]
    exact h.stream

omit [Add τ] [Neg τ] [Zero τ] [OfScientific τ] in
/-- `client.connect` is called in `setup`. -/
theorem Wire.connect {s s' : Alat τ} {sent : List String} {d : Dial} {user pass : CStr} {b : Bool}
    (h : Wire s sent) (hpc : s.pc.Setup) (hroom : 1024 ≤ d.room)
    (hconnect : s.client.connect d (cstr device_id) (some user) (some pass) none true =
      some (b, s'.client)) : Wire s' sent where
  setup _ := h.setup hpc
  sized := h.sized
  stream := by
    have hnil := h.setup hpc
    rcases Bool.eq_false_or_eq_true s.client.client.connected with hup | hdown
    · rw [PubSubClient.connect, connected_of_true hup] at hconnect
      rw [← (Prod.mk.inj (Option.some.inj hconnect)).2]
      exact h.stream
    · obtain ⟨hclosed, hsent, hid⟩ | ⟨hclosed, hsent⟩ | hopened :=
        connect_spec hdown hroom (by simp) hconnect
      · obtain ⟨hfresh, -⟩ | ⟨c, ps, hopened, hps⟩ := h.stream
        · exact .inl ⟨⟨hclosed, hsent.trans hfresh.sent⟩, hnil⟩
        · exact .inr ⟨c, ps, hopened.congr hsent hid, hps⟩
      · exact .inl ⟨⟨hclosed, hsent⟩, hnil⟩
      · exact .inr ⟨_, [], hopened, by rw [hnil]; rfl⟩

/-! ### The refinement -/

variable {al : Alamat} {desimal : τ → Json.Number} {user pass : CStr}

theorem run_one {s t : Papan τ} {a : Langkah τ} (h : (sketch al desimal).step s a = some t) :
    (sketch al desimal).run s [a] = some t := Machine.run_cons_eq_some.mpr ⟨t, h, rfl⟩

omit [Add τ] [Neg τ] [Zero τ] [OfScientific τ] in
theorem of_clientPublish {connected write : Bool} {value : String}
    (h : clientPublish connected write topic value = true) :
    connected = true ∧ 7 + topic.utf8ByteSize + value.utf8ByteSize ≤ 1024 := by
  simp only [clientPublish, Bool.and_eq_true, decide_eq_true_eq] at h
  exact ⟨h.1.1, by omega⟩

omit [Add τ] [Neg τ] [Zero τ] [OfScientific τ] in
/-- `client.publish` does what the sketch relies on, whether the packet is written whole
or not. -/
theorem publish_eq_clientPublish {s s' : PubSubClient} {room : ℕ} {now : UInt32} {value : String}
    {b : Bool} (hnul : Utf8.NoNul value)
    (h : s.publish room now (cstr topic) (cstr value).chars false = some (b, s')) :
    clientPublish s.client.connected b topic value = b := by
  have htopic : (cstr topic).strlen = topic.utf8ByteSize := strlen_cstr (by decide)
  have hvalue : (cstr value).chars.length = value.utf8ByteSize := strlen_cstr hnul
  obtain ⟨⟨hup, hsize⟩, -⟩ | ⟨-, rfl, -⟩ := publish_cases h
  · have hfits : ¬1024 < 5 + 2 + topic.utf8ByteSize + value.utf8ByteSize := by omega
    rw [clientPublish, hup, decide_eq_true hfits, Bool.true_and, Bool.true_and]
  · rw [clientPublish, Bool.and_false]

/-- A `client.loop` that closes the connection is two steps of the sketch. -/
theorem run_langkah_clientLoop {s : Alat τ} {client : PubSubClient} {t : UInt32} {ping room : ℕ}
    {b : Bool} (sent : List String) (hpc : s.pc = .loop)
    (hloop : s.client.loop t ping room = some (b, client)) :
    (sketch al desimal).run (s.papan sent)
        (langkah al desimal user pass s (.clientLoop t ping room)) =
      some (({ s with pc := .rtc, client } : Alat τ).papan sent) := by
  simp only [langkah, hloop, Option.any_some]
  by_cases hsame : client.client.connected = s.client.client.connected
  · rw [if_pos hsame]
    apply run_one
    simp only [sketch, Alat.papan, hpc, hsame]
  · -- a loop opens no connection, so this one was open and has been given up
    have hdown : client.client.connected = false := by
      apply Bool.eq_false_iff.mpr
      exact fun hup => hsame (hup.trans (loop_up hloop hup).1.symm)
    have hup : s.client.client.connected = true := by
      rw [hdown] at hsame
      simpa using hsame
    rw [if_neg hsame]
    refine Machine.run_cons_eq_some.mpr
      ⟨{ s.papan sent with connected := false }, if_pos hup, run_one ?_⟩
    simp only [sketch, Alat.papan, hpc, hdown]

/-- What `client.publish` returns decides whether the sketch counts its payload as sent. -/
theorem run_langkah_publish {s : Alat τ} {client : PubSubClient} {room : ℕ} {now : UInt32}
    {value : String} {b : Bool} (sent : List String) (hpc : s.pc = .publish)
    (hvalue : value =
      payload desimal (s.papan []) (s.ram.string al.times) (s.ram.string al.date))
    (hpublish : s.client.publish room now (cstr topic) (cstr value).chars false = some (b, client))
    (hok : clientPublish s.client.client.connected b topic value = b) :
    (sketch al desimal).run (s.papan sent)
        (langkah al desimal user pass s (.publish room now)) =
      some (({ s with pc := .delay, client } : Alat τ).papan
        (sent ++ if b then [value] else [])) := by
  have hconn := connected_publish hpublish
  have hpayload : payload desimal (s.papan sent) (s.ram.string al.times)
      (s.ram.string al.date) = value := hvalue.symm
  simp only [langkah, ← hvalue, hpublish, Option.any_some]
  apply run_one
  simp only [Alat.papan, hpc] at hpayload
  simp only [sketch, Alat.papan, hpc, hpayload, hconn, hok]
  cases b with
  | true => rfl
  | false => simp

/-- Each step of the board with its client is a step of the sketch, or two when the client
gives up its connection, or none. When the connection takes what is written, the payloads
that are counted as sent are on the wire. -/
theorem simulates {s s' : Alat τ} (sent : List String) {a : Gerak τ}
    (hstep : (sketchClient al desimal user pass).step s a = some s') :
    ∃ more, (sketch al desimal).run (s.papan sent) (langkah al desimal user pass s a) =
        some (s'.papan (sent ++ more)) ∧
      (a.Complete → Wire s sent → Wire s' (sent ++ more)) := by
  simp only [sketchClient] at hstep
  split at hstep
  case h_1 bytes =>
      -- the sketch does not see what comes in
      obtain ⟨hup, hsome⟩ := Option.ite_none_right_eq_some.mp hstep
      obtain rfl := Option.some.inj hsome
      have hcall : session.step s.client (.arrive bytes) = some (s.client.arrive bytes) :=
        if_pos hup
      refine ⟨[], ?_, fun _ h => h.call (a := .arrive bytes) trivial trivial
        hcall rfl (fun hpc => ⟨hpc, rfl⟩) (List.forall_mem_nil _)⟩
      rw [List.append_nil]
      rfl
  case h_2 =>
      -- the connection is lost under the client, and so for the sketch
      obtain ⟨hup, hsome⟩ := Option.ite_none_right_eq_some.mp hstep
      obtain rfl := Option.some.inj hsome
      refine ⟨[], ?_, fun _ h => h.call (a := .lose) trivial trivial rfl rfl
        (fun hpc => ⟨hpc, rfl⟩) (List.forall_mem_nil _)⟩
      apply run_one
      rw [List.append_nil]
      exact if_pos hup
  case h_3 up hpc =>
      obtain rfl := Option.some.inj hstep
      refine ⟨[], run_one ?_, fun _ h => ?_⟩
      · simp only [sketch, Alat.papan, hpc, List.append_nil]
      · rw [List.append_nil]
        exact h.same rfl fun _ => by simp [hpc, Pc.Setup]
  case h_4 hpc =>
      have hs : s' = { s with
          pc := if s.client.client.connected then .loop else .connect,
          client := s.client.connected.2 } := by
        rw [← connected_fst]
        exact (Option.some.inj hstep).symm
      subst hs
      refine ⟨[], run_one ?_, fun _ h => h.call (a := .connected) trivial trivial rfl rfl
        (fun _ => ⟨by simp [hpc, Pc.Setup], rfl⟩) (List.forall_mem_nil _)⟩
      simp only [sketch, Alat.papan, hpc, connected_snd, List.append_nil]
  case h_5 d hpc =>
      -- a connect resets the stream, which `Wire` allows in `setup`
      obtain ⟨⟨b, client⟩, hconnect, rfl⟩ := Option.map_eq_some_iff.mp hstep
      have hanswer := fst_of_connect hconnect
      refine ⟨[], ?_, fun hcomplete h => ?_⟩
      · simp only [langkah, hconnect, Option.any_some]
        apply run_one
        simp only [sketch, Alat.papan, hpc, hanswer, List.append_nil]
      · rw [List.append_nil]
        exact h.connect (by simp [hpc, Pc.Setup]) hcomplete hconnect
  case h_6 t ping room hpc =>
      obtain ⟨⟨b, client⟩, hloop, rfl⟩ := Option.map_eq_some_iff.mp hstep
      have hcall : session.step s.client (.loop t ping room) = some client :=
        Option.map_eq_some_iff.mpr ⟨(b, client), hloop, rfl⟩
      refine ⟨[], ?_, fun hcomplete h => h.call (a := .loop t ping room) trivial hcomplete hcall rfl
        (by rintro ⟨⟩) (List.forall_mem_nil _)⟩
      rw [List.append_nil]
      exact run_langkah_clientLoop sent hpc hloop
  case h_7 now hpc =>
      obtain rfl := Option.some.inj hstep
      refine ⟨[], run_one ?_, fun _ h => ?_⟩
      · simp only [sketch, Alat.papan, hpc, List.append_nil]
      · rw [List.append_nil]
        exact h.same rfl (by rintro ⟨⟩)
  case h_8 temperature humidity hpc =>
      obtain rfl := Option.some.inj hstep
      refine ⟨[], run_one ?_, fun _ h => ?_⟩
      · simp only [sketch, Alat.papan, hpc, sensorValue, List.append_nil]
      · rw [List.append_nil]
        exact h.same rfl (by rintro ⟨⟩)
  case h_9 room now hpc =>
      -- the payload is named, as it does not depend on what was sent before
      obtain ⟨⟨b, client⟩, hpublish, rfl⟩ := Option.map_eq_some_iff.mp hstep
      have hcall : session.step s.client (.publish room now (cstr topic) (cstr (payload desimal
          (s.papan []) (s.ram.string al.times) (s.ram.string al.date))).chars false) =
            some client :=
        Option.map_eq_some_iff.mpr ⟨(b, client), hpublish, rfl⟩
      obtain ⟨value, hvalue⟩ : ∃ value, value =
          payload desimal (s.papan []) (s.ram.string al.times) (s.ram.string al.date) := ⟨_, rfl⟩
      have hnul : Utf8.NoNul value := hvalue ▸ noNul_payload desimal _ s.ram al.times al.date
      rw [← hvalue] at hpublish hcall
      have hok := publish_eq_clientPublish hnul hpublish
      refine ⟨if b then [value] else [], run_langkah_publish sent hpc hvalue hpublish hok,
        fun hcomplete h => h.call
          (a := .publish room now (cstr topic) (cstr value).chars false) trivial hcomplete hcall
            ?_ (by rintro ⟨⟩) ?_⟩
      · simp only [Call.published, hpublish, Option.any_some]
        cases b <;> rfl
      · intro v hv
        cases b with
        | true =>
            obtain rfl := List.mem_singleton.mp hv
            exact ⟨hnul, (of_clientPublish hok).2⟩
        | false => cases hv
  case h_10 hpc =>
      obtain rfl := Option.some.inj hstep
      refine ⟨[], run_one ?_, fun _ h => ?_⟩
      · simp only [sketch, Alat.papan, hpc, List.append_nil]
      · rw [List.append_nil]
        exact h.same rfl (by rintro ⟨⟩)
  case h_11 => cases hstep

theorem simulates_run {s s' : Alat τ} (sent : List String) {as : List (Gerak τ)}
    (hrun : (sketchClient al desimal user pass).run s as = some s') :
    ∃ sent', (sketch al desimal).run (s.papan sent) (langkahs al desimal user pass s as) =
        some (s'.papan sent') ∧
      ((∀ a ∈ as, a.Complete) → Wire s sent → Wire s' sent') := by
  obtain ⟨Whole, hdef⟩ : ∃ Whole : Prop, Whole = ((∀ a ∈ as, a.Complete) ∧ Wire s sent) :=
    ⟨_, rfl⟩
  have hstep : ∀ t v a t', v = t.papan v.sent ∧ (Whole → Wire t v.sent) → (Whole → a.Complete) →
      (sketchClient al desimal user pass).step t a = some t' →
        ∃ v', (sketch al desimal).run v (langkah al desimal user pass t a) = some v' ∧
          v' = t'.papan v'.sent ∧ (Whole → Wire t' v'.sent) := by
    rintro t v a t' ⟨hpapan, hwire⟩ hcomplete hstep
    obtain ⟨more, hmore, hnext⟩ := simulates v.sent hstep
    rw [← hpapan] at hmore
    exact ⟨_, hmore, rfl, fun h => hnext (hcomplete h) (hwire h)⟩
  obtain ⟨v, hv, hpapan, hwire⟩ := Machine.run_image (u := s.papan sent) hstep
    (fun a ha h => (hdef ▸ h).1 a ha) ⟨rfl, fun h => (hdef ▸ h).2⟩ hrun
  rw [hpapan] at hv
  exact ⟨v.sent, hv, fun hcomplete h => hwire (hdef ▸ ⟨hcomplete, h⟩)⟩

/-! ### What arrives -/

section Arrived

variable {value : String}

omit [Add τ] [Neg τ] [Zero τ] [OfScientific τ] in
theorem size_kirim (hnul : Utf8.NoNul value)
    (hsize : 7 + topic.utf8ByteSize + value.utf8ByteSize ≤ 1024) :
    (kirim value).Fits ∧ (packet.write (.publish (kirim value))).length ≤ 1024 := by
  have htopic : (cstr topic).strlen = topic.utf8ByteSize := strlen_cstr (by decide)
  have hvalue : (cstr value).chars.length = value.utf8ByteSize := strlen_cstr hnul
  have hfits : packet.Fits (.publish (kirim value)) :=
    fits_messageOf (by omega) (by rw [remaining]; omega)
  exact ⟨hfits.1, length_write_messageOf_le (by omega) false⟩

omit [Add τ] [Neg τ] [Zero τ] [OfScientific τ] in
theorem delivered_kirim {sent : List String}
    (hsized : ∀ value ∈ sent,
      Utf8.NoNul value ∧ 7 + topic.utf8ByteSize + value.utf8ByteSize ≤ 1024) :
    delivered (sent.map kirim) =
      sent.map fun value =>
        ⟨Utf8.bytes topic, Utf8.bytes value, (Utf8.bytes value).length⟩ := by
  induction sent with
  | nil => rfl
  | cons value sent ih =>
      obtain ⟨⟨hnul, hsize⟩, hrest⟩ := List.forall_mem_cons.mp hsized
      have hbuffer : FitsBuffer (kirim value) := (size_kirim hnul hsize).2
      have htopic : (kirim value).topic = Utf8.bytes topic := cstr_chars (by decide)
      have hpayload : (kirim value).payload = Utf8.bytes value := cstr_chars hnul
      rw [delivered, List.map_cons, List.filter_cons_of_pos (by simpa using hbuffer),
        List.map_cons, List.map_cons, htopic, hpayload]
      exact congrArg (_ :: ·) (ih hrest)

omit [Add τ] [Neg τ] [Zero τ] [OfScientific τ] in
theorem Wire.forward {s : Alat τ} {sent : List String} (h : Wire s sent) :
    PubSubClient.forward s.client.client.sent =
      (sent.map kirim).flatMap fun m => packet.write (.publish m) := by
  obtain ⟨hfresh, rfl⟩ | ⟨c, ps, hopened, hms⟩ := h.stream
  · rw [hfresh.sent]
    rfl
  · rw [PubSubClient.forward, hopened.parse, Option.getD_some, ← hms]
    rfl

end Arrived

/-- A payload of any size can be published. -/
theorem exists_publish (al : Alamat) (desimal : τ → Json.Number) (user pass : CStr) (room : ℕ)
    (now : UInt32) {s : Alat τ} (hpc : s.pc = .publish) :
    ∃ t, (sketchClient al desimal user pass).step s (.publish room now) = some t := by
  obtain ⟨⟨b, client⟩, hpublish⟩ : ∃ r, s.client.publish room now (cstr topic) (cstr (payload
      desimal (s.papan []) (s.ram.string al.times) (s.ram.string al.date))).chars false = some r :=
    Option.ne_none_iff_exists'.mp publish_ne_none
  refine ⟨{ s with pc := .delay, client }, ?_⟩
  simp only [sketchClient, hpc, hpublish, Option.map_some]

section Runs

variable {memory : Memory} {client : PubSubClient} {as : List (Gerak τ)} {s : Alat τ}

omit [Add τ] [Neg τ] [OfScientific τ] in
theorem wire_boot (hfresh : Fresh client) : Wire (.boot memory client : Alat τ) [] where
  setup _ := rfl
  sized := List.forall_mem_nil _
  stream := .inl ⟨hfresh, rfl⟩

omit [Add τ] [Neg τ] [OfScientific τ] in
theorem papan_boot (hfresh : Fresh client) :
    (.boot memory client : Alat τ).papan [] = .boot memory := by
  rw [Alat.papan, Alat.boot, hfresh.closed]
  rfl

/-- The board with its client refines the sketch: every run of it is this run of the
sketch. When the connection takes what is written, the messages in the stream to the
broker are the payloads that the sketch counts as sent. -/
theorem sketchClient_refines (hfresh : Fresh client)
    (hrun : (sketchClient al desimal user pass).run (.boot memory client) as = some s) :
    ∃ sent, (sketch al desimal).run (.boot memory)
        (langkahs al desimal user pass (.boot memory client) as) = some (s.papan sent) ∧
      ((∀ a ∈ as, a.Complete) → ∃ ps, packet.parse s.client.client.sent = some ps ∧
        ps.filterMap Packet.message = sent.map kirim) := by
  obtain ⟨sent, hbs, hwire⟩ := simulates_run [] hrun
  rw [papan_boot hfresh] at hbs
  refine ⟨sent, hbs, fun hcomplete => ?_⟩
  obtain ⟨hnone, rfl⟩ | ⟨c, ps, hopened, hms⟩ := (hwire hcomplete (wire_boot hfresh)).stream
  · refine ⟨[], ?_, rfl⟩
    rw [hnone.sent]
    rfl
  · exact ⟨.connect c :: ps, hopened.parse, hms⟩

def alamatContoh : Alamat := ⟨0, 20, by decide⟩

/-- The decimals of a reading are left out. -/
def desimalContoh (_ : ℚ) : Json.Number := ⟨['0'], rfl, rfl⟩

/-- The board up to its first payload. -/
def gerakContoh : List (Gerak ℚ) :=
  [.status true, .connected, .connect dialContoh, .connected, .clientLoop 1 4 4,
    .rtc ⟨3, 4, 5, 2, 1, 2020⟩, .sensor (.finite 25) (.finite 60)]

theorem run_gerakContoh :
    ∃ s, (sketchClient alamatContoh desimalContoh topicContoh topicContoh).run
      (.boot (fun _ => Memory.nul) (clientContoh false)) (gerakContoh ++ [.publish 1024 2]) =
        some s := by
  have hsome : ((sketchClient alamatContoh desimalContoh topicContoh topicContoh).run
      (.boot (fun _ => Memory.nul) (clientContoh false)) gerakContoh).map (fun s => s.pc) =
        some .publish := by decide +kernel
  obtain ⟨s, hrun, hpc⟩ := Option.map_eq_some_iff.mp hsome
  obtain ⟨t, hstep⟩ := exists_publish alamatContoh desimalContoh topicContoh topicContoh 1024 2 hpc
  exact ⟨t, Machine.run_append_eq_some.mpr
    ⟨s, hrun, Machine.run_cons_eq_some.mpr ⟨t, hstep, rfl⟩⟩⟩

theorem sketchClient_refines_contoh :
    ∃ s, (sketchClient alamatContoh desimalContoh topicContoh topicContoh).run
        (.boot (fun _ => Memory.nul) (clientContoh false)) (gerakContoh ++ [.publish 1024 2]) =
          some s ∧
      ∃ sent, (sketch alamatContoh desimalContoh).run (.boot fun _ => Memory.nul)
          (langkahs alamatContoh desimalContoh topicContoh topicContoh
            (.boot (fun _ => Memory.nul) (clientContoh false))
            (gerakContoh ++ [.publish 1024 2])) = some (s.papan sent) ∧
        ((∀ a ∈ gerakContoh ++ [.publish 1024 2], a.Complete) →
          ∃ ps, packet.parse s.client.client.sent = some ps ∧
            ps.filterMap Packet.message = sent.map kirim) := by
  obtain ⟨s, hrun⟩ := run_gerakContoh
  exact ⟨s, hrun, sketchClient_refines ⟨rfl, rfl⟩ hrun⟩

/-- A client that is given this stream. -/
def subOf (stream : List UInt8) : PubSubClient :=
  { clientContoh true with client := ⟨true, PubSubClient.forward stream, []⟩ }

omit [Add τ] [Neg τ] [Zero τ] [OfScientific τ] in
theorem Wire.exists_loop {s : Alat τ} {sent : List String} (h : Wire s sent) :
    ∃ sub', session.run (subOf s.client.client.sent) [.loop 1 4 4] = some sub' ∧
      sub'.client.connected = true := by
  have hin : (subOf s.client.client.sent).client.incoming =
      (sent.map kirim).flatMap fun m => packet.write (.publish m) := h.forward
  have hloop : PubSubClient.loop 1 4 4 (subOf s.client.client.sent) =
      receive 1 4 (subOf s.client.client.sent) := by
    have hkeep : keepAlive 1 4 (subOf s.client.client.sent) =
        (true, subOf s.client.client.sent) := if_neg (show ¬((15000 : UInt32) < 1 - 0 ∨
          (15000 : UInt32) < 1 - 0) by decide)
    rw [PubSubClient.loop, connected_of_true rfl]
    dsimp only
    rw [hkeep]
  obtain ⟨sub', hreceive, hup⟩ : ∃ sub', receive 1 4 (subOf s.client.client.sent) =
      some (true, sub') ∧ sub'.client.connected = true := by
    cases sent with
    | nil =>
        have hnil : (subOf s.client.client.sent).client.incoming.isEmpty = true := by
          rw [hin]
          rfl
        exact ⟨_, by rw [receive, if_pos hnil], rfl⟩
    | cons value sent =>
        obtain ⟨hnul, hsize⟩ := h.sized value List.mem_cons_self
        obtain ⟨hfits, hshort⟩ := size_kirim hnul hsize
        have hvalid : Valid (kirim value).frame :=
          valid_frame hfits (lt_of_le_of_lt hshort (by decide))
        obtain ⟨sub', hreceive, htakes⟩ :=
          receive_of_reaction hvalid.readable rfl hin (Nat.le_refl 4) (reaction_frame hfits hshort)
        exact ⟨sub', hreceive, htakes.connected⟩
  refine ⟨sub', Machine.run_cons_eq_some.mpr ⟨sub', ?_, rfl⟩, hup⟩
  exact Option.map_eq_some_iff.mpr ⟨(true, sub'), hloop.trans hreceive, rfl⟩

end Runs

end Sketch

end EmsGateway.Firmware.Kalibrasi
