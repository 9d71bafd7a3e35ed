import EmsGateway.Firmware.Waktu
import EmsGateway.Library.Trace
import Mathlib.Algebra.Field.Rat

/-!
Kalibrasi_Sensor_ESP32.ino, built with DEBUG: `setup` and the iterations of `loop`,
with the broker gone at any moment.
-/

namespace EmsGateway.Firmware.Kalibrasi

open EmsGateway.Library

/-- Kalibrasi_Sensor_ESP32.ino, line 19. -/
def topic : String := "environment_sensor"

/-- Kalibrasi_Sensor_ESP32.ino, line 25. -/
def client_id : String := "5df30e114ccd8b1af4e5cc7b"

/-- Kalibrasi_Sensor_ESP32.ino, line 26. -/
def device_id : String := "5df30e114ccd8b1af4e5cc7b-1579058369820517973"

/-- Where the sketch stands: in the loop of `wifiConnection`, at the guard of
`mqttConnection` or in its body, or before a line of `loop`. -/
inductive Pc
  | wifi
  | guard
  | connect
  | loop
  | rtc
  | sensor
  | publish
  | delay
  deriving DecidableEq

/-- The board: what `client.connected()` answers, the globals that `loop` writes,
and the payloads the broker was sent. -/
structure Papan (τ : Type) where
  pc : Pc
  connected : Bool
  ram : Ram
  temp : CFloat τ
  hum : CFloat τ
  sent : List String

/-- What happens next, with what the sketch is told by the libraries. -/
inductive Langkah (τ : Type)
  /-- line 49, whether the status is `WL_CONNECTED` -/
  | status (up : Bool)
  /-- line 61 -/
  | connected
  /-- line 64, the answer of `client.connect` -/
  | connect (ok : Bool)
  /-- line 151 -/
  | clientLoop
  /-- line 152 -/
  | rtc (now : DateTime)
  /-- line 153, the two readings -/
  | sensor (temperature humidity : CFloat τ)
  /-- lines 155-156, whether the client can write a packet -/
  | publish (write : Bool)
  /-- line 158 -/
  | delay
  /-- the connection to the broker is lost -/
  | putus

/-- `PubSubClient::publish`, which sends nothing when it returns false. -/
def clientPublish (connected write : Bool) (topic payload : String) : Bool :=
  connected && decide (¬1024 < 5 + 2 + topic.utf8ByteSize + payload.utf8ByteSize) && write

variable {τ : Type}

/-- `jsonData` as line 155 calls it, for these strings of the time. -/
def payload (desimal : τ → Json.Number) (s : Papan τ) (times date : String) : String :=
  jsonData client_id device_id (s.temp.toText fun x => (desimal x).toString)
    (s.hum.toText fun x => (desimal x).toString) times date

section Sketch

variable [Add τ] [Neg τ] [Zero τ] [OfScientific τ]

/-- Kalibrasi_Sensor_ESP32.ino, line 35. -/
def kalibrasi_temp : CFloat τ := .finite (-(1.2))

/-- Kalibrasi_Sensor_ESP32.ino, line 36. -/
def kalibrasi_hum : CFloat τ := .finite 0

/-- Kalibrasi_Sensor_ESP32.ino, lines 77-81. -/
def sensorValue (temperature humidity : CFloat τ) (s : Papan τ) : Papan τ :=
  { s with temp := temperature + kalibrasi_temp, hum := humidity + kalibrasi_hum }

/-- The board after a reset, with the buffers at these addresses. -/
def Papan.boot (memory : Memory) : Papan τ := ⟨.wifi, false, ⟨memory, []⟩, .finite 0, .finite 0, []⟩

/-- What the sketch does next. The broker is lost at any point at which the client
is connected. -/
def sketch (al : Alamat) (desimal : τ → Json.Number) : Machine (Papan τ) (Langkah τ) where
  step s a :=
    match s.pc, a with
    | _, .putus => if s.connected then some { s with connected := false } else none
    | .wifi, .status up => some { s with pc := if up then .guard else .wifi }
    | .guard, .connected => some { s with pc := if s.connected then .loop else .connect }
    | .connect, .connect ok => some { s with pc := .guard, connected := ok }
    | .loop, .clientLoop => some { s with pc := .rtc }
    | .rtc, .rtc now => some { s with pc := .sensor, ram := RTC al now s.ram }
    | .sensor, .sensor temperature humidity =>
        some { sensorValue temperature humidity s with pc := .publish }
    | .publish, .publish write =>
        let value := payload desimal s (s.ram.string al.times) (s.ram.string al.date)
        let ok := clientPublish s.connected write topic value
        some { s with pc := .delay, sent := if ok then s.sent ++ [value] else s.sent }
    | .delay, .delay => some { s with pc := .loop }
    | _, _ => none

/-! ### The payload -/

theorem plain_client_id : ∀ c ∈ client_id.toList, Json.Plain c :=
  List.all_iff_forall_prop.mp (by decide)

theorem plain_device_id : ∀ c ∈ device_id.toList, Json.Plain c :=
  List.all_iff_forall_prop.mp (by decide)

/-- The payload decodes to what it was made of exactly when both sensors were read
and the strings of the time need no escape. -/
theorem decodes_iff (desimal : τ → Json.Number) (s : Papan τ) (temperature humidity : CFloat τ)
    (times date : String) :
    Decodes client_id device_id
        ((sensorValue temperature humidity s).temp.toText fun x => (desimal x).toString)
        ((sensorValue temperature humidity s).hum.toText fun x => (desimal x).toString) times date ↔
      (temperature ≠ .nan ∧ humidity ≠ .nan) ∧ (∀ c ∈ date.toList, Json.Plain c) ∧
        ∀ c ∈ times.toList, Json.Plain c := by
  cases temperature with
  | nan =>
      refine iff_of_false ?_ (fun h => h.1.1 rfl)
      exact not_decodes_nan plain_client_id plain_device_id _ times date
  | finite x =>
      cases humidity with
      | nan =>
          refine iff_of_false ?_ (fun h => h.1.2 rfl)
          exact not_decodes_number_nan plain_client_id plain_device_id _ times date
      | finite y =>
          rw [← plain_waktu_iff, and_iff_right ⟨nofun, nofun⟩]
          exact decodes_number_iff plain_client_id plain_device_id _ _ times date

end Sketch

/-- `String(60)`. -/
def enamPuluh : Json.Number := ⟨"60.00".toList, by decide, by decide⟩

/-- The temperature is missing. -/
theorem not_decodes :
    ¬Decodes client_id device_id
      ((sensorValue .nan (.finite 60) (.boot fun _ => Memory.nul) : Papan ℚ).temp.toText
        fun _ => enamPuluh.toString)
      ((sensorValue .nan (.finite 60) (.boot fun _ => Memory.nul) : Papan ℚ).hum.toText
        fun _ => enamPuluh.toString) "07:00:00.000" "2020-01-20" :=
  not_decodes_nan plain_client_id plain_device_id _ _ _

/-! ### The connection -/

/-- What is seen of the connection to the broker. -/
inductive Kejadian
  /-- it is lost -/
  | putus
  /-- `client.connect` made it -/
  | connected
  /-- `mqttConnection` returns -/
  | mqttConnection
  /-- an iteration of `loop` begins, with what `client.connected()` would answer -/
  | mulai (connected : Bool)
  /-- line 156, with what `client.publish` returns -/
  | publish (sent : Bool)
  deriving DecidableEq

def Kejadian.isPutus : Kejadian → Bool
  | .putus => true
  | _ => false

def Kejadian.isConnected : Kejadian → Bool
  | .connected => true
  | _ => false

def Kejadian.isMqttConnection : Kejadian → Bool
  | .mqttConnection => true
  | _ => false

def Kejadian.isMulai : Kejadian → Bool
  | .mulai _ => true
  | _ => false

/-- A disconnection since the client last connected. -/
abbrev putusSinceConnected (es : List Kejadian) : Bool :=
  waits Kejadian.isPutus Kejadian.isConnected es

/-- A disconnection since `mqttConnection` was last executed. -/
abbrev putusSinceMqttConnection (es : List Kejadian) : Bool :=
  waits Kejadian.isPutus Kejadian.isMqttConnection es

/-- At each call of `mqttPublish` there was no disconnection since the client last
connected, or `mqttConnection` was executed since the latest one before the
iteration. -/
def Reconnects (es : List Kejadian) : Prop :=
  ∀ front c mid sent rest, es = front ++ .mulai c :: (mid ++ .publish sent :: rest) →
    (∀ e ∈ mid, ¬e.isMulai) →
      ¬putusSinceConnected (front ++ .mulai c :: mid) ∨
        (putusSinceMqttConnection front → ∃ e ∈ mid, e.isMqttConnection)

/-- Each iteration that comes to its `mqttPublish` begins with the client connected. -/
def BeginsConnected (es : List Kejadian) : Prop :=
  ∀ front c mid sent rest, es = front ++ .mulai c :: (mid ++ .publish sent :: rest) →
    (∀ e ∈ mid, ¬e.isMulai) → c = true

def Pc.Setup : Pc → Prop
  | .wifi | .guard | .connect => True
  | _ => False

/-- The steps by what they show, where the sketch stands, and whether the client is
connected. -/
inductive Shows (s s' : Papan τ) : Option Kejadian → Prop
  | putus (hpc : s'.pc = s.pc) (h : s'.connected = false) : Shows s s' (some .putus)
  | connected (hpc : s.pc.Setup) (hpc' : s'.pc.Setup) : Shows s s' (some .connected)
  | mqttConnection (hpc : s.pc.Setup) (h : s'.connected = true) :
      Shows s s' (some .mqttConnection)
  | mulai (hpc : s.pc = .loop) (hpc' : ¬s'.pc.Setup) (h : s'.connected = s.connected) :
      Shows s s' (some (.mulai s.connected))
  | publish (hpc : s.pc = .publish) (hpc' : ¬s'.pc.Setup) (h : s'.connected = s.connected)
      (sent : Bool) : Shows s s' (some (.publish sent))
  | setup (hpc : s.pc.Setup) (hpc' : s'.pc.Setup) : Shows s s' none
  | quiet (hpc : ¬s.pc.Setup) (hpc' : ¬s'.pc.Setup) (h : s'.connected = s.connected) :
      Shows s s' none

/-- `loop` does not return to `setup`. -/
theorem Shows.not_setup {s s' : Papan τ} {e : Option Kejadian} (h : Shows s s' e)
    (hloop : ¬s.pc.Setup) : ¬s'.pc.Setup := by
  cases h with
  | putus hpc _ => rwa [hpc]
  | connected hpc _ => exact absurd hpc hloop
  | mqttConnection hpc _ => exact absurd hpc hloop
  | setup hpc _ => exact absurd hpc hloop
  | mulai _ hpc' _ => exact hpc'
  | publish _ hpc' _ _ => exact hpc'
  | quiet _ hpc' _ => exact hpc'

/-- Outside `setup` a disconnection is waiting exactly when the client is not
connected. -/
structure Watched (s : Papan τ) (es : List Kejadian) : Prop where
  connected : ¬s.pc.Setup → s.connected = false → putusSinceConnected es
  mqttConnection : ¬s.pc.Setup → (putusSinceMqttConnection es ↔ s.connected = false)

theorem Watched.same {s s' : Papan τ} {es es' : List Kejadian} (h : Watched s es)
    (hloop : ¬s.pc.Setup) (hsame : s'.connected = s.connected)
    (hconnected : putusSinceConnected es' = putusSinceConnected es)
    (hmqtt : putusSinceMqttConnection es' = putusSinceMqttConnection es) : Watched s' es' := by
  constructor
  · intro _ hlost
    rw [hconnected]
    exact h.connected hloop (hsame ▸ hlost)
  · intro _
    rw [hmqtt, hsame]
    exact h.mqttConnection hloop

theorem Watched.next {s s' : Papan τ} {es : List Kejadian} {e : Option Kejadian}
    (h : Watched s es) (hshows : Shows s s' e) : Watched s' (es ++ e.toList) := by
  cases hshows with
  | putus hpc hlost =>
      refine ⟨fun _ _ => ?_, fun _ => ?_⟩
      · simp [waits_concat, Kejadian.isPutus]
      · simp [waits_concat, Kejadian.isPutus, hlost]
  | connected _ hpc' => exact ⟨fun hloop => absurd hpc' hloop, fun hloop => absurd hpc' hloop⟩
  | mqttConnection _ hconnected =>
      refine ⟨fun _ hlost => ?_, fun _ => ?_⟩
      · rw [hconnected] at hlost
        cases hlost
      · simp [waits_concat, Kejadian.isPutus, Kejadian.isMqttConnection, hconnected]
  | mulai hpc _ hsame =>
      refine h.same (by simp [hpc, Pc.Setup]) hsame ?_ ?_
      · simp [waits_concat, Kejadian.isPutus, Kejadian.isConnected]
      · simp [waits_concat, Kejadian.isPutus, Kejadian.isMqttConnection]
  | publish hpc _ hsame sent =>
      refine h.same (by simp [hpc, Pc.Setup]) hsame ?_ ?_
      · simp [waits_concat, Kejadian.isPutus, Kejadian.isConnected]
      · simp [waits_concat, Kejadian.isPutus, Kejadian.isMqttConnection]
  | setup hpc hpc' => exact ⟨fun hloop => absurd hpc' hloop, fun hloop => absurd hpc' hloop⟩
  | quiet hpc _ hsame =>
      rw [Option.toList_none, List.append_nil]
      exact h.same hpc hsame rfl rfl

/-- What a step shows. -/
def kejadian (al : Alamat) (desimal : τ → Json.Number) (s : Papan τ) (a : Langkah τ) :
    Option Kejadian :=
  match s.pc, a with
  | _, .putus => if s.connected then some .putus else none
  | .guard, .connected => if s.connected then some .mqttConnection else none
  | .connect, .connect ok => if ok then some .connected else none
  | .loop, .clientLoop => some (.mulai s.connected)
  | .publish, .publish write =>
      some (.publish (clientPublish s.connected write topic
        (payload desimal s (s.ram.string al.times) (s.ram.string al.date))))
  | _, _ => none

variable {al : Alamat} {desimal : τ → Json.Number}

/-- `loop` never connects. -/
theorem loop_not_connects {s : Papan τ} {a : Langkah τ} {e : Kejadian} (hloop : ¬s.pc.Setup)
    (h : kejadian al desimal s a = some e) : ¬e.isConnected ∧ ¬e.isMqttConnection := by
  unfold kejadian at h
  split at h
  case h_1 =>
      split at h
      · cases h
        exact ⟨nofun, nofun⟩
      · cases h
  case h_2 hpc => exact absurd (by simp [hpc, Pc.Setup]) hloop
  case h_3 hpc => exact absurd (by simp [hpc, Pc.Setup]) hloop
  case h_4 =>
      cases h
      exact ⟨nofun, nofun⟩
  case h_5 =>
      cases h
      exact ⟨nofun, nofun⟩
  case h_6 => cases h

theorem mulai_eq_some {s : Papan τ} {a : Langkah τ} {c : Bool}
    (h : kejadian al desimal s a = some (.mulai c)) : ¬s.pc.Setup ∧ c = s.connected := by
  unfold kejadian at h
  split at h
  case h_1 => split at h <;> cases h
  case h_2 => split at h <;> cases h
  case h_3 => split at h <;> cases h
  case h_4 hpc =>
      cases h
      exact ⟨by simp [hpc, Pc.Setup], rfl⟩
  case h_5 => cases h
  case h_6 => cases h

section Runs

variable [Add τ] [Neg τ] [Zero τ] [OfScientific τ]

theorem shows_of_step {s s' : Papan τ} {a : Langkah τ}
    (h : (sketch al desimal).step s a = some s') : Shows s s' (kejadian al desimal s a) := by
  simp only [sketch] at h
  unfold kejadian
  split at h
  case h_1 =>
      split at h
      · rename_i hconnected
        obtain rfl := Option.some.inj h
        simp only [hconnected]
        exact .putus rfl rfl
      · cases h
  case h_2 up hpc =>
      obtain rfl := Option.some.inj h
      refine .setup (by simp [hpc, Pc.Setup]) ?_
      cases up <;> trivial
  case h_3 hpc =>
      obtain rfl := Option.some.inj h
      simp only [hpc]
      cases hconnected : s.connected with
      | true => exact .mqttConnection (by simp [hpc, Pc.Setup]) rfl
      | false => exact .setup (by simp [hpc, Pc.Setup]) trivial
  case h_4 ok hpc =>
      obtain rfl := Option.some.inj h
      simp only [hpc]
      cases ok with
      | true => exact .connected (by simp [hpc, Pc.Setup]) trivial
      | false => exact .setup (by simp [hpc, Pc.Setup]) trivial
  case h_5 hpc =>
      obtain rfl := Option.some.inj h
      simp only [hpc]
      exact .mulai hpc nofun rfl
  case h_6 now hpc =>
      obtain rfl := Option.some.inj h
      exact .quiet (by simp [hpc, Pc.Setup]) nofun rfl
  case h_7 temperature humidity hpc =>
      obtain rfl := Option.some.inj h
      exact .quiet (by simp [hpc, Pc.Setup]) nofun rfl
  case h_8 write hpc =>
      obtain rfl := Option.some.inj h
      simp only [hpc]
      refine .publish hpc ?_ ?_ _
      · exact nofun
      · rfl
  case h_9 hpc =>
      obtain rfl := Option.some.inj h
      exact .quiet (by simp [hpc, Pc.Setup]) nofun rfl
  case h_10 => cases h

abbrev kejadianOf (al : Alamat) (desimal : τ → Json.Number) (memory : Memory)
    (as : List (Langkah τ)) : List Kejadian :=
  (sketch al desimal).trace (kejadian al desimal) (.boot memory) as

theorem watched_of_run {memory : Memory} {as : List (Langkah τ)} {s : Papan τ}
    (hrun : (sketch al desimal).run (.boot memory) as = some s) :
    Watched s (kejadianOf al desimal memory as) := by
  apply Machine.run_trace_invariant (I := fun s es => Watched s es) ?_ ?_ hrun
  · intro s es a s' h hstep
    exact h.next (shows_of_step hstep)
  · exact ⟨fun hloop => absurd trivial hloop, fun hloop => absurd trivial hloop⟩

theorem not_setup_of_step {s s' : Papan τ} {a : Langkah τ} (hloop : ¬s.pc.Setup)
    (h : (sketch al desimal).step s a = some s') : ¬s'.pc.Setup :=
  (shows_of_step h).not_setup hloop

/-- In every run the client has reconnected at each publish, where that was needed,
exactly when each iteration that publishes begins connected. -/
theorem reconnected_iff (al : Alamat) (desimal : τ → Json.Number) (memory : Memory)
    (as : List (Langkah τ)) : Reconnects (kejadianOf al desimal memory as) ↔
      BeginsConnected (kejadianOf al desimal memory as) := by
  unfold Reconnects BeginsConnected
  refine forall_congr' fun front => forall_congr' fun c => forall_congr' fun mid =>
    forall_congr' fun sent => forall_congr' fun rest => forall_congr' fun htrace =>
      forall_congr' fun _ => ?_
  obtain ⟨bs, a, s, ⟨late, rfl⟩, hrun, rfl, hmulai⟩ := Machine.exists_of_trace_eq htrace
  obtain ⟨hloop, rfl⟩ := mulai_eq_some hmulai
  have hwatched := watched_of_run hrun
  have hobs : ∀ (s : Papan τ) (a : Langkah τ) (e : Kejadian), ¬s.pc.Setup →
      kejadian al desimal s a = some e → ¬e.isConnected ∧ ¬e.isMqttConnection :=
    fun _ _ _ => loop_not_connects
  rw [kejadianOf, List.append_assoc, Machine.trace_append hrun,
    List.append_cancel_left_eq] at htrace
  -- from `mulai` on the steps are those of `loop`
  have hlate : ∀ e ∈ Kejadian.mulai s.connected :: mid, ¬e.isConnected ∧ ¬e.isMqttConnection := by
    intro e he
    have hmem : e ∈ (sketch al desimal).trace (kejadian al desimal) s ([a] ++ late) := by
      rw [htrace, ← List.cons_append]
      exact List.mem_append_left _ he
    exact Machine.forall_mem_trace (fun _ _ _ => not_setup_of_step) hobs hloop e hmem
  constructor
  · intro hreconnects
    by_contra hlost
    have hlost := Bool.eq_false_iff.mpr hlost
    obtain hnone | hexec := hreconnects
    · exact hnone (waits_append (hwatched.connected hloop hlost) fun e he => (hlate e he).1)
    · obtain ⟨e, he, hmqtt⟩ := hexec ((hwatched.mqttConnection hloop).mpr hlost)
      exact (hlate e (List.mem_cons_of_mem _ he)).2 hmqtt
  · intro hconnected
    refine .inr fun hwaits => ?_
    rw [(hwatched.mqttConnection hloop).mp hwaits] at hconnected
    cases hconnected

end Runs

/-- The broker goes between `setup` and the first iteration. -/
def putusSebelumLoop : List (Langkah ℚ) :=
  [.status true, .connected, .connect true, .connected, .putus, .clientLoop,
    .rtc ⟨7, 0, 0, 20, 1, 2020⟩, .sensor (.finite 27) (.finite 60), .publish true]

theorem not_reconnected :
    ¬∀ (al : Alamat) (desimal : ℚ → Json.Number) (memory : Memory) (as : List (Langkah ℚ)),
      Reconnects (kejadianOf al desimal memory as) := by
  intro hall
  have hreconnects := hall ⟨0, 20, by decide⟩ (fun _ => enamPuluh) (fun _ => Memory.nul)
    putusSebelumLoop [.connected, .mqttConnection, .putus] false [] false [] rfl nofun
  revert hreconnects
  decide

end EmsGateway.Firmware.Kalibrasi
