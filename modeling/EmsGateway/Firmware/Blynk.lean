import EmsGateway.Firmware.Arduino
import EmsGateway.Library.Cells

/-!
The alarm thresholds of MQTT-Publish.ino. The Blynk app sets them, each is kept in
one byte of the EEPROM, and `platformBlynk` notifies of readings beyond them. The
calls of `EEPROM.begin`, `readEEPROM` and `platformBlynk` are commented out in
`setup` and `loop`; a restart here is followed by the first two.
-/

namespace EmsGateway.Firmware.Blynk

open EmsGateway.Library

inductive Ambang
  | Tmax
  | Tmin
  | Hmax
  | Hmin
  deriving DecidableEq

/-- MQTT-Publish.ino, lines 54-57. -/
def Ambang.addr : Ambang → ℕ
  | .Tmax => 7
  | .Tmin => 8
  | .Hmax => 9
  | .Hmin => 10

/-- The virtual pins of the app that a threshold hangs on. -/
inductive Pin
  | V4
  | V5
  | V6
  | V7
  deriving DecidableEq

/-- What was measured of the surroundings and of the battery. -/
structure Ukuran where
  temp : CFloat ℚ
  hum : CFloat ℚ
  pres : CFloat ℚ
  alt : CFloat ℚ
  battery : CFloat ℚ

/-- The EEPROM and the globals that hold the thresholds. -/
structure Globals (σ : Type) where
  eeprom : σ
  ambang : Ambang → CFloat ℚ

/-- What `platformBlynk` sends to the app: the values for its pins, and the
notifications. -/
structure Laporan where
  virtualWrite : List (ℕ × CFloat ℚ)
  notify : List String
  deriving DecidableEq

/-- MQTT-Publish.ino, lines 202-214. -/
def notifikasi (u : Ukuran) (ambang : Ambang → CFloat ℚ) : List String :=
  (if u.temp > ambang .Tmax then ["Temperature is HIGH !!"] else []) ++
  (if u.temp < ambang .Tmin then ["Temperature is LOW !!"] else []) ++
  (if u.hum > ambang .Hmax then ["Humidity is HIGH !!"] else []) ++
  (if u.hum < ambang .Hmin then ["Humidity is LOW !!"] else [])

section Sketch

variable {σ : Type} (e : Cells σ ℕ UInt8) (terbuka : CFloat ℚ → UInt8)

/-- The body of the `BLYNK_WRITE` handlers, where `param.asInt()` is `n`. -/
def setel (t : Ambang) (n : ℤ) (s : Globals σ) : Globals σ :=
  let x := CFloat.ofInt n
  { eeprom := e.commit (e.write t.addr (x.toByte terbuka) s.eeprom)
    ambang := Function.update s.ambang t x }

/-- MQTT-Publish.ino, lines 218-223. -/
def blynkWriteV4 : ℤ → Globals σ → Globals σ := setel e terbuka .Tmax

/-- MQTT-Publish.ino, lines 224-229. -/
def blynkWriteV5 : ℤ → Globals σ → Globals σ := setel e terbuka .Tmin

/-- MQTT-Publish.ino, lines 230-235. -/
def blynkWriteV6 : ℤ → Globals σ → Globals σ := setel e terbuka .Hmax

/-- MQTT-Publish.ino, lines 236-241. -/
def blynkWriteV7 : ℤ → Globals σ → Globals σ := setel e terbuka .Hmin

/-- The handler of a pin. -/
def blynkWrite : Pin → ℤ → Globals σ → Globals σ
  | .V4 => blynkWriteV4 e terbuka
  | .V5 => blynkWriteV5 e terbuka
  | .V6 => blynkWriteV6 e terbuka
  | .V7 => blynkWriteV7 e terbuka

/-- MQTT-Publish.ino, lines 177-182. -/
def readEEPROM (s : Globals σ) : Globals σ :=
  { s with ambang := fun t => CFloat.ofInt (e.read s.eeprom t.addr).toNat }

/-- The board is restarted, and reads the thresholds. -/
def mulaiUlang (s : Globals σ) : Globals σ :=
  readEEPROM e { eeprom := e.restart s.eeprom, ambang := fun _ => .finite 0 }

/-- MQTT-Publish.ino, lines 185-215, where `Blynk.run()` finds these updates. -/
def platformBlynk (masuk : List (Pin × ℤ)) (u : Ukuran) (s : Globals σ) : Globals σ × Laporan :=
  let s := masuk.foldl (fun s p => blynkWrite e terbuka p.1 p.2 s) s
  (s, {
    virtualWrite := [(0, u.temp), (1, u.pres), (2, u.alt), (3, u.hum), (10, u.battery),
      (20, s.ambang .Tmax), (21, s.ambang .Tmin), (22, s.ambang .Hmax), (23, s.ambang .Hmin)]
    notify := notifikasi u s.ambang })

/-! ### Runs -/

/-- An update arrives, or the board is restarted. -/
inductive Langkah
  | blynkWrite (pin : Pin) (n : ℤ)
  | mulaiUlang

def langkah (s : Globals σ) : Langkah → Globals σ
  | .blynkWrite pin n => blynkWrite e terbuka pin n s
  | .mulaiUlang => mulaiUlang e s

def run (s : Globals σ) (as : List Langkah) : Globals σ := as.foldl (langkah e terbuka) s

end Sketch

/-- The threshold of a pin. -/
def Pin.ambang : Pin → Ambang
  | .V4 => .Tmax
  | .V5 => .Tmin
  | .V6 => .Hmax
  | .V7 => .Hmin

/-- The last integer set for a threshold. -/
def lastSet (t : Ambang) (as : List Langkah) : Option ℤ :=
  as.foldl (fun
    | last, .blynkWrite pin n => if pin.ambang = t then some n else last
    | last, .mulaiUlang => last) none

theorem lastSet_concat (t : Ambang) (as : List Langkah) (a : Langkah) :
    lastSet t (as ++ [a]) =
      match a with
      | .blynkWrite pin n => if pin.ambang = t then some n else lastSet t as
      | .mulaiUlang => lastSet t as := by
  rw [lastSet, List.foldl_append]
  cases a with
  | blynkWrite pin n => rfl
  | mulaiUlang => rfl

theorem addr_injective : Function.Injective Ambang.addr := by
  intro t t' h
  cases t <;> cases t' <;> first | rfl | cases h

section Survives

variable {σ : Type} (e : Cells σ ℕ UInt8) (terbuka : CFloat ℚ → UInt8)

/-- The thresholds are the integers set when they are read again, and when the
board is restarted; what is notified of does not depend on that. -/
structure Survives (s : Globals σ) (n : Ambang → ℤ) : Prop where
  read : ∀ t, (readEEPROM e s).ambang t = .finite (n t)
  restarted : ∀ t, (mulaiUlang e s).ambang t = .finite (n t)
  notify : ∀ masuk u, (platformBlynk e terbuka masuk u s).2.notify =
    (platformBlynk e terbuka masuk u (mulaiUlang e s)).2.notify

/-- Every handler is the one body, on the threshold of its pin. -/
theorem blynkWrite_eq (pin : Pin) (n : ℤ) (s : Globals σ) :
    blynkWrite e terbuka pin n s = setel e terbuka pin.ambang n s := by
  cases pin with
  | V4 => rfl
  | V5 => rfl
  | V6 => rfl
  | V7 => rfl

theorem run_concat (s : Globals σ) (as : List Langkah) (a : Langkah) :
    run e terbuka s (as ++ [a]) = langkah e terbuka (run e terbuka s as) a := by
  simp [run]

/-- What a step does to the EEPROM. -/
def op : Langkah → Cells.Op ℕ UInt8
  | .blynkWrite pin n => .put pin.ambang.addr ((CFloat.ofInt n).toByte terbuka)
  | .mulaiUlang => .restart

theorem eeprom_run (s : Globals σ) (as : List Langkah) :
    (run e terbuka s as).eeprom = e.run s.eeprom (as.map (op terbuka)) := by
  induction as using List.reverseRecOn with
  | nil => rfl
  | append_singleton as a ih =>
      rw [run_concat, List.map_append, List.map_singleton, Cells.run_concat, ← ih]
      cases a with
      | blynkWrite pin n =>
          rw [langkah, blynkWrite_eq]
          rfl
      | mulaiUlang => rfl

theorem lastPut_map_op (t : Ambang) (as : List Langkah) :
    Cells.lastPut t.addr (as.map (op terbuka)) =
      (lastSet t as).map fun n => (CFloat.ofInt n).toByte terbuka := by
  induction as using List.reverseRecOn with
  | nil => rfl
  | append_singleton as a ih =>
      rw [List.map_append, List.map_singleton, Cells.lastPut_concat, lastSet_concat, ih]
      cases a with
      | blynkWrite pin n =>
          simp only [op, addr_injective.eq_iff]
          split
          · rfl
          · rfl
      | mulaiUlang => rfl

variable {e terbuka} {s : Globals σ} {as : List Langkah} {t : Ambang} {n : ℤ}

theorem inRange_addr (hbegin : ∀ a < 11, e.InRange a) (t : Ambang) : e.InRange t.addr := by
  apply hbegin
  cases t <;> decide

/-- The byte of a threshold is that of the last integer set. -/
theorem holds_run (hbegin : ∀ a < 11, e.InRange a) (hset : lastSet t as = some n) :
    e.Holds (run e terbuka s as).eeprom t.addr ((CFloat.ofInt n).toByte terbuka) := by
  rw [eeprom_run]
  apply Cells.holds_run e (inRange_addr hbegin t)
  rw [lastPut_map_op, hset, Option.map_some]

theorem ofInt_toNat (b : UInt8) : CFloat.ofInt b.toNat = .finite (b.toNat : ℤ) := by
  apply CFloat.ofInt_eq
  have hlt := b.toNat_lt
  omega

theorem ambang_readEEPROM (s : Globals σ) (t : Ambang) :
    (readEEPROM e s).ambang t = .finite ((e.read s.eeprom t.addr).toNat : ℤ) :=
  ofInt_toNat _

/-- A threshold that was read fits a byte. -/
theorem fits_of_readEEPROM (h : (readEEPROM e s).ambang t = .finite n) : 0 ≤ n ∧ n ≤ 255 := by
  rw [ambang_readEEPROM, CFloat.finite.injEq, Rat.intCast_inj] at h
  have hlt := (e.read s.eeprom t.addr).toNat_lt
  omega

/-- A threshold reads as the last integer set for it when that fits a byte. -/
theorem ambang_readEEPROM_run (hbegin : ∀ a < 11, e.InRange a) (hset : lastSet t as = some n)
    (hn : 0 ≤ n ∧ n ≤ 255) :
    (readEEPROM e (run e terbuka s as)).ambang t = .finite n := by
  rw [ambang_readEEPROM, (holds_run hbegin hset).1, CFloat.toNat_toByte_ofInt terbuka hn]

theorem ambang_mulaiUlang_run (hbegin : ∀ a < 11, e.InRange a) (hset : lastSet t as = some n)
    (hn : 0 ≤ n ∧ n ≤ 255) :
    (mulaiUlang e (run e terbuka s as)).ambang t = .finite n := by
  rw [mulaiUlang, ambang_readEEPROM]
  dsimp only
  rw [e.read_restart _ _ (inRange_addr hbegin t), (holds_run hbegin hset).2,
    CFloat.toNat_toByte_ofInt terbuka hn]

/-- In the globals a threshold is the last integer set for it when that fits a
byte, whether it was read or set. -/
theorem ambang_run (hbegin : ∀ a < 11, e.InRange a) (hset : lastSet t as = some n)
    (hn : 0 ≤ n ∧ n ≤ 255) : (run e terbuka s as).ambang t = .finite n := by
  induction as using List.reverseRecOn with
  | nil => cases hset
  | append_singleton as a ih =>
      rw [lastSet_concat] at hset
      rw [run_concat]
      cases a with
      | blynkWrite pin k =>
          rw [langkah, blynkWrite_eq, setel]
          dsimp only
          by_cases hpin : pin.ambang = t
          · obtain rfl : k = n := by simpa [hpin] using hset
            rw [hpin, Function.update_self]
            exact CFloat.ofInt_eq (by omega)
          · -- the update is of another threshold
            rw [Function.update_of_ne (Ne.symm hpin)]
            exact ih (by simpa [hpin] using hset)
      | mulaiUlang => exact ambang_mulaiUlang_run hbegin hset hn

/-- What `platformBlynk` notifies of depends on the thresholds only. -/
theorem notify_congr {s s' : Globals σ} (h : s.ambang = s'.ambang) (masuk : List (Pin × ℤ))
    (u : Ukuran) : (platformBlynk e terbuka masuk u s).2.notify =
      (platformBlynk e terbuka masuk u s').2.notify := by
  unfold platformBlynk
  dsimp only
  congr 1
  induction masuk generalizing s s' with
  | nil => exact h
  | cons p masuk ih =>
      -- an update sets its threshold to the same value in both states
      rw [List.foldl_cons, List.foldl_cons]
      apply ih
      rw [blynkWrite_eq, blynkWrite_eq, setel, setel, h]

/-- After every run in which each threshold was set, the thresholds survive if and
only if the last integer set for each fits a byte. -/
theorem survives_iff (hbegin : ∀ a < 11, e.InRange a) (s : Globals σ) {n : Ambang → ℤ}
    (hset : ∀ t, lastSet t as = some (n t)) :
    Survives e terbuka (run e terbuka s as) n ↔ ∀ t, 0 ≤ n t ∧ n t ≤ 255 := by
  constructor
  · intro hsurvives t
    exact fits_of_readEEPROM (hsurvives.read t)
  · intro hfits
    have hrestarted : ∀ t, (mulaiUlang e (run e terbuka s as)).ambang t = .finite (n t) :=
      fun t => ambang_mulaiUlang_run hbegin (hset t) (hfits t)
    refine ⟨fun t => ambang_readEEPROM_run hbegin (hset t) (hfits t), hrestarted, ?_⟩
    apply notify_congr
    ext1 t
    rw [hrestarted t]
    exact ambang_run hbegin (hset t) (hfits t)

end Survives

/-- Every threshold is set once, in the order of the pins. -/
def setelSemua (n : Ambang → ℤ) : List Langkah :=
  [.blynkWrite .V4 (n .Tmax), .blynkWrite .V5 (n .Tmin),
    .blynkWrite .V6 (n .Hmax), .blynkWrite .V7 (n .Hmin)]

theorem lastSet_append_setelSemua (as : List Langkah) (n : Ambang → ℤ) (t : Ambang) :
    lastSet t (as ++ setelSemua n) = some (n t) := by
  rw [lastSet, List.foldl_append]
  cases t with
  | Tmax => rfl
  | Tmin => rfl
  | Hmax => rfl
  | Hmin => rfl

theorem inRange_buffered : ∀ a < 11, (Cells.buffered 512 (0 : UInt8)).InRange a := by
  intro a ha
  change a < 512
  omega

/-- An erased EEPROM, and thresholds that were not read. -/
def awal : Globals ((ℕ → UInt8) × (ℕ → UInt8)) where
  eeprom := (fun _ => 0, fun _ => 0)
  ambang := fun _ => .finite 0

/-- Room temperatures and humidities survive, set again after a restart. -/
theorem survives_iff_setAgain :
    let e := Cells.buffered 512 (0 : UInt8)
    let n : Ambang → ℤ | .Tmax => 30 | .Tmin => 18 | .Hmax => 80 | .Hmin => 40
    let as := setelSemua (fun _ => 255) ++ [.mulaiUlang] ++ setelSemua n
    Survives e (fun _ => 0) (run e (fun _ => 0) awal as) n ↔ ∀ t, 0 ≤ n t ∧ n t ≤ 255 := by
  intro e n as
  exact survives_iff inRange_buffered awal (lastSet_append_setelSemua _ n)

/-- A threshold of five degrees of frost is lost: what is read is not negative. -/
theorem not_survives :
    ¬∀ (σ : Type) (e : Cells σ ℕ UInt8) (terbuka : CFloat ℚ → UInt8) (s : Globals σ)
      (as : List Langkah) (n : Ambang → ℤ), (∀ a < 11, e.InRange a) →
      (∀ t, lastSet t as = some (n t)) → Survives e terbuka (run e terbuka s as) n := by
  intro hsurvives
  let n : Ambang → ℤ | .Tmax => 30 | .Tmin => -5 | .Hmax => 80 | .Hmin => 40
  have hfrost := hsurvives _ _ (fun _ => 0) awal _ n inRange_buffered
    (lastSet_append_setelSemua [] n)
  have hfits : 0 ≤ (-5 : ℤ) ∧ (-5 : ℤ) ≤ 255 := fits_of_readEEPROM (hfrost.read .Tmin)
  omega

end EmsGateway.Firmware.Blynk
