import EmsGateway.Firmware.Waktu
import Mathlib.Data.List.Forall2

/-!
The loop of MQTT-Publish.ino. It ends in a deep sleep, which the board leaves by a
reset: every iteration of `loop` is the first one after a `setup`, and finds the
buffers of the time zero.
-/

namespace EmsGateway.Firmware.MqttPublish

open EmsGateway.Library

/-- MQTT-Publish.ino, line 38. -/
def topic : String := "environment_sensor"

/-- MQTT-Publish.ino, line 41. -/
def client_id : String := "5df30e114ccd8b1af4e5cc7b"

/-- MQTT-Publish.ino, line 42. -/
def device_id : String := "5df30e114ccd8b1af4e5cc7b-1578380179048816021"

/-- The globals that `loop` writes, and the calls of `mqttPublish` since the reset,
each with its topic and its payload. -/
structure Globals (τ : Type) where
  ram : Ram
  temp : CFloat τ
  hum : CFloat τ
  published : List (String × String)

/-- A wake of the board: its memory after the reset, what `random(20, 35)` and
`random(50, 100)` return, and what `getLocalTime` does. -/
structure Bangun (al : Alamat) where
  memory : Memory
  times : ∀ i < 10, memory (al.times + i) = Memory.nul
  date : ∀ i < 20, memory (al.date + i) = Memory.nul
  temp : ℤ
  hum : ℤ
  timeinfo : Option Tm

variable {τ : Type} {al : Alamat}

/-- MQTT-Publish.ino, lines 286-288. -/
def mqttPublish (topic value : String) (s : Globals τ) : Globals τ :=
  { s with published := s.published ++ [(topic, value)] }

section Loop

variable [IntCast τ] [Zero τ]

/-- The globals when `loop` begins. -/
def Globals.boot (b : Bangun al) : Globals τ where
  ram := ⟨b.memory, []⟩
  temp := .finite 0
  hum := .finite 0
  published := []

/-- MQTT-Publish.ino, lines 314-335, up to the deep sleep. -/
def loop (desimal : τ → Json.Number) (b : Bangun al) : Globals τ :=
  let s : Globals τ := .boot b
  let s : Globals τ := { s with temp := .finite b.temp, hum := .finite b.hum }
  let s := { s with ram := getTime al b.timeinfo s.ram }
  let payload := jsonData client_id device_id (s.temp.toText fun x => (desimal x).toString)
    (s.hum.toText fun x => (desimal x).toString) (s.ram.string al.times) (s.ram.string al.date)
  mqttPublish topic payload s

def run (desimal : τ → Json.Number) (bs : List (Bangun al)) : List (Globals τ) :=
  bs.map (loop desimal)

/-! ### The time that is published -/

/-- A time as `YYYY-MM-DD HH:MM:SS.000 +0700`. -/
def waktuOf (t : Tm) : String :=
  waktu (String.ofList (timesText t.tm_hour t.tm_min t.tm_sec))
    (String.ofList (dateText (t.tm_year + 1900) (t.tm_mon + 1) t.tm_mday))

/-- The time that a payload has, once. -/
def TimeIs (payload time : String) : Prop :=
  ∃ v, Json.loads payload = some v ∧ Json.fields "time" v = [.str time]

/-- At the end of an iteration: what `sprintf` wrote fits its buffers, and what was
published has the time obtained. -/
structure Fresh (timeinfo : Option Tm) (s : Globals τ) : Prop where
  fits : ∀ c ∈ s.ram.sprintfs, c.written ≤ c.size
  time : ∀ p ∈ s.published, ∃ t ∈ timeinfo, TimeIs p.2 (waktuOf t)

variable (desimal : τ → Json.Number)

theorem published_loop (b : Bangun al) :
    (loop desimal b).published = [(topic,
      jsonData client_id device_id (desimal b.temp).toString (desimal b.hum).toString
        ((loop desimal b).ram.string al.times) ((loop desimal b).ram.string al.date))] := rfl

theorem ram_loop (b : Bangun al) :
    (loop desimal b).ram = getTime al b.timeinfo ⟨b.memory, []⟩ := rfl

/-- An iteration that obtains a time writes thirteen bytes into the ten of `times`,
and eleven into the twenty of `date`. -/
theorem sprintfs_loop (b : Bangun al) :
    (loop desimal b).ram.sprintfs = if b.timeinfo.isSome then [⟨10, 13⟩, ⟨20, 11⟩] else [] := by
  rw [ram_loop]
  cases b.timeinfo with
  | none => rfl
  | some t => simp [getTime, tulisWaktu, Ram.sprintf, t.digits.length_timesText,
      t.digits.length_dateText]

/-- No iteration of any run meets both demands: where a time is obtained the first
fails, and where none is a payload is published all the same. -/
theorem not_fresh (bs : List (Bangun al)) :
    List.Forall₂ (fun b s => ¬Fresh b.timeinfo s) bs (run desimal bs) := by
  rw [run, List.forall₂_map_right_iff, List.forall₂_same]
  intro b _ hfresh
  cases htime : b.timeinfo with
  | none =>
      obtain ⟨t, ht, -⟩ := hfresh.time _ (by rw [published_loop]; exact List.mem_singleton_self _)
      rw [htime] at ht
      cases ht
  | some t =>
      have hfits := hfresh.fits ⟨10, 13⟩ (by simp [sprintfs_loop, htime])
      revert hfits
      decide

/-! ### What stands in the payload instead -/

theorem plain_client_id : ∀ c ∈ client_id.toList, Json.Plain c :=
  List.all_iff_forall_prop.mp (by decide)

theorem plain_device_id : ∀ c ∈ device_id.toList, Json.Plain c :=
  List.all_iff_forall_prop.mp (by decide)

theorem TimeIs.unique {payload time time' : String} (h : TimeIs payload time)
    (h' : TimeIs payload time') : time = time' := by
  obtain ⟨v, hv, htime⟩ := h
  obtain ⟨v', hv', htime'⟩ := h'
  rw [hv, Option.some.injEq] at hv'
  rw [hv', htime'] at htime
  simpa using htime.symm

theorem timeIs_loop (b : Bangun al)
    (hplain : ∀ c ∈ (waktu ((loop desimal b).ram.string al.times)
      ((loop desimal b).ram.string al.date)).toList, Json.Plain c) :
    ∀ p ∈ (loop desimal b).published, TimeIs p.2 (waktu ((loop desimal b).ram.string al.times)
      ((loop desimal b).ram.string al.date)) := by
  intro p hp
  rw [published_loop, List.mem_singleton] at hp
  obtain ⟨v, hv, hdecoded⟩ :=
    (decodes_number_iff plain_client_id plain_device_id (desimal b.temp) (desimal b.hum) _ _).mpr
      hplain
  rw [hp]
  exact ⟨v, hv, hdecoded.time⟩

/-- With the time obtained, the published time is the time exactly when the date
stands clear of the thirteen bytes written to `times`. -/
theorem time_loop_iff (b : Bangun al) {t : Tm} (ht : b.timeinfo = some t) :
    (∀ p ∈ (loop desimal b).published, TimeIs p.2 (waktuOf t)) ↔
      ¬(al.times ≤ al.date ∧ al.date ≤ al.times + 12) := by
  have hdigits := t.digits
  have hram : (loop desimal b).ram = getTime al (some t) ⟨b.memory, []⟩ := by rw [ram_loop, ht]
  have hread := timeIs_loop desimal b
  rw [hram, getTime, hdigits.string_times, hdigits.string_date] at hread
  have hread := hread (hdigits.plain_waktu al)
  rw [← hdigits.timesRead_eq_iff al]
  constructor
  · intro hall
    have hmem := published_loop desimal b ▸ List.mem_singleton_self _
    have heq := (hread _ hmem).unique (hall _ hmem)
    exact String.ofList_injective (waktu_left_inj.mp heq)
  · intro heq p hp
    rw [waktuOf, ← heq]
    exact hread p hp

/-- Without a time obtained, the published time is empty. -/
theorem time_loop_none (b : Bangun al) (hnone : b.timeinfo = none) :
    ∀ p ∈ (loop desimal b).published, TimeIs p.2 "  +0700" := by
  have hempty : ∀ {a : ℕ}, b.memory a = Memory.nul → (⟨b.memory, []⟩ : Ram).string a = "" := by
    intro a hnul
    have hholds : b.memory.Holds a [] := ⟨trivial, hnul⟩
    rw [Ram.string, Memory.cstring_eq hholds (by decide)]
  have htimes : b.memory al.times = Memory.nul := b.times 0 (by decide)
  have hdate : b.memory al.date = Memory.nul := b.date 0 (by decide)
  have hread := timeIs_loop desimal b
  rw [ram_loop, hnone, getTime, hempty htimes, hempty hdate] at hread
  exact hread (List.all_iff_forall_prop.mp (by decide))

end Loop

/-- A wake that obtains a time. -/
def bangunContoh (al : Alamat) : Bangun al where
  memory := fun _ => Memory.nul
  times := fun _ _ => rfl
  date := fun _ _ => rfl
  temp := 25
  hum := 60
  timeinfo := some ⟨12, 34, 56, 20, 0, 120, by decide, by decide, by decide, by decide, by decide,
    by decide⟩

/-- One iteration is enough. -/
theorem not_all_fresh :
    ¬∀ (al : Alamat) (desimal : ℤ → Json.Number) (bs : List (Bangun al)),
      List.Forall₂ (fun b s => Fresh b.timeinfo s) bs (run desimal bs) := by
  intro hall
  obtain ⟨⟩ | ⟨hfresh, -⟩ := hall ⟨0, 20, by decide⟩ (fun _ => ⟨['0'], rfl, rfl⟩) [bangunContoh _]
  have hfits := hfresh.fits ⟨10, 13⟩ (by rw [sprintfs_loop]; decide)
  revert hfits
  decide

end EmsGateway.Firmware.MqttPublish
