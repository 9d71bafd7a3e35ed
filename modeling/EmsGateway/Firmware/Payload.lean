import EmsGateway.Firmware.Arduino
import EmsGateway.Library.Json

/-!
The payload of the sketches that publish over MQTT: a JSON text put together from
the texts of its values, with nothing escaped.
-/

namespace EmsGateway.Firmware

open EmsGateway.Library

/-- MQTT-Publish.ino, lines 291-294, and Kalibrasi_Sensor_ESP32.ino, lines 125-128. -/
def jsonData (client_id device_id temperature humidity times date : String) : String :=
  "\x7b\"client_id\": \"" ++ client_id ++ "\", \"device_id\": \"" ++ device_id ++
    "\", \"sensors\": [\x7b\"sensor_name\": \"temperatur\", \"value\": " ++ temperature ++
    "\x7d, \x7b\"sensor_name\": \"kelembapan\", \"value\": " ++ humidity ++
    "\x7d], \"time\": \"" ++ date ++ " " ++ times ++ " +0700\"\x7d"

def waktu (times date : String) : String := date ++ " " ++ times ++ " +0700"

theorem waktu_left_inj {times times' date : String} :
    waktu times date = waktu times' date ↔ times = times' := by
  simp only [waktu, ← String.toList_inj, String.toList_append, List.append_left_inj,
    List.append_right_inj]

/-- An entry of the sensors: its name, and the number that has this text. -/
structure Entry (sensor_name value : String) (v : Json) : Prop where
  sensor_name : Json.fields "sensor_name" v = [.str sensor_name]
  value : ∃ n : Json.Number, Json.fields "value" v = [.num n] ∧ n.toString = value

/-- A value has the arguments of `jsonData` under their names, each once. -/
structure Decoded (client_id device_id temperature humidity times date : String) (v : Json) :
    Prop where
  client_id : Json.fields "client_id" v = [.str client_id]
  device_id : Json.fields "device_id" v = [.str device_id]
  sensors : ∃ a b, Json.fields "sensors" v = [.arr [a, b]] ∧ Entry "temperatur" temperature a ∧
    Entry "kelembapan" humidity b
  time : Json.fields "time" v = [.str (waktu times date)]

/-- The payload is well-formed and decodes to the arguments it was made of. -/
def Decodes (client_id device_id temperature humidity times date : String) : Prop :=
  ∃ v, Json.loads (jsonData client_id device_id temperature humidity times date) = some v ∧
    Decoded client_id device_id temperature humidity times date v

/-! ### The payload as tokens -/

open Json

/-- An entry of the sensors, before more text. -/
def entryText (sensor_name : String) (value rest : List Char) : List Char :=
  '\x7b' :: member "sensor_name" (render (.str sensor_name) ++ ',' :: ' ' ::
    member "value" (value ++ '\x7d' :: rest))

/-- The last member and the end of the object. -/
def timeText (times date : String) : List Char :=
  member "time" ('"' :: ((waktu times date).toList ++ ['"', '\x7d']))

/-- The names in the template are written as they stand. -/
theorem render_names : ∀ name ∈ ["client_id", "device_id", "sensors", "sensor_name", "temperatur",
    "kelembapan", "value", "time"], render (.str name) = '"' :: (name.toList ++ ['"']) := by
  decide

theorem member_names : ∀ name ∈ ["client_id", "device_id", "sensors", "sensor_name", "temperatur",
    "kelembapan", "value", "time"],
    ∀ text, member name text = '"' :: (name.toList ++ '"' :: ':' :: ' ' :: text) := by
  intro name hname text
  have hrender := render_names name hname
  rw [render] at hrender
  rw [member, hrender]
  simp

theorem toList_jsonData (client_id device_id temperature humidity times date : String) :
    (jsonData client_id device_id temperature humidity times date).toList =
      '\x7b' :: member "client_id" ('"' :: (client_id.toList ++ '"' :: ',' :: ' ' ::
        member "device_id" ('"' :: (device_id.toList ++ '"' :: ',' :: ' ' ::
          member "sensors" ('[' :: entryText "temperatur" temperature.toList (',' :: ' ' ::
            entryText "kelembapan" humidity.toList (']' :: ',' :: ' ' ::
              timeText times date))))))) := by
  unfold jsonData entryText timeText waktu
  simp [String.toList_append, member_names, render_names]

/-! ### Reading the payload -/

variable {fuel : ℕ} {value rest : List Char} {x : Json}

theorem readValue_entryText (sensor_name : String)
    (hvalue : readValue (fuel + 1) (value ++ '\x7d' :: rest) = some (x, '\x7d' :: rest)) :
    readValue (fuel + 4) (entryText sensor_name value rest) =
      some (.obj [("sensor_name", .str sensor_name), ("value", x)], rest) := by
  rw [entryText, readValue_brace, closeOrMore_member,
    readMembers_cons "sensor_name" (readValue_str (by omega) sensor_name _),
    readMembers_last "value" hvalue]
  rfl

theorem readValue_entryText_none (sensor_name : String)
    (hvalue : readValue (fuel + 1) (value ++ '\x7d' :: rest) = none) :
    readValue (fuel + 4) (entryText sensor_name value rest) = none := by
  rw [entryText, readValue_brace, closeOrMore_member,
    readMembers_cons "sensor_name" (readValue_str (by omega) sensor_name _),
    readMembers_member, hvalue]
  rfl

theorem closeOrMore_entryText {α : Type} (more : List Char → Option (List α × List Char))
    (sensor_name : String) (value rest : List Char) :
    closeOrMore ']' more (entryText sensor_name value rest) =
      more (entryText sensor_name value rest) :=
  closeOrMore_more (by decide) (by decide) _

theorem readValue_nan (fuel : ℕ) (rest : List Char) :
    readValue (fuel + 1) ("nan".toList ++ rest) = none := by
  have hskip : skip ("nan".toList ++ rest) = 'n' :: 'a' :: 'n' :: rest :=
    skip_cons (by decide) _
  rw [readValue, hskip]
  simp [keyword]

theorem readValue_number (fuel : ℕ) (n : Number) (rest : List Char) :
    readValue (fuel + 1) (n.toString.toList ++ '\x7d' :: rest) = some (.num n, '\x7d' :: rest) := by
  rw [Number.toString, String.toList_ofList]
  exact readValue_num (Nat.succ_pos fuel) n (ends_cons (by decide) rest)

/-- The sensors of the payload, with two numbers. -/
def sensorsOf (n m : Number) : Json :=
  .arr [.obj [("sensor_name", .str "temperatur"), ("value", .num n)],
    .obj [("sensor_name", .str "kelembapan"), ("value", .num m)]]

theorem entry_obj (sensor_name : String) (n : Number) :
    Entry sensor_name n.toString (.obj [("sensor_name", .str sensor_name), ("value", .num n)]) where
  sensor_name := by simp [fields]
  value := ⟨n, by simp [fields], rfl⟩

theorem decoded_obj (client_id device_id : String) (n m : Number) (times date : String) :
    Decoded client_id device_id n.toString m.toString times date
      (.obj [("client_id", .str client_id), ("device_id", .str device_id),
        ("sensors", sensorsOf n m), ("time", .str (waktu times date))]) where
  client_id := by simp [fields]
  device_id := by simp [fields]
  sensors := ⟨_, _, by simp [fields, sensorsOf], entry_obj "temperatur" n, entry_obj "kelembapan" m⟩
  time := by simp [fields]

theorem readValue_sensors (fuel : ℕ) (n m : Number) (rest : List Char) :
    readValue (fuel + 7) ('[' :: entryText "temperatur" n.toString.toList (',' :: ' ' ::
      entryText "kelembapan" m.toString.toList (']' :: rest))) = some (sensorsOf n m, rest) := by
  rw [readValue_bracket, closeOrMore_entryText,
    readElems_cons (readValue_entryText "temperatur" (readValue_number _ n _)),
    readElems_last (readValue_entryText "kelembapan" (readValue_number _ m _))]
  rfl

theorem readValue_sensors_nan (fuel : ℕ) (rest : List Char) :
    readValue (fuel + 7) ('[' :: entryText "temperatur" "nan".toList rest) = none := by
  rw [readValue_bracket, closeOrMore_entryText, readElems,
    readValue_entryText_none "temperatur" (readValue_nan _ _)]
  rfl

theorem readValue_sensors_number_nan (fuel : ℕ) (n : Number) (rest : List Char) :
    readValue (fuel + 7) ('[' :: entryText "temperatur" n.toString.toList (',' :: ' ' ::
      entryText "kelembapan" "nan".toList rest)) = none := by
  rw [readValue_bracket, closeOrMore_entryText,
    readElems_cons (readValue_entryText "temperatur" (readValue_number _ n _)), readElems,
    readValue_entryText_none "kelembapan" (readValue_nan _ _)]
  rfl

theorem readMembers_timeText (fuel : ℕ) {times date : String}
    (hplain : ∀ c ∈ (waktu times date).toList, Plain c) :
    readMembers (fuel + 2) (timeText times date) = some ([("time", .str (waktu times date))], []) :=
  readMembers_last "time" (readValue_plain (Nat.succ_pos fuel) hplain ['\x7d'])

theorem plain_of_readMembers_timeText {times date : String} {members : List (String × Json)}
    (hread : readMembers (fuel + 2) (timeText times date) = some (members, rest))
    (htime : fields "time" (.obj members) = [.str (waktu times date)]) :
    ∀ c ∈ (waktu times date).toList, Plain c := by
  rw [timeText, readMembers_member, readValue_quote (Nat.succ_pos fuel),
    Option.bind_eq_some_iff] at hread
  obtain ⟨p, hvalue, hmore⟩ := hread
  obtain ⟨⟨text, after⟩, hstring, rfl⟩ := Option.map_eq_some_iff.mp hvalue
  obtain ⟨more, rfl⟩ := exists_cons_of_moreOrClose hmore
  have htext : text = (waktu times date).toList := by
    simp only [fields, List.filter_cons_of_pos, decide_true, List.map_cons, List.cons.injEq,
      Json.str.injEq] at htime
    rw [← htime.1, String.toList_ofList]
  rw [htext] at hstring
  exact plain_of_readString hstring (by decide)

theorem plain_waktu_iff (times date : String) : (∀ c ∈ (waktu times date).toList, Plain c) ↔
    (∀ c ∈ date.toList, Plain c) ∧ ∀ c ∈ times.toList, Plain c := by
  have hspace : ∀ c ∈ " ".toList, Plain c := List.all_iff_forall_prop.mp rfl
  have hzone : ∀ c ∈ " +0700".toList, Plain c := List.all_iff_forall_prop.mp rfl
  simp only [waktu, String.toList_append, List.forall_mem_append]
  constructor
  · rintro ⟨⟨⟨hdate, -⟩, htimes⟩, -⟩
    exact ⟨hdate, htimes⟩
  · rintro ⟨hdate, htimes⟩
    exact ⟨⟨⟨hdate, hspace⟩, htimes⟩, hzone⟩

section Payload

variable {client_id device_id : String} (hclient : ∀ c ∈ client_id.toList, Plain c)
  (hdevice : ∀ c ∈ device_id.toList, Plain c)

include hclient hdevice

/-- The payload is read up to its sensors, and the rest from there. -/
theorem loads_jsonData (temperature humidity times date : String) :
    ∃ fuel, loads (jsonData client_id device_id temperature humidity times date) =
      (readMembers (fuel + 9) (member "sensors" ('[' :: entryText "temperatur" temperature.toList
        (',' :: ' ' :: entryText "kelembapan" humidity.toList (']' :: ',' :: ' ' ::
          timeText times date))))).bind fun p =>
            if skip p.2 = [] then
              some (.obj (("client_id", .str client_id) :: ("device_id", .str device_id) :: p.1))
            else none := by
  have hlength : 12 ≤ (jsonData client_id device_id temperature humidity times date).length := by
    rw [← String.length_toList, toList_jsonData, member_names "client_id" (by simp)]
    simp
  obtain ⟨fuel, hfuel⟩ := Nat.exists_eq_add_of_le hlength
  refine ⟨fuel + 1, ?_⟩
  rw [loads, hfuel, toList_jsonData, Nat.add_comm 12 fuel, readValue_brace, closeOrMore_member,
    readMembers_cons "client_id" (readValue_plain (by omega) hclient _),
    readMembers_cons "device_id" (readValue_plain (by omega) hdevice _)]
  simp only [Option.map_map, Option.bind_map]
  rfl

/-- With two numbers the payload decodes when its time is plain. -/
theorem decodes_number_iff (n m : Number) (times date : String) :
    Decodes client_id device_id n.toString m.toString times date ↔
      ∀ c ∈ (waktu times date).toList, Plain c := by
  obtain ⟨fuel, hloads⟩ := loads_jsonData hclient hdevice n.toString m.toString times date
  rw [readMembers_cons "sensors" (readValue_sensors (fuel + 1) n m _)] at hloads
  constructor
  · rintro ⟨v, hv, hdecoded⟩
    rw [hloads, Option.bind_eq_some_iff] at hv
    obtain ⟨p, hp, hv⟩ := hv
    obtain ⟨q, hread, rfl⟩ := Option.map_eq_some_iff.mp hp
    split at hv
    · cases hv
      refine plain_of_readMembers_timeText hread ?_
      simpa [fields] using hdecoded.time
    · cases hv
  · intro hplain
    rw [readMembers_timeText (fuel + 6) hplain] at hloads
    exact ⟨_, hloads, decoded_obj client_id device_id n m times date⟩

theorem not_decodes_nan (humidity times date : String) :
    ¬Decodes client_id device_id "nan" humidity times date := by
  obtain ⟨fuel, hloads⟩ := loads_jsonData hclient hdevice "nan" humidity times date
  rw [readMembers_member, readValue_sensors_nan (fuel + 1)] at hloads
  rintro ⟨v, hv, -⟩
  rw [hloads] at hv
  cases hv

theorem not_decodes_number_nan (n : Number) (times date : String) :
    ¬Decodes client_id device_id n.toString "nan" times date := by
  obtain ⟨fuel, hloads⟩ := loads_jsonData hclient hdevice n.toString "nan" times date
  rw [readMembers_member, readValue_sensors_number_nan (fuel + 1)] at hloads
  rintro ⟨v, hv, -⟩
  rw [hloads] at hv
  cases hv

end Payload

end EmsGateway.Firmware
