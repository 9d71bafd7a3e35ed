import EmsGateway.Collect.Sweep
import EmsGateway.Connect.Pass
import EmsGateway.Library.Json
import EmsGateway.Library.Lines
import Mathlib.Data.List.Forall2

/-!
The text of the spool file. Elsewhere a record is one line of the file; here the
file is the text that was written to it, and the two services agree on where its
lines end because the JSON of a record holds no line break.
-/

namespace EmsGateway.System

open EmsGateway.Library

variable {τ : Type}

/-! ### Writing -/

/-- The object that `parse_data` builds. A tuple becomes an array. -/
def payloadJson (repr : τ → Json.Number) (strftime : ℕ → String) (p : Collect.Payload τ) : Json :=
  .obj [("device_id", .str p.device_id),
    ("sensors", .arr (p.sensors.map fun s =>
      .obj [("sensor_name", .str s.1), ("value", .num (repr s.2))])),
    ("time", .str (strftime p.time ++ " +0700"))]

/-- What is spooled of a reading, and when `parse_data` and `datakirim` look at the
clock. -/
structure Bacaan (τ : Type) where
  id_perangkat : String
  temperatur : τ
  baterai : τ
  waktu : ℕ
  clock : ℕ
  deriving DecidableEq

/-- The text that `parse_data` returns. -/
def Bacaan.data (repr : τ → Json.Number) (strftime : ℕ → String) (b : Bacaan τ) : String :=
  Json.dumps (payloadJson repr strftime
    (Collect.parseData b.waktu b.id_perangkat b.temperatur b.baterai))

/-- The collect service after `datakirim` of the readings, none of whose writes
fails. -/
def kirimSemua (repr : τ → Json.Number) (strftime : ℕ → String) (s : Collect.ParseClass String)
    (bs : List (Bacaan τ)) : Collect.ParseClass String :=
  bs.foldl (fun s b => (Collect.datakirim b.clock .ok (b.data repr strftime)).final s) s

/-! ### Reading -/

/-- The text of a file that these texts were written to, each with a line break. -/
def isiFile (tulisan : List String) : List Char :=
  tulisan.flatMap fun data => data.toList ++ ['\n']

/-- The lines that `readlines` finds in that text. -/
def barisFile (tulisan : List String) : List String :=
  (Lines.readlines (isiFile tulisan)).map String.ofList

/-- connect.py, lines 85-86. -/
def bacaBaris : Connect.ProcessM String (List String) := do
  let tulisan ← Connect.openRead
  pure (barisFile tulisan)

/-- connect.py, lines 69-80, on the text of the file. -/
def ceklogTeks : Connect.ProcessM String (Option Bool) :=
  tryCatch (do
    let s ← get
    match s.self.filekirimsensor with
    | none => throw .attributeError
    | some name =>
        if Directory.isfile s.spool name then
          pure (Connect.ceklogLines id (barisFile (Directory.lines s.spool name)))
        else pure none)
  fun _ => do
    Connect.onSelf (Connect.logException "Exception occurred ceklog")
    pure none

/-- A line break is no brace. -/
theorem ceklogLines_map_newline (tulisan : List String) :
    Connect.ceklogLines id (tulisan.map (· ++ "\n")) = Connect.ceklogLines id tulisan := by
  cases tulisan with
  | nil => rfl
  | cons data tulisan => simp [Connect.ceklogLines]

/-- What is written without line breaks is read line by line. -/
theorem barisFile_eq_map {tulisan : List String}
    (hinline : ∀ data ∈ tulisan, ∀ c ∈ data.toList, Lines.Inline c) :
    barisFile tulisan = tulisan.map (· ++ "\n") := by
  rw [barisFile, isiFile, Lines.readlines_flatMap hinline, List.map_map]
  apply List.map_congr_left
  intro data _
  exact String.toList_inj.mp (by simp)

section Processes

variable {p : Connect.Process String} {name : ℕ} {tulisan : List String}
  (hname : p.self.filekirimsensor = some name)
  (hfile : Directory.readlines p.spool name = some tulisan)

include hname hfile

theorem exec_bacaBaris : bacaBaris.exec p = (.ok (barisFile tulisan), p) := by
  simp [bacaBaris, Connect.openRead, Stmt.exec_bind, hname, hfile]

theorem exec_ceklogTeks :
    ceklogTeks.exec p = (.ok (Connect.ceklogLines id (barisFile tulisan)), p) := by
  have hisfile : Directory.isfile p.spool name = true := Directory.isfile_of_readlines hfile
  simp [ceklogTeks, Stmt.exec_tryCatch, Stmt.exec_bind, hname, hisfile,
    Directory.lines_eq_of_readlines hfile]

/-- Where no text has a line break, a record is a line of the file: what is read is
what the model of lines reads, and `ceklog` answers the same. -/
theorem exec_eq_of_inline (hinline : ∀ data ∈ tulisan, ∀ c ∈ data.toList, Lines.Inline c) :
    bacaBaris.exec p = (.ok (tulisan.map (· ++ "\n")), p) ∧
      ceklogTeks.exec p = (Connect.ceklog id).exec p := by
  have hisfile : Directory.isfile p.spool name = true := Directory.isfile_of_readlines hfile
  constructor
  · rw [exec_bacaBaris hname hfile, barisFile_eq_map hinline]
  · rw [exec_ceklogTeks hname hfile, barisFile_eq_map hinline, ceklogLines_map_newline]
    simp [Connect.ceklog, Stmt.exec_tryCatch, Stmt.exec_bind, hname, hisfile,
      Directory.lines_eq_of_readlines hfile]

end Processes

/-! ### What the file holds -/

section Spooled

variable (repr : τ → Json.Number) (strftime : ℕ → String)

theorem readlines_datakirim {s : Collect.ParseClass String} {hari : ℕ} {tulisan : List String}
    (hfile : Directory.readlines s.spool hari = some tulisan) (data : String) {clock : ℕ}
    (hhari : tanggalsekarang clock = hari) :
    Directory.readlines ((Collect.datakirim clock .ok data).final s).spool hari =
      some (tulisan ++ [data]) := by
  obtain ⟨log, hexec⟩ := Collect.exec_datakirim clock .ok data s
  obtain ⟨d, happend, hread⟩ := Directory.readlines_appendLine hfile data clock
  rw [Stmt.final, hexec, hhari, writeLine, happend]
  exact hread

theorem readlines_kirimSemua {s : Collect.ParseClass String} {hari : ℕ} {tulisan : List String}
    (hfile : Directory.readlines s.spool hari = some tulisan) {bs : List (Bacaan τ)}
    (hhari : ∀ b ∈ bs, tanggalsekarang b.clock = hari) :
    Directory.readlines (kirimSemua repr strftime s bs).spool hari =
      some (tulisan ++ bs.map (Bacaan.data repr strftime)) := by
  induction bs generalizing s tulisan with
  | nil => simpa [kirimSemua] using hfile
  | cons b bs ih =>
      rw [List.forall_mem_cons] at hhari
      have hfirst := readlines_datakirim hfile (b.data repr strftime) hhari.1
      have hrest := ih hfirst hhari.2
      rw [List.map_cons, List.append_cons]
      exact hrest

/-- A record holds no line break. -/
theorem inline_data (b : Bacaan τ) : ∀ c ∈ (b.data repr strftime).toList, Lines.Inline c := by
  intro c hc
  rw [Bacaan.data, Json.dumps, String.toList_ofList] at hc
  have hprintable := Json.printable_render _ c hc
  constructor
  · rintro rfl
    revert hprintable
    decide
  · rintro rfl
    revert hprintable
    decide

theorem barisFile_map_data (bs : List (Bacaan τ)) :
    barisFile (bs.map (Bacaan.data repr strftime)) =
      bs.map fun b => b.data repr strftime ++ "\n" := by
  have hinline : ∀ data ∈ bs.map (Bacaan.data repr strftime),
      ∀ c ∈ data.toList, Lines.Inline c := by
    rw [List.forall_mem_map]
    exact fun b _ => inline_data repr strftime b
  rw [barisFile_eq_map hinline, List.map_map]
  rfl

/-- The first character of a record is the brace that `ceklog` looks for. -/
theorem contains_brace_data (b : Bacaan τ) :
    (b.data repr strftime ++ "\n").toList.contains '\x7b' = true := by
  rw [String.toList_append, Bacaan.data, Json.dumps, String.toList_ofList, payloadJson, Json.render]
  simp

/-- An entry of the sensors, whose number is this value. -/
structure Sensor (float : Json.Number → τ) (sensor_name : String) (value : τ) (v : Json) :
    Prop where
  sensor_name : Json.fields "sensor_name" v = [.str sensor_name]
  value : ∃ n, Json.fields "value" v = [.num n] ∧ float n = value

/-- A line is ended by a line break, and decodes to the reading. -/
structure Terbaca (float : Json.Number → τ) (b : Bacaan τ) (line : String) : Prop where
  newline : ∃ text, line = text ++ "\n"
  decoded : ∃ v, Json.loads line = some v ∧
    Json.fields "device_id" v = [.str b.id_perangkat] ∧
    ∃ t u, Json.fields "sensors" v = [.arr [t, u]] ∧ Sensor float "temperatur" b.temperatur t ∧
      Sensor float "baterai" b.baterai u

variable {repr} {float : Json.Number → τ}

theorem sensor_obj (hfloat : ∀ x, float (repr x) = x) (sensor_name : String) (x : τ) :
    Sensor float sensor_name x
      (.obj [("sensor_name", .str sensor_name), ("value", .num (repr x))]) where
  sensor_name := by simp [Json.fields]
  value := ⟨repr x, by simp [Json.fields], hfloat x⟩

theorem terbaca_data (hfloat : ∀ x, float (repr x) = x) (b : Bacaan τ) :
    Terbaca float b (b.data repr strftime ++ "\n") where
  newline := ⟨_, rfl⟩
  decoded := by
    refine ⟨_, Json.loads_dumps _ (by simp [Json.isSpace]),
      by simp [payloadJson, Json.fields, Collect.parseData],
      _, _, ?_, sensor_obj hfloat "temperatur" b.temperatur, sensor_obj hfloat "baterai" b.baterai⟩
    simp [payloadJson, Json.fields, Collect.parseData]

/-- The readings that are spooled are the lines that are read, in their order and
each with its values, and the file is ready when there is a reading. -/
theorem round_trip (hfloat : ∀ x, float (repr x) = x) {s : Collect.ParseClass String} {hari : ℕ}
    (hempty : Directory.readlines s.spool hari = some []) {bs : List (Bacaan τ)}
    (hhari : ∀ b ∈ bs, tanggalsekarang b.clock = hari) {p : Connect.Process String}
    (hname : p.self.filekirimsensor = some hari)
    (hspool : p.spool = (kirimSemua repr strftime s bs).spool) :
    (∃ lines, bacaBaris.exec p = (.ok lines, p) ∧ List.Forall₂ (Terbaca float) bs lines) ∧
      ((ceklogTeks.exec p).1 = .ok (some true) ↔ bs ≠ []) := by
  have hfile := readlines_kirimSemua repr strftime hempty hhari
  rw [← hspool, List.nil_append] at hfile
  rw [exec_bacaBaris hname hfile, exec_ceklogTeks hname hfile, barisFile_map_data]
  constructor
  · refine ⟨_, rfl, ?_⟩
    rw [List.forall₂_map_right_iff, List.forall₂_same]
    exact fun b _ => terbaca_data strftime hfloat b
  · cases bs with
    | nil => simp [Connect.ceklogLines]
    | cons b bs =>
        refine iff_of_true ?_ (List.cons_ne_nil b bs)
        rw [List.map_cons, Connect.ceklogLines, id, contains_brace_data, if_pos rfl]

end Spooled

/-- Two readings, the first with an id that has to be escaped. -/
def duaBacaan : List (Bacaan ℕ) :=
  [⟨"Ruang \"1\"\nB\u00E9", 27, 36, 0, 0⟩, ⟨"", 0, 100, second, second⟩]

/-- The collect service with the file of day zero still empty. -/
def kosong : Collect.ParseClass String := .new (AList.insert 0 (.file [] 0) ∅) ∅

/-- The connect service, on what the collect service spooled of the two. -/
def pembaca : Connect.Process String where
  self := ⟨false, none, some 0, [], [], []⟩
  spool := (kirimSemua Json.Number.ofNat (fun _ => "2020-01-20 07:00:00") kosong duaBacaan).spool
  clock := second

theorem round_trip_duaBacaan :
    (∃ lines, bacaBaris.exec pembaca = (.ok lines, pembaca) ∧
      List.Forall₂ (Terbaca fun n => Nat.ofDigitChars 10 n.text 0) duaBacaan lines) ∧
      ((ceklogTeks.exec pembaca).1 = .ok (some true) ↔ duaBacaan ≠ []) :=
  round_trip (fun _ => "2020-01-20 07:00:00") (fun n => Nat.ofDigitChars_ten_toDigits)
    (s := kosong) rfl (by decide) rfl rfl

end EmsGateway.System
