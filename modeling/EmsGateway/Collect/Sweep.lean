import EmsGateway.Collect.Interval
import EmsGateway.Deletefilelog

/-!
A sweep of the collect service over the three units of the Modbus line:
`temperaturehumidity`, `parse_data`, `parse_datalog` and `parse_json`.

What `round(x * 0.001, 2)` makes of a register is a parameter `bulat`.
-/

namespace EmsGateway.Collect

open EmsGateway.Library

/-- A unit of the line: it answers from its input registers, the read raises, or
the unit returns an error response. -/
inductive UnitState
  | answering (registers : ℕ → BitVec 16)
  | raises
  | errorResponse

abbrev Bus := ℕ → UnitState

def UnitState.answers : UnitState → Bool
  | .answering _ => true
  | _ => false

/-- What a room log or the spool says of a unit: the object whose text
`parse_data` returns. -/
structure Payload (τ : Type) where
  device_id : String
  sensors : List (String × τ)
  time : ℕ
  deriving DecidableEq

/-- When a unit is read, how the writes end, and what the clean-up after it meets:
the names listed and the file operations on them. -/
structure Saat where
  clock : ℕ
  catat : WriteReply
  kirim : WriteReply
  daftar : List (String × ℕ)
  hapus : Meets (String × ℕ)

variable {τ δ : Type}

/-- `client.read_input_registers(address, count, unit=unit)`; an error response
is `none`. -/
def readInputRegisters (bus : Bus) (address count unit : ℕ) :
    ParseM δ (Option (List (BitVec 16))) :=
  match bus unit with
  | .answering registers => pure (some ((List.range' address count).map registers))
  | .raises => throw .modbus
  | .errorResponse => pure none

/-- `response.registers[0]`. -/
def firstRegister (response : Option (List (BitVec 16))) : ParseM δ (BitVec 16) :=
  match response with
  | none => throw .attributeError
  | some [] => throw .indexError
  | some (register :: _) => pure register

/-- collect.py, lines 167-178. Both registers are read from unit `1`. -/
def temperaturehumidity (bus : Bus) (bulat : BitVec 16 → τ) (_unit : ℕ) : ParseM δ (τ × τ) := do
  let rawtemperature ← readInputRegisters bus 3 1 1
  let temperature := bulat (← firstRegister rawtemperature)
  let rawbattery ← readInputRegisters bus 4 1 1
  let battery := bulat (← firstRegister rawbattery)
  pure (temperature, battery)

/-- collect.py, lines 65-79. Nothing in it raises. -/
def parseData (clock : ℕ) (id_perangkat : String) (temperatur baterai : τ) : Payload τ where
  device_id := id_perangkat
  sensors := [("temperatur", temperatur), ("baterai", baterai)]
  time := clock / second

/-- collect.py, lines 30-40, over the names `daftar` that `os.listdir` returns, with
the names that are left. -/
def deletefilelog (daftar : List (String × ℕ)) (hapus : Meets (String × ℕ)) (deletelog : ℚ) :
    ParseM δ (Option (List (String × ℕ))) :=
  tryCatch (do
    Stmt.within ParseClass.datalog (fun d s => { s with datalog := d })
      (Deletefilelog.files .osError deletelog hapus daftar)
    pure (some (← get).datalog.keys))
  fun _ => do
    logException "Exception occurred create deletefilelog"
    pure none

/-- collect.py, lines 50-62. -/
def parseDatalog (saat : Saat) (data : δ) (id_perangkat : String) :
    ParseM δ (Option (String × ℕ)) :=
  tryCatch (do
    let filesensor := (id_perangkat, tanggalsekarang saat.clock)
    let written := writeLine (← get).datalog filesensor data saat.clock saat.catat
    modify fun s => { s with datalog := written.1 }
    if written.2 then
      modify fun s => { s with dicatat := s.dicatat ++ [data] }
      let _ ← deletefilelog saat.daftar saat.hapus 7
      pure (some filesensor)
    else throw .osError)
  fun _ => do
    logException "Exception occurred create datalog"
    pure none

/-- collect.py, lines 85-90: the last `if` decides, whatever the first has set. -/
def idPerangkat (sebelum : String) (unit : ℕ) : String := Id.run do
  let mut id_perangkat := sebelum
  if unit = 1 then
    id_perangkat := "Ruang Instrument"
  if unit = 2 then
    id_perangkat := "Ruang Panel Listrik 1"
  else
    id_perangkat := "Ruang Panel Listrik 2"
  return id_perangkat

/-- The name `baterai`, which `parse_json` uses and nothing defines. -/
def baterai : ParseM δ τ := throw .nameError

/-- The units of a sweep, `range(1,4)`. -/
def units : List ℕ := List.range' 1 3

section ParseJson

variable {σ : Type} (self : ∀ {β : Type}, ParseM (Payload τ) β → Stmt σ PyError β)
  (temperaturehumidity : ℕ → Stmt σ PyError (τ × τ)) (saat : ℕ → Saat)

/-- The body of the loop of `parse_json`, in a state of which the attributes are a
part: `self` is a statement about these, and `temperaturehumidity` the method of
`self.modbus`. -/
def parseUnitOf (saat : Saat) (sebelum : String) (unit : ℕ) : Stmt σ PyError Unit := do
  let id_perangkat := idPerangkat sebelum unit
  let (temperatur, _kelembapan) ← temperaturehumidity unit
  let datajson := parseData saat.clock id_perangkat temperatur (← self baterai)
  let _ ← self (parseDatalog saat datajson id_perangkat)
  self (intervalkirim saat.clock saat.kirim (detik saat.clock) datajson)
  self (modify fun s => { s with printed := s.printed ++ [datajson] })

/-- The loop of `parse_json`. -/
def parseUnitsOf (sebelum : String) : List ℕ → Stmt σ PyError Unit
  | [] => pure ()
  | unit :: rest => do
      parseUnitOf self temperaturehumidity (saat unit) sebelum unit
      parseUnitsOf (idPerangkat sebelum unit) rest

/-- collect.py, lines 82-98. -/
def parseJsonOf (sebelum : String) : Stmt σ PyError Unit :=
  tryCatch (parseUnitsOf self temperaturehumidity saat sebelum units)
    fun _ => self (logException "Exception occurred parse serial")

end ParseJson

/-- The body of the loop of `parse_json`, when `self.modbus` has a client. -/
def parseUnit (bus : Bus) (bulat : BitVec 16 → τ) (saat : Saat) (sebelum : String) (unit : ℕ) :
    ParseM (Payload τ) Unit :=
  parseUnitOf id (temperaturehumidity bus bulat) saat sebelum unit

/-- The loop of `parse_json`, when `self.modbus` has a client. -/
def parseUnits (bus : Bus) (bulat : BitVec 16 → τ) (saat : ℕ → Saat) (sebelum : String)
    (units : List ℕ) : ParseM (Payload τ) Unit :=
  parseUnitsOf id (temperaturehumidity bus bulat) saat sebelum units

/-- A sweep of the parser's object when `self.modbus` has a client. -/
def parseJson (bus : Bus) (bulat : BitVec 16 → τ) (saat : ℕ → Saat) (sebelum : String) :
    ParseM (Payload τ) Unit :=
  parseJsonOf id (temperaturehumidity bus bulat) saat sebelum

/-! ### What a sweep does -/

/-- Units `1` and `3` get the same room. -/
theorem idPerangkat_eq (sebelum : String) {unit : ℕ} (h : unit ≠ 2) :
    idPerangkat sebelum unit = "Ruang Panel Listrik 2" := by
  simp [idPerangkat, h]

/-- Whatever unit is asked for, the values are those of unit `1`. -/
theorem exec_temperaturehumidity (bus : Bus) (bulat : BitVec 16 → τ) (unit : ℕ)
    (s : ParseClass δ) :
    (temperaturehumidity bus bulat unit).exec s =
      (match bus 1 with
        | .answering registers => .ok (bulat (registers 3), bulat (registers 4))
        | .raises => .error .modbus
        | .errorResponse => .error .attributeError, s) := by
  unfold temperaturehumidity readInputRegisters
  cases bus 1 with
  | answering registers => rfl
  | raises => rfl
  | errorResponse => rfl

/-- No unit is ever got through: when unit `1` does not answer the read raises,
and when it does the name `baterai` is not found. -/
theorem exec_parseUnit (bus : Bus) (bulat : BitVec 16 → τ) (saat : Saat) (sebelum : String)
    (unit : ℕ) (s : ParseClass (Payload τ)) :
    ∃ e, (parseUnit bus bulat saat sebelum unit).exec s = (.error e, s) := by
  rw [parseUnit, parseUnitOf, Stmt.exec_bind, exec_temperaturehumidity]
  cases bus 1 with
  | answering registers => exact ⟨.nameError, rfl⟩
  | raises => exact ⟨.modbus, rfl⟩
  | errorResponse => exact ⟨.attributeError, rfl⟩

/-- A sweep ends at its first unit, with one message logged and nothing else
done. -/
theorem exec_parseJson (bus : Bus) (bulat : BitVec 16 → τ) (saat : ℕ → Saat) (sebelum : String)
    (s : ParseClass (Payload τ)) :
    (parseJson bus bulat saat sebelum).exec s =
      (.ok (), { s with log := s.log ++ ["Exception occurred parse serial"] }) := by
  obtain ⟨e, hunit⟩ := exec_parseUnit bus bulat (saat 1) sebelum 1 s
  have hunits : (parseUnits bus bulat saat sebelum units).exec s = (.error e, s) :=
    Stmt.exec_bind_error hunit
  change (tryCatch (parseUnits bus bulat saat sebelum units) fun _ =>
    logException "Exception occurred parse serial").exec s = _
  rw [Stmt.exec_tryCatch, hunits]
  rfl

/-- The record belongs to the unit, under a room name: it carries the values of
the unit's own registers. -/
def RecordOf (bus : Bus) (bulat : BitVec 16 → τ) (nama : ℕ → String) (unit : ℕ)
    (record : Payload τ) : Prop :=
  ∃ registers, bus unit = .answering registers ∧ record.device_id = nama unit ∧
    record.sensors = [("temperatur", bulat (registers 3)), ("baterai", bulat (registers 4))]

/-- The records are, in some order, one for each answering unit, under a room
name of its own. -/
def LogsEachRoom (bus : Bus) (bulat : BitVec 16 → τ) (records : List (Payload τ)) : Prop :=
  ∃ (nama : ℕ → String) (sorted : List (Payload τ)),
    (∀ u ∈ units, ∀ v ∈ units, nama u = nama v → u = v) ∧ records.Perm sorted ∧
      List.Forall₂ (RecordOf bus bulat nama) (units.filter fun u => (bus u).answers) sorted

/-- The records a sweep appends to the room logs. -/
def recorded (bus : Bus) (bulat : BitVec 16 → τ) (saat : ℕ → Saat) (sebelum : String)
    (s : ParseClass (Payload τ)) : List (Payload τ) :=
  ((parseJson bus bulat saat sebelum).final s).dicatat.drop s.dicatat.length

/-- A sweep appends one record for each answering unit if and only if none
answers. -/
theorem logsEachRoom_iff (bus : Bus) (bulat : BitVec 16 → τ) (saat : ℕ → Saat) (sebelum : String)
    (s : ParseClass (Payload τ)) :
    LogsEachRoom bus bulat (recorded bus bulat saat sebelum s) ↔
      ∀ unit ∈ units, (bus unit).answers = false := by
  have hnone : recorded bus bulat saat sebelum s = [] := by
    rw [recorded, Stmt.final, exec_parseJson]
    exact List.drop_length
  rw [hnone]
  constructor
  · rintro ⟨nama, sorted, -, hperm, hall⟩
    rw [List.nil_perm.mp hperm, List.forall₂_nil_right_iff, List.filter_eq_nil_iff] at hall
    intro unit hunit
    simpa using hall unit hunit
  · intro hsilent
    have hfilter : units.filter (fun u => (bus u).answers) = [] := by
      refine List.filter_eq_nil_iff.mpr fun unit hunit => ?_
      simp [hsilent unit hunit]
    refine ⟨fun unit => if unit = 1 then "Ruang Instrument" else idPerangkat "" unit, [], by decide,
      List.Perm.refl [], ?_⟩
    rw [hfilter]
    exact List.Forall₂.nil

/-- All three units answer, and no record is appended. -/
theorem not_logsEachRoom :
    ¬∀ (bus : Bus) (bulat : BitVec 16 → ℕ) (saat : ℕ → Saat) (sebelum : String)
        (s : ParseClass (Payload ℕ)), (∀ unit, (saat unit).catat = .ok ∧ (saat unit).kirim = .ok) →
      LogsEachRoom bus bulat (recorded bus bulat saat sebelum s) := by
  intro hlogs
  obtain ⟨nama, sorted, -, hperm, hall⟩ := hlogs (fun _ => .answering fun _ => 26000) BitVec.toNat
    (fun unit => ⟨unit * second, .ok, .ok, [], .calm (unit * second)⟩) "" (.new ∅ ∅)
    fun _ => ⟨rfl, rfl⟩
  rw [show sorted = [] from List.nil_perm.mp hperm] at hall
  cases hall

end EmsGateway.Collect
