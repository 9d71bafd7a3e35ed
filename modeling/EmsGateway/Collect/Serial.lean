import EmsGateway.Collect.Sweep
import Mathlib.Data.List.Infix

/-!
The serial line of the collect service: `SensorModbus`, whose client is created
when the object is, and the sweeps of `main` that read through it for as long as
the process lives.

What the operating system and pymodbus do is an input: which ports there are,
whether each can be opened, and how the calls of `ModbusClient` end.
-/

namespace EmsGateway.Collect

open EmsGateway.Library

/-- `sys.platform`, as far as `serial_ports` tells it apart. -/
inductive Platform
  | win
  | linux
  | cygwin
  | darwin
  | other
  deriving DecidableEq

/-- How `serial.Serial(port)` and the close after it end: `SerialException` counts
as an `OSError`, of which it is a subclass. -/
inductive OpenReply
  | ok
  | osError
  | other
  deriving DecidableEq

/-- How `ModbusClient(...)` and `client.connect()` end for a port. -/
structure ClientReply where
  created : Bool
  connected : Bool
  deriving DecidableEq

/-- The serial ports at a moment. -/
structure Ports where
  platform : Platform
  /-- what `glob.glob` finds with the pattern of the platform -/
  found : List String
  opened : String → OpenReply
  client : String → ClientReply

/-- The attributes of a `SensorModbus` object, with the ports through whose clients
registers were read, and the messages logged. -/
structure SensorModbus where
  client : Option String
  reads : List String
  log : List String
  deriving DecidableEq

abbrev SensorM := Stmt SensorModbus PyError

def SensorModbus.logException (message : String) : SensorM Unit :=
  modify fun s => { s with log := s.log ++ [message] }

/-- The ports that `serial_ports` tries, none on a platform it does not know. -/
def Ports.ports (e : Ports) : Option (List String) :=
  match e.platform with
  | .win => some ((List.range 256).map fun i => "COM" ++ toString (i + 1))
  | .linux | .cygwin | .darwin => some e.found
  | .other => none

/-- The loop of `serial_ports`, with the ports found so far. -/
def serialPortsLoop (e : Ports) (result : List String) : List String → SensorM (List String)
  | [] => pure result
  | port :: ports =>
      match e.opened port with
      | .ok => serialPortsLoop e (result ++ [port]) ports
      | .osError => serialPortsLoop e result ports
      | .other => throw .other

/-- collect.py, lines 132-154. The result is none after an exception. -/
def serialPorts (e : Ports) : SensorM (Option (List String)) :=
  tryCatch (do
    match e.ports with
    | some ports => pure (some (← serialPortsLoop e [] ports))
    | none => throw .osError)
  fun _ => do
    SensorModbus.logException "Exception occurred serial_ports"
    pure none

/-- `'ttyUSB' in port`. -/
def IsUSB (port : String) : Prop := "ttyUSB".toList <:+: port.toList

instance (port : String) : Decidable (IsUSB port) := inferInstanceAs (Decidable (_ <:+: _))

/-- The loop of `serial_connection`. -/
def serialConnectionLoop (e : Ports) : List String → SensorM Unit
  | [] => pure ()
  | port :: ports => do
      if IsUSB port then
        if (e.client port).created then
          modify fun s => { s with client := some port }
        else throw .modbus
        if (e.client port).connected then pure () else throw .modbus
      serialConnectionLoop e ports

/-- collect.py, lines 157-165. Where `serial_ports` returned nothing the loop
raises a `TypeError`. -/
def serialConnection (e : Ports) : SensorM Unit :=
  tryCatch (do
    match ← serialPorts e with
    | some ports => serialConnectionLoop e ports
    | none => throw .typeError)
  fun _ => SensorModbus.logException "Exception occurred serial_connect"

/-- collect.py, lines 128-129. -/
def SensorModbus.new (e : Ports) : SensorModbus := (serialConnection e).final ⟨none, [], []⟩

/-! ### Sweeps -/

/-- The objects of `main`. -/
structure Layanan (τ : Type) where
  datasensor : SensorModbus
  parse : ParseClass (Payload τ)
  /-- `parse.modbus` -/
  modbus : SensorModbus

/-- A turn of the loop of `main`: the ports when it begins, the units, and the
times. -/
structure Putaran where
  ports : Ports
  bus : Bus
  saat : ℕ → Saat

section Sweeps

variable {τ : Type}

/-- collect.py, lines 181-183, with the ports at each of the lines. -/
def Layanan.mulai (spool : SpoolDir (Payload τ)) (datalog : Directory (String × ℕ) (Payload τ))
    (e₁ e₂ e₃ : Ports) : Layanan τ where
  datasensor := (serialPorts e₃).final (.new e₁)
  parse := .new spool datalog
  modbus := .new e₂

/-- A statement about the attributes of `parse` only. -/
def onParse {β : Type} (x : ParseM (Payload τ) β) : Stmt (Layanan τ) PyError β :=
  Stmt.within Layanan.parse (fun c s => { s with parse := c }) x

/-- collect.py, lines 167-178, on an object that may have no client. -/
def temperaturehumidityOf (bus : Bus) (bulat : BitVec 16 → τ) (unit : ℕ) :
    Stmt (Layanan τ) PyError (τ × τ) := do
  match (← get).modbus.client with
  | none => throw .attributeError
  | some port =>
      modify fun s => { s with modbus := { s.modbus with reads := s.modbus.reads ++ [port] } }
      onParse (temperaturehumidity bus bulat unit)

/-- The objects after a turn: `parse_json` catches what it raises, and asks for no
port. -/
def putar (bulat : BitVec 16 → τ) (s : Layanan τ) (w : Putaran) : Layanan τ :=
  (parseJsonOf onParse (temperaturehumidityOf w.bus bulat) w.saat "").final s

def Layanan.after (bulat : BitVec 16 → τ) (s : Layanan τ) (ws : List Putaran) : Layanan τ :=
  ws.foldl (putar bulat) s

/-! ### When there is a client -/

/-- Some port whose name contains `ttyUSB` can be opened. -/
def Ports.Present (e : Ports) : Prop :=
  ∃ ports ∈ e.ports, ∃ port ∈ ports, IsUSB port ∧ e.opened port = .ok

/-- The ports that `serial_ports` returns, none where it raises. -/
def Ports.openable (e : Ports) : Option (List String) :=
  e.ports.bind fun ports =>
    if ∃ port ∈ ports, e.opened port = .other then none
    else some (ports.filter fun port => e.opened port = .ok)

/-- `serial_connection` gets to a client: it has the ports, one of them is a
`ttyUSB`, and the `ModbusClient` of the first of these is created. -/
def Ports.SetsClient (e : Ports) : Prop :=
  ∃ ports ∈ e.openable, ∃ port ∈ ports.find? (fun port => IsUSB port),
    (e.client port).created = true

theorem exec_serialPortsLoop (e : Ports) (result ports : List String) (s : SensorModbus) :
    (serialPortsLoop e result ports).exec s =
      if ∃ port ∈ ports, e.opened port = .other then (.error .other, s)
      else (.ok (result ++ ports.filter fun port => e.opened port = .ok), s) := by
  induction ports generalizing result with
  | nil => simp [serialPortsLoop]
  | cons port ports ih =>
      unfold serialPortsLoop
      cases hopen : e.opened port with
      | ok => simp [ih, hopen]
      | osError => simp [ih, hopen]
      | other => simp [hopen]

/-- `serial_ports` returns the ports that could be opened. -/
theorem exec_serialPorts (e : Ports) (s : SensorModbus) :
    ∃ log, (serialPorts e).exec s = (.ok e.openable, { s with log := log }) := by
  rw [serialPorts, Stmt.exec_tryCatch, Ports.openable]
  cases e.ports with
  | none => exact ⟨_, rfl⟩
  | some ports =>
      by_cases hother : ∃ port ∈ ports, e.opened port = .other
      · simp only [Stmt.exec_bind, exec_serialPortsLoop, Option.bind_some, if_pos hother]
        exact ⟨_, rfl⟩
      · simp only [Stmt.exec_bind, exec_serialPortsLoop, Option.bind_some, if_neg hother]
        exact ⟨s.log, rfl⟩

theorem client_serialConnectionLoop (e : Ports) (ports : List String) (s : SensorModbus) :
    ((serialConnectionLoop e ports).final s).client.isSome ↔
      s.client.isSome ∨
        ∃ port ∈ ports.find? (fun port => IsUSB port), (e.client port).created = true := by
  induction ports generalizing s with
  | nil => simp [serialConnectionLoop, Stmt.final]
  | cons port ports ih =>
      unfold Stmt.final at ih ⊢
      by_cases husb : IsUSB port
      · cases hcreated : (e.client port).created with
        | false => simp [serialConnectionLoop, husb, hcreated]
        | true =>
            cases hconnected : (e.client port).connected with
            | false => simp [serialConnectionLoop, Stmt.exec_bind, husb, hcreated, hconnected]
            | true => simp [serialConnectionLoop, Stmt.exec_bind, husb, hcreated, hconnected, ih]
      · simp [serialConnectionLoop, husb, ih]

theorem client_new (e : Ports) : (SensorModbus.new e).client.isSome ↔ e.SetsClient := by
  obtain ⟨log, hports⟩ := exec_serialPorts e ⟨none, [], []⟩
  rw [SensorModbus.new, serialConnection, Stmt.final, Stmt.exec_tryCatch, Stmt.exec_bind_ok hports,
    Ports.SetsClient]
  cases e.openable with
  | none => simp [SensorModbus.logException]
  | some ports =>
      have hloop := client_serialConnectionLoop e ports ⟨none, [], log⟩
      unfold Stmt.final at hloop
      simp only [Option.mem_some_iff, exists_eq_left']
      rcases hexec : (serialConnectionLoop e ports).exec ⟨none, [], log⟩ with ⟨r, t⟩
      rw [hexec] at hloop
      cases r with
      | ok u => simpa using hloop
      | error err => simpa [SensorModbus.logException] using hloop

/-! ### Turns -/

variable (bulat : BitVec 16 → τ)

/-- The objects after `temperaturehumidity` has looked for its client. -/
def Layanan.asked (s : Layanan τ) : Layanan τ :=
  { s with modbus := { s.modbus with reads := s.modbus.reads ++ s.modbus.client.toList } }

/-- No unit is got through: there is no client, or the read raises, or the name
`baterai` is not found. -/
theorem exec_parseUnitOf (bus : Bus) (saat : Saat) (sebelum : String) (unit : ℕ) (s : Layanan τ) :
    ∃ err, (parseUnitOf onParse (temperaturehumidityOf bus bulat) saat sebelum unit).exec s =
      (.error err, s.asked) := by
  rw [parseUnitOf, Stmt.exec_bind, temperaturehumidityOf, Stmt.exec_bind, Stmt.exec_get]
  cases hclient : s.modbus.client with
  | none =>
      have hasked : s.asked = s := by
        unfold Layanan.asked
        rw [show s.modbus.reads ++ s.modbus.client.toList = s.modbus.reads by simp [hclient]]
      refine ⟨.attributeError, ?_⟩
      simp [hclient, hasked]
  | some port =>
      rw [Layanan.asked]
      simp only [hclient, Stmt.exec_bind, Stmt.exec_modify, onParse, Stmt.exec_within,
        exec_temperaturehumidity]
      cases bus 1 with
      | answering registers => exact ⟨.nameError, rfl⟩
      | raises => exact ⟨.modbus, rfl⟩
      | errorResponse => exact ⟨.attributeError, rfl⟩

/-- A turn ends at its first unit: the object has looked for its client, and the
parser has logged a message. -/
theorem putar_eq (s : Layanan τ) (w : Putaran) : putar bulat s w =
    { s.asked with parse := (logException "Exception occurred parse serial").final s.parse } := by
  obtain ⟨err, hunit⟩ := exec_parseUnitOf bulat w.bus (w.saat 1) "" 1 s
  have hunits : (parseUnitsOf onParse (temperaturehumidityOf w.bus bulat) w.saat "" units).exec s =
      (.error err, s.asked) :=
    Stmt.exec_bind_error hunit
  rw [putar, parseJsonOf, Stmt.final, Stmt.exec_tryCatch, hunits]
  rfl

/-- A turn reads one register through the client that the object has, and none
when it has no client. -/
theorem modbus_putar (s : Layanan τ) (w : Putaran) : (putar bulat s w).modbus = s.asked.modbus := by
  rw [putar_eq]

/-- A turn leaves the attributes of the parser as a sweep with a client does. -/
theorem parse_putar (s : Layanan τ) (w : Putaran) :
    (putar bulat s w).parse = (parseJson w.bus bulat w.saat "").final s.parse := by
  rw [putar_eq, Stmt.final, Stmt.final, exec_parseJson]
  rfl

/-- The first register of the turn is read. -/
def Reads (s : Layanan τ) (w : Putaran) : Prop := (putar bulat s w).modbus.reads ≠ s.modbus.reads

theorem reads_iff (s : Layanan τ) (w : Putaran) : Reads bulat s w ↔ s.modbus.client.isSome := by
  rw [Reads, modbus_putar, Layanan.asked]
  cases s.modbus.client with
  | none => simp
  | some port => simp

theorem client_after (s : Layanan τ) (ws : List Putaran) :
    (s.after bulat ws).modbus.client = s.modbus.client := by
  induction ws generalizing s with
  | nil => rfl
  | cons w ws ih =>
      change ((putar bulat s w).after bulat ws).modbus.client = _
      rw [ih, modbus_putar]
      rfl

/-- Every turn that begins with an adapter present gets to its first register if
and only if the object got to a client when it was made, or no turn begins with an
adapter present. -/
theorem reads_present_iff (spool : SpoolDir (Payload τ))
    (datalog : Directory (String × ℕ) (Payload τ)) (e₁ e₂ e₃ : Ports) (ws : List Putaran) :
    (∀ front w rest, ws = front ++ w :: rest → w.ports.Present →
        Reads bulat ((Layanan.mulai spool datalog e₁ e₂ e₃).after bulat front) w) ↔
      e₂.SetsClient ∨ ∀ w ∈ ws, ¬w.ports.Present := by
  have hreads : ∀ front w,
      Reads bulat ((Layanan.mulai spool datalog e₁ e₂ e₃).after bulat front) w ↔
        e₂.SetsClient := by
    intro front w
    rw [reads_iff, client_after]
    exact client_new e₂
  simp only [hreads]
  constructor
  · intro hall
    by_cases hsets : e₂.SetsClient
    · exact .inl hsets
    · refine .inr fun w hw hpresent => ?_
      obtain ⟨front, rest, hsplit⟩ := List.append_of_mem hw
      exact hsets (hall front w rest hsplit hpresent)
  · rintro (hsets | hnone) front w rest rfl hpresent
    · exact hsets
    · exact absurd hpresent (hnone w (by simp))

/-- A line with no port, and the line with an adapter on it. -/
def noAdapter : Ports := ⟨.linux, [], fun _ => .ok, fun _ => ⟨true, true⟩⟩

def adapter : Ports := ⟨.linux, ["/dev/ttyUSB0"], fun _ => .ok, fun _ => ⟨true, true⟩⟩

/-- The adapter appears after the service has started. -/
theorem not_reads_present :
    ¬∀ (spool : SpoolDir (Payload ℕ)) (datalog : Directory (String × ℕ) (Payload ℕ))
      (e₁ e₂ e₃ : Ports) (ws : List Putaran), ∀ front w rest, ws = front ++ w :: rest →
        w.ports.Present →
        Reads BitVec.toNat ((Layanan.mulai spool datalog e₁ e₂ e₃).after BitVec.toNat front) w := by
  intro hall
  have hreads := hall ∅ ∅ noAdapter noAdapter noAdapter
    [⟨adapter, fun _ => .answering fun _ => 26000, fun _ => ⟨0, .ok, .ok, [], .calm 0⟩⟩] [] _ [] rfl
    ⟨_, rfl, "/dev/ttyUSB0", by simp [adapter], by decide, rfl⟩
  rw [reads_iff] at hreads
  revert hreads
  decide

end Sweeps

end EmsGateway.Collect
