import EmsGateway.Connect.Pass
import EmsGateway.Library.Machine

/-!
The gateway: the collect and the connect service over the directory they share.

A step of the connect service is one call of its `main` or one file operation of
its `sendfromlog` and `deletefilelog`; a step of the collect service is one of
the two halves of `datakirim`, the date taken and the line written. Between any
two steps the other service may move, the clock may advance, and either service
may be killed.
-/

namespace EmsGateway.System

open EmsGateway.Library EmsGateway.Connect

/-- A line of the spool with the place where it was appended: its position among
all lines ever appended, the date of its file and the time. -/
structure Record where
  posisi : ℕ
  tanggal : ℕ
  waktu : ℕ
  isi : String
  deriving DecidableEq

/-- Where the collect service stands: in a `datakirim` that has taken the date,
or not in one. -/
inductive CollectPc
  | idle
  | writing (tanggal : ℕ) (isi : String)
  deriving DecidableEq

/-- Where the connect service stands, by the next line of connect.py it executes. -/
inductive ConnectPc
  /-- the process is not running -/
  | down
  /-- line 123 -/
  | folder
  /-- line 124, `ping() == True` -/
  | ping
  /-- line 124, `senddata.ceklog() == True` -/
  | ceklog
  /-- lines 85-86 -/
  | read
  /-- line 87, with the lines read -/
  | truncate (lines : List Record)
  /-- line 88, with the lines still to be sent -/
  | sending (rest : List Record)
  /-- line 126 -/
  | guard
  /-- line 127 -/
  | reping
  /-- line 128 -/
  | reconnect
  /-- line 101 -/
  | listdir
  /-- line 103, with the names still to be looked at -/
  | stat (names : List ℕ)
  /-- line 104, for a file that was found expired -/
  | remove (name : ℕ) (names : List ℕ)
  /-- line 130 -/
  | sleep
  deriving DecidableEq

/-- What the connect service meets in a step. -/
inductive Input
  | start (r : AmqpReplies)
  | folder
  | ping (up : Bool)
  | ceklog
  | read
  | truncate
  | send (r : SendReplies)
  | sent
  | amqp (r : AmqpReplies)
  | listdir (names : List ℕ)
  | stat (returns : Bool)
  | remove (returns : Bool)
  | listed
  | sleep
  deriving DecidableEq

inductive Action
  /-- the clock advances -/
  | tick (dt : ℕ)
  /-- collect.py, line 116, in a call of `datakirim` with the text -/
  | datakirim (isi : String)
  /-- collect.py, lines 120-122 -/
  | write (w : WriteReply)
  /-- a step of the connect service -/
  | connect (i : Input)
  /-- the connect service is killed between two steps -/
  | killConnect
  /-- the connect service is killed inside `kirimdatakeserver`, after `n` calls to pika -/
  | killSending (r : SendReplies) (n : ℕ)
  /-- restart.py, lines 16-20, with the results of its two pings -/
  | reboot (ping₁ ping₂ : Bool)
  deriving DecidableEq

structure Gateway extends Process Record where
  collect : CollectPc
  connect : ConnectPc
  /-- the lines `datakirim` has appended, in order -/
  appended : List Record
  /-- the lines passed to `kirimdatakeserver`, in order -/
  handed : List Record

/-- An empty spool and no service running. -/
def Gateway.init (clock : ℕ) : Gateway where
  self := ⟨false, none, none, [], [], []⟩
  spool := ∅
  clock := clock
  collect := .idle
  connect := .down
  appended := []
  handed := []

/-- restart.py, lines 16-20: the device is rebooted when the second of the two
pings fails, whatever the first printed. -/
def reboots (_ping₁ ping₂ : Bool) : Bool := !ping₂

/-- `ceklog` looks at the text of the lines. -/
def Gateway.ceklog (g : Gateway) : Option Bool × Process Record :=
  match (Connect.ceklog Record.isi).exec g.toProcess with
  | (.ok b, p) => (b, p)
  | (.error _, p) => (none, p)

/-- The record `datakirim` writes. -/
def Gateway.record (g : Gateway) (tanggal : ℕ) (isi : String) : Record :=
  ⟨g.appended.length, tanggal, g.clock, isi⟩

/-- The second half of `datakirim`. -/
def Gateway.write (g : Gateway) (tanggal : ℕ) (isi : String) (w : WriteReply) : Gateway :=
  let written := writeLine g.spool tanggal (g.record tanggal isi) g.clock w
  { g with
    spool := written.1
    collect := .idle
    appended := if written.2 then g.appended ++ [g.record tanggal isi] else g.appended }

/-- A step of the connect service. An exception ends the function it is raised in
and `main` goes on. -/
def Gateway.connectStep (g : Gateway) (i : Input) : Option Gateway :=
  match g.connect, i with
  | .down, .start r =>
      some { g with connect := .folder, self := .new r g.self.calls g.self.printed }
  | .folder, .folder =>
      some { g with connect := .ping, self := (inisialisasifolder g.clock).final g.self }
  | .ping, .ping up => some { g with connect := if up then .ceklog else .guard }
  | .ceklog, .ceklog =>
      some { g with
        connect := if g.ceklog.1 = some true then .read else .guard, toProcess := g.ceklog.2 }
  | .read, .read =>
      match openRead.exec g.toProcess with
      | (.ok lines, _) => some { g with connect := .truncate lines }
      | (.error _, _) => some { g with
          connect := .guard
          self := (logException "Exception occurred sendfromlog").final g.self }
  | .truncate lines, .truncate =>
      match openWrite.exec g.toProcess with
      | (.ok _, p) => some { g with connect := .sending lines, toProcess := p }
      | (.error _, _) => some { g with
          connect := .guard
          self := (logException "Exception occurred sendfromlog").final g.self }
  | .sending (line :: rest), .send r =>
      some { g with
        connect := .sending rest
        self := (sendLine r line).final g.self
        handed := g.handed ++ [line] }
  | .sending [], .sent => some { g with connect := .guard }
  | .guard, .ping up => some { g with connect := if up then .listdir else .reping }
  | .reping, .ping up => some { g with connect := if up then .reconnect else .guard }
  | .reconnect, .amqp r =>
      some { g with connect := .guard, self := (initamqp r).final g.self }
  | .listdir, .listdir names =>
      if names.Perm g.spool.keys then some { g with connect := .stat names } else none
  | .stat (name :: names), .stat returns =>
      match returns, (g.spool.lookup name).bind (expiredFile? · 3 g.clock) with
      | true, some true => some { g with connect := .remove name names }
      | true, some false => some { g with connect := .stat names }
      | _, _ => some { g with
          connect := .sleep
          self := (logException "Exception occurred deletefilelog").final g.self }
  | .remove name names, .remove returns =>
      if returns && (g.spool.lookup name).isSome then
        some { g with connect := .stat names, spool := g.spool.erase name }
      else some { g with
        connect := .sleep
        self := (logException "Exception occurred deletefilelog").final g.self }
  | .stat [], .listed => some { g with connect := .sleep }
  | .sleep, .sleep => some { g with connect := .folder }
  | _, _ => none

def Gateway.step (g : Gateway) : Action → Option Gateway
  | .tick dt => some { g with clock := g.clock + dt }
  | .datakirim isi =>
      match g.collect with
      | .idle => some { g with collect := .writing (tanggalsekarang g.clock) isi }
      | .writing _ _ => none
  | .write w =>
      match g.collect with
      | .idle => none
      | .writing tanggal isi => some (g.write tanggal isi w)
  | .connect i => g.connectStep i
  | .killConnect => some { g with connect := .down }
  | .killSending r n =>
      match g.connect with
      | .sending (line :: _) => some { g with
          connect := .down
          handed := g.handed ++ [line]
          self := { g.self with
            calls := ((kirimdatakeserver r line).final g.self).calls.take
              (g.self.calls.length + n) } }
      | _ => none
  | .reboot ping₁ ping₂ =>
      if reboots ping₁ ping₂ then some { g with collect := .idle, connect := .down } else some g

/-- The gateway as a machine. -/
def gateway : Machine Gateway Action where
  step := Gateway.step

/-! ### Pieces of runs -/

/-- A call of `datakirim` that succeeds. -/
def spooled (isi : String) : List Action := [.datakirim isi, .write .ok]

/-- The connect service is started, and its broker answers. -/
def started : List Action := [.connect (.start (.all .ok))]

/-- An iteration of `main` up to the call of `sendfromlog`. -/
def upToPass : List Action := [.connect .folder, .connect (.ping true), .connect .ceklog]

end EmsGateway.System
