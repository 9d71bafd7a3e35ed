import EmsGateway.Library.Trace
import EmsGateway.System.Effect

/-!
The pings of `main`. The loop that waits for the network asks twice in each of
its turns: its guard asks whether to wait on, and its body whether to reconnect.
-/

namespace EmsGateway.System

open EmsGateway.Library EmsGateway.Connect

/-- What is seen of the connect service from outside. -/
inductive Kejadian
  /-- `main` is started -/
  | start
  /-- line 126, the answer of the guard of the loop -/
  | guard (up : Bool)
  /-- line 127, the answer of the ping in its body -/
  | reping (up : Bool)
  /-- line 128 -/
  | initamqp
  /-- line 125 -/
  | sendfromlog
  deriving DecidableEq

/-- What a step shows. The call of `sendfromlog` is shown by its first operation. -/
def kejadian (g : Gateway) : Action → Option Kejadian
  | .connect i =>
      match g.connect, i with
      | .down, .start _ => some .start
      | .guard, .ping up => some (.guard up)
      | .reping, .ping up => some (.reping up)
      | .reconnect, .amqp _ => some .initamqp
      | .read, .read => some .sendfromlog
      | _, _ => none
  | _ => none

/-- The guard found the network down. -/
def Kejadian.outage : Kejadian → Bool
  | .guard up => !up
  | _ => false

/-- `main` reconnects; a new process connects before anything else. -/
def Kejadian.connects : Kejadian → Bool
  | .initamqp | .start => true
  | _ => false

def Kejadian.sends : Kejadian → Bool
  | .sendfromlog => true
  | _ => false

/-- After every guard that observed an outage `initamqp` is called before the next
call of `sendfromlog`. -/
def Reconnects (es : List Kejadian) : Prop :=
  Answered Kejadian.outage Kejadian.connects Kejadian.sends es

/-- The last answer of line 127 in the present process. -/
def lastReping (es : List Kejadian) : Option Bool :=
  es.foldl (fun
    | _, .start => none
    | _, .reping up => some up
    | last, _ => last) none

abbrev outageWaits (es : List Kejadian) : Bool := waits Kejadian.outage Kejadian.connects es

theorem lastReping_concat (es : List Kejadian) (e : Kejadian) :
    lastReping (es ++ [e]) =
      match e with
      | .start => none
      | .reping up => some up
      | _ => lastReping es := by
  rw [lastReping, List.foldl_append]
  cases e with
  | _ => rfl

/-- Not in the body of the loop, and running. -/
def ConnectPc.Outside : ConnectPc → Prop
  | .reping | .reconnect | .down => False
  | _ => True

/-- The steps of the gateway by what they show and where `main` stands before and
after. -/
inductive Shows (pc pc' : ConnectPc) : Option Kejadian → Prop
  | same (h : pc' = pc) : Shows pc pc' none
  | stop (h : pc' = .down) : Shows pc pc' none
  | start (hpc : pc = .down) (h : pc' = .folder) : Shows pc pc' (some .start)
  | guard (up : Bool) (hpc : pc = .guard) (h : pc' = if up then .listdir else .reping) :
      Shows pc pc' (some (.guard up))
  | reping (up : Bool) (hpc : pc = .reping) (h : pc' = if up then .reconnect else .guard) :
      Shows pc pc' (some (.reping up))
  | initamqp (hpc : pc = .reconnect) (h : pc' = .guard) : Shows pc pc' (some .initamqp)
  | sendfromlog (hpc : pc = .read) (h : pc'.Outside) : Shows pc pc' (some .sendfromlog)
  | quiet (hpc : pc.Outside) (h : pc'.Outside) : Shows pc pc' none

theorem shows_of_connectStep {g g' : Gateway} {i : Input} (h : g.connectStep i = some g') :
    Shows g.connect g'.connect (kejadian g (.connect i)) := by
  -- a step outside the body of the loop, from `pc` to the state `t`
  have quiet : ∀ {pc : ConnectPc} {t : Gateway} {e : Option Kejadian}, g.connect = pc →
      pc.Outside → some t = some g' → t.connect.Outside → e = none →
      Shows g.connect g'.connect e := by
    intro pc t e hpc houtside hg' ht he
    obtain rfl := Option.some.inj hg'
    rw [he]
    exact .quiet (hpc ▸ houtside) ht
  unfold Gateway.connectStep at h
  unfold kejadian
  split at h
  case h_1 r hpc =>
      obtain rfl := Option.some.inj h
      simp only [hpc]
      exact .start rfl rfl
  case h_2 hpc => exact quiet hpc trivial h trivial (by simp [hpc])
  case h_3 up hpc =>
      refine quiet hpc trivial h ?_ (by simp [hpc])
      cases up <;> trivial
  case h_4 hpc =>
      refine quiet hpc trivial h ?_ (by simp [hpc])
      dsimp only
      split <;> trivial
  case h_5 hpc =>
      simp only [hpc]
      split at h
      case h_1 =>
          obtain rfl := Option.some.inj h
          exact .sendfromlog rfl trivial
      case h_2 =>
          obtain rfl := Option.some.inj h
          exact .sendfromlog rfl trivial
  case h_6 lines hpc =>
      split at h
      case h_1 => exact quiet hpc trivial h trivial (by simp [hpc])
      case h_2 => exact quiet hpc trivial h trivial (by simp [hpc])
  case h_7 line rest r hpc => exact quiet hpc trivial h trivial (by simp [hpc])
  case h_8 hpc => exact quiet hpc trivial h trivial (by simp [hpc])
  case h_9 up hpc =>
      obtain rfl := Option.some.inj h
      simp only [hpc]
      exact .guard up rfl rfl
  case h_10 up hpc =>
      obtain rfl := Option.some.inj h
      simp only [hpc]
      exact .reping up rfl rfl
  case h_11 r hpc =>
      obtain rfl := Option.some.inj h
      simp only [hpc]
      exact .initamqp rfl rfl
  case h_12 names hpc =>
      split at h
      · exact quiet hpc trivial h trivial (by simp [hpc])
      · cases h
  case h_13 name names returns hpc =>
      split at h
      case h_1 => exact quiet hpc trivial h trivial (by simp [hpc])
      case h_2 => exact quiet hpc trivial h trivial (by simp [hpc])
      case h_3 => exact quiet hpc trivial h trivial (by simp [hpc])
  case h_14 name names returns hpc =>
      split at h
      case isTrue => exact quiet hpc trivial h trivial (by simp [hpc])
      case isFalse => exact quiet hpc trivial h trivial (by simp [hpc])
  case h_15 hpc => exact quiet hpc trivial h trivial (by simp [hpc])
  case h_16 hpc => exact quiet hpc trivial h trivial (by simp [hpc])
  case h_17 => cases h

theorem shows_of_step {g g' : Gateway} {a : Action} (h : gateway.step g a = some g') :
    Shows g.connect g'.connect (kejadian g a) := by
  cases effect_of_step h with
  | tick => exact .same rfl
  | datakirim => exact .same rfl
  | write => exact .same rfl
  | killConnect => exact .stop rfl
  | killSending => exact .stop rfl
  | reboot => exact .stop rfl
  | reping => exact .same rfl
  | start | folder | read | truncate | send | expired | remove | quiet =>
      exact shows_of_connectStep h

/-- Where `main` runs, an outage waits inside the body of the loop, and outside
when the last ping of that body failed. -/
structure Watched (pc : ConnectPc) (es : List Kejadian) : Prop where
  waits : pc ≠ .down →
    (outageWaits es ↔ pc = .reping ∨ pc = .reconnect ∨ lastReping es = some false)
  reconnect : pc = .reconnect → lastReping es = some true

theorem Watched.outside {pc : ConnectPc} {es : List Kejadian} (h : Watched pc es)
    (hpc : pc.Outside) : outageWaits es ↔ lastReping es = some false := by
  have hwaits := h.waits (by rintro rfl; exact hpc)
  rw [hwaits]
  constructor
  · rintro (rfl | rfl | hlast)
    · exact hpc.elim
    · exact hpc.elim
    · exact hlast
  · exact fun hlast => .inr (.inr hlast)

theorem watched_outside {pc : ConnectPc} {es : List Kejadian}
    (h : outageWaits es ↔ lastReping es = some false) (hpc : pc.Outside) : Watched pc es := by
  refine ⟨fun _ => ?_, ?_⟩
  · rw [h]
    constructor
    · exact fun hlast => .inr (.inr hlast)
    · rintro (rfl | rfl | hlast)
      · exact hpc.elim
      · exact hpc.elim
      · exact hlast
  · rintro rfl
    exact hpc.elim

theorem watched_step {pc pc' : ConnectPc} {es : List Kejadian} {e : Option Kejadian}
    (h : Watched pc es) (hshows : Shows pc pc' e) : Watched pc' (es ++ e.toList) := by
  cases hshows with
  | same hpc' =>
      rw [hpc', Option.toList_none, List.append_nil]
      exact h
  | stop hpc' => exact ⟨fun hne => absurd hpc' hne, by simp [hpc']⟩
  | start _ hpc' =>
      refine watched_outside ?_ (by simp [hpc', ConnectPc.Outside])
      simp [waits_concat, lastReping_concat, Kejadian.outage, Kejadian.connects]
  | guard up hpc hpc' =>
      have hbefore := h.outside (by simp [hpc, ConnectPc.Outside])
      cases up with
      | true =>
          refine watched_outside ?_ (by simp [hpc', ConnectPc.Outside])
          simpa [waits_concat, lastReping_concat, Kejadian.outage, Kejadian.connects] using hbefore
      | false =>
          refine ⟨fun _ => ?_, by simp [hpc']⟩
          simp [waits_concat, Kejadian.outage, hpc']
  | reping up hpc hpc' =>
      have hwaits := (h.waits (by simp [hpc])).mpr (.inl hpc)
      cases up with
      | true =>
          refine ⟨fun _ => ?_, fun _ => by simp [lastReping_concat]⟩
          simpa [waits_concat, Kejadian.outage, Kejadian.connects, hpc'] using hwaits
      | false =>
          refine watched_outside ?_ (by simp [hpc', ConnectPc.Outside])
          simpa [waits_concat, lastReping_concat, Kejadian.outage, Kejadian.connects] using hwaits
  | initamqp hpc hpc' =>
      refine watched_outside ?_ (by simp [hpc', ConnectPc.Outside])
      simp [waits_concat, lastReping_concat, Kejadian.outage, Kejadian.connects, h.reconnect hpc]
  | sendfromlog hpc hpc' =>
      refine watched_outside ?_ hpc'
      have hbefore := h.outside (by simp [hpc, ConnectPc.Outside])
      simpa [waits_concat, lastReping_concat, Kejadian.outage, Kejadian.connects] using hbefore
  | quiet hpc hpc' =>
      rw [Option.toList_none, List.append_nil]
      exact watched_outside (h.outside hpc) hpc'

abbrev kejadianOf (clock : ℕ) (as : List Action) : List Kejadian :=
  gateway.trace kejadian (.init clock) as

theorem watched_of_run {clock : ℕ} {as : List Action} {g : Gateway}
    (hrun : gateway.run (.init clock) as = some g) : Watched g.connect (kejadianOf clock as) := by
  apply Machine.run_trace_invariant (I := fun g es => Watched g.connect es) ?_ ?_ hrun
  · intro g es a g' h hstep
    exact watched_step h (shows_of_step hstep)
  · exact ⟨fun hne => absurd rfl hne, nofun⟩

/-- In every run every observed outage is followed by a reconnect before sending
resumes if and only if no call of `sendfromlog` comes when the last ping of line
127 has failed. -/
theorem reconnects_iff (clock : ℕ) (as : List Action) :
    Reconnects (kejadianOf clock as) ↔
      ∀ front rest, kejadianOf clock as = front ++ .sendfromlog :: rest →
        lastReping front ≠ some false := by
  -- at a call of `sendfromlog` an outage waits exactly when the last ping failed
  have hsend : ∀ front rest, kejadianOf clock as = front ++ .sendfromlog :: rest →
      (outageWaits front ↔ lastReping front = some false) := by
    intro front rest hsplit
    obtain ⟨bs, a, g, -, hrun, rfl, hevent⟩ := Machine.exists_of_trace_eq hsplit
    refine (watched_of_run hrun).outside ?_
    unfold kejadian at hevent
    split at hevent
    · split at hevent <;> simp_all [ConnectPc.Outside]
    · cases hevent
  rw [Reconnects, answered_iff]
  constructor
  · intro hnone front rest hsplit hlast
    exact hnone front .sendfromlog rest hsplit rfl ((hsend front rest hsplit).mpr hlast)
  · intro hnone front e rest hsplit he hwaits
    cases e with
    | sendfromlog => exact hnone front rest hsplit ((hsend front rest hsplit).mp hwaits)
    | _ => cases he

/-- The network is back between the two pings of the guard. -/
def backInTime : List Action :=
  started ++ [.connect .folder, .connect (.ping false), .connect (.ping false),
    .connect (.ping false), .connect (.ping true), .connect (.listdir []), .connect .listed,
    .connect .sleep] ++ spooled "{1}" ++ upToPass ++ [.connect .read]

/-- The outage is observed and `initamqp` is not called before the next pass. -/
theorem not_reconnects : ¬∀ clock as, Reconnects (kejadianOf clock as) := by
  intro hall
  have hanswered := answered_iff.mp (hall 0 backInTime)
    [.start, .guard false, .reping false, .guard true] .sendfromlog [] (by decide) rfl
  revert hanswered
  decide

end EmsGateway.System
