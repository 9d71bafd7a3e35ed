import EmsGateway.Library.Timer
import EmsGateway.Mqtt.EndToEnd

/-!
How a client keeps its connection alive. It asks a broker that it has not heard of, or
has said nothing to, for 15 seconds, and gives up one that does not answer in as long.
Times are in milliseconds, and the client knows them modulo `2 ^ 32`.
-/

namespace EmsGateway.Mqtt

open EmsGateway.Library

namespace PubSubClient

/-- Calls with the times at which they are made. -/
def timed : Machine PubSubClient (ℕ × Call) := ⟨fun s p => session.step s p.2⟩

theorem run_timed (s : PubSubClient) (as : List (ℕ × Call)) :
    timed.run s as = session.run s (as.map Prod.snd) := by
  induction as generalizing s with
  | nil => rfl
  | cons p as ih =>
      rw [List.map_cons, Machine.run, Machine.run]
      exact congrArg (Option.bind _) (funext ih)

theorem up_of_timed {s s' : PubSubClient} {as : List (ℕ × Call)} (hin : ∀ p ∈ as, p.2.Within)
    (hrun : timed.run s as = some s') (hup : s'.client.connected = true) :
    s.client.connected = true := by
  rw [run_timed] at hrun
  refine up_of_run ?_ hrun hup
  intro a ha
  obtain ⟨p, hp, rfl⟩ := List.mem_map.mp ha
  exact hin p hp

/-! ### The counter of milliseconds -/

section Elapsed

variable {last now : ℕ}

theorem toNat_elapsed (hle : last ≤ now) (hlt : now < last + 2 ^ 32) :
    (UInt32.ofNat now - UInt32.ofNat last).toNat = now - last :=
  Timer.toNat_ofNat_sub_ofNat hle hlt

/-- The counter never shows more time than has passed. -/
theorem lt_of_elapsed (hle : last ≤ now) (h : 15000 < UInt32.ofNat now - UInt32.ofNat last) :
    last + 15000 < now := by
  have hmod : (UInt32.ofNat now - UInt32.ofNat last).toNat = (now - last) % 2 ^ 32 := by
    rw [UInt32.toNat_sub, UInt32.toNat_ofNat', UInt32.toNat_ofNat']
    omega
  have hlt := UInt32.lt_iff_toNat_lt.mp h
  rw [hmod] at hlt
  have hle := Nat.mod_le (now - last) (2 ^ 32)
  have hnum : (15000 : UInt32).toNat = 15000 := rfl
  omega

theorem elapsed_iff (hle : last ≤ now) (hlt : now < last + 2 ^ 32) :
    15000 < UInt32.ofNat now - UInt32.ofNat last ↔ last + 15000 < now := by
  rw [UInt32.lt_iff_toNat_lt, toNat_elapsed hle hlt]
  have hnum : (15000 : UInt32).toNat = 15000 := rfl
  omega

end Elapsed

/-! ### What a loop does about it -/

section Loop

variable {s s' : PubSubClient} {t : UInt32} {ping room : ℕ} {b : Bool}

/-- Whether nothing was heard or said for too long. -/
def Due (t : UInt32) (s : PubSubClient) : Prop :=
  15000 < t - s.lastInActivity ∨ 15000 < t - s.lastOutActivity

/-- The client after a PINGREQ. -/
def asking (room : ℕ) (t : UInt32) (s : PubSubClient) : PubSubClient :=
  { s.writeTwo room MQTTPINGREQ with
    lastOutActivity := t, lastInActivity := t, pingOutstanding := true }

theorem keepAlive_cases (t : UInt32) (room : ℕ) (s : PubSubClient) :
    Due t s ∧ s.pingOutstanding = true ∧
      keepAlive t room s = (false, { s with state := MQTT_CONNECTION_TIMEOUT }.stop) ∨
    Due t s ∧ s.pingOutstanding = false ∧ keepAlive t room s = (true, s.asking room t) ∨
    ¬Due t s ∧ keepAlive t room s = (true, s) := by
  rw [keepAlive]
  split
  · rename_i hdue
    split
    · rename_i hping
      exact .inl ⟨hdue, hping, rfl⟩
    · rename_i hping
      exact .inr (.inl ⟨hdue, by simpa using hping, rfl⟩)
  · rename_i hdue
    exact .inr (.inr ⟨hdue, rfl⟩)

theorem incoming_asking : (s.asking room t).client.incoming = s.client.incoming :=
  (incoming_write room [MQTTPINGREQ, 0] s.client).1

/-- A loop to which nothing comes in. -/
theorem loop_of_silent (hup : s.client.connected = true) (hempty : s.client.incoming = [])
    (t : UInt32) (ping room : ℕ) : loop t ping room s = some (keepAlive t ping s) := by
  rw [loop, connected_of_true hup]
  obtain ⟨-, -, heq⟩ | ⟨-, -, heq⟩ | ⟨-, heq⟩ := keepAlive_cases t ping s
  · simp only [heq]
  · simp only [heq, receive, incoming_asking, hempty, List.isEmpty_nil, if_true]
  · simp only [heq, receive, hempty, List.isEmpty_nil, if_true]

end Loop

/-- The times of the loops. -/
def polls : List (ℕ × Call) → List ℕ
  | [] => []
  | (t, .loop ..) :: as => t :: polls as
  | _ :: as => polls as

theorem polls_cons_of_still {a : Call} (h : ∀ t ping room, a ≠ .loop t ping room) (t : ℕ)
    (as : List (ℕ × Call)) : polls ((t, a) :: as) = polls as := by
  cases a with
  | loop t ping room => exact absurd rfl (h t ping room)
  | _ => rfl

/-! ### A silent broker -/

section Silence

variable {s s' : PubSubClient} {heard gap last : ℕ}

/-- Nothing has come in since `heard`. Either the client has not asked yet, or it has
asked, not much later, and not waited long. -/
structure Silent (heard gap now : ℕ) (s : PubSubClient) : Prop where
  incoming : s.client.incoming = []
  waits : s.pingOutstanding = false ∧ s.lastInActivity = UInt32.ofNat heard ∧ heard ≤ now ∧
      now ≤ heard + 15000 ∨
    ∃ asked, s.pingOutstanding = true ∧ s.lastInActivity = UInt32.ofNat asked ∧
      asked ≤ heard + 15000 + gap ∧ asked ≤ now ∧ now ≤ asked + 15000

theorem Silent.loop {now ping room : ℕ} {b : Bool} (h : Silent heard gap last s)
    (hgap : 15000 + gap < 2 ^ 32) (hnow : last ≤ now ∧ now ≤ last + gap)
    (hup : s.client.connected = true)
    (hloop : PubSubClient.loop (UInt32.ofNat now) ping room s = some (b, s'))
    (hup' : s'.client.connected = true) : Silent heard gap now s' := by
  rw [loop_of_silent hup h.incoming] at hloop
  obtain ⟨hdue, hping, heq⟩ | ⟨hdue, hping, heq⟩ | ⟨hdue, heq⟩ :=
    keepAlive_cases (UInt32.ofNat now) ping s
  · rw [heq] at hloop
    obtain ⟨-, rfl⟩ := Prod.mk.inj (Option.some.inj hloop)
    cases hup'
  · -- the PINGREQ is sent, at most a gap after it is due
    rw [heq] at hloop
    obtain ⟨-, rfl⟩ := Prod.mk.inj (Option.some.inj hloop)
    obtain ⟨-, -, -, hle⟩ | ⟨asked, hasked, -⟩ := h.waits
    · exact ⟨incoming_asking.trans h.incoming,
        .inr ⟨now, rfl, rfl, by omega, Nat.le_refl now, by omega⟩⟩
    · rw [hping] at hasked
      cases hasked
  · -- not due, so the wait goes on from where it began
    rw [heq] at hloop
    obtain ⟨-, rfl⟩ := Prod.mk.inj (Option.some.inj hloop)
    have hnot (since : ℕ) (hlast : s.lastInActivity = UInt32.ofNat since) (hle : since ≤ last)
        (hlt : last ≤ since + 15000) : now ≤ since + 15000 := by
      by_contra hlate
      apply hdue
      left
      rw [hlast, elapsed_iff (by omega) (by omega)]
      exact Nat.not_le.mp hlate
    refine ⟨h.incoming, ?_⟩
    obtain ⟨hping, hlast, hle, hlt⟩ | ⟨asked, hping, hlast, hbound, hle, hlt⟩ := h.waits
    · exact .inl ⟨hping, hlast, by omega, hnot heard hlast hle hlt⟩
    · exact .inr ⟨asked, hping, hlast, hbound, by omega, hnot asked hlast hle hlt⟩

theorem Silent.still {a : Call} (h : Silent heard gap last s) (hstill : a.Still)
    (hstep : session.step s a = some s') (hup : s'.client.connected = true) :
    Silent heard gap last s' := by
  obtain ⟨now, hat⟩ := a.exists_at
  have hticks := ticks_call hstill hat hstep
  refine ⟨(hticks.up hup).2.1.trans h.incoming, ?_⟩
  rw [hticks.pingOutstanding, hticks.lastIn hup]
  exact h.waits

theorem Silent.run {as : List (ℕ × Call)} (h : Silent heard gap last s)
    (hgap : 15000 + gap < 2 ^ 32) (hin : ∀ p ∈ as, p.2.Within)
    (hat : ∀ p ∈ as, p.2.At (UInt32.ofNat p.1)) (hnone : ∀ p ∈ as, p.2.arrived = [])
    (hpolls : (last :: polls as).IsChain fun t t' => t ≤ t' ∧ t' ≤ t + gap)
    (hrun : timed.run s as = some s') (hup : s'.client.connected = true) :
    ∃ now, Silent heard gap now s' ∧ last ≤ now ∧ ∀ t ∈ polls as, t ≤ now := by
  induction as generalizing s last with
  | nil =>
      obtain rfl := Option.some.inj hrun
      exact ⟨last, h, Nat.le_refl last, by simp [polls]⟩
  | cons p as ih =>
      obtain ⟨t, a⟩ := p
      obtain ⟨u, hstep, hrest⟩ := Machine.run_cons_eq_some.mp hrun
      obtain ⟨hfirst, hin'⟩ := List.forall_mem_cons.mp hin
      obtain ⟨hstamp, hat'⟩ := List.forall_mem_cons.mp hat
      obtain ⟨hsilent, hnone'⟩ := List.forall_mem_cons.mp hnone
      have hopen := up_of_timed hin' hrest hup
      have hbefore := up_of_call hfirst hstep hopen
      obtain hstill | ⟨clock, ping, room, rfl⟩ | ⟨bytes, rfl⟩ := Call.still_or hfirst
      · have hpolls' : polls ((t, a) :: as) = polls as := by
          apply polls_cons_of_still
          rintro clock ping room rfl
          exact hstill
        rw [hpolls'] at hpolls ⊢
        exact ih (h.still hstill hstep hopen) hin' hat' hnone' hpolls hrest
      · -- a loop, from whose time on the wait is measured
        obtain ⟨⟨b, v⟩, hloop, rfl⟩ := Option.map_eq_some_iff.mp hstep
        obtain rfl : clock = UInt32.ofNat t := hstamp
        obtain ⟨hnow, hpolls'⟩ := List.isChain_cons_cons.mp hpolls
        obtain ⟨now, hend, hle, hall⟩ :=
          ih (h.loop hgap hnow hbefore hloop hopen) hin' hat' hnone' hpolls' hrest
        refine ⟨now, hend, hnow.1.trans hle, ?_⟩
        exact List.forall_mem_cons.mpr ⟨hle, hall⟩
      · obtain rfl : bytes = [] := hsilent
        obtain rfl := Option.some.inj (Option.ite_none_right_eq_some.mp hstep).2
        have hsame : Silent heard gap last (s.arrive []) :=
          ⟨(List.append_nil _).trans h.incoming, h.waits⟩
        exact ih hsame hin' hat' hnone' hpolls hrest

/-- A broker that falls silent is given up: while loops come often enough, none of them
leaves the connection open later than 30 seconds, and a gap between two loops, after
something was heard, and the next finds it open no more than a gap later. -/
theorem silence_detected {as : List (ℕ × Call)} (hempty : s.client.incoming = [])
    (hping : s.pingOutstanding = false) (hheard : s.lastInActivity = UInt32.ofNat heard)
    (hstart : heard ≤ last ∧ last ≤ heard + 15000) (hgap : 15000 + gap < 2 ^ 32)
    (hin : ∀ p ∈ as, p.2.Within) (hat : ∀ p ∈ as, p.2.At (UInt32.ofNat p.1))
    (hnone : ∀ p ∈ as, p.2.arrived = [])
    (hpolls : (last :: polls as).IsChain fun t t' => t ≤ t' ∧ t' ≤ t + gap)
    (hrun : timed.run s as = some s') (hup : s'.client.connected = true) :
    (∀ t ∈ polls as, t ≤ heard + 30000 + gap) ∧
      ∀ next, (last :: polls as ++ [next]).IsChain (fun t t' => t ≤ t' ∧ t' ≤ t + gap) →
        next ≤ heard + 30000 + 2 * gap := by
  have hsilent : Silent heard gap last s := ⟨hempty, .inl ⟨hping, hheard, hstart⟩⟩
  obtain ⟨now, hend, hlast, hall⟩ := hsilent.run hgap hin hat hnone hpolls hrun hup
  have hbound : now ≤ heard + 30000 + gap := by
    obtain ⟨-, -, -, hlt⟩ | ⟨asked, -, -, hasked, -, hlt⟩ := hend.waits
    · omega
    · omega
  refine ⟨fun t ht => (hall t ht).trans hbound, fun next hnext => ?_⟩
  have hlastly := List.getLast_mem_getLast? (List.cons_ne_nil last (polls as))
  obtain ⟨-, -, hstep⟩ := List.isChain_append.mp hnext
  have hnear := (hstep _ hlastly next rfl).2
  have hbefore : (last :: polls as).getLast (List.cons_ne_nil _ _) ≤ now := by
    obtain heq | hmem := List.mem_cons.mp (List.getLast_mem (List.cons_ne_nil last (polls as)))
    · rw [heq]
      exact hlast
    · exact hall _ hmem
  omega

/-- Loops that leave the connection open as long as they can. -/
def loopsContoh : List (ℕ × Call) :=
  [(15000, .loop 15000 4 4), (30000, .loop 30000 4 4), (45000, .loop 45000 4 4)]

theorem silence_detected_contoh :
    ∃ s', timed.run (clientContoh true) loopsContoh = some s' ∧
      (∀ t ∈ [15000, 30000, 45000], t ≤ 0 + 30000 + 15000) ∧
        ∀ next, ([0, 15000, 30000, 45000] ++ [next]).IsChain
          (fun t t' => t ≤ t' ∧ t' ≤ t + 15000) → next ≤ 0 + 30000 + 2 * 15000 := by
  have hsome : (timed.run (clientContoh true) loopsContoh).map
      (fun s => s.client.connected) = some true := by decide +kernel
  obtain ⟨s', hrun, hup⟩ := Option.map_eq_some_iff.mp hsome
  have hpolls : (0 :: polls loopsContoh).IsChain fun t t' => t ≤ t' ∧ t' ≤ t + 15000 := by
    rw [loopsContoh, polls, polls, polls, polls]
    decide
  refine ⟨s', hrun, silence_detected rfl rfl rfl ⟨Nat.le_refl 0, by decide⟩
    (by decide) ?_ ?_ ?_ hpolls hrun hup⟩
  · simp [loopsContoh, Call.Within]
  · simp [loopsContoh, Call.At]
  · simp [loopsContoh, Call.arrived]

end Silence

/-! ### A broker that does not answer -/

section Timeout

variable {s s' : PubSubClient} {t : UInt32} {ping room llen len : ℕ} {b : Bool}

/-- A call at the time `t` notes this time or none. -/
structure Clock (t : UInt32) (s s' : PubSubClient) : Prop where
  lastIn : s'.lastInActivity = s.lastInActivity ∨ s'.lastInActivity = t
  lastOut : s'.lastOutActivity = s.lastOutActivity ∨ s'.lastOutActivity = t

/-- It asks nothing, either. -/
structure Hears (t : UInt32) (s s' : PubSubClient) : Prop extends Clock t s s' where
  asked : s'.pingOutstanding = true → s.pingOutstanding = true

theorem Clock.trans {u : PubSubClient} (h : Clock t s u) (h' : Clock t u s') : Clock t s s' where
  lastIn := by
    obtain hsame | hnow := h'.lastIn
    · rw [hsame]
      exact h.lastIn
    · exact .inr hnow
  lastOut := by
    obtain hsame | hnow := h'.lastOut
    · rw [hsame]
      exact h.lastOut
    · exact .inr hnow

theorem Hears.trans {u : PubSubClient} (h : Hears t s u) (h' : Hears t u s') : Hears t s s' where
  toClock := h.toClock.trans h'.toClock
  asked hping := h.asked (h'.asked hping)

theorem Reads.hears (h : Reads s s') (t : UInt32) : Hears t s s' where
  lastIn := .inl h.lastIn
  lastOut := .inl h.lastOut
  asked hping := h.pingOutstanding.symm.trans hping

theorem hears_handle (h : handle t room llen len s = some s') : Hears t s s' := by
  rw [handle] at h
  split at h
  · split at h
    · have hcalled := called_of_callbackPublish h
      obtain ⟨-, -, -, hlast, hping⟩ := by simpa only [Prod.mk.injEq] using hcalled.same
      have hasked : s'.pingOutstanding = true → s.pingOutstanding = true := hping.symm.trans
      obtain ⟨-, hout⟩ | ⟨id, -, -, hout⟩ := hcalled.answer
      · exact ⟨⟨.inr hlast, .inl hout⟩, hasked⟩
      · exact ⟨⟨.inr hlast, .inr hout⟩, hasked⟩
    · obtain rfl := Option.some.inj h
      exact ⟨⟨.inr rfl, .inl rfl⟩, id⟩
  · split at h
    · obtain rfl := Option.some.inj h
      exact ⟨⟨.inr rfl, .inl rfl⟩, id⟩
    · split at h
      · obtain rfl := Option.some.inj h
        exact ⟨⟨.inr rfl, .inl rfl⟩, (by rintro ⟨⟩)⟩
      · obtain rfl := Option.some.inj h
        exact ⟨⟨.inr rfl, .inl rfl⟩, id⟩

theorem hears_receive (h : receive t room s = some (b, s')) : Hears t s s' := by
  rw [receive] at h
  split at h
  · obtain ⟨-, rfl⟩ := Prod.mk.inj (Option.some.inj h)
    exact (Reads.refl s).hears t
  · obtain ⟨hreads, -⟩ := quiet_readPacket s
    split at h
    · rename_i llen len u hread
      rw [hread] at hreads
      obtain ⟨v, hhandle, hpair⟩ := Option.map_eq_some_iff.mp h
      obtain ⟨-, rfl⟩ := Prod.mk.inj hpair
      exact (hreads.hears t).trans (hears_handle hhandle)
    · rename_i o u _ hread
      rw [hread] at hreads
      have hconn := reads_connected u
      rw [Option.some.inj h] at hconn
      exact (hreads.trans hconn).hears t

theorem clock_keepAlive (t : UInt32) (room : ℕ) (s : PubSubClient) :
    Clock t s (keepAlive t room s).2 := by
  obtain ⟨-, -, heq⟩ | ⟨-, -, heq⟩ | ⟨-, heq⟩ := keepAlive_cases t room s
  · rw [heq]
    exact ⟨.inl rfl, .inl rfl⟩
  · rw [heq]
    exact ⟨.inr rfl, .inr rfl⟩
  · rw [heq]
    exact ⟨.inl rfl, .inl rfl⟩

theorem clock_loop (h : loop t ping room s = some (b, s')) : Clock t s s' := by
  rw [loop] at h
  have hconn := ((reads_connected s).hears t).toClock
  split at h
  · rename_i u hdown
    rw [hdown] at hconn
    obtain ⟨-, rfl⟩ := Prod.mk.inj (Option.some.inj h)
    exact hconn
  · rename_i u hopen
    obtain ⟨-, rfl⟩ := of_connected_eq_true hopen
    have hkeep := clock_keepAlive t ping u
    split at h
    · rename_i v hfalse
      rw [hfalse] at hkeep
      obtain ⟨-, rfl⟩ := Prod.mk.inj (Option.some.inj h)
      exact hkeep
    · rename_i v htrue
      rw [htrue] at hkeep
      exact hkeep.trans (hears_receive h).toClock

theorem clock_call {a : Call} (hin : a.Within) (hat : a.At t) (h : session.step s a = some s')
    (hup : s'.client.connected = true) : Clock t s s' := by
  obtain hstill | ⟨clock, ping, room, rfl⟩ | ⟨bytes, rfl⟩ := Call.still_or hin
  · have hticks := ticks_call hstill hat h
    exact ⟨.inl (hticks.lastIn hup), hticks.lastOut⟩
  · obtain ⟨⟨b, u⟩, hloop, rfl⟩ := Option.map_eq_some_iff.mp h
    obtain rfl : clock = t := hat
    exact clock_loop hloop
  · obtain rfl := Option.some.inj (Option.ite_none_right_eq_some.mp h).2
    exact ⟨.inl rfl, .inl rfl⟩

/-- What was last heard and said is not older than `asked`. -/
def Since (asked now : ℕ) (s : PubSubClient) : Prop :=
  (∃ heard, s.lastInActivity = UInt32.ofNat heard ∧ asked ≤ heard ∧ heard ≤ now) ∧
    ∃ said, s.lastOutActivity = UInt32.ofNat said ∧ asked ≤ said ∧ said ≤ now

theorem Since.clock {asked last now : ℕ} (h : Since asked last s) (hle : last ≤ now)
    (hclock : Clock (UInt32.ofNat now) s s') : Since asked now s' := by
  obtain ⟨⟨heard, hheard, hfirst, hlast⟩, said, hsaid, hfirst', hlast'⟩ := h
  constructor
  · obtain hsame | hnow := hclock.lastIn
    · exact ⟨heard, hsame.trans hheard, hfirst, by omega⟩
    · exact ⟨now, hnow, by omega, Nat.le_refl now⟩
  · obtain hsame | hnow := hclock.lastOut
    · exact ⟨said, hsame.trans hsaid, hfirst', by omega⟩
    · exact ⟨now, hnow, by omega, Nat.le_refl now⟩

theorem Since.run {as : List (ℕ × Call)} {asked last now : ℕ} (h : Since asked last s)
    (hin : ∀ p ∈ as, p.2.Within) (hat : ∀ p ∈ as, p.2.At (UInt32.ofNat p.1))
    (hordered : (last :: as.map Prod.fst ++ [now]).IsChain (· ≤ ·))
    (hrun : timed.run s as = some s') (hup : s'.client.connected = true) :
    Since asked now s' := by
  induction as generalizing s last with
  | nil =>
      obtain rfl := Option.some.inj hrun
      obtain ⟨hle, -⟩ := List.isChain_cons_cons.mp hordered
      obtain ⟨⟨heard, hheard, hfirst, hlast⟩, said, hsaid, hfirst', hlast'⟩ := h
      exact ⟨⟨heard, hheard, hfirst, by omega⟩, said, hsaid, hfirst', by omega⟩
  | cons p as ih =>
      obtain ⟨u, hstep, hrest⟩ := Machine.run_cons_eq_some.mp hrun
      obtain ⟨hfirst, hin'⟩ := List.forall_mem_cons.mp hin
      obtain ⟨hstamp, hat'⟩ := List.forall_mem_cons.mp hat
      obtain ⟨hle, hordered'⟩ := List.isChain_cons_cons.mp hordered
      have hopen := up_of_timed hin' hrest hup
      exact ih (h.clock hle (clock_call hfirst hstamp hstep hopen)) hin' hat' hordered' hrest

/-- Nothing was heard or nothing said for more than 15 seconds. -/
theorem Since.lt_of_due {asked now : ℕ} (h : Since asked now s)
    (hdue : Due (UInt32.ofNat now) s) : asked + 15000 < now := by
  obtain ⟨⟨heard, hheard, hle, hlast⟩, said, hsaid, hle', hlast'⟩ := h
  rw [Due, hheard, hsaid] at hdue
  obtain hlate | hlate := hdue
  · have hlong := lt_of_elapsed hlast hlate
    omega
  · have hlong := lt_of_elapsed hlast' hlate
    omega

theorem timeout_receive (h : receive t room s = some (b, s'))
    (htimeout : s'.state = MQTT_CONNECTION_TIMEOUT) : s.state = MQTT_CONNECTION_TIMEOUT := by
  rw [receive] at h
  split at h
  · obtain ⟨-, rfl⟩ := Prod.mk.inj (Option.some.inj h)
    exact htimeout
  · obtain ⟨hreads, -⟩ := quiet_readPacket s
    split at h
    · rename_i llen len u hread
      rw [hread] at hreads
      obtain ⟨v, hhandle, hpair⟩ := Option.map_eq_some_iff.mp h
      obtain ⟨-, rfl⟩ := Prod.mk.inj hpair
      exact hreads.timeout ((handle_up hhandle).2.1.symm.trans htimeout)
    · rename_i o u _ hread
      rw [hread] at hreads
      have hconn := reads_connected u
      rw [Option.some.inj h] at hconn
      exact (hreads.trans hconn).timeout htimeout

/-- A client that was not waiting for an answer and now is has sent a PINGREQ. -/
theorem asks_of_loop (hbefore : s.pingOutstanding = false)
    (h : loop t ping room s = some (b, s')) (hafter : s'.pingOutstanding = true) :
    keepAlive t ping s = (true, s.asking ping t) ∧ s'.lastInActivity = t ∧
      s'.lastOutActivity = t := by
  rw [loop] at h
  split at h
  · rename_i u hdown
    have hping := (reads_connected s).pingOutstanding
    rw [hdown] at hping
    obtain ⟨-, rfl⟩ := Prod.mk.inj (Option.some.inj h)
    rw [hping, hbefore] at hafter
    cases hafter
  · rename_i u hopen
    obtain ⟨-, rfl⟩ := of_connected_eq_true hopen
    obtain ⟨-, hping, -⟩ | ⟨-, -, heq⟩ | ⟨-, heq⟩ := keepAlive_cases t ping u
    · rw [hbefore] at hping
      cases hping
    · rw [heq] at h
      have hhears := hears_receive h
      refine ⟨heq, ?_, ?_⟩
      · obtain hsame | hnow := hhears.lastIn
        · exact hsame
        · exact hnow
      · obtain hsame | hnow := hhears.lastOut
        · exact hsame
        · exact hnow
    · rw [heq] at h
      have hping := (hears_receive h).asked hafter
      rw [hbefore] at hping
      cases hping

/-- A connection that is given up for lack of an answer. -/
theorem due_of_timeout (hup : s.client.connected = true) (hstate : s.state = MQTT_CONNECTED)
    (h : loop t ping room s = some (b, s')) (htimeout : s'.state = MQTT_CONNECTION_TIMEOUT) :
    Due t s ∧ s.pingOutstanding = true := by
  rw [loop, connected_of_true hup] at h
  obtain ⟨hdue, hping, -⟩ | ⟨-, -, heq⟩ | ⟨-, heq⟩ := keepAlive_cases t ping s
  · exact ⟨hdue, hping⟩
  · simp only [heq] at h
    have hbefore : (s.asking ping t).state = MQTT_CONNECTION_TIMEOUT :=
      timeout_receive h htimeout
    rw [show (s.asking ping t).state = s.state from rfl, hstate] at hbefore
    cases hbefore
  · simp only [heq] at h
    have hbefore := timeout_receive h htimeout
    rw [hstate] at hbefore
    cases hbefore

/-- A loop that gives up the connection, because of a timeout, comes more than 15 seconds
after a loop that has sent a PINGREQ, and since then no answer was taken. -/
theorem timeout_unanswered {s'' : PubSubClient} {as : List (ℕ × Call)} {now : ℕ}
    (hping : s.pingOutstanding = false) (hin : ∀ p ∈ as, p.2.Within)
    (hat : ∀ p ∈ as, p.2.At (UInt32.ofNat p.1))
    (hordered : (as.map Prod.fst ++ [now]).IsChain (· ≤ ·))
    (hrun : timed.run s as = some s') (hup : s'.client.connected = true)
    (hstate : s'.state = MQTT_CONNECTED)
    (hloop : loop (UInt32.ofNat now) ping room s' = some (b, s''))
    (htimeout : s''.state = MQTT_CONNECTION_TIMEOUT) :
    ∃ bs asked ping₀ room₀ cs u v,
      as = bs ++ (asked, .loop (UInt32.ofNat asked) ping₀ room₀) :: cs ∧
      asked + 15000 < now ∧ timed.run s bs = some u ∧
      keepAlive (UInt32.ofNat asked) ping₀ u = (true, u.asking ping₀ (UInt32.ofNat asked)) ∧
      timed.step u (asked, .loop (UInt32.ofNat asked) ping₀ room₀) = some v ∧
      ∀ w, timed.Visits v cs w → w.pingOutstanding = true := by
  obtain ⟨hdue, hasked⟩ := due_of_timeout hup hstate hloop htimeout
  -- the last call at which `pingOutstanding` went up
  obtain ⟨bs, ⟨asked, a⟩, cs, u, v, rfl, hbefore, hu, hstep, hrest, hsince⟩ :=
    Machine.exists_switch (P := fun s : PubSubClient => s.pingOutstanding = true) hrun
      (by simp [hping]) hasked
  have hnot : u.pingOutstanding = false := by simpa using hu
  have hv : v.pingOutstanding = true := hsince v ⟨[], List.nil_prefix, rfl⟩
  have hmem : (asked, a) ∈ bs ++ (asked, a) :: cs := by simp
  have hrestin : ∀ p ∈ cs, p.2.Within := fun p hp => hin p (by simp [hp])
  have hrestat : ∀ p ∈ cs, p.2.At (UInt32.ofNat p.1) := fun p hp => hat p (by simp [hp])
  have hopen := up_of_timed hrestin hrest hup
  have htimes : (asked :: cs.map Prod.fst ++ [now]).IsChain (· ≤ ·) := by
    rw [List.map_append, List.map_cons, List.append_assoc] at hordered
    exact hordered.right_of_append
  obtain hstill | ⟨clock, ping₀, room₀, rfl⟩ | ⟨bytes, rfl⟩ := Call.still_or (hin _ hmem)
  · have hsame := (ticks_call hstill (hat _ hmem) hstep).pingOutstanding
    rw [hnot, hv] at hsame
    cases hsame
  · obtain rfl : clock = UInt32.ofNat asked := hat _ hmem
    obtain ⟨⟨b', v'⟩, hloop', rfl⟩ := Option.map_eq_some_iff.mp hstep
    obtain ⟨hasks, hlastIn, hlastOut⟩ := asks_of_loop hnot hloop' hv
    have hstart : Since asked asked v' :=
      ⟨⟨asked, hlastIn, Nat.le_refl _, Nat.le_refl _⟩, asked, hlastOut, Nat.le_refl _,
        Nat.le_refl _⟩
    have hlate := (hstart.run hrestin hrestat htimes hrest hup).lt_of_due hdue
    exact ⟨bs, asked, ping₀, room₀, cs, u, v', rfl, hlate, hbefore, hasks, hstep, hsince⟩
  · obtain rfl := Option.some.inj (Option.ite_none_right_eq_some.mp hstep).2
    rw [show (u.arrive bytes).pingOutstanding = u.pingOutstanding from rfl, hnot] at hv
    cases hv

/-- A client in a connection that was accepted. -/
def acceptedContoh : PubSubClient := { clientContoh true with state := MQTT_CONNECTED }

theorem timeout_unanswered_contoh :
    ∃ s' b s'', timed.run acceptedContoh [(15001, .loop 15001 4 4)] = some s' ∧
      loop 30002 4 4 s' = some (b, s'') ∧
      ∃ bs asked ping₀ room₀ cs u v,
        [(15001, Call.loop 15001 4 4)] =
          bs ++ (asked, .loop (UInt32.ofNat asked) ping₀ room₀) :: cs ∧
        asked + 15000 < 30002 ∧ timed.run acceptedContoh bs = some u ∧
        keepAlive (UInt32.ofNat asked) ping₀ u = (true, u.asking ping₀ (UInt32.ofNat asked)) ∧
        timed.step u (asked, .loop (UInt32.ofNat asked) ping₀ room₀) = some v ∧
        ∀ w, timed.Visits v cs w → w.pingOutstanding = true := by
  have hsome : ((timed.run acceptedContoh [(15001, .loop 15001 4 4)]).bind fun s' =>
      (loop 30002 4 4 s').map fun p => (s'.client.connected, s'.state, p.2.state)) =
        some (true, MQTT_CONNECTED, MQTT_CONNECTION_TIMEOUT) := by decide +kernel
  obtain ⟨s', hrun, hloop⟩ := Option.bind_eq_some_iff.mp hsome
  obtain ⟨⟨b, s''⟩, hloop, hpair⟩ := Option.map_eq_some_iff.mp hloop
  obtain ⟨hup, hpair⟩ := Prod.mk.inj hpair
  obtain ⟨hstate, htimeout⟩ := Prod.mk.inj hpair
  refine ⟨s', b, s'', hrun, hloop, timeout_unanswered rfl ?_ ?_ ?_ hrun hup hstate hloop htimeout⟩
  · simp [Call.Within]
  · simp [Call.At]
  · simp

end Timeout

/-! ### What the broker hears -/

section Talk

variable {s s' : PubSubClient}

/-- A PINGREQ is sent when it is due. -/
theorem sent_of_due {t : UInt32} {ping room : ℕ} {b : Bool} (hup : s.client.connected = true)
    (hdue : Due t s) (hping : 4 ≤ ping) (hroom : 4 ≤ room)
    (h : loop t ping room s = some (b, s')) (hup' : s'.client.connected = true) :
    s.client.sent.length < s'.client.sent.length := by
  rw [loop, connected_of_true hup] at h
  obtain ⟨-, -, heq⟩ | ⟨-, -, heq⟩ | ⟨hnot, -⟩ := keepAlive_cases t ping s
  · simp only [heq] at h
    obtain ⟨-, rfl⟩ := Prod.mk.inj (Option.some.inj h)
    cases hup'
  · simp only [heq] at h
    have hasked := (sends_writeTwo (p := .pingreq) rfl .pingreq hup
      (show 2 ≤ ping by omega)).sent
    have hopen : (s.asking ping t).client.connected = true :=
      (incoming_write ping [MQTTPINGREQ, 0] s.client).2.trans hup
    obtain ⟨ps, -, hsends⟩ := sends_receive hopen hroom h
    have hsent : s'.client.sent =
        s.client.sent ++ [Packet.pingreq].flatMap packet.write ++ ps.flatMap packet.write := by
      rw [hsends.sent]
      exact congrArg (· ++ ps.flatMap packet.write) hasked
    have hpos := List.length_pos_iff.mpr (packet_write_ne_nil .pingreq)
    rw [hsent, List.length_append, List.length_append, List.flatMap_singleton]
    omega
  · exact absurd hdue hnot

theorem length_sent_le {as : List (ℕ × Call)} (hin : ∀ p ∈ as, p.2.Within)
    (hcomplete : ∀ p ∈ as, p.2.Complete) (hrun : timed.run s as = some s') :
    s.client.sent.length ≤ s'.client.sent.length := by
  rw [run_timed] at hrun
  have hin' : ∀ a ∈ as.map Prod.snd, a.Within := List.forall_mem_map.mpr hin
  obtain ⟨ps, hsent, -⟩ := sent_published hin' (List.forall_mem_map.mpr hcomplete) hrun
  rw [hsent, List.length_append]
  omega

/-- A loop that says nothing comes before it is due. -/
theorem early_of_loop {said last now gap ping : ℕ} (hsaid : s.lastOutActivity = UInt32.ofNat said)
    (hstart : said ≤ last ∧ last ≤ said + 15000) (hgap : 15000 + gap < 2 ^ 32)
    (hnow : last ≤ now ∧ now ≤ last + gap) (hping : 4 ≤ ping) (hroom : 4 ≤ room)
    (hup : s.client.connected = true)
    (h : loop (UInt32.ofNat now) ping room s = some (b, s')) (hup' : s'.client.connected = true)
    (hsame : s'.client.sent = s.client.sent) : now ≤ said + 15000 := by
  by_contra hover
  have hdue : Due (UInt32.ofNat now) s := by
    right
    rw [hsaid, elapsed_iff (by omega) (by omega)]
    exact Nat.not_le.mp hover
  have hsent := sent_of_due hup hdue hping hroom h hup'
  rw [hsame] at hsent
  exact Nat.lt_irrefl _ hsent

/-- A broker hears of the client: while loops come often enough and the connection
stays open, something is sent in any time that is longer than 15 seconds, and a gap
between two loops. -/
theorem keeps_talking {as : List (ℕ × Call)} {said last gap : ℕ}
    (hsaid : s.lastOutActivity = UInt32.ofNat said) (hstart : said ≤ last ∧ last ≤ said + 15000)
    (hgap : 15000 + gap < 2 ^ 32) (hin : ∀ p ∈ as, p.2.Within)
    (hcomplete : ∀ p ∈ as, p.2.Complete) (hat : ∀ p ∈ as, p.2.At (UInt32.ofNat p.1))
    (hpolls : (last :: polls as).IsChain fun t t' => t ≤ t' ∧ t' ≤ t + gap)
    (hlate : ∃ t ∈ polls as, said + 15000 < t) (hrun : timed.run s as = some s')
    (hup : s'.client.connected = true) : s.client.sent.length < s'.client.sent.length := by
  induction as generalizing s last with
  | nil =>
      obtain ⟨t, ht, -⟩ := hlate
      cases ht
  | cons p as ih =>
      obtain ⟨t, a⟩ := p
      obtain ⟨u, hstep, hrest⟩ := Machine.run_cons_eq_some.mp hrun
      obtain ⟨hfirst, hin'⟩ := List.forall_mem_cons.mp hin
      obtain ⟨hwhole, hcomplete'⟩ := List.forall_mem_cons.mp hcomplete
      obtain ⟨hstamp, hat'⟩ := List.forall_mem_cons.mp hat
      have hopen := up_of_timed hin' hrest hup
      have hbefore := up_of_call hfirst hstep hopen
      have hgrows := length_sent_le hin' hcomplete' hrest
      obtain ⟨ps, hsends, -⟩ := sends_call hfirst hwhole hstep
      by_cases hnil : ps = []
      · -- nothing said in this call, so a loop that is late comes after it
        have hsame : u.client.sent = s.client.sent := by
          rw [hsends.sent, hnil, List.flatMap_nil, List.append_nil]
        have hlast := (hsends.idle hopen hnil).trans hsaid
        rw [← hsame]
        by_cases hloop : ∃ clock ping room, a = .loop clock ping room
        · obtain ⟨clock, ping, room, rfl⟩ := hloop
          obtain rfl : clock = UInt32.ofNat t := hstamp
          obtain ⟨hnow, hpolls'⟩ := List.isChain_cons_cons.mp hpolls
          obtain ⟨⟨b, v⟩, hloop, rfl⟩ := Option.map_eq_some_iff.mp hstep
          have hearly := early_of_loop hsaid hstart hgap hnow hwhole.1 hwhole.2 hbefore hloop hopen
            hsame
          obtain ⟨t', ht', hover⟩ := hlate
          obtain rfl | hlater := List.mem_cons.mp ht'
          · omega
          · exact ih hlast ⟨by omega, hearly⟩ hin' hcomplete' hat' hpolls' ⟨t', hlater, hover⟩ hrest
        · have hpolls' : polls ((t, a) :: as) = polls as := by
            apply polls_cons_of_still
            rintro clock ping room rfl
            exact hloop ⟨clock, ping, room, rfl⟩
          rw [hpolls'] at hpolls hlate
          exact ih hlast hstart hin' hcomplete' hat' hpolls hlate hrest
      · obtain ⟨p, rest, rfl⟩ := List.exists_cons_of_ne_nil hnil
        have hpos := List.length_pos_iff.mpr (packet_write_ne_nil p)
        rw [hsends.sent, List.length_append, List.flatMap_cons, List.length_append] at hgrows
        omega

theorem keeps_talking_contoh :
    ∃ s', timed.run (clientContoh true) [(15001, .loop 15001 4 4)] = some s' ∧
      (clientContoh true).client.sent.length < s'.client.sent.length := by
  have hsome : (timed.run (clientContoh true) [(15001, .loop 15001 4 4)]).map
      (fun s => s.client.connected) = some true := by decide +kernel
  obtain ⟨s', hrun, hup⟩ := Option.map_eq_some_iff.mp hsome
  have hpolls : (0 :: polls [(15001, .loop 15001 4 4)]).IsChain
      fun t t' => t ≤ t' ∧ t' ≤ t + 20000 := by
    rw [polls, polls]
    decide
  refine ⟨s', hrun, keeps_talking rfl ⟨Nat.le_refl 0, by decide⟩ (by decide) ?_ ?_ ?_ hpolls ?_
    hrun hup⟩
  · simp [Call.Within]
  · simp [Call.Complete]
  · simp [Call.At]
  · exact ⟨15001, List.mem_singleton_self _, by decide⟩

end Talk

end PubSubClient

end EmsGateway.Mqtt
