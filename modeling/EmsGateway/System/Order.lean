import EmsGateway.System.Invariant

/-!
What reaches the broker: the lines are handed over in the order in which they
were appended, none twice, each is published at most twice, in place, and the
flag tells of each whether it was confirmed.
-/

namespace EmsGateway.System

open EmsGateway.Library EmsGateway.Connect

/-- The bodies published are some of the lines handed over, in order, each of
them once or twice in place. -/
def Repeated (handed bodies : List Record) : Prop :=
  ∃ sel : List Record, sel.Sublist handed ∧ OnceOrTwice sel bodies

/-- A line handed over next, and published at most twice. -/
theorem Repeated.concat {handed bodies : List Record} (h : Repeated handed bodies) (line : Record)
    {n : ℕ} (hn : n ≤ 2) : Repeated (handed ++ [line]) (bodies ++ List.replicate n line) := by
  obtain ⟨sel, hsub, hsel⟩ := h
  obtain ⟨last, hlast, hrep⟩ := exists_onceOrTwice_replicate line hn
  exact ⟨sel ++ last, hsub.append hlast, hsel.append hrep⟩

theorem bodies_eq_of_publishes_eq {es fs : List (Event Record)} (h : publishes fs = publishes es) :
    bodies fs = bodies es := by
  rw [bodies, bodies, h]

/-- A call of `kirimdatakeserver`, cut short or not, publishes its line at most
twice and nothing else. -/
theorem bodies_take_sendEvents (ch : Option Channel) (r : SendReplies) (line : Record) (n : ℕ) :
    ∃ k ≤ 2, bodies ((sendEvents ch r line).take n) = List.replicate k line := by
  obtain ⟨k, hk, hbodies⟩ := bodies_sendEvents ch r line
  have hprefix : bodies ((sendEvents ch r line).take n) <+: List.replicate k line := by
    rw [← hbodies]
    exact ((List.take_prefix n _).filter _).filterMap _
  obtain ⟨hlength, hreplicate⟩ := List.prefix_replicate_iff.mp hprefix
  exact ⟨_, hlength.trans hk, hreplicate⟩

theorem calls_sendLine (s : ConnectClass Record) (r : SendReplies) (line : Record) :
    ((sendLine r line).final s).calls = s.calls ++ sendEvents s.channel r line := by
  obtain ⟨log, hline⟩ := exec_sendLine r line s
  rw [Stmt.final, hline]
  rfl

theorem repeated_step {g g' : Gateway} {a : Action} (h : Repeated g.handed (bodies g.self.calls))
    (heffect : Effect g a g') : Repeated g'.handed (bodies g'.self.calls) := by
  cases heffect with
  | start r _ =>
      have hpublishes := (new_spec r g.self.calls g.self.printed).2.2.1
      exact bodies_eq_of_publishes_eq hpublishes ▸ h
  | quiet i pc s _ _ _ hkept => exact bodies_eq_of_publishes_eq hkept.publishes ▸ h
  | send r line rest _ =>
      obtain ⟨n, hn, hbodies⟩ := bodies_sendEvents g.self.channel r line
      show Repeated (g.handed ++ [line]) (bodies ((sendLine r line).final g.self).calls)
      rw [calls_sendLine, bodies_append, hbodies]
      exact h.concat line hn
  | killSending r n line rest _ =>
      obtain ⟨k, hk, hbodies⟩ := bodies_take_sendEvents g.self.channel r line n
      show Repeated (g.handed ++ [line])
        (bodies (g.self.calls ++ (sendEvents g.self.channel r line).take n))
      rw [bodies_append, hbodies]
      exact h.concat line hk
  | tick | datakirim | write | folder | read | truncate | expired | remove | killConnect | reboot
  | reping => exact h

theorem repeated_of_run {clock : ℕ} {as : List Action} {g : Gateway}
    (hrun : gateway.run (.init clock) as = some g) : Repeated g.handed (bodies g.self.calls) :=
  Machine.run_invariant (I := fun g : Gateway => Repeated g.handed (bodies g.self.calls))
    (fun _ _ _ h hstep => repeated_step h (effect_of_step hstep))
    ⟨[], List.Sublist.refl [], .nil⟩ hrun

/-- Only lines handed over are ever confirmed. -/
theorem handed_of_confirmed {clock : ℕ} {as : List Action} {g : Gateway}
    (hrun : gateway.run (.init clock) as = some g) {x : Record}
    (hx : x ∈ confirmedBodies g.self.calls) : x ∈ g.handed := by
  obtain ⟨sel, hsub, hsel⟩ := repeated_of_run hrun
  exact hsub.subset (hsel.subset (confirmedBodies_subset_bodies g.self.calls hx))

/-- What is in a spool file was not confirmed. -/
theorem not_confirmed_of_stored {clock : ℕ} {as : List Action} {g : Gateway}
    (hrun : gateway.run (.init clock) as = some g) {m : ℕ} {x : Record}
    (hx : x ∈ Directory.lines g.spool m) : x ∉ confirmedBodies g.self.calls := by
  intro hconfirmed
  exact (valid_of_run hrun).relay.not_forwarded_of_stored hx (handed_of_confirmed hrun hconfirmed)

/-- In every run the lines handed to `kirimdatakeserver` are some of the lines
appended, in their order and by their positions, and the bodies passed to
`basic_publish` are some of the lines handed over, each once or twice in place. -/
theorem handed_in_order {clock : ℕ} {as : List Action} {g : Gateway}
    (hrun : gateway.run (.init clock) as = some g) :
    g.appended.map Record.posisi = List.range g.appended.length ∧
      g.handed.Sublist g.appended ∧
      ∃ sel : List Record, sel.Sublist g.handed ∧ OnceOrTwice sel (bodies g.self.calls) := by
  have hvalid := valid_of_run hrun
  exact ⟨hvalid.dates.posisi, hvalid.relay.forwarded_sublist, repeated_of_run hrun⟩

/-- A record is spooled; its first publish fails and its second is confirmed. -/
def publishedTwice : List Action :=
  spooled "{}" ++ started ++ upToPass ++
    [.connect .read, .connect .truncate, .connect (.send ⟨.ok, .lost, .all .ok, .ok, .ok⟩)]

theorem handed_in_order_publishedTwice :
    ∃ g, gateway.run (.init 0) publishedTwice = some g ∧ (bodies g.self.calls).length = 2 ∧
      g.appended.map Record.posisi = List.range g.appended.length ∧
      g.handed.Sublist g.appended ∧
      ∃ sel : List Record, sel.Sublist g.handed ∧ OnceOrTwice sel (bodies g.self.calls) :=
  ⟨_, rfl, by decide, @handed_in_order 0 publishedTwice _ rfl⟩

/-! ### The flag -/

/-- In every state a run reaches, a call of `kirimdatakeserver` returns, and then
`dataflag` is set if and only if the last `basic_publish` of this very call was
confirmed. -/
theorem dataflag_iff_confirmed {clock : ℕ} {as : List Action} {g : Gateway}
    (hrun : gateway.run (.init clock) as = some g) (r : SendReplies) (data : Record) :
    ∃ t es, (kirimdatakeserver r data).exec g.self = (.ok (), t) ∧
      t.calls = g.self.calls ++ es ∧
      (t.dataflag = true ↔ ∃ e, lastPublish es = some e ∧ e.confirmed = true) := by
  have hclient := (valid_of_run hrun).client
  obtain ⟨log, hsend⟩ := exec_kirimdatakeserver r data g.self
  refine ⟨_, sendEvents g.self.channel r data, hsend, rfl, ?_⟩
  -- the flag was cleared before the call, so a retry that fails leaves it cleared
  show sendFlag g.self.channel r g.self.dataflag = true ↔ _
  rw [hclient.flag, sendFlag_of_false, lastPublish_sendEvents hclient.mode]

theorem dataflag_iff_confirmed_publishedTwice :
    ∃ g, gateway.run (.init 0) publishedTwice = some g ∧
      ∃ t es, (kirimdatakeserver (.all .ok) ⟨1, 0, 0, "{}"⟩).exec g.self = (.ok (), t) ∧
        t.calls = g.self.calls ++ es ∧
        (t.dataflag = true ↔ ∃ e, lastPublish es = some e ∧ e.confirmed = true) :=
  ⟨_, rfl, @dataflag_iff_confirmed 0 publishedTwice _ rfl (.all .ok) ⟨1, 0, 0, "{}"⟩⟩

end EmsGateway.System
