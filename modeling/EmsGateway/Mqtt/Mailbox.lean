import EmsGateway.Mqtt.Unchanged

/-!
What a client receives in a run: the frames that come in are taken one by one, in
their order, whatever the sketch calls in between.
-/

namespace EmsGateway.Mqtt

open EmsGateway.Library

namespace PubSubClient

/-! ### Frames that are taken -/

/-- What the callback is given for a frame. -/
def told (callback : Bool) (f : Frame) : List Message := ((reaction callback f).getD ([], [])).1

/-- The numbers that are acknowledged for a frame. -/
def acks (callback : Bool) (f : Frame) : List ℕ :=
  ((reaction callback f).getD ([], [])).2.filterMap Packet.ackId

/-- A frame below 65536 bytes that has the topic and the number of its message, if it is
one. -/
structure Valid (f : Frame) : Prop where
  small : (frame.write f).length < 65536
  parts : f.header &&& 0xF0 = MQTTPUBLISH → (messageParts f).isSome

theorem Valid.readable {f : Frame} (h : Valid f) : Readable f where
  small := h.small
  topic htype := by
    obtain ⟨p, hparts⟩ := Option.isSome_iff_exists.mp (h.parts htype)
    exact two_le_of_parts hparts

theorem Valid.reaction {f : Frame} (h : Valid f) (callback : Bool) :
    ∃ ms ps, PubSubClient.reaction callback f = some (ms, ps) := by
  rw [PubSubClient.reaction]
  split
  · exact ⟨[], [], rfl⟩
  · split
    · rename_i htype
      obtain ⟨⟨⟨topic, id⟩, payload⟩, hparts⟩ := Option.isSome_iff_exists.mp (h.parts htype)
      split
      · exact ⟨_, _, congrArg _ hparts⟩
      · exact ⟨[], [], rfl⟩
    · split
      · exact ⟨[], [.pingresp], rfl⟩
      · exact ⟨[], [], rfl⟩

/-- What comes in with a call. -/
def Call.arrived : Call → List UInt8
  | .arrive bytes => bytes
  | _ => []

/-- Whole frames come in, and valid ones. -/
def Call.Framed (a : Call) : Prop :=
  ∃ fs : List Frame, a.arrived = fs.flatMap frame.write ∧ ∀ f ∈ fs, Valid f

/-- Of the frames that came in, those taken were told and acknowledged, and the others
wait in the connection. -/
structure Mail (s₀ : PubSubClient) (taken waiting : List Frame) (s : PubSubClient) : Prop where
  received : s.received = s₀.received ++ taken.flatMap (told s₀.callback)
  acknowledged : ∃ ps : List Packet, s.client.sent = s₀.client.sent ++ ps.flatMap packet.write ∧
    (∀ p ∈ ps, p.Later) ∧ ps.filterMap Packet.ackId = taken.flatMap (acks s₀.callback)
  callback : s.callback = s₀.callback
  valid : ∀ f ∈ waiting, Valid f
  incoming : s.client.connected = true → s.client.incoming = waiting.flatMap frame.write

section Mail

variable {s₀ s s' : PubSubClient} {taken waiting : List Frame}

/-- A call that takes nothing. -/
theorem Mail.keeps {ps : List Packet} (h : Mail s₀ taken waiting s) (hkeeps : Keeps s s')
    (hsends : Sends s s' ps) (hnone : ps.filterMap Packet.ackId = []) :
    Mail s₀ taken waiting s' where
  received := hkeeps.received.trans h.received
  acknowledged := by
    obtain ⟨qs, hsent, hlater, hacks⟩ := h.acknowledged
    refine ⟨qs ++ ps, ?_, ?_, ?_⟩
    · rw [hsends.sent, hsent, List.flatMap_append, List.append_assoc]
    · intro p hp
      obtain hp | hp := List.mem_append.mp hp
      · exact hlater p hp
      · exact hsends.later p hp
    · rw [List.filterMap_append, hnone, List.append_nil, hacks]
  callback := hkeeps.callback.trans h.callback
  valid := h.valid
  incoming hup := by
    obtain ⟨hopen, hin, -⟩ := hkeeps.up hup
    exact hin.trans (h.incoming hopen)

/-- The next frame is taken. -/
theorem Mail.takes {f : Frame} {t : UInt32} {ms : List Message} {ps : List Packet}
    (h : Mail s₀ taken (f :: waiting) s) (hre : reaction s.callback f = some (ms, ps))
    (hlater : ∀ p ∈ ps, p.Later)
    (htakes : Takes t f (waiting.flatMap frame.write) ms ps s s') :
    Mail s₀ (taken ++ [f]) waiting s' where
  received := by
    have htold : told s₀.callback f = ms := by rw [told, ← h.callback, hre, Option.getD_some]
    rw [htakes.received, h.received, List.flatMap_append, List.flatMap_singleton, htold,
      List.append_assoc]
  acknowledged := by
    obtain ⟨qs, hsent, hqs, hacks⟩ := h.acknowledged
    have hack : acks s₀.callback f = ps.filterMap Packet.ackId := by
      rw [acks, ← h.callback, hre, Option.getD_some]
    refine ⟨qs ++ ps, ?_, ?_, ?_⟩
    · rw [htakes.sent, hsent, List.flatMap_append, List.append_assoc]
    · intro p hp
      obtain hp | hp := List.mem_append.mp hp
      · exact hqs p hp
      · exact hlater p hp
    · rw [List.filterMap_append, hacks, List.flatMap_append, List.flatMap_singleton, hack]
  callback := htakes.callback.trans h.callback
  valid g hg := h.valid g (List.mem_cons_of_mem f hg)
  incoming _ := htakes.incoming

theorem control_of_reaction {callback : Bool} {f : Frame} {ms : List Message} {ps : List Packet}
    (h : reaction callback f = some (ms, ps)) : Control ps := by
  rw [reaction] at h
  split at h
  · obtain ⟨-, rfl⟩ := Prod.mk.inj (Option.some.inj h)
    exact .none
  · split at h
    · split at h
      · obtain ⟨⟨⟨topic, id⟩, payload⟩, hparts, hpair⟩ := Option.map_eq_some_iff.mp h
        obtain ⟨-, rfl⟩ := Prod.mk.inj hpair
        cases hid : id with
        | none => exact .none
        | some n =>
            rw [hid] at hparts
            exact .puback n (lt_of_messageParts hparts)
      · obtain ⟨-, rfl⟩ := Prod.mk.inj (Option.some.inj h)
        exact .none
    · split at h
      · obtain ⟨-, rfl⟩ := Prod.mk.inj (Option.some.inj h)
        exact .pingresp
      · obtain ⟨-, rfl⟩ := Prod.mk.inj (Option.some.inj h)
        exact .none

/-- The next frame is taken, if one waits. -/
theorem Mail.receive {t : UInt32} {room : ℕ} {b : Bool} (h : Mail s₀ taken waiting s)
    (hup : s.client.connected = true) (hroom : 4 ≤ room)
    (hreceive : PubSubClient.receive t room s = some (b, s')) :
    ∃ taken' waiting', Mail s₀ taken' waiting' s' ∧ taken' ++ waiting' = taken ++ waiting ∧
      waiting'.length = waiting.length - 1 := by
  have hin := h.incoming hup
  cases waiting with
  | nil =>
      have hnil : s.client.incoming = [] := hin
      simp only [PubSubClient.receive, hnil, List.isEmpty_nil, if_true] at hreceive
      obtain ⟨-, rfl⟩ := Prod.mk.inj (Option.some.inj hreceive)
      exact ⟨taken, [], h, rfl, rfl⟩
  | cons f waiting =>
      have hf := h.valid f List.mem_cons_self
      rw [List.flatMap_cons] at hin
      obtain ⟨ms, qs, hre⟩ := hf.reaction s.callback
      obtain ⟨u, heq, htakes⟩ := receive_of_reaction hf.readable hup hin hroom hre
      rw [heq] at hreceive
      obtain ⟨-, rfl⟩ := Prod.mk.inj (Option.some.inj hreceive)
      exact ⟨taken ++ [f], waiting, h.takes hre (control_of_reaction hre).later htakes,
        by simp, rfl⟩

/-- A loop that goes well takes the next frame, if one waits. -/
theorem Mail.loop {t : UInt32} {ping room : ℕ} {b : Bool} (h : Mail s₀ taken waiting s)
    (hping : 4 ≤ ping) (hroom : 4 ≤ room)
    (hloop : PubSubClient.loop t ping room s = some (b, s')) :
    ∃ taken' waiting', Mail s₀ taken' waiting' s' ∧ taken' ++ waiting' = taken ++ waiting ∧
      (s'.client.connected = true → waiting'.length = waiting.length - 1) := by
  rw [PubSubClient.loop] at hloop
  have hconn := (ticks_connected 0 s).toKeeps
  have hsends := (reads_connected s).sends
  split at hloop
  · rename_i u hdown
    have hclosed : s.client.connected = false := by rw [← connected_fst, hdown]
    have hstays := closed_connected hclosed
    rw [hdown] at hconn hsends hstays
    obtain ⟨-, rfl⟩ := Prod.mk.inj (Option.some.inj hloop)
    refine ⟨taken, waiting, h.keeps hconn hsends rfl, rfl, ?_⟩
    intro hup
    rw [hstays] at hup
    cases hup
  · rename_i u hup
    obtain ⟨hopen, rfl⟩ := of_connected_eq_true hup
    obtain ⟨ps, hpings, hsends⟩ := sends_keepAlive (t := t) hopen hping
    have hnone : ps.filterMap Packet.ackId = [] := by
      obtain rfl | rfl := hpings <;> rfl
    have hmail := h.keeps (keeps_keepAlive t ping u) hsends hnone
    split at hloop
    · rename_i v hfalse
      -- the connection is given up, and what waited in it is gone
      have hstop := closed_keepAlive (congrArg Prod.fst hfalse)
      rw [hfalse] at hmail hstop
      obtain ⟨-, rfl⟩ := Prod.mk.inj (Option.some.inj hloop)
      refine ⟨taken, waiting, hmail, rfl, ?_⟩
      intro hup
      rw [hstop] at hup
      cases hup
    · rename_i v htrue
      have hup' : (keepAlive t ping u).2.client.connected = u.client.connected :=
        connected_keepAlive (congrArg Prod.fst htrue)
      rw [htrue] at hmail hup'
      obtain ⟨taken', waiting', hmail', hall, hlen⟩ :=
        hmail.receive (hup'.trans hopen) hroom hloop
      exact ⟨taken', waiting', hmail', hall, fun _ => hlen⟩

/-- How many frames a call may take. -/
def Call.loops : Call → ℕ
  | .loop .. => 1
  | _ => 0

/-- One call takes frames in their order, and lets those that come in wait behind the
others. -/
theorem Mail.step {a : Call} (h : Mail s₀ taken waiting s)
    (hin : a.Within) (hcomplete : a.Complete) (hframed : a.Framed)
    (hstep : session.step s a = some s') :
    ∃ fs taken' waiting', a.arrived = fs.flatMap frame.write ∧
      Mail s₀ taken' waiting' s' ∧ taken' ++ waiting' = taken ++ waiting ++ fs ∧
      (s'.client.connected = true → waiting'.length = waiting.length - a.loops + fs.length) := by
  obtain hstill | ⟨t, ping, room, rfl⟩ | ⟨bytes, rfl⟩ := Call.still_or hin
  · have hkeeps := keeps_call hstill hstep
    have hnot : ∀ t ping room, a ≠ .loop t ping room := by
      rintro t ping room rfl
      exact hstill
    have hsilent : a.arrived = [] ∧ a.loops = 0 := by
      cases a with
      | arrive => exact hstill.elim
      | loop => exact hstill.elim
      | _ => exact ⟨rfl, rfl⟩
    -- what it sends is no acknowledgement
    obtain ⟨ps, hsends, hnone, -⟩ := asks_call hin hnot hcomplete hstep
    refine ⟨[], taken, waiting, hsilent.1, h.keeps hkeeps hsends hnone,
      (List.append_nil _).symm, ?_⟩
    intro _
    rw [hsilent.2]
    rfl
  · obtain ⟨⟨b, u⟩, hloop, rfl⟩ := Option.map_eq_some_iff.mp hstep
    obtain ⟨taken', waiting', hmail, hall, hlen⟩ := h.loop hcomplete.1 hcomplete.2 hloop
    exact ⟨[], taken', waiting', rfl, hmail, hall.trans (List.append_nil _).symm, hlen⟩
  · obtain ⟨fs, hbytes, hfs⟩ := hframed
    obtain ⟨hup, hsome⟩ := Option.ite_none_right_eq_some.mp hstep
    obtain rfl := Option.some.inj hsome
    refine ⟨fs, taken, waiting ++ fs, hbytes,
      ⟨h.received, h.acknowledged, h.callback, ?_, ?_⟩, (List.append_assoc _ _ _).symm, ?_⟩
    · intro f hf
      obtain hf | hf := List.mem_append.mp hf
      · exact h.valid f hf
      · exact hfs f hf
    · intro _
      rw [List.flatMap_append, ← h.incoming hup, ← hbytes]
      rfl
    · intro _
      exact List.length_append

theorem Mail.run {as : List Call} (h : Mail s₀ taken waiting s)
    (hin : ∀ a ∈ as, a.Within)
    (hcomplete : ∀ a ∈ as, a.Complete) (hframed : ∀ a ∈ as, a.Framed)
    (hrun : session.run s as = some s') :
    ∃ fs taken' waiting', as.flatMap Call.arrived = fs.flatMap frame.write ∧
      Mail s₀ taken' waiting' s' ∧ taken' ++ waiting' = taken ++ waiting ++ fs := by
  induction as generalizing s taken waiting with
  | nil =>
      obtain rfl := Option.some.inj hrun
      exact ⟨[], taken, waiting, rfl, h, (List.append_nil _).symm⟩
  | cons a as ih =>
      obtain ⟨u, hstep, hrest⟩ := Machine.run_cons_eq_some.mp hrun
      obtain ⟨fs, taken', waiting', hfs, hmail, hall, -⟩ := h.step
        (hin a List.mem_cons_self) (hcomplete a List.mem_cons_self)
        (hframed a List.mem_cons_self) hstep
      obtain ⟨gs, taken'', waiting'', hgs, hmail', hall'⟩ := ih hmail
        (fun b hb => hin b (List.mem_cons_of_mem a hb))
        (fun b hb => hcomplete b (List.mem_cons_of_mem a hb))
        (fun b hb => hframed b (List.mem_cons_of_mem a hb)) hrest
      refine ⟨fs ++ gs, taken'', waiting'', ?_, hmail', ?_⟩
      · rw [List.flatMap_cons, List.flatMap_append, hfs, hgs]
      · rw [hall', hall]
        simp only [List.append_assoc]

theorem eq_nil_of_flatMap_write {fs : List Frame} (h : fs.flatMap frame.write = []) : fs = [] := by
  have hle := Codec.length_le_flatMap frame_write_ne_nil fs
  rw [h] at hle
  exact List.eq_nil_of_length_eq_zero (Nat.le_zero.mp hle)

/-- A run in which nothing comes in takes a frame with each loop. -/
theorem Mail.drain {as : List Call} (h : Mail s₀ taken waiting s) (hin : ∀ a ∈ as, a.Within)
    (hcomplete : ∀ a ∈ as, a.Complete) (hnone : ∀ a ∈ as, a.arrived = [])
    (hrun : session.run s as = some s') (hup : s'.client.connected = true) :
    ∃ taken' waiting', Mail s₀ taken' waiting' s' ∧ taken' ++ waiting' = taken ++ waiting ∧
      waiting'.length = waiting.length - (as.map Call.loops).sum := by
  induction as generalizing s taken waiting with
  | nil =>
      obtain rfl := Option.some.inj hrun
      exact ⟨taken, waiting, h, rfl, rfl⟩
  | cons a as ih =>
      obtain ⟨u, hstep, hrest⟩ := Machine.run_cons_eq_some.mp hrun
      have hin' : ∀ b ∈ as, b.Within := fun b hb => hin b (List.mem_cons_of_mem a hb)
      have hcomplete' : ∀ b ∈ as, b.Complete := fun b hb => hcomplete b (List.mem_cons_of_mem a hb)
      have hsilent := hnone a List.mem_cons_self
      obtain ⟨fs, taken', waiting', hfs, hmail, hall, hlen⟩ := h.step
        (hin a List.mem_cons_self) (hcomplete a List.mem_cons_self) ⟨[], hsilent, by simp⟩ hstep
      obtain rfl := eq_nil_of_flatMap_write (hfs.symm.trans hsilent)
      obtain ⟨taken'', waiting'', hmail', hall', hlen'⟩ := ih hmail hin' hcomplete'
        (fun b hb => hnone b (List.mem_cons_of_mem a hb)) hrest
      refine ⟨taken'', waiting'', hmail', ?_, ?_⟩
      · rw [hall', hall, List.append_nil]
      · rw [hlen', hlen (up_of_run hin' hrest hup), List.map_cons, List.sum_cons,
          List.length_nil]
        omega

end Mail

section Runs

variable {s s' : PubSubClient} {as : List Call}

/-- A message comes in, another is published, and a loop takes the first. -/
def mailContoh : List Call :=
  [.arrive [0x32, 7, 0, 2, 97, 98, 0, 5, 7], .publish 1024 2 topicContoh [1, 2] false, .loop 3 4 4]

/-- Frames that wait are all taken by as many loops, whatever is called in between. -/
theorem session_drained {fs : List Frame} (hwait : s.client.incoming = fs.flatMap frame.write)
    (hvalid : ∀ f ∈ fs, Valid f) (hin : ∀ a ∈ as, a.Within)
    (hcomplete : ∀ a ∈ as, a.Complete) (hnone : ∀ a ∈ as, a.arrived = [])
    (hloops : fs.length ≤ (as.map Call.loops).sum) (hrun : session.run s as = some s')
    (hup : s'.client.connected = true) :
    s'.received = s.received ++ fs.flatMap (told s.callback) ∧ s'.client.incoming = [] := by
  have hmail : Mail s [] fs s :=
    ⟨(List.append_nil _).symm, ⟨[], (List.append_nil _).symm, by simp, rfl⟩, rfl, hvalid,
      fun _ => hwait⟩
  obtain ⟨taken, waiting, hend, hall, hlen⟩ := hmail.drain hin hcomplete hnone hrun hup
  have hnil : waiting = [] := List.eq_nil_of_length_eq_zero (by omega)
  rw [hnil, List.append_nil, List.nil_append] at hall
  rw [hnil] at hend
  rw [← hall]
  exact ⟨hend.received, hend.incoming hup⟩

end Runs

end PubSubClient

end EmsGateway.Mqtt
