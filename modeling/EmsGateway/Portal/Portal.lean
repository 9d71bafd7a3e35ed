import EmsGateway.Library.Trace
import EmsGateway.Portal.Form
import EmsGateway.Portal.Request

/-!
The config portal of WiFiManager: the loop of `startConfigPortal` with the clients of WebServer,
the form that is saved and `connectWifi`. What WiFi and the clients do comes in with each round.
-/

namespace EmsGateway.Portal

open Library.Utf8 (bytes)
open Library (Machine)

/-- `HTTPClientStatus` -/
inductive ClientStatus where
  | none | waitRead | waitClose
  deriving DecidableEq

/-- The calls of `WiFi.begin`, with credentials and with those that are stored. -/
inductive Dial where
  | credentials (ssid pass : Str)
  | lastSaved
  deriving DecidableEq

/-- The loop goes on, it has come to its end, or the module restarts. -/
inductive Phase where
  | running | over | restarted
  deriving DecidableEq

structure Settings where
  configPortalTimeout : UInt32 := 0
  shouldBreakAfterConfig : Bool := false
  parseForm : ParseForm

/-- What one round of the loop meets. -/
structure Round where
  now : UInt32
  /-- `_server.available()` has a client -/
  accepted : Bool
  connected : Bool
  /-- what the client sends, and whether it stays when it has its answer -/
  client : Client
  stays : Bool
  /-- `WiFi.status() == WL_CONNECTED` in `connectWifi`, whether `WiFi.SSID()` holds, and whether
  `waitForConnectResult()` is `WL_CONNECTED` -/
  station : Bool
  stored : Bool
  result : Bool

structure State where
  http : Http := {}
  currentStatus : ClientStatus := .none
  statusChange : UInt32 := 0
  configPortalStart : UInt32
  connect : Bool := false
  ssid : Str := []
  pass : Str := []
  dials : List Dial := []
  phase : Phase := .running

variable (cfg : Settings)

def handleWifiSave (s : State) : State :=
  { s with
    ssid := arg s.http.currentArgs (bytes "s")
    pass := arg s.http.currentArgs (bytes "p")
    connect := true }

/-- `_handleRequest`, with the handlers that do more than send a page. -/
def handleRequest (s : State) : State :=
  let s :=
    if s.http.currentUri = bytes "/wifisave" then handleWifiSave s
    else if s.http.currentUri = bytes "/r" then { s with phase := .restarted }
    else s
  { s with http := { s.http with currentUri := [] } }

/-- A request that has come in, from `_parseRequest` on. -/
def answer (s : State) (r : Round) : State :=
  let request := parseRequest cfg.parseForm s.http r.client
  let s := { s with http := request.2 }
  if request.1 then
    let s := handleRequest s
    if r.stays then { s with currentStatus := .waitClose, statusChange := r.now }
    else { s with currentStatus := .none }
  else { s with currentStatus := .none }

/-- The first lines of `handleClient`, which take a new client. -/
def takeClient (s : State) (r : Round) : State :=
  if s.currentStatus = .none ∧ r.accepted then
    { s with currentStatus := .waitRead, statusChange := r.now }
  else s

/-- The rest of `handleClient`. -/
def serve (s : State) (r : Round) : State :=
  match s.currentStatus with
  | .none => s
  | .waitRead =>
      if ¬ r.connected then { s with currentStatus := .none }
      else if r.client.here = [] then
        if r.now - s.statusChange > 1000 then { s with currentStatus := .none } else s
      else answer cfg s r
  | .waitClose =>
      if ¬ r.connected ∨ r.now - s.statusChange > 2000 then { s with currentStatus := .none }
      else s

def handleClient (s : State) (r : Round) : State := serve cfg (takeClient s r) r

/-- `connectWifi(_ssid, _pass)`, and whether it ends with `WL_CONNECTED`. -/
def connectWifi (s : State) (r : Round) : State × Bool :=
  if r.station then (s, true)
  else if s.ssid ≠ [] then
    ({ s with dials := s.dials ++ [.credentials s.ssid s.pass] }, r.result)
  else if r.stored then ({ s with dials := s.dials ++ [.lastSaved] }, r.result)
  else (s, r.result)

def configPortalHasTimeout (s : State) (r : Round) : State × Bool :=
  if cfg.configPortalTimeout = 0 then ({ s with configPortalStart := r.now }, false)
  else (s, r.now > s.configPortalStart + cfg.configPortalTimeout)

/-- What the loop does of a form that has been saved. -/
def connectStep (s : State) (r : Round) : State :=
  if s.phase = .running ∧ s.connect then
    let (s, connected) := connectWifi { s with connect := false } r
    if connected ∨ cfg.shouldBreakAfterConfig then { s with phase := .over } else s
  else s

/-- One round of the loop. -/
def round (s : State) (r : Round) : Option State :=
  if s.phase ≠ .running then none
  else
    let (s, timeout) := configPortalHasTimeout cfg s r
    if timeout then some { s with phase := .over }
    else some (connectStep cfg (handleClient cfg s r) r)

/-- `startConfigPortal` -/
def startConfigPortal : Machine State Round := ⟨round cfg⟩

/-- The portal when its loop begins, with the credentials that were typed last. -/
def setupConfigPortal (now : UInt32) (ssid pass : Str) : State where
  configPortalStart := now
  ssid := ssid
  pass := pass

/-! ### Pages -/

/-- A page that a browser asks for, with the fields of the form that is sent with it. -/
structure Page where
  path : Str
  fields : List RequestArgument
  version : Str
  headers : Str
  path_clean : ∀ c ∈ path, Clean c ∧ c ≠ 0x3F
  version_clean : ∀ c ∈ version, c ≠ 0 ∧ c ≠ 0x0D

namespace Page

variable (page : Page)

def url : Str :=
  if page.fields = [] then page.path else page.path ++ 0x3F :: formEncode page.fields

def line : Str := bytes "GET" ++ 0x20 :: (page.url ++ 0x20 :: page.version)

/-- The bytes of the request. -/
def text : Str := page.line ++ 0x0D :: page.headers

/-- What is typed in a field. -/
def field (name : String) : Str := arg page.fields (bytes name)

variable {page}

theorem url_clean : ∀ c ∈ page.url, Clean c := by
  have hpath : ∀ c ∈ page.path, Clean c := fun c hc => (page.path_clean c hc).1
  rw [url]
  split
  · exact hpath
  · rw [List.forall_mem_append, List.forall_mem_cons]
    exact ⟨hpath, by decide, clean_formEncode page.fields⟩

theorem line_clean : ∀ c ∈ page.line, c ≠ 0 ∧ c ≠ 0x0D := by
  rw [line, List.forall_mem_append, List.forall_mem_cons, List.forall_mem_append,
    List.forall_mem_cons]
  refine ⟨by decide +kernel, by decide, ?_, by decide, page.version_clean⟩
  intro c hc
  exact ⟨(url_clean c hc).1, (url_clean c hc).2.1⟩

theorem splitUrl_url :
    splitUrl page.url = (page.path, urlDecode (formEncode page.fields)) := by
  have hmark : 0x3F ∉ page.path := fun h => (page.path_clean _ h).2 rfl
  have hzero : 0 ∉ page.url := fun h => (url_clean _ h).1 rfl
  rw [url] at hzero ⊢
  split at hzero
  case isTrue hnil =>
    rw [if_pos hnil, splitUrl_path hzero hmark, hnil]
    rfl
  case isFalse hne => rw [if_neg hne, splitUrl_query hzero hmark]

/-- A page is read with its fields as they were typed. -/
theorem parseRequest_text {parseForm : ParseForm} {http : Http} {client : Client}
    (htext : client.text = page.text) (hplain : ∀ a ∈ page.fields, Plain a) :
    ∃ hostHeader, parseRequest parseForm http client =
      (true, ⟨.get, page.path, page.fields, hostHeader⟩) := by
  have hline : 0x0D ∉ page.line := fun h => (line_clean _ h).2 rfl
  have hzero : 0 ∉ page.line := fun h => (line_clean _ h).1 rfl
  have hurl : 0x20 ∉ page.url := fun h => (url_clean _ h).2.2 rfl
  have hparse := @parseRequest_get parseForm http _ _ _ _ htext hline hzero hurl
  rwa [splitUrl_url, (form_read_iff page.fields).mpr hplain] at hparse

end Page

/-! ### What a round does -/

section Round

variable {cfg} {page : Round → Page} {s t : State} {r : Round}

/-- A request is answered in this round. -/
def Answers (s : State) (r : Round) : Prop :=
  (s.currentStatus = .none ∧ r.accepted ∨ s.currentStatus = .waitRead) ∧ r.connected ∧
    r.client.here ≠ []

instance (s : State) (r : Round) : Decidable (Answers s r) := inferInstanceAs (Decidable (_ ∧ _))

/-- What is available is the page that the browser asks for, and no field of it has a separator
in it. -/
def Browses (page : Round → Page) (r : Round) : Prop :=
  r.client.here ≠ [] → r.client.text = (page r).text ∧ ∀ a ∈ (page r).fields, Plain a

theorem answers_iff : Answers s r ↔
    (takeClient s r).currentStatus = .waitRead ∧ r.connected ∧ r.client.here ≠ [] := by
  rw [Answers, takeClient]
  by_cases hnew : s.currentStatus = .none ∧ r.accepted
  · rw [if_pos hnew]
    simp [hnew]
  · rw [if_neg hnew]
    simp [hnew]

/-- Neither the form nor the calls change. -/
structure Kept (s t : State) : Prop where
  connect : t.connect = s.connect
  ssid : t.ssid = s.ssid
  pass : t.pass = s.pass
  dials : t.dials = s.dials
  phase : t.phase = s.phase

theorem Kept.refl (s : State) : Kept s s := ⟨rfl, rfl, rfl, rfl, rfl⟩

theorem Kept.trans {u : State} (h : Kept s t) (h' : Kept t u) : Kept s u where
  connect := h'.connect.trans h.connect
  ssid := h'.ssid.trans h.ssid
  pass := h'.pass.trans h.pass
  dials := h'.dials.trans h.dials
  phase := h'.phase.trans h.phase

theorem kept_status (s : State) (status : ClientStatus) (change : UInt32) :
    Kept s { s with currentStatus := status, statusChange := change } :=
  ⟨rfl, rfl, rfl, rfl, rfl⟩

theorem takeClient_kept (s : State) (r : Round) : Kept s (takeClient s r) := by
  rw [takeClient]
  split
  · exact kept_status ..
  · exact .refl s

theorem configPortalHasTimeout_kept (cfg : Settings) (s : State) (r : Round) :
    Kept s (configPortalHasTimeout cfg s r).1 := by
  rw [configPortalHasTimeout]
  split
  · exact ⟨rfl, rfl, rfl, rfl, rfl⟩
  · exact .refl s

theorem answers_hasTimeout (cfg : Settings) (s : State) (r : Round) :
    Answers (configPortalHasTimeout cfg s r).1 r ↔ Answers s r := by
  rw [configPortalHasTimeout]
  split
  · rfl
  · rfl

theorem handleClient_of_answers (h : Answers s r) :
    handleClient cfg s r = answer cfg (takeClient s r) r := by
  obtain ⟨hstatus, hconnected, hhere⟩ := answers_iff.mp h
  rw [handleClient, serve, hstatus]
  simp [hconnected, hhere]

/-- Without an answer only the status of the client changes. -/
theorem handleClient_of_not (h : ¬Answers s r) : Kept s (handleClient cfg s r) := by
  rw [answers_iff] at h
  refine (takeClient_kept s r).trans ?_
  rw [handleClient, serve]
  split
  · exact .refl _
  case h_2 hstatus =>
    simp only [hstatus, true_and, not_and] at h
    split
    · exact kept_status ..
    case isFalse hconnected =>
      rw [if_pos (not_not.mp (h (not_not.mp hconnected)))]
      split
      · exact kept_status ..
      · exact .refl _
  · split
    · exact kept_status ..
    · exact .refl _

/-- The form of `/wifisave` is kept as it was typed, and the loop is told. -/
theorem answer_save (htext : r.client.text = (page r).text)
    (hplain : ∀ a ∈ (page r).fields, Plain a) (hpath : (page r).path = bytes "/wifisave")
    (ht : answer cfg s r = t) :
    t.connect = true ∧ t.ssid = (page r).field "s" ∧ t.pass = (page r).field "p" ∧
      t.dials = s.dials ∧ t.phase = s.phase := by
  obtain ⟨hostHeader, hparse⟩ := @Page.parseRequest_text _ cfg.parseForm s.http _ htext hplain
  rw [answer, hparse, handleRequest] at ht
  simp only [if_true, hpath] at ht
  subst ht
  split
  · exact ⟨rfl, rfl, rfl, rfl, rfl⟩
  · exact ⟨rfl, rfl, rfl, rfl, rfl⟩

theorem answer_other (htext : r.client.text = (page r).text)
    (hplain : ∀ a ∈ (page r).fields, Plain a) (hpath : (page r).path ≠ bytes "/wifisave")
    (ht : answer cfg s r = t) :
    t.connect = s.connect ∧ t.dials = s.dials ∧ (t.phase = .running → s.phase = .running) := by
  obtain ⟨hostHeader, hparse⟩ := @Page.parseRequest_text _ cfg.parseForm s.http _ htext hplain
  rw [answer, hparse, handleRequest] at ht
  simp only [if_true, if_neg hpath] at ht
  subst ht
  -- the restart is the one other handler that leaves a trace
  by_cases hreset : (page r).path = bytes "/r"
  · simp only [if_pos hreset]
    split
    · exact ⟨rfl, rfl, by rintro ⟨⟩⟩
    · exact ⟨rfl, rfl, by rintro ⟨⟩⟩
  · simp only [if_neg hreset]
    split
    · exact ⟨rfl, rfl, id⟩
    · exact ⟨rfl, rfl, id⟩

end Round

/-! ### What the portal dials -/

section Dials

variable {cfg} {page : Round → Page} {s t : State} {r : Round}

/-- The round saves a form. -/
def savedForm (cfg : Settings) (page : Round → Page) (s : State) (r : Round) : Option Round :=
  if ¬(configPortalHasTimeout cfg s r).2 ∧ Answers s r ∧ (page r).path = bytes "/wifisave" then
    some r
  else none

/-- What is dialled for a form that is saved: nothing when the station is connected already. -/
def dialled (page : Round → Page) (r : Round) : List Dial :=
  if r.station then []
  else if (page r).field "s" ≠ [] then
    [.credentials ((page r).field "s") ((page r).field "p")]
  else if r.stored then [.lastSaved]
  else []

/-- The forms saved so far have been dialled, and the loop goes on only where none has connected. -/
structure Dialled (cfg : Settings) (page : Round → Page) (s : State) (saved : List Round) :
    Prop where
  connect : s.connect = false
  dials : s.dials = saved.flatMap (dialled page)
  failed : s.phase = .running →
    ∀ r ∈ saved, r.station = false ∧ r.result = false ∧ cfg.shouldBreakAfterConfig = false

theorem connectWifi_eq (hssid : s.ssid = (page r).field "s")
    (hpass : s.pass = (page r).field "p") :
    connectWifi s r = ({ s with dials := s.dials ++ dialled page r }, r.station || r.result) := by
  rw [connectWifi, dialled, ← hssid, ← hpass]
  by_cases hstation : r.station
  · rw [if_pos hstation, if_pos hstation, List.append_nil, hstation, Bool.true_or]
  · rw [if_neg hstation, if_neg hstation, eq_false_of_ne_true hstation, Bool.false_or]
    split
    · rfl
    split
    · rfl
    · rw [List.append_nil]

/-- A form that is saved is dialled in the same round. -/
theorem connectStep_save (hphase : s.phase = .running) (hconnect : s.connect = true)
    (hssid : s.ssid = (page r).field "s") (hpass : s.pass = (page r).field "p")
    (ht : connectStep cfg s r = t) :
    t.connect = false ∧ t.dials = s.dials ++ dialled page r ∧ (t.phase = .running →
      r.station = false ∧ r.result = false ∧ cfg.shouldBreakAfterConfig = false) := by
  have hwifi := @connectWifi_eq page { s with connect := false } r hssid hpass
  rw [connectStep, if_pos ⟨hphase, hconnect⟩] at ht
  simp only [hwifi] at ht
  subst ht
  split
  case isTrue h => exact ⟨rfl, rfl, by rintro ⟨⟩⟩
  case isFalse h =>
    rw [not_or, Bool.not_eq_true, Bool.not_eq_true, Bool.or_eq_false_iff] at h
    exact ⟨rfl, rfl, fun _ => ⟨h.1.1, h.1.2, h.2⟩⟩

theorem connectStep_of_not (hconnect : s.connect = false) : connectStep cfg s r = s := by
  rw [connectStep, if_neg (by simp [hconnect])]

/-- The rounds that save no form. -/
theorem Dialled.of_eq {saved : List Round} (hs : Dialled cfg page s saved)
    (hconnect : t.connect = s.connect) (hdials : t.dials = s.dials)
    (hphase : t.phase = .running → s.phase = .running) : Dialled cfg page t saved where
  connect := hconnect.trans hs.connect
  dials := hdials.trans hs.dials
  failed h := hs.failed (hphase h)

theorem round_dialled {saved : List Round} (hbrowses : Browses page r)
    (hs : Dialled cfg page s saved) (hstep : round cfg s r = some t) :
    Dialled cfg page t (saved ++ (savedForm cfg page s r).toList) := by
  have hkept := configPortalHasTimeout_kept cfg s r
  have hanswers := answers_hasTimeout cfg s r
  rw [round] at hstep
  rw [savedForm]
  split at hstep
  · exact absurd hstep.symm (Option.some_ne_none t)
  case isFalse hphase =>
  rw [not_not] at hphase
  generalize configPortalHasTimeout cfg s r = timed at hstep hkept hanswers ⊢
  simp only at hstep
  split at hstep
  case isTrue htimeout =>
    obtain rfl := Option.some.inj hstep
    rw [if_neg (by simp [htimeout]), Option.toList_none, List.append_nil]
    exact hs.of_eq hkept.connect hkept.dials (by rintro ⟨⟩)
  case isFalse htimeout =>
  obtain rfl := Option.some.inj hstep
  by_cases hrequest : Answers s r
  · obtain ⟨htext, hplain⟩ := hbrowses hrequest.2.2
    have htake := hkept.trans (takeClient_kept timed.1 r)
    rw [handleClient_of_answers (hanswers.mpr hrequest)]
    by_cases hpath : (page r).path = bytes "/wifisave"
    · obtain ⟨hconnect, hssid, hpass, hdials, hrunning⟩ :=
        @answer_save cfg page (takeClient timed.1 r) _ r htext hplain hpath rfl
      obtain ⟨hdone, hdialled, hfailed⟩ := @connectStep_save cfg page _ _ r
        (hrunning.trans (htake.phase.trans hphase)) hconnect hssid hpass rfl
      rw [if_pos ⟨htimeout, hrequest, hpath⟩, Option.toList_some]
      refine ⟨hdone, ?_, ?_⟩
      · rw [hdialled, hdials, htake.dials, hs.dials, List.flatMap_append,
          List.flatMap_singleton]
      · intro hgoes
        rw [List.forall_mem_append, List.forall_mem_singleton]
        exact ⟨hs.failed hphase, hfailed hgoes⟩
    · obtain ⟨hconnect, hdials, hrunning⟩ :=
        @answer_other cfg page (takeClient timed.1 r) _ r htext hplain hpath rfl
      rw [if_neg (fun h => hpath h.2.2),
        connectStep_of_not (hconnect.trans (htake.connect.trans hs.connect)),
        Option.toList_none, List.append_nil]
      exact hs.of_eq (hconnect.trans htake.connect) (hdials.trans htake.dials)
        (fun h => htake.phase ▸ hrunning h)
  · have hclient := hkept.trans (@handleClient_of_not cfg _ r (hrequest ∘ hanswers.mp))
    rw [if_neg (fun h => hrequest h.2.1), connectStep_of_not (hclient.connect.trans hs.connect),
      Option.toList_none, List.append_nil]
    exact hs.of_eq hclient.connect hclient.dials (fun h => hclient.phase ▸ h)

/-- In every run of the portal over what browsers ask for, the calls of `WiFi.begin` are those of
the saved forms, in their order and with the credentials that were typed, and a portal that goes on
has connected with none of them. -/
theorem portal_dials {now : UInt32} {ssid pass : Str} {rounds : List Round}
    (hbrowses : ∀ r ∈ rounds, Browses page r)
    (hrun : (startConfigPortal cfg).run (setupConfigPortal now ssid pass) rounds = some t) :
    Dialled cfg page t
      ((startConfigPortal cfg).trace (savedForm cfg page) (setupConfigPortal now ssid pass)
        rounds) := by
  have hstart : Dialled cfg page (setupConfigPortal now ssid pass) [] :=
    ⟨rfl, rfl, fun _ => List.forall_mem_nil _⟩
  apply Machine.run_trace_invariant_of (I := Dialled cfg page) _ hbrowses hstart hrun
  intro s saved r t hs hr hstep
  exact round_dialled hr hs hstep

/-- The form of the config page, with a name and a password typed in. -/
def formContoh : Page where
  path := bytes "/wifisave"
  fields := [⟨bytes "s", bytes "PV 2"⟩, ⟨bytes "p", bytes "a+b=100%"⟩]
  version := bytes "HTTP/1.1"
  headers := bytes "\nHost: 192.168.4.1\r\n\r\n"
  path_clean := by decide +kernel
  version_clean := by decide +kernel

/-- The form comes in two pieces, and the network takes the password. -/
def roundContoh : Round where
  now := 5000
  accepted := true
  connected := true
  client := ⟨formContoh.text.take 20, [formContoh.text.drop 20]⟩
  stays := true
  station := false
  stored := false
  result := true

def settingsContoh : Settings where
  parseForm _ _ _ args := (false, args)

theorem portal_dials_contoh :
    ∃ t, (startConfigPortal settingsContoh).run (setupConfigPortal 0 [] []) [roundContoh] =
        some t ∧
      t.dials = [.credentials (bytes "PV 2") (bytes "a+b=100%")] ∧
      Dialled settingsContoh (fun _ => formContoh) t
        ((startConfigPortal settingsContoh).trace (savedForm settingsContoh fun _ => formContoh)
          (setupConfigPortal 0 [] []) [roundContoh]) := by
  have hsome : ((startConfigPortal settingsContoh).run (setupConfigPortal 0 [] [])
      [roundContoh]).map (fun t => t.dials) =
        some [.credentials (bytes "PV 2") (bytes "a+b=100%")] := by decide +kernel
  obtain ⟨t, hrun, hdials⟩ := Option.map_eq_some_iff.mp hsome
  have hbrowses : ∀ r ∈ [roundContoh], Browses (fun _ => formContoh) r := by
    rw [List.forall_mem_singleton]
    intro _
    exact ⟨by decide +kernel, by decide +kernel⟩
  exact ⟨t, hrun, hdials, portal_dials hbrowses hrun⟩

end Dials

end EmsGateway.Portal
