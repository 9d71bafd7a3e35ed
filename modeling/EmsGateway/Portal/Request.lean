import Mathlib.Algebra.Order.Ring.Nat
import EmsGateway.Library.Utf8
import EmsGateway.Portal.Arguments

/-!
A request as `_parseRequest` of WebServer reads it from its client, up to the arguments that the
handlers ask for. A form in parts is read by `_parseForm`, which is a parameter.
-/

namespace EmsGateway.Portal

open Library.Utf8 (bytes)

/-! ### The client -/

/-- What a client sends in time: what is available, and the bytes that come later. -/
structure Client where
  here : Str
  later : List Str

namespace Client

/-- All that a client sends. -/
def text (client : Client) : Str := client.here ++ client.later.flatten

def readUntil (terminator : UInt8) : Str → List Str → Str × Client
  | here, [] => (here.takeWhile (· ≠ terminator), ⟨(here.dropWhile (· ≠ terminator)).tail, []⟩)
  | here, next :: later =>
      if terminator ∈ here then
        (here.takeWhile (· ≠ terminator),
          ⟨(here.dropWhile (· ≠ terminator)).tail, next :: later⟩)
      else
        let line := readUntil terminator next later
        (here ++ line.1, line.2)

/-- `readStringUntil`, which takes the terminator too. -/
def readStringUntil (client : Client) (terminator : UInt8) : Str × Client :=
  readUntil terminator client.here client.later

/-- Parsing.cpp, lines 37-62: whatever is available, until it is enough. -/
def readBytes (maxLength : ℕ) : ℕ → Str → List Str → Str
  | dataLength, here, [] => if dataLength < maxLength then here else []
  | dataLength, here, next :: later =>
      if dataLength < maxLength then
        here ++ readBytes maxLength (dataLength + here.length) next later
      else []

def readBytesWithTimeout (client : Client) (maxLength : ℕ) : Str :=
  readBytes maxLength 0 client.here client.later

variable {client : Client} {terminator : UInt8}

theorem readUntil_spec (here : Str) (later : List Str) :
    (readUntil terminator here later).1 = (here ++ later.flatten).takeWhile (· ≠ terminator) ∧
      (readUntil terminator here later).2.text =
        ((here ++ later.flatten).dropWhile (· ≠ terminator)).tail := by
  induction later generalizing here with
  | nil =>
      rw [readUntil, text, List.flatten_nil, List.append_nil, List.append_nil]
      exact ⟨rfl, rfl⟩
  | cons next later ih =>
      rw [readUntil, List.flatten_cons]
      by_cases hmem : terminator ∈ here
      · obtain ⟨line, rest, rfl, hline⟩ := List.eq_append_cons_of_mem hmem
        rw [if_pos hmem, text, List.append_assoc, List.cons_append, takeWhile_line hline,
          takeWhile_line hline, dropWhile_line hline, dropWhile_line hline]
        exact ⟨rfl, rfl⟩
      · rw [if_neg hmem, takeWhile_append hmem, dropWhile_append hmem]
        exact ⟨congrArg (here ++ ·) (ih next).1, (ih next).2⟩

/-- A line is read up to its terminator, however it comes in. -/
theorem readStringUntil_eq {line rest : Str} (h : client.text = line ++ terminator :: rest)
    (hline : terminator ∉ line) :
    (client.readStringUntil terminator).1 = line ∧
      (client.readStringUntil terminator).2.text = rest := by
  obtain ⟨hfirst, hrest⟩ := @readUntil_spec terminator client.here client.later
  rw [← text, h] at hfirst hrest
  rw [takeWhile_line hline] at hfirst
  rw [dropWhile_line hline] at hrest
  exact ⟨hfirst, hrest⟩

end Client

/-! ### Headers -/

/-- `isspace` -/
def isspace (c : UInt8) : Bool := c = 0x20 ∨ (0x09 ≤ c ∧ c ≤ 0x0D)

def toLower (c : UInt8) : UInt8 := if 0x41 ≤ c ∧ c ≤ 0x5A then c + 0x20 else c

namespace Str

def equalsIgnoreCase (s t : Str) : Bool := s.map toLower = t.map toLower

def startsWith (s t : Str) : Bool := t.isPrefixOf s

def trim (s : Str) : Str := ((s.dropWhile isspace).reverse.dropWhile isspace).reverse

/-- The value of the digits a text begins with. -/
def digits (s : Str) : ℕ :=
  (s.takeWhile fun c => 0x30 ≤ c ∧ c ≤ 0x39).foldl (fun n c => 10 * n + (c.toNat - 0x30)) 0

/-- `toInt()` as an `uint32_t`: `atol` stops at the bounds of a `long`. -/
def toInt (s : Str) : ℕ :=
  let s := s.dropWhile isspace
  if s.head? = some 0x2D then (2 ^ 32 - min (2 ^ 31) (digits s.tail)) % 2 ^ 32
  else min (2 ^ 31 - 1) (digits (if s.head? = some 0x2B then s.tail else s))

end Str

/-- The header lines, each with the place of its colon, at most so many. The loop ends at an
empty line and at one without a colon. -/
def readHeaders : ℕ → Client → List (Str × ℕ) × Client
  | 0, client => ([], client)
  | k + 1, client =>
      let (req, client) := client.readStringUntil 0x0D
      let client := (client.readStringUntil 0x0A).2
      if req.cut = [] then ([], client)
      else
        match req.indexOf 0x3A 0 with
        | none => ([], client)
        | some headerDiv =>
            let (lines, client) := readHeaders k client
            ((req, headerDiv) :: lines, client)

/-- What a request with a body takes from its headers. -/
structure BodyHeaders where
  boundaryStr : Str := []
  isForm : Bool := false
  isEncoded : Bool := false
  contentLength : ℕ := 0
  hostHeader : Str

/-- Parsing.cpp, lines 149-175. -/
def bodyHeader (h : BodyHeaders) (line : Str × ℕ) : BodyHeaders :=
  let headerName := line.1.substring 0 line.2
  let headerValue := (line.1.substring (line.2 + 1) line.1.length).trim
  if headerName.equalsIgnoreCase (bytes "Content-Type") then
    if headerValue.startsWith (bytes "text/plain") then { h with isForm := false }
    else if headerValue.startsWith (bytes "application/x-www-form-urlencoded") then
      { h with isForm := false, isEncoded := true }
    else if headerValue.startsWith (bytes "multipart/") then
      { h with
        boundaryStr := headerValue.substring
          (((headerValue.indexOf 0x3D 0).map (· + 1)).getD 0) headerValue.length
        isForm := true }
    else h
  else if headerName.equalsIgnoreCase (bytes "Content-Length") then
    { h with contentLength := headerValue.toInt }
  else if headerName.equalsIgnoreCase (bytes "Host") then { h with hostHeader := headerValue }
  else h

/-- Parsing.cpp, lines 229-242. -/
def plainHeader (hostHeader : Str) (line : Str × ℕ) : Str :=
  if (line.1.substring 0 line.2).equalsIgnoreCase (bytes "Host") then
    line.1.substring (line.2 + 2) line.1.length
  else hostHeader

/-! ### The request -/

inductive Method where
  | get | post | put | patch | delete | options
  deriving DecidableEq

def methodOf (methodStr : Str) : Method :=
  if methodStr = bytes "POST" then .post
  else if methodStr = bytes "DELETE" then .delete
  else if methodStr = bytes "OPTIONS" then .options
  else if methodStr = bytes "PUT" then .put
  else if methodStr = bytes "PATCH" then .patch
  else .get

def Method.hasBody : Method → Bool
  | .post | .put | .patch | .delete => true
  | .get | .options => false

/-- What the server keeps of a request. -/
structure Http where
  currentMethod : Method := .get
  currentUri : Str := []
  currentArgs : List RequestArgument := []
  hostHeader : Str := []
  deriving DecidableEq

/-- How `_parseForm` goes on from a client, with a boundary, a length and the arguments so far. -/
abbrev ParseForm := Client → Str → ℕ → List RequestArgument → Bool × List RequestArgument

variable (parseForm : ParseForm)

/-- Parsing.cpp, lines 178-216. A body of no length leaves the arguments as they were. -/
def parseBody (http : Http) (h : BodyHeaders) (searchStr : Str) (client : Client) : Bool × Http :=
  let http := { http with hostHeader := h.hostHeader }
  if h.isForm then
    let form := parseForm client h.boundaryStr h.contentLength (parseArguments searchStr)
    (form.1, { http with currentArgs := form.2 })
  else
    let plainBuf := client.readBytesWithTimeout h.contentLength
    if plainBuf.length < h.contentLength then (false, http)
    else if 0 < h.contentLength then
      let searchStr := if searchStr.cut ≠ [] then searchStr ++ [0x26] else searchStr
      if h.isEncoded then
        let searchStr := searchStr ++ (urlDecode plainBuf.cut).cut
        (true, { http with currentArgs := parseArguments searchStr })
      else
        let plain := ⟨bytes "plain", plainBuf.cut⟩
        (true, { http with currentArgs := parseArguments searchStr ++ [plain] })
    else (true, http)

/-- Parsing.cpp, lines 91-96: the path and the arguments behind it, decoded. -/
def splitUrl (url : Str) : Str × Str :=
  match url.indexOf 0x3F 0 with
  | none => (url, [])
  | some hasSearch =>
      (url.substring 0 hasSearch, urlDecode (url.substring (hasSearch + 1) url.length))

def parseRequest (http : Http) (client : Client) : Bool × Http :=
  let (req, client) := client.readStringUntil 0x0D
  let client := (client.readStringUntil 0x0A).2
  match req.indexOf 0x20 0 with
  | none => (false, http)
  | some addrStart =>
      match req.indexOf 0x20 (addrStart + 1) with
      | none => (false, http)
      | some addrEnd =>
          let (url, searchStr) := splitUrl (req.substring (addrStart + 1) addrEnd)
          let method := methodOf (req.substring 0 addrStart)
          let http := { http with currentUri := url, currentMethod := method }
          let (lines, client) := readHeaders (client.text.length + 1) client
          if method.hasBody then
            parseBody parseForm http (lines.foldl bodyHeader { hostHeader := http.hostHeader })
              searchStr client
          else
            (true, { http with
              hostHeader := lines.foldl plainHeader http.hostHeader
              currentArgs := parseArguments searchStr })

/-! ### Reading the first line -/

section FirstLine

variable {part rest : Str} {c : UInt8}

theorem indexOf_zero_eq_none (hzero : 0 ∉ rest) (hc : c ∉ rest) : rest.indexOf c 0 = none :=
  @indexOf_eq_none _ [] _ _ (cut_eq_self hzero) hc

theorem indexOf_zero_eq_some (hzero : 0 ∉ part ++ c :: rest) (hc : c ∉ part) :
    Str.indexOf (part ++ c :: rest) c 0 = some part.length := by
  have h := @indexOf_eq_some _ [] _ _ _ (cut_eq_self hzero) hc
  rwa [List.length_nil, Nat.zero_add] at h

theorem substring_zero (hzero : 0 ∉ part ++ rest) :
    Str.substring (part ++ rest) 0 part.length = part := by
  have h := @substring_part _ [] _ _ (cut_eq_self hzero)
  rwa [List.length_nil, Nat.zero_add] at h

/-- A text behind a byte of it. -/
theorem cut_behind (hzero : 0 ∉ part ++ c :: rest) :
    Str.cut (part ++ c :: rest) = (part ++ [c]) ++ rest := by
  rw [cut_eq_self hzero, List.append_assoc, List.singleton_append]

theorem length_behind : (part ++ [c]).length = part.length + 1 := by
  rw [List.length_append, List.length_singleton]

theorem splitUrl_path (hzero : 0 ∉ rest) (hmark : 0x3F ∉ rest) : splitUrl rest = (rest, []) := by
  rw [splitUrl, indexOf_zero_eq_none hzero hmark]

theorem splitUrl_query (hzero : 0 ∉ part ++ 0x3F :: rest) (hmark : 0x3F ∉ part) :
    splitUrl (part ++ 0x3F :: rest) = (part, urlDecode rest) := by
  have hrest := substring_rest (cut_behind hzero)
  rw [length_behind] at hrest
  rw [splitUrl, indexOf_zero_eq_some hzero hmark]
  simp only [hrest, substring_zero hzero]

end FirstLine

/-- The first line of a `GET` gives the path and the arguments, whatever the headers are. -/
theorem parseRequest_get {parseForm : ParseForm} {http : Http} {client : Client}
    {url version rest : Str}
    (htext : client.text =
      (bytes "GET" ++ 0x20 :: (url ++ 0x20 :: version)) ++ 0x0D :: rest)
    (hline : 0x0D ∉ bytes "GET" ++ 0x20 :: (url ++ 0x20 :: version))
    (hzero : 0 ∉ bytes "GET" ++ 0x20 :: (url ++ 0x20 :: version)) (hurl : 0x20 ∉ url) :
    ∃ hostHeader, parseRequest parseForm http client =
      (true, ⟨.get, (splitUrl url).1, parseArguments (splitUrl url).2, hostHeader⟩) := by
  have hreq := (client.readStringUntil_eq htext hline).1
  have hget : 0x20 ∉ bytes "GET" := by decide +kernel
  have hend := indexOf_eq_some (cut_behind hzero) hurl
  have hpath := substring_part (cut_behind hzero)
  rw [length_behind] at hend hpath
  rw [parseRequest]
  simp only [hreq, indexOf_zero_eq_some hzero hget, hend, hpath, substring_zero hzero]
  exact ⟨_, rfl⟩

end EmsGateway.Portal
