import EmsGateway.Mqtt.Sending
import Mathlib.Tactic.Ring

/-!
What the client reads. From whatever comes in `readPacket` takes one packet, if all of
it is there, and leaves as much of it in the buffer as there is room for.
-/

namespace EmsGateway.Mqtt

open EmsGateway.Library

namespace PubSubClient

/-- The next `n` bytes are read into the buffer from the cell `a` on, those beyond
the buffer are dropped. -/
def fill (a n : ℕ) (s : PubSubClient) : PubSubClient :=
  { s with
    client := { s.client with incoming := s.client.incoming.drop n }
    buffer := Buffer.overwrite s.buffer a ((s.client.incoming.take n).take (1024 - a)) }

@[simp] theorem incoming_fill (a n : ℕ) (s : PubSubClient) :
    (s.fill a n).client.incoming = s.client.incoming.drop n := rfl

theorem fill_zero (a : ℕ) (s : PubSubClient) : s.fill a 0 = s := by
  simp [fill]

theorem fill_fill {a i n : ℕ} {s : PubSubClient} (hi : i ≤ s.client.incoming.length) :
    (s.fill a i).fill (a + i) n = s.fill a (i + n) := by
  have hcells : Buffer.overwrite (Buffer.overwrite s.buffer a
        ((s.client.incoming.take i).take (1024 - a))) (a + i)
        (((s.client.incoming.drop i).take n).take (1024 - (a + i))) =
      Buffer.overwrite s.buffer a ((s.client.incoming.take (i + n)).take (1024 - a)) := by
    by_cases hroom : a + i ≤ 1024
    · have hfirst : (s.client.incoming.take i).take (1024 - a) = s.client.incoming.take i := by
        rw [List.take_take, Nat.min_eq_right (by omega)]
      have hlen : (s.client.incoming.take i).length = i := List.length_take_of_le hi
      have hall : (s.client.incoming.take (i + n)).take (1024 - a) =
          s.client.incoming.take i ++
            ((s.client.incoming.drop i).take n).take (1024 - (a + i)) := by
        rw [List.take_add, List.take_append, hlen, hfirst, Nat.sub_sub]
      rw [hall, Buffer.overwrite_append, hlen, hfirst]
    · have hnone : 1024 - (a + i) = 0 := by omega
      have hfirst : (s.client.incoming.take (i + n)).take (1024 - a) =
          (s.client.incoming.take i).take (1024 - a) := by
        rw [List.take_take, List.take_take, Nat.min_eq_left (by omega), Nat.min_eq_left (by omega)]
      rw [hnone, List.take_zero, Buffer.overwrite_nil, hfirst]
  simp only [fill, hcells, List.drop_drop]

/-! ### The parts of readPacket -/

theorem bind_of_some {α β : Type} {x : Reading α} {f : α → Reading β} {s t : PubSubClient} {a : α}
    (h : x s = (some a, t)) : (x >>= f) s = f a t := by
  simp only [bind, h]

theorem bind_of_none {α β : Type} {x : Reading α} (f : α → Reading β) {s t : PubSubClient}
    (h : x s = (none, t)) : (x >>= f) s = (none, t) := by
  simp only [bind, h]

theorem bind_fst_eq_none {α β : Type} {x : Reading α} (f : α → Reading β) {s : PubSubClient}
    (h : (x s).1 = none) : ((x >>= f) s).1 = none := by
  rw [bind_of_none f (Prod.ext h rfl)]

theorem readByte_eq_some {byte : UInt8} {rest : List UInt8} {s : PubSubClient}
    (hin : s.client.incoming = byte :: rest) :
    readByte s = (some byte, { s with client := { s.client with incoming := rest } }) := by
  rw [readByte, hin]

theorem readByte_eq_none {s : PubSubClient} (hin : s.client.incoming = []) :
    readByte s = (none, s) := by
  rw [readByte, hin]

/-- A byte that is read into a cell of the buffer. -/
theorem update_eq_fill {byte : UInt8} {rest : List UInt8} {s : PubSubClient} {a : ℕ}
    (hin : s.client.incoming = byte :: rest) (ha : a < 1024) :
    { s with
      client := { s.client with incoming := rest }
      buffer := Function.update s.buffer a byte } = s.fill a 1 := by
  have htake : ([byte] : List UInt8).take (1024 - a) = [byte] := by
    apply List.take_of_length_le
    rw [List.length_singleton]
    omega
  simp only [fill, hin, List.take_succ_cons, List.take_zero, List.drop_succ_cons, List.drop_zero,
    htake, Buffer.overwrite_singleton]

theorem readByteAt_eq {s : PubSubClient} {len : ℕ} (hin : s.client.incoming ≠ [])
    (hlen : len < 1024) : readByteAt len s = (some (len + 1), s.fill len 1) := by
  obtain ⟨byte, rest, hin⟩ := List.exists_cons_of_ne_nil hin
  have hmod : (len + 1) % 65536 = len + 1 := Nat.mod_eq_of_lt (by omega)
  rw [readByteAt, bind_of_some (readByte_eq_some hin), ← update_eq_fill hin hlen, hmod]
  rfl

theorem readByteAt_eq_none {s : PubSubClient} {len : ℕ} (hin : s.client.incoming = []) :
    (readByteAt len s).1 = none :=
  bind_fst_eq_none _ (congrArg Prod.fst (readByte_eq_none hin))

theorem readByte_setCell {α : Type} {f : UInt8 → Reading α} {byte : UInt8} {rest : List UInt8}
    {s : PubSubClient} {a : ℕ} (hin : s.client.incoming = byte :: rest) (ha : a < 1024) :
    (readByte >>= fun digit => setCell a digit >>= fun _ => f digit) s = f byte (s.fill a 1) := by
  rw [bind_of_some (readByte_eq_some hin), ← update_eq_fill hin ha]
  rfl

set_option maxRecDepth 2000 in
theorem mark_iff : ∀ n < 256, UInt8.ofNat n &&& 128 ≠ 0 ↔ ¬n < 128 := by
  decide

/-- A digit carries seven bits of the length and whether more follow. -/
theorem digit_eq (digit : UInt8) : (digit &&& 127).toNat = digit.toNat % 128 ∧
    (digit &&& 128 ≠ 0 ↔ ¬digit.toNat < 128) := by
  constructor
  · rw [UInt8.toNat_and]
    exact Nat.and_two_pow_sub_one_eq_mod _ 7
  · have hmark := mark_iff digit.toNat digit.toNat_lt
    rwa [UInt8.ofNat_toNat] at hmark

theorem readLength_eq {k length multiplier v j : ℕ} {s : PubSubClient} (hk : k ≤ 4)
    (hdec : Varlen.decode 128 k (s.client.incoming.map UInt8.toNat) = some (v, j)) :
    readLength k length multiplier s =
      (some (5 - k + j, (length + v * multiplier) % 65536), s.fill (5 - k) j) := by
  induction k generalizing length multiplier v j s with
  | zero => simp [Varlen.decode] at hdec
  | succ k ih =>
      cases hin : s.client.incoming with
      | nil => simp [hin, Varlen.decode] at hdec
      | cons digit rest =>
          obtain ⟨hvalue, hmore⟩ := digit_eq digit
          have hcell : 4 - k = 5 - (k + 1) := by omega
          rw [hin, List.map_cons, Varlen.decode] at hdec
          rw [readLength, readByte_setCell hin (by omega), hvalue, hcell]
          split at hdec
          · rename_i hlast
            obtain ⟨rfl, rfl⟩ := Prod.mk.inj (Option.some.inj hdec)
            have hlen : 5 - (k + 1) + 1 = 5 - k := by omega
            rw [if_neg (fun h => hmore.mp h hlast), Nat.mod_eq_of_lt hlast, hlen]
            rfl
          · rename_i hnext
            obtain ⟨⟨w, i⟩, hrest, hpair⟩ := Option.map_eq_some_iff.mp hdec
            obtain ⟨rfl, rfl⟩ := Prod.mk.inj hpair
            rw [if_pos (hmore.mpr hnext)]
            have hstart : 5 - k = 5 - (k + 1) + 1 := by omega
            have hdec' : Varlen.decode 128 k
                ((s.fill (5 - (k + 1)) 1).client.incoming.map UInt8.toNat) = some (w, i) := by
              rw [incoming_fill, hin]
              exact hrest
            have hsum : ((length + digit.toNat % 128 * multiplier) % 65536 +
                w * (multiplier * 128)) % 65536 =
                (length + (digit.toNat % 128 + 128 * w) * multiplier) % 65536 := by
              rw [Nat.mod_add_mod]
              congr 1
              ring
            rw [ih (by omega) hdec', hsum, hstart, fill_fill (by simp [hin]), Nat.add_assoc,
              Nat.add_comm 1 i]

theorem readRest_succ {n len : ℕ} {s : PubSubClient} (hin : s.client.incoming ≠ []) :
    readRest (n + 1) len s = readRest n ((len + 1) % 65536) (s.fill len 1) := by
  obtain ⟨byte, rest, hin⟩ := List.exists_cons_of_ne_nil hin
  rw [readRest, bind_of_some (readByte_eq_some hin)]
  split
  · rename_i hroom
    rw [← update_eq_fill hin hroom]
    rfl
  · rename_i hfull
    have hnone : 1024 - len = 0 := Nat.sub_eq_zero_of_le (Nat.not_lt.mp hfull)
    simp only [fill, hin, hnone, List.take_zero, Buffer.overwrite_nil, List.drop_succ_cons,
      List.drop_zero]

/-- Bytes that are read as long as `len` does not begin again at 0. -/
theorem readRest_eq {n len : ℕ} {s : PubSubClient} (hn : n ≤ s.client.incoming.length)
    (hlt : len < 65536) (hlen : len + n ≤ 65536) :
    readRest n len s = (some ((len + n) % 65536), s.fill len n) := by
  induction n generalizing len s with
  | zero =>
      rw [fill_zero, Nat.add_zero, Nat.mod_eq_of_lt hlt]
      rfl
  | succ n ih =>
      have hpos : 0 < s.client.incoming.length := by omega
      have hrest : n ≤ (s.fill len 1).client.incoming.length := by
        rw [incoming_fill, List.length_drop]
        omega
      rw [readRest_succ (List.ne_nil_of_length_pos hpos), Nat.add_comm n 1, ← Nat.add_assoc,
        ← fill_fill (Nat.succ_le_of_lt hpos)]
      obtain hlast | hmore : len + 1 = 65536 ∨ len + 1 < 65536 := by omega
      · obtain rfl : n = 0 := by omega
        rw [fill_zero]
        rfl
      · rw [Nat.mod_eq_of_lt hmore, ih hrest hmore (by omega)]

theorem readRest_add {n m len len' : ℕ} {s t : PubSubClient}
    (h : readRest n len s = (some len', t)) : readRest (n + m) len s = readRest m len' t := by
  induction n generalizing len s with
  | zero =>
      obtain ⟨hlen, rfl⟩ := Prod.mk.inj h
      rw [Option.some.inj hlen, Nat.zero_add]
  | succ n ih =>
      have hin : s.client.incoming ≠ [] := by
        intro hnil
        rw [readRest, bind_of_none _ (readByte_eq_none hnil)] at h
        cases h
      rw [Nat.add_right_comm, readRest_succ hin]
      rw [readRest_succ hin] at h
      exact ih h

theorem readRest_eq_none {n len : ℕ} {s : PubSubClient} (hn : s.client.incoming.length < n) :
    (readRest n len s).1 = none := by
  induction n generalizing len s with
  | zero => exact absurd hn (Nat.not_lt_zero _)
  | succ n ih =>
      by_cases hin : s.client.incoming = []
      · rw [readRest, bind_of_none _ (readByte_eq_none hin)]
      · rw [readRest_succ hin]
        apply ih
        have hpos := List.length_pos_iff.mpr hin
        rw [incoming_fill, List.length_drop]
        omega

theorem readLength_eq_none {k length multiplier : ℕ} {s : PubSubClient}
    (hdec : Varlen.decode 128 k (s.client.incoming.map UInt8.toNat) = none) :
    (readLength k length multiplier s).1 = none := by
  induction k generalizing length multiplier s with
  | zero => rfl
  | succ k ih =>
      cases hin : s.client.incoming with
      | nil => rw [readLength, bind_of_none _ (readByte_eq_none hin)]
      | cons digit rest =>
          obtain ⟨-, hmore⟩ := digit_eq digit
          rw [hin, List.map_cons, Varlen.decode] at hdec
          rw [readLength, readByte_setCell hin (by omega)]
          split at hdec
          · cases hdec
          · rename_i hnext
            rw [if_pos (hmore.mpr hnext)]
            apply ih
            rw [incoming_fill, hin]
            exact Option.map_eq_none_iff.mp hdec

/-! ### One packet -/

/-- A packet as `readPacket` takes it. -/
structure Taken where
  /-- how many digits its length has -/
  llen : ℕ
  /-- how many bytes it has -/
  size : ℕ
  /-- what stands at the front of the buffer then -/
  cells : List UInt8

/-- `len`, which has 16 bits -/
def Taken.len (p : Taken) : ℕ := p.size % 65536

/-- The cells of so many bytes. Those from the 65536-th on are read into the first cells
again. -/
def cells (bytes : List UInt8) : List UInt8 :=
  bytes.drop 65536 ++ (bytes.take 1024).drop (bytes.length - 65536)

/-- The packet at the front of what comes in, when all of it is there: a header, a length
of at most four digits of which 16 bits count, and as many bytes, two at least if it is a
message. -/
def taken : List UInt8 → Option Taken
  | [] => none
  | header :: bytes =>
      (Varlen.decode 128 4 (bytes.map UInt8.toNat)).bind fun (v, llen) =>
        let least := if header &&& 0xF0 = MQTTPUBLISH then 2 else 0
        let size := 1 + llen + max least (v % 65536)
        if size ≤ bytes.length + 1 then some ⟨llen, size, cells ((header :: bytes).take size)⟩
        else none

/-- The client after such a packet was read. -/
def holding (p : Taken) (s : PubSubClient) : PubSubClient :=
  { s with
    client := { s.client with incoming := s.client.incoming.drop p.size }
    buffer := Buffer.overwrite s.buffer 0 p.cells }

theorem cells_of_lt {bytes : List UInt8} (h : bytes.length < 65536) :
    cells bytes = bytes.take 1024 := by
  rw [cells, List.drop_of_length_le (Nat.le_of_lt h), List.nil_append,
    Nat.sub_eq_zero_of_le (Nat.le_of_lt h), List.drop_zero]

/-- What `len` beginning again at 0 leaves in the buffer. -/
theorem fill_wrap {m : ℕ} {s : PubSubClient} (hm : m ≤ 1024)
    (hin : 65536 + m ≤ s.client.incoming.length) (llen : ℕ) :
    (s.fill 0 65536).fill 0 m =
      s.holding ⟨llen, 65536 + m, cells (s.client.incoming.take (65536 + m))⟩ := by
  have hlen : (s.client.incoming.take (65536 + m)).length - 65536 = m := by
    rw [List.length_take_of_le hin, Nat.add_sub_cancel_left]
  have hmore : ((s.client.incoming.drop 65536).take m).take 1024 =
      (s.client.incoming.take (65536 + m)).drop 65536 := by
    rw [List.take_take, Nat.min_eq_right hm, List.drop_take, Nat.add_sub_cancel_left]
  have hfirst : (s.client.incoming.take 65536).take 1024 =
      (s.client.incoming.take (65536 + m)).take 1024 := by
    rw [List.take_take, List.take_take, Nat.min_eq_left (by omega), Nat.min_eq_left (by omega)]
  have hm' : ((s.client.incoming.take (65536 + m)).drop 65536).length = m := by
    rw [List.length_drop, hlen]
  simp only [fill, holding, List.drop_drop, Nat.sub_zero, hmore, hfirst, cells, hlen,
    Buffer.overwrite_overwrite, hm']

theorem fill_eq_holding {n : ℕ} {s : PubSubClient} (hn : n < 65536)
    (hin : n ≤ s.client.incoming.length) (llen : ℕ) :
    s.fill 0 n = s.holding ⟨llen, n, cells (s.client.incoming.take n)⟩ := by
  rw [holding, cells_of_lt (by rwa [List.length_take_of_le hin])]
  rfl

/-- The rest of a packet of which `i` bytes have been read. -/
theorem readRest_holding {i n : ℕ} {s : PubSubClient} (hi : i < 65536) (hle : i ≤ n)
    (hn : n ≤ 65536 + 1024) (hin : n ≤ s.client.incoming.length) (llen : ℕ) :
    readRest (n - i) i (s.fill 0 i) =
      (some (n % 65536), s.holding ⟨llen, n, cells (s.client.incoming.take n)⟩) := by
  have hrest (k : ℕ) (hk : i + k ≤ 65536) (hkn : i + k ≤ n) :
      readRest k i (s.fill 0 i) = (some ((i + k) % 65536), s.fill 0 (i + k)) := by
    have hfill : (s.fill 0 i).fill (0 + i) k = s.fill 0 (i + k) := fill_fill (by omega)
    rw [Nat.zero_add] at hfill
    rw [readRest_eq (by rw [incoming_fill, List.length_drop]; omega) hi hk, hfill]
  obtain hsmall | hlarge := Nat.lt_or_ge n 65536
  · rw [hrest (n - i) (by omega) (by omega), Nat.add_sub_cancel' hle,
      fill_eq_holding hsmall hin llen]
  · -- the 16 bits of `len` turn over, and the last bytes go into the first cells
    obtain ⟨m, rfl⟩ := Nat.exists_eq_add_of_le hlarge
    have hfirst := hrest (65536 - i) (by omega) (by omega)
    rw [Nat.add_sub_cancel' (Nat.le_of_lt hi), Nat.mod_self] at hfirst
    rw [Nat.sub_add_comm (Nat.le_of_lt hi), readRest_add hfirst,
      readRest_eq (by rw [incoming_fill, List.length_drop]; omega) (by omega) (by omega),
      fill_wrap (by omega) hin llen, Nat.zero_add, Nat.add_mod_left]

/-- What there is to know of a packet that is taken. -/
theorem bounds_of_taken {header : UInt8} {bytes : List UInt8} {p : Taken}
    (h : taken (header :: bytes) = some p) :
    p.size ≤ bytes.length + 1 ∧ p.size < 65536 + 5 ∧
      1 + p.llen + (if header &&& 0xF0 = MQTTPUBLISH then 2 else 0) ≤ p.size ∧
        0 < p.llen ∧ p.llen ≤ 4 ∧ p.cells = cells ((header :: bytes).take p.size) := by
  obtain ⟨⟨v, j⟩, hdec, h⟩ := Option.bind_eq_some_iff.mp h
  obtain ⟨hsize, hp⟩ := Option.ite_none_right_eq_some.mp h
  obtain rfl := Option.some.inj hp
  obtain ⟨hpos, hj, -⟩ := Varlen.bounds_of_decode hdec
  have hw := Nat.mod_lt v (show 0 < 65536 by omega)
  refine ⟨hsize, ?_, Nat.add_le_add_left (Nat.le_max_left _ _) _, hpos, hj, rfl⟩
  dsimp only
  split <;> omega

theorem length_cells {bytes : List UInt8} (h : bytes.length < 65536 + 5) :
    (cells bytes).length = min bytes.length 1024 := by
  rw [cells, List.length_append, List.length_drop, List.length_drop, List.length_take]
  omega

theorem length_cells_of_taken {bytes : List UInt8} {p : Taken} (h : taken bytes = some p) :
    p.cells.length = min p.size 1024 := by
  cases bytes with
  | nil => cases h
  | cons header bytes =>
      obtain ⟨hsize, hlarge, -, -, -, hcells⟩ := bounds_of_taken h
      have htake : ((header :: bytes).take p.size).length = p.size := List.length_take_of_le hsize
      rw [hcells, length_cells (by omega), htake]

theorem cell_holding {p : Taken} {i : ℕ} (hi : i < p.cells.length) (s : PubSubClient) :
    (s.holding p).buffer i = p.cells[i] := by
  have hcell : (s.holding p).buffer (0 + i) = p.cells[i] :=
    Buffer.overwrite_add (m := s.buffer) (a := 0) hi
  rwa [Nat.zero_add] at hcell

/-- The last byte of a packet that fits the buffer. -/
theorem last_of_taken {bytes : List UInt8} {p : Taken} (h : taken bytes = some p)
    (hpos : 0 < p.len) (hle : p.len ≤ 1024) : p.cells[p.len - 1]? = bytes[p.size - 1]? := by
  cases bytes with
  | nil => cases h
  | cons header bytes =>
      obtain ⟨hsize, hlarge, -, -, -, hcells⟩ := bounds_of_taken h
      rw [Taken.len] at hpos hle ⊢
      have htake : ((header :: bytes).take p.size).length = p.size := List.length_take_of_le hsize
      rw [hcells]
      obtain hsmall | hwrap := Nat.lt_or_ge p.size 65536
      · rw [cells_of_lt (by rwa [htake]), List.getElem?_take_of_lt (by omega),
          List.getElem?_take_of_lt (by omega), Nat.mod_eq_of_lt hsmall]
      · obtain ⟨m, hm⟩ := Nat.exists_eq_add_of_le hwrap
        have hmod : p.size % 65536 = m := by omega
        have hfirst : p.size % 65536 - 1 < (((header :: bytes).take p.size).drop 65536).length := by
          rw [List.length_drop, htake]
          omega
        rw [cells, List.getElem?_append_left hfirst, List.getElem?_drop,
          List.getElem?_take_of_lt (by omega)]
        congr 1
        omega

section ReadPacket

variable {header : UInt8} {bytes : List UInt8} {s : PubSubClient}
  (hin : s.client.incoming = header :: bytes)

include hin

/-- The header and the length. -/
theorem readLength_of_decode {v j : ℕ}
    (hdec : Varlen.decode 128 4 (bytes.map UInt8.toNat) = some (v, j)) :
    readLength 4 0 1 (s.fill 0 1) = (some (1 + j, v % 65536), s.fill 0 (1 + j)) := by
  have hrest : (s.fill 0 1).client.incoming = bytes := by
    rw [incoming_fill, hin, List.drop_one, List.tail_cons]
  have hfill : (s.fill 0 1).fill (5 - 4) j = s.fill 0 (1 + j) := fill_fill (by simp [hin])
  rw [readLength_eq (Nat.le_refl 4) (by rw [hrest]; exact hdec), hfill, Nat.mul_one, Nat.zero_add]

/-- A byte of the length of a topic. -/
theorem readByteAt_fill {a : ℕ} (ha : a < 1024) (hle : a ≤ bytes.length) :
    readByteAt a (s.fill 0 a) = (some (a + 1), s.fill 0 (a + 1)) := by
  have hfill : (s.fill 0 a).fill (0 + a) 1 = s.fill 0 (a + 1) :=
    fill_fill (by rw [hin, List.length_cons]; omega)
  rw [Nat.zero_add] at hfill
  rw [readByteAt_eq _ ha, hfill]
  apply List.ne_nil_of_length_pos
  rw [incoming_fill, List.length_drop, hin, List.length_cons]
  omega

theorem length_incoming_fill (a : ℕ) :
    (s.fill 0 a).client.incoming.length = bytes.length + 1 - a := by
  rw [incoming_fill, List.length_drop, hin, List.length_cons]

/-- One that has not come in. -/
theorem readByteAt_short {a : ℕ} (hshort : bytes.length < a) :
    (readByteAt a (s.fill 0 a)).1 = none := by
  apply readByteAt_eq_none
  apply List.eq_nil_of_length_eq_zero
  rw [length_incoming_fill hin]
  omega

/-- More bytes than have come in. -/
theorem readRest_short {a n : ℕ} (hshort : bytes.length + 1 - a < n) (len : ℕ) :
    (readRest n len (s.fill 0 a)).1 = none := by
  apply readRest_eq_none
  rw [length_incoming_fill hin]
  exact hshort

end ReadPacket

/-- A packet that is there is taken. -/
theorem readPacket_eq {p : Taken} {s : PubSubClient} (h : taken s.client.incoming = some p) :
    readPacket s = (some (p.llen, if 1024 < p.len then 0 else p.len), s.holding p) := by
  cases hin : s.client.incoming with
  | nil => rw [hin] at h; cases h
  | cons header bytes =>
      rw [hin, taken] at h
      obtain ⟨⟨v, j⟩, hdec, h⟩ := Option.bind_eq_some_iff.mp h
      obtain ⟨hsize, hp⟩ := Option.ite_none_right_eq_some.mp h
      obtain rfl := Option.some.inj hp
      obtain ⟨-, hj, -⟩ := Varlen.bounds_of_decode hdec
      have hw := Nat.mod_lt v (show 0 < 65536 by omega)
      -- `i` bytes of the body have been read already
      have hlast (i : ℕ) (hi : i ≤ 2) (hbytes : 1 + j + max i (v % 65536) ≤ bytes.length + 1) :
          readRest (v % 65536 - i) (1 + j + i) (s.fill 0 (1 + j + i)) =
            (some ((1 + j + max i (v % 65536)) % 65536), s.holding ⟨j, 1 + j + max i (v % 65536),
              cells ((header :: bytes).take (1 + j + max i (v % 65536)))⟩) := by
        have hleft : v % 65536 - i = 1 + j + max i (v % 65536) - (1 + j + i) := by omega
        rw [← hin, hleft]
        exact readRest_holding (by omega) (by omega) (by omega)
          (by rw [hin, List.length_cons]; exact hbytes) j
      have hdigits : 1 + j - 1 = j := Nat.add_sub_cancel_left 1 j
      rw [readPacket, readByte_setCell hin (by omega),
        bind_of_some (readLength_of_decode hin hdec)]
      dsimp only at hsize ⊢
      rw [hdigits]
      by_cases htype : header &&& 0xF0 = MQTTPUBLISH
      · rw [if_pos htype] at hsize
        rw [if_pos (beq_iff_eq.mpr htype),
          bind_of_some (readByteAt_fill hin (by omega) (by omega)),
          bind_of_some (readByteAt_fill hin (by omega) (by omega)),
          bind_of_some (hlast 2 (Nat.le_refl 2) hsize), if_pos htype]
        rfl
      · rw [if_neg htype] at hsize
        have hrest := hlast 0 (Nat.zero_le 2) hsize
        rw [Nat.sub_zero, Nat.add_zero] at hrest
        rw [if_neg (fun h => htype (beq_iff_eq.mp h)), if_neg htype, bind_of_some hrest]
        rfl

/-- A packet of which a part is missing, or whose length has too many digits, is not. -/
theorem readPacket_eq_none {s : PubSubClient} (h : taken s.client.incoming = none) :
    (readPacket s).1 = none := by
  cases hin : s.client.incoming with
  | nil => exact bind_fst_eq_none _ (congrArg Prod.fst (readByte_eq_none hin))
  | cons header bytes =>
      have hrest : (s.fill 0 1).client.incoming = bytes := by
        rw [incoming_fill, hin, List.drop_one, List.tail_cons]
      rw [hin, taken] at h
      rw [readPacket, readByte_setCell hin (by omega)]
      cases hdec : Varlen.decode 128 4 (bytes.map UInt8.toNat) with
      | none =>
          apply bind_fst_eq_none
          apply readLength_eq_none
          rw [hrest]
          exact hdec
      | some q =>
          obtain ⟨v, j⟩ := q
          obtain ⟨-, hj, hle⟩ := Varlen.bounds_of_decode hdec
          rw [List.length_map] at hle
          rw [hdec, Option.bind_some] at h
          rw [bind_of_some (readLength_of_decode hin hdec)]
          dsimp only at h ⊢
          have hshort : ¬1 + j + max (if header &&& 0xF0 = MQTTPUBLISH then 2 else 0) (v % 65536) ≤
              bytes.length + 1 := by
            intro hle
            rw [if_pos hle] at h
            cases h
          by_cases htype : header &&& 0xF0 = MQTTPUBLISH
          · rw [if_pos htype] at hshort
            rw [if_pos (beq_iff_eq.mpr htype)]
            -- the two bytes of the topic's length are read whatever the length says
            by_cases hfirst : 1 + j ≤ bytes.length
            · rw [bind_of_some (readByteAt_fill hin (by omega) hfirst)]
              by_cases hsecond : 1 + j + 1 ≤ bytes.length
              · rw [bind_of_some (readByteAt_fill hin (by omega) hsecond)]
                exact bind_fst_eq_none _ (readRest_short hin (by omega) _)
              · exact bind_fst_eq_none _ (readByteAt_short hin (Nat.not_le.mp hsecond))
            · exact bind_fst_eq_none _ (readByteAt_short hin (Nat.not_le.mp hfirst))
          · rw [if_neg htype] at hshort
            rw [if_neg (fun h => htype (beq_iff_eq.mp h))]
            exact bind_fst_eq_none _ (readRest_short hin (by omega) _)

/-! ### One frame -/

/-- How many digits the length of a frame has. -/
def lengthLength (f : Frame) : ℕ := (remainingLength f.body.length).length

theorem length_frame_eq (f : Frame) : (frame.write f).length = 1 + lengthLength f + f.body.length :=
  length_frame f

theorem drop_frame (f : Frame) (i : ℕ) :
    (frame.write f).drop (lengthLength f + 1 + i) = f.body.drop i := by
  have hfront : frame.write f = (f.header :: remainingLength f.body.length) ++ f.body := rfl
  rw [hfront, List.drop_append, List.drop_of_length_le, List.nil_append]
  · congr 1
    rw [List.length_cons, lengthLength]
    omega
  · rw [List.length_cons, lengthLength]
    omega

/-- A frame of which `readPacket` reads all and no more. -/
structure Readable (f : Frame) : Prop where
  small : (frame.write f).length < 65536
  topic : f.header &&& 0xF0 = MQTTPUBLISH → 2 ≤ f.body.length

theorem taken_frame {f : Frame} (hf : Readable f) (rest : List UInt8) :
    taken (frame.write f ++ rest) =
      some ⟨lengthLength f, (frame.write f).length, cells (frame.write f)⟩ := by
  have hsmall := hf.small
  rw [length_frame_eq] at hsmall
  have hdec : Varlen.decode 128 4
      ((remainingLength f.body.length ++ (f.body ++ rest)).map UInt8.toNat) =
      some (f.body.length, lengthLength f) := by
    rw [List.map_append, map_toNat_remainingLength, Varlen.decode_encode (by omega) (by omega),
      lengthLength, remainingLength, List.length_map]
  have hbytes : frame.write f ++ rest =
      f.header :: (remainingLength f.body.length ++ (f.body ++ rest)) := by
    simp [frame]
  have hmax : max (if f.header &&& 0xF0 = MQTTPUBLISH then 2 else 0) (f.body.length % 65536) =
      f.body.length := by
    rw [Nat.mod_eq_of_lt (by omega)]
    split
    · rename_i htype
      exact Nat.max_eq_right (hf.topic htype)
    · exact Nat.max_eq_right (Nat.zero_le _)
  have hle : (frame.write f).length ≤ (frame.write f ++ rest).length := by simp
  rw [hbytes, List.length_cons] at hle
  rw [hbytes, taken, hdec, Option.bind_some]
  dsimp only
  rw [hmax, ← length_frame_eq, if_pos hle, ← hbytes, List.take_left]

/-- `readPacket` takes a frame from the stream. -/
theorem readPacket_frame {f : Frame} {rest : List UInt8} {s : PubSubClient} (hf : Readable f)
    (hin : s.client.incoming = frame.write f ++ rest) :
    readPacket s = (some (lengthLength f,
      if 1024 < (frame.write f).length then 0 else (frame.write f).length),
      s.fill 0 (frame.write f).length) := by
  have htaken := taken_frame hf rest
  rw [← hin] at htaken
  have hle : (frame.write f).length ≤ s.client.incoming.length := by simp [hin]
  rw [readPacket_eq htaken, Taken.len, Nat.mod_eq_of_lt hf.small,
    fill_eq_holding hf.small hle (lengthLength f), hin, List.take_left]

/-- The frame stands at the front of the buffer. -/
structure InBuffer (f : Frame) (buf : Buffer UInt8) : Prop where
  size : (frame.write f).length ≤ 1024
  cells : Buffer.slice buf 0 (frame.write f).length = frame.write f

theorem inBuffer_fill {f : Frame} {rest : List UInt8} {s : PubSubClient}
    (hsize : (frame.write f).length ≤ 1024) (hin : s.client.incoming = frame.write f ++ rest) :
    InBuffer f (s.fill 0 (frame.write f).length).buffer := by
  refine ⟨hsize, ?_⟩
  have htake : (s.client.incoming.take (frame.write f).length).take (1024 - 0) = frame.write f := by
    rw [hin, List.take_left, List.take_of_length_le hsize]
  rw [fill, htake]
  exact Buffer.slice_overwrite s.buffer 0 (frame.write f)

section InBuffer

variable {f : Frame} {buf : Buffer UInt8} (h : InBuffer f buf)

include h

/-- A part of the body. -/
theorem InBuffer.slice_body {i n : ℕ} (hn : i + n ≤ f.body.length) :
    Buffer.slice buf (lengthLength f + 1 + i) n = (f.body.drop i).take n := by
  have hpart : lengthLength f + 1 + i + n ≤ (frame.write f).length := by
    rw [length_frame_eq]
    omega
  have hcells := Buffer.take_drop_slice (m := buf) (a := 0) hpart
  rw [h.cells, drop_frame, Nat.zero_add] at hcells
  exact hcells.symm

theorem InBuffer.body {i : ℕ} (hi : i < f.body.length) :
    buf (lengthLength f + 1 + i) = f.body[i] := by
  have hcell := h.slice_body (i := i) (n := 1) hi
  rw [List.drop_eq_getElem_cons hi] at hcell
  exact (List.cons.inj hcell).1

theorem InBuffer.header : buf 0 = f.header := by
  have hcells := h.cells
  rw [length_frame_eq, Nat.add_assoc, Nat.add_comm, Buffer.slice_succ] at hcells
  exact (List.cons.inj hcells).1

end InBuffer

end PubSubClient

end EmsGateway.Mqtt
