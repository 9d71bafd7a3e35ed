import EmsGateway.Library.Exec
import EmsGateway.Library.Sequences
import EmsGateway.Spool
import Mathlib.Algebra.Order.Field.Rat

/-!
The loop of `deletefilelog`, which the two services have in common. It looks at
the names that `os.listdir` returned, and its exceptions are handled outside it,
so whatever stands behind the first entry that raises is not looked at.
-/

namespace EmsGateway

open EmsGateway.Library

/-- What the loop meets at each name: the clock when it is tested, and whether
`os.stat` and `os.remove` return for it. -/
structure Meets (ν : Type) where
  clock : ν → ℕ
  stat : ν → Bool
  remove : ν → Bool

/-- Every operation returns, all at one time. -/
def Meets.calm {ν : Type} (clock : ℕ) : Meets ν := ⟨fun _ => clock, fun _ => true, fun _ => true⟩

/-- `os.stat(file).st_mtime < time.time() - days * 86400`. -/
def Expired (days : ℚ) (clock mtime : ℕ) : Prop := (mtime : ℚ) < clock - days * day

instance (days : ℚ) (clock mtime : ℕ) : Decidable (Expired days clock mtime) :=
  inferInstanceAs (Decidable (_ < _))

/-- The test in whole microseconds. -/
theorem expired_natCast (days clock mtime : ℕ) :
    Expired days clock mtime ↔ mtime + days * day < clock := by
  rw [Expired, lt_sub_iff_add_lt]
  exact_mod_cast Iff.rfl

namespace Deletefilelog

variable {ν α ε : Type} [DecidableEq ν] (osError : ε) (days : ℚ) (m : Meets ν)

/-- `os.stat(file).st_mtime`, none where it raises. -/
def statMtime (d : Directory ν α) (name : ν) : Option ℕ :=
  if m.stat name then (d.lookup name).bind Entry.mtime? else none

/-- The body of the loop. -/
def file (name : ν) : Stmt (Directory ν α) ε Unit := do
  let d ← get
  match statMtime m d name with
  | none => throw osError
  | some mtime =>
      if Expired days (m.clock name) mtime ∧ Directory.isfile d name = true then
        if m.remove name then modify fun d => d.erase name else throw osError

def files : List ν → Stmt (Directory ν α) ε Unit
  | [] => pure ()
  | name :: names => do
      file osError days m name
      files names

/-! ### What the loop removes -/

/-- A regular file older than the limit, on which `os.stat` and `os.remove` do not
raise. -/
def removable (d : Directory ν α) (name : ν) : Bool :=
  match d.lookup name with
  | some (.file _ mtime) =>
      decide (Expired days (m.clock name) mtime) && m.stat name && m.remove name
  | _ => false

/-- An entry that ends the loop: `os.stat` raises on it, as it does on dangling
links and on names that have vanished, or it is an expired regular file and
`os.remove` raises. -/
def raises (d : Directory ν α) (name : ν) : Bool :=
  match d.lookup name with
  | some (.file _ mtime) =>
      !m.stat name || decide (Expired days (m.clock name) mtime) && !m.remove name
  | some (.folder _) => !m.stat name
  | _ => true

/-- The names from the first that raises are not looked at. -/
def reached (d : Directory ν α) (names : List ν) : List ν :=
  names.takeWhile fun name => !raises days m d name

variable {osError days m} {d d' : Directory ν α} {name : ν} {names : List ν}

theorem removable_of_lookup_eq (h : d.lookup name = d'.lookup name) :
    removable days m d name = removable days m d' name := by
  rw [removable, h, removable]

theorem raises_of_lookup_eq (h : d.lookup name = d'.lookup name) :
    raises days m d name = raises days m d' name := by
  rw [raises, h, raises]

theorem not_raises_of_removable (h : removable days m d name) : raises days m d name = false := by
  unfold removable at h
  unfold raises
  split at h
  · simp_all
  · cases h

/-- The body raises and changes nothing, or erases the entry, or leaves it. -/
theorem exec_file (d : Directory ν α) (name : ν) :
    (file osError days m name).exec d =
      if raises days m d name then (.error osError, d)
      else (.ok (), if removable days m d name then d.erase name else d) := by
  unfold file removable raises statMtime Directory.isfile
  rw [Stmt.exec_bind, Stmt.exec_get]
  cases hstat : m.stat name with
  | false =>
      cases hlookup : d.lookup name with
      | none => simp
      | some e => cases e <;> simp
  | true =>
      cases hlookup : d.lookup name with
      | none => simp [hlookup]
      | some e =>
          cases e with
          | file lines mtime =>
              by_cases hexpired : Expired days (m.clock name) mtime
              · cases hremove : m.remove name with
                | true => simp [hlookup, Entry.mtime?, Entry.isfile, hexpired]
                | false => simp [hlookup, Entry.mtime?, Entry.isfile, hexpired]
              · simp [hlookup, Entry.mtime?, hexpired]
          | folder mtime => simp [hlookup, Entry.mtime?, Entry.isfile]
          | dangling => simp [hlookup, Entry.mtime?]

theorem reached_congr (h : ∀ name ∈ names, d.lookup name = d'.lookup name) :
    reached days m d names = reached days m d' names := by
  induction names with
  | nil => rfl
  | cons first names ih =>
      obtain ⟨hfirst, hnames⟩ := List.forall_mem_cons.mp h
      unfold reached at ih ⊢
      rw [List.takeWhile_cons, List.takeWhile_cons, raises_of_lookup_eq hfirst, ih hnames]

/-- What the loop leaves under each name: the removable ones among those it
reaches are gone. -/
theorem lookup_files (hnodup : names.Nodup) (d : Directory ν α) (name : ν) :
    ((files osError days m names).final d).lookup name =
      if name ∈ reached days m d names ∧ removable days m d name = true then none
      else d.lookup name := by
  induction names generalizing d with
  | nil => simp [files, reached, Stmt.final]
  | cons first names ih =>
      obtain ⟨hfirst, hnodup⟩ := List.nodup_cons.mp hnodup
      have hbody : (file osError days m first).exec d = _ := exec_file d first
      rw [files, Stmt.final, Stmt.exec_bind, hbody, reached, List.takeWhile_cons]
      cases hraises : raises days m d first with
      | true => simp
      | false =>
          -- the directory after the first entry
          generalize hd' : (if removable days m d first then d.erase first else d) = d'
          have hother : ∀ n, n ≠ first → d.lookup n = d'.lookup n := by
            intro n hn
            rw [← hd']
            split
            · rw [AList.lookup_erase_ne hn]
            · rfl
          have hreached : reached days m d names = reached days m d' names :=
            reached_congr fun n hn => hother n (ne_of_mem_of_not_mem hn hfirst)
          have hrest := ih hnodup d'
          rw [← hreached] at hrest
          simp only [Bool.false_eq_true, if_false, Bool.not_false, if_true]
          rw [← Stmt.final, hrest]
          by_cases hname : name = first
          · subst hname
            have hnot : name ∉ reached days m d names := fun hmem =>
              hfirst ((List.takeWhile_sublist _).subset hmem)
            rw [if_neg (by simp [hnot]), ← hd']
            cases removable days m d name <;> simp
          · rw [removable_of_lookup_eq (hother name hname), ← hother name hname, reached]
            simp [hname]

/-- `os.listdir` returned each name once, every entry among them, and perhaps
names of entries that have vanished since. -/
structure Listing (d : Directory ν α) (names : List ν) : Prop where
  nodup : names.Nodup
  keys : ∀ name ∈ d.keys, name ∈ names

/-- Exactly the removable files are gone, and everything else is as it was. -/
def RemovesExactly (days : ℚ) (m : Meets ν) (d d' : Directory ν α) : Prop :=
  ∀ name, d'.lookup name = if removable days m d name then none else d.lookup name

/-- No removable file stands behind an entry that raises. -/
def Unshadowed (days : ℚ) (m : Meets ν) (d : Directory ν α) (names : List ν) : Prop :=
  names.Pairwise fun a b => raises days m d a = true → removable days m d b = false

instance (days : ℚ) (m : Meets ν) (d : Directory ν α) (names : List ν) :
    Decidable (Unshadowed days m d names) :=
  inferInstanceAs (Decidable (List.Pairwise _ _))

theorem lookup_ne_none_of_removable (h : removable days m d name) : d.lookup name ≠ none := by
  intro hnone
  simp [removable, hnone] at h

/-- The loop removes exactly what it should if and only if nothing removable
stands behind an entry that raises. -/
theorem removesExactly_files_iff (h : Listing d names) :
    RemovesExactly days m d ((files osError days m names).final d) ↔ Unshadowed days m d names := by
  have hpairwise := mem_takeWhile_iff_pairwise (p := fun name => !raises days m d name)
    (q := removable days m d) h.nodup (fun name hname => by simp [not_raises_of_removable hname])
  simp only [Bool.not_eq_false'] at hpairwise
  rw [Unshadowed, ← hpairwise]
  constructor
  · intro hexact name _ hname
    have hlookup := hexact name
    rw [lookup_files h.nodup, hname, if_pos rfl] at hlookup
    by_contra hnot
    rw [if_neg fun hmem => hnot hmem.1] at hlookup
    exact lookup_ne_none_of_removable hname hlookup
  · intro hall name
    rw [lookup_files h.nodup]
    cases hname : removable days m d name with
    | false => simp
    | true =>
        have hmem : name ∈ names := by
          apply h.keys
          exact AList.mem_keys.mp (AList.lookup_isSome.mp
            (Option.isSome_iff_ne_none.mpr (lookup_ne_none_of_removable hname)))
        simp [reached, hall name hmem hname]

end Deletefilelog

end EmsGateway
