import EmsGateway.Library.Sequences
import Mathlib.Logic.Function.Basic
import Mathlib.Logic.Relation

/-!
Store and forward. A producer puts items into the buckets of a store; a consumer
copies a bucket, empties it, and forwards the items it has copied one by one. It
may give up or start again at any time, and buckets may be discarded, so items
can get lost, but what is forwarded is always a part of what was produced, in
the order of production and without repetition.
-/

namespace EmsGateway.Library

/-- What the consumer has in hand. -/
inductive Batch (α : Type)
  | idle
  /-- items copied from a bucket that still holds them -/
  | copied (items : List α)
  /-- items still to be forwarded, from a bucket that was emptied -/
  | taken (items : List α)

namespace Batch

variable {α : Type}

/-- The items in hand. -/
def items : Batch α → List α
  | .idle => []
  | .copied xs => xs
  | .taken xs => xs

/-- The items in hand that have left the store. -/
def removed : Batch α → List α
  | .taken xs => xs
  | _ => []

theorem removed_sublist_items (b : Batch α) : b.removed.Sublist b.items := by
  cases b with
  | taken xs => exact List.Sublist.refl xs
  | _ => exact List.nil_sublist _

end Batch

/-- The state of a relay whose buckets are named by `ν`. -/
structure Relay (ν α : Type) where
  /-- the items produced, in order -/
  produced : List α
  stored : ν → List α
  /-- the bucket the consumer works on -/
  cursor : Option ν
  batch : Batch α
  /-- the items forwarded, in order -/
  forwarded : List α

namespace Relay

variable {ι ν α : Type}

/-- Nothing produced yet. -/
def init : Relay ν α := ⟨[], fun _ => [], none, .idle, []⟩

/-- The items forwarded and those in hand. -/
def passed (r : Relay ν α) : List α := r.forwarded ++ r.batch.items

/-- An emptied bucket is empty and the others are as they were. -/
theorem update_nil_or [DecidableEq ν] (stored : ν → List α) (b c : ν) :
    Function.update stored b [] c = stored c ∨ Function.update stored b [] c = [] := by
  rw [Function.update_apply]
  split
  · exact .inr rfl
  · exact .inl rfl

section Ordered

variable [LinearOrder ι] [PartialOrder ν] (number : α → ι) (bucket : α → ν)

/-- The items were produced in the order of their numbers and of their buckets. -/
structure Produced (r : Relay ν α) : Prop where
  numbered : Numbered number r.produced
  bucket_le : ∀ x ∈ r.produced, ∀ y ∈ r.produced, number x ≤ number y → bucket x ≤ bucket y

/-- A bucket holds items of its own, in the order in which they were produced. -/
structure Stored (r : Relay ν α) : Prop where
  produced : ∀ b, ∀ x ∈ r.stored b, x ∈ r.produced ∧ bucket x = b
  numbered : ∀ b, Numbered number (r.stored b)

/-- The items forwarded come before the items in hand, and both, once they have
left the store, before what is in their bucket now. -/
structure Passed (r : Relay ν α) : Prop where
  numbered : Numbered number r.passed
  produced : ∀ x ∈ r.passed, x ∈ r.produced
  cursor : ∀ b, r.cursor = some b → ∀ x ∈ r.forwarded, bucket x ≤ b
  items : ∀ x ∈ r.batch.items, r.cursor = some (bucket x)
  copied : ∀ xs b, r.batch = .copied xs → r.cursor = some b → xs <+: r.stored b
  removed : ∀ x ∈ r.forwarded ++ r.batch.removed, ∀ y ∈ r.stored (bucket x), number x < number y

/-- The invariant of a relay. -/
structure Ordered (r : Relay ν α) : Prop where
  produced : Produced number bucket r
  stored : Stored number bucket r
  passed : Passed number bucket r

variable {number bucket} {r r' : Relay ν α}

/-! ### The items produced -/

theorem produced_init : Produced number bucket (init : Relay ν α) where
  numbered := numbered_nil
  bucket_le := by simp [init]

/-- Items of an earlier bucket were produced earlier. -/
theorem Produced.number_lt (h : Produced number bucket r) {x y : α} (hx : x ∈ r.produced)
    (hy : y ∈ r.produced) (hlt : bucket x < bucket y) : number x < number y := by
  by_contra hle
  exact absurd (h.bucket_le y hy x hx (not_lt.mp hle)) hlt.not_ge

/-! ### The items in the store -/

omit [PartialOrder ν] in
theorem stored_init : Stored number bucket (init : Relay ν α) where
  produced := by simp [init]
  numbered := by simp [init]

omit [PartialOrder ν] in
/-- A move that produces nothing and at most empties buckets keeps the order. -/
theorem Stored.of_stored (h : Stored number bucket r) (hproduced : r'.produced = r.produced)
    (hstored : ∀ b, r'.stored b = r.stored b ∨ r'.stored b = []) : Stored number bucket r' := by
  refine ⟨?_, ?_⟩
  · intro b x hx
    rcases hstored b with hb | hb
    · rw [hproduced]
      exact h.produced b x (hb ▸ hx)
    · rw [hb] at hx
      cases hx
  · intro b
    rcases hstored b with hb | hb
    · rw [hb]
      exact h.numbered b
    · rw [hb]
      exact numbered_nil

/-! ### The items forwarded -/

theorem passed_init : Passed number bucket (init : Relay ν α) where
  numbered := numbered_nil
  produced := by simp [init, passed, Batch.items]
  cursor := by simp [init]
  items := by simp [init, Batch.items]
  copied := by simp [init]
  removed := by simp [init, Batch.removed]

theorem Passed.of_forwarded (h : Passed number bucket r) {x : α} (hx : x ∈ r.forwarded) :
    x ∈ r.produced :=
  h.produced x (List.mem_append_left _ hx)

/-- A move after which nothing is in hand. -/
theorem Passed.of_idle (h : Passed number bucket r) (hbatch : r'.batch = .idle)
    (hforwarded : r'.forwarded = r.forwarded) (hproduced : r'.produced = r.produced)
    (hstored : ∀ b, r'.stored b = r.stored b ∨ r'.stored b = [])
    (hcursor : ∀ b, r'.cursor = some b → ∀ x ∈ r.forwarded, bucket x ≤ b) :
    Passed number bucket r' := by
  have hpassed : r'.passed = r.forwarded := by
    rw [passed, hbatch, hforwarded]
    exact List.append_nil r.forwarded
  refine ⟨?_, ?_, ?_, ?_, ?_, ?_⟩
  · rw [hpassed]
    exact (numbered_append.mp h.numbered).1
  · rw [hpassed, hproduced]
    exact fun x hx => h.of_forwarded hx
  · rw [hforwarded]
    exact hcursor
  · rw [hbatch]
    intro x hx
    cases hx
  · rw [hbatch]
    intro xs b hcopied
    cases hcopied
  · rw [hbatch, hforwarded]
    intro x hx y hy
    replace hx : x ∈ r.forwarded := List.append_nil r.forwarded ▸ hx
    rcases hstored (bucket x) with hb | hb
    · exact h.removed x (List.mem_append_left _ hx) y (hb ▸ hy)
    · rw [hb] at hy
      cases hy

/-- The items copied come after all those forwarded: these are of an earlier
bucket, or they left the same bucket before the items came into it. -/
theorem passed_copy (h : Passed number bucket r) (hproduced : Produced number bucket r)
    (hstored : Stored number bucket r) {b : ν} (hcursor : r.cursor = some b) :
    Passed number bucket { r with batch := .copied (r.stored b) } := by
  refine ⟨?_, ?_, h.cursor, ?_, ?_, ?_⟩
  · refine numbered_append.mpr ⟨(numbered_append.mp h.numbered).1, hstored.numbered b, ?_⟩
    intro x hx y hy
    obtain ⟨hy', rfl⟩ := hstored.produced b y hy
    rcases (h.cursor (bucket y) hcursor x hx).lt_or_eq with hlt | heq
    · exact hproduced.number_lt (h.of_forwarded hx) hy' hlt
    · exact h.removed x (List.mem_append_left _ hx) y (heq ▸ hy)
  · intro x hx
    rcases List.mem_append.mp hx with hx | hx
    · exact h.of_forwarded hx
    · exact (hstored.produced b x hx).1
  · intro x hx
    rw [(hstored.produced b x hx).2]
    exact hcursor
  · rintro xs c ⟨⟩ hc
    obtain rfl : b = c := Option.some.inj (hcursor.symm.trans hc)
    exact List.prefix_rfl
  · intro x hx
    refine h.removed x (List.mem_append_left _ ?_)
    exact (List.append_nil r.forwarded) ▸ hx

/-- Forwarding moves an item from the hand to the items forwarded. -/
theorem passed_forward (h : Passed number bucket r) {x : α} {rest : List α}
    (hbatch : r.batch = .taken (x :: rest)) :
    Passed number bucket { r with batch := .taken rest, forwarded := r.forwarded ++ [x] } := by
  have hitems : r.batch.items = x :: rest := by rw [hbatch]; rfl
  have hpassed : r.passed = (r.forwarded ++ [x]) ++ rest := by
    rw [passed, hitems, ← List.append_cons]
  have hnumbered := h.numbered
  have hproduced := h.produced
  have hbucket := h.items
  rw [hpassed] at hnumbered hproduced
  rw [hitems] at hbucket
  refine ⟨hnumbered, hproduced, ?_, ?_, by simp, ?_⟩
  · intro b hcursor y hy
    rcases List.mem_append.mp hy with hy | hy
    · exact h.cursor b hcursor y hy
    · have hb := Option.some.inj ((hbucket x List.mem_cons_self).symm.trans hcursor)
      rw [List.mem_singleton.mp hy, hb]
  · intro y hy
    exact hbucket y (List.mem_cons_of_mem x hy)
  · intro y hy
    apply h.removed y
    rw [hbatch, Batch.removed, List.append_cons]
    exact hy

/-! ### The invariant -/

theorem ordered_init : Ordered number bucket (init : Relay ν α) :=
  ⟨produced_init, stored_init, passed_init⟩

/-- What is forwarded is a part of what was produced, in the same order. -/
theorem Ordered.forwarded_sublist (h : Ordered number bucket r) :
    r.forwarded.Sublist r.produced :=
  (numbered_append.mp h.passed.numbered).1.sublist h.produced.numbered
    fun _ hx => h.passed.of_forwarded hx

/-- What is in the store was not forwarded. -/
theorem Ordered.not_forwarded_of_stored (h : Ordered number bucket r) {b : ν} {x : α}
    (hx : x ∈ r.stored b) : x ∉ r.forwarded := by
  intro hforwarded
  obtain ⟨-, rfl⟩ := h.stored.produced b x hx
  exact absurd (h.passed.removed x (List.mem_append_left _ hforwarded) x hx) (lt_irrefl _)

end Ordered

section Moves

variable [LinearOrder ι] [PartialOrder ν] [DecidableEq ν] (number : α → ι) (bucket : α → ν)

/-- The moves of a relay whose items are numbered and have each a bucket of their
own. Items are produced in the order of their numbers and of their buckets, and
the consumer turns only to a bucket that is not before those produced so far. -/
inductive Move (r : Relay ν α) : Relay ν α → Prop
  | produce (x : α) (hnumber : ∀ y ∈ r.produced, number y < number x)
      (hbucket : ∀ y ∈ r.produced, bucket y ≤ bucket x) :
      Move r { r with
        produced := r.produced ++ [x]
        stored := Function.update r.stored (bucket x) (r.stored (bucket x) ++ [x]) }
  | seek (b : ν) (hlatest : ∀ y ∈ r.produced, bucket y ≤ b) :
      Move r { r with cursor := some b, batch := .idle }
  | copy (b : ν) (hcursor : r.cursor = some b) : Move r { r with batch := .copied (r.stored b) }
  | take (b : ν) (xs : List α) (hcursor : r.cursor = some b) (hbatch : r.batch = .copied xs) :
      Move r { r with batch := .taken xs, stored := Function.update r.stored b [] }
  | forward (x : α) (rest : List α) (hbatch : r.batch = .taken (x :: rest)) :
      Move r { r with batch := .taken rest, forwarded := r.forwarded ++ [x] }
  | giveUp : Move r { r with batch := .idle }
  | discard (b : ν) (hbatch : r.batch = .idle) :
      Move r { r with stored := Function.update r.stored b [] }
  | restart : Move r { r with cursor := none, batch := .idle }

/-- Any number of moves. -/
abbrev Moves : Relay ν α → Relay ν α → Prop := Relation.ReflTransGen (Move number bucket)

variable {number bucket} {r r' : Relay ν α}

theorem produced_move (h : Produced number bucket r) (hmove : Move number bucket r r') :
    Produced number bucket r' := by
  cases hmove with
  | produce x hnumber hbucket =>
      refine ⟨numbered_concat.mpr ⟨h.numbered, hnumber⟩, ?_⟩
      intro y hy z hz hle
      rcases List.mem_append.mp hy with hy | hy <;> rcases List.mem_append.mp hz with hz | hz
      · exact h.bucket_le y hy z hz hle
      · rw [List.mem_singleton.mp hz]
        exact hbucket y hy
      · -- the new item has the largest number
        rw [List.mem_singleton.mp hy] at hle
        exact absurd (hnumber z hz) hle.not_gt
      · rw [List.mem_singleton.mp hy, List.mem_singleton.mp hz]
  | seek | copy | take | forward | giveUp | discard | restart => exact ⟨h.numbered, h.bucket_le⟩

omit [PartialOrder ν] in
theorem stored_produce (h : Stored number bucket r) (x : α)
    (hnumber : ∀ y ∈ r.produced, number y < number x) :
    Stored number bucket { r with
      produced := r.produced ++ [x]
      stored := Function.update r.stored (bucket x) (r.stored (bucket x) ++ [x]) } := by
  refine ⟨?_, ?_⟩
  · intro b y hy
    simp only [Function.update_apply] at hy
    split at hy
    case isTrue hb =>
        rcases List.mem_append.mp hy with hy | hy
        · obtain ⟨hproduced, hbucket⟩ := h.produced (bucket x) y hy
          exact ⟨List.mem_append_left _ hproduced, hbucket.trans hb.symm⟩
        · rw [List.mem_singleton.mp hy]
          exact ⟨List.mem_append_right _ (List.mem_singleton_self x), hb.symm⟩
    case isFalse => exact ⟨List.mem_append_left _ (h.produced b y hy).1, (h.produced b y hy).2⟩
  · intro b
    simp only [Function.update_apply]
    split
    · refine numbered_concat.mpr ⟨h.numbered (bucket x), ?_⟩
      intro y hy
      exact hnumber y (h.produced (bucket x) y hy).1
    · exact h.numbered b

theorem stored_move (h : Stored number bucket r) (hmove : Move number bucket r r') :
    Stored number bucket r' := by
  cases hmove with
  | produce x hnumber _ => exact stored_produce h x hnumber
  | take b _ _ _ => exact h.of_stored rfl (update_nil_or r.stored b)
  | discard b _ => exact h.of_stored rfl (update_nil_or r.stored b)
  | seek | copy | forward | giveUp | restart => exact h.of_stored rfl fun b => .inl rfl

theorem passed_produce (h : Passed number bucket r) (x : α)
    (hnumber : ∀ y ∈ r.produced, number y < number x) :
    Passed number bucket { r with
      produced := r.produced ++ [x]
      stored := Function.update r.stored (bucket x) (r.stored (bucket x) ++ [x]) } := by
  refine ⟨h.numbered, ?_, h.cursor, h.items, ?_, ?_⟩
  · intro y hy
    exact List.mem_append_left _ (h.produced y hy)
  · intro xs b hcopied hcursor
    have hprefix := h.copied xs b hcopied hcursor
    simp only [Function.update_apply]
    split
    case isTrue hb => exact (hb ▸ hprefix).trans (List.prefix_append _ _)
    case isFalse => exact hprefix
  · intro y hy z hz
    simp only [Function.update_apply] at hz
    split at hz
    case isTrue hb =>
        rcases List.mem_append.mp hz with hz | hz
        · exact h.removed y hy z (hb ▸ hz)
        · -- the new item comes after everything produced so far
          have hsub : r.forwarded ++ r.batch.removed ⊆ r.passed :=
            (r.batch.removed_sublist_items.append_left r.forwarded).subset
          rw [List.mem_singleton.mp hz]
          exact hnumber y (h.produced y (hsub hy))
    case isFalse => exact h.removed y hy z hz

theorem passed_take (h : Passed number bucket r) {b : ν} {xs : List α}
    (hcursor : r.cursor = some b) (hbatch : r.batch = .copied xs) :
    Passed number bucket { r with
      batch := .taken xs, stored := Function.update r.stored b [] } := by
  have hitems : r.batch.items = xs := by rw [hbatch]; rfl
  have hpassed : r.passed = r.forwarded ++ xs := by rw [passed, hitems]
  have hnumbered := h.numbered
  have hproduced := h.produced
  have hbucket := h.items
  rw [hpassed] at hnumbered hproduced
  rw [hitems] at hbucket
  refine ⟨hnumbered, hproduced, h.cursor, hbucket, by simp, ?_⟩
  intro x hx y hy
  simp only [Function.update_apply] at hy
  split at hy
  · cases hy
  case isFalse hne =>
      rcases List.mem_append.mp hx with hx | hx
      · exact h.removed x (List.mem_append_left _ hx) y hy
      · -- the items taken out are all of the bucket that was emptied
        exact absurd (Option.some.inj ((hbucket x hx).symm.trans hcursor)) hne

theorem passed_move (h : Ordered number bucket r) (hmove : Move number bucket r r') :
    Passed number bucket r' := by
  have hforwarded : ∀ x ∈ r.forwarded, x ∈ r.produced := fun x hx => h.passed.of_forwarded hx
  cases hmove with
  | produce x hnumber _ => exact passed_produce h.passed x hnumber
  | seek b hlatest =>
      refine h.passed.of_idle rfl rfl rfl (fun c => .inl rfl) ?_
      rintro c ⟨⟩ x hx
      exact hlatest x (hforwarded x hx)
  | copy b hcursor => exact passed_copy h.passed h.produced h.stored hcursor
  | take b xs hcursor hbatch => exact passed_take h.passed hcursor hbatch
  | forward x rest hbatch => exact passed_forward h.passed hbatch
  | giveUp => exact h.passed.of_idle rfl rfl rfl (fun c => .inl rfl) h.passed.cursor
  | discard b hbatch =>
      exact h.passed.of_idle hbatch rfl rfl (update_nil_or r.stored b) h.passed.cursor
  | restart => exact h.passed.of_idle rfl rfl rfl (fun c => .inl rfl) (by simp)

/-! ### Any number of moves -/

theorem ordered_move (h : Ordered number bucket r) (hmove : Move number bucket r r') :
    Ordered number bucket r' :=
  ⟨produced_move h.produced hmove, stored_move h.stored hmove, passed_move h hmove⟩

theorem ordered_moves (h : Ordered number bucket r) (hmoves : Moves number bucket r r') :
    Ordered number bucket r' := by
  induction hmoves with
  | refl => exact h
  | tail _ hmove ih => exact ordered_move ih hmove

end Moves

end Relay

end EmsGateway.Library
