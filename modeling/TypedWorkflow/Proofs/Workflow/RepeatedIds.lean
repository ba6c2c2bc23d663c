import Mathlib.Data.List.Perm.Basic
import Mathlib.Order.Basic
import TypedWorkflow.Workflow.Validator

/-!
# Repeated ids

The ids of a level are read once, with the ids met so far and those reported so far at hand. What is
said of this without the reading: every id that occurs more than once is reported once, and the
reports are in the order of the second occurrences. There is only one such list.

## Main definitions

* `SecondAt`, `Repeats`: second occurrences, and the list of the ids that have one.
* `Repeats.unique`: there is only one such list.
* `Validator.repeats_repeatedIds`: the validator finds it.
-/

namespace TypedWorkflow

/-! ## Second occurrences -/

/-- An id stands at a position for the second time. -/
def SecondAt (ids : List String) (k : Nat) (id : String) : Prop :=
  ids[k]? = some id ∧ (ids.take k).count id = 1

/-- The ids that occur more than once, each of them once, in the order of their second
occurrences. -/
structure Repeats (ids repeated : List String) : Prop where
  nodup : repeated.Nodup
  mem_iff : ∀ id, id ∈ repeated ↔ 2 ≤ ids.count id
  ordered : repeated.Pairwise fun a b => ∀ j k, SecondAt ids j a → SecondAt ids k b → j < k

theorem count_take_succ {ids : List String} {k : Nat} {id : String} (h : ids[k]? = some id) :
    (ids.take (k + 1)).count id = (ids.take k).count id + 1 := by
  simp [List.take_add_one, h]

theorem count_take_mono (ids : List String) (id : String) {j k : Nat} (h : j ≤ k) :
    (ids.take j).count id ≤ (ids.take k).count id :=
  (List.take_sublist_take_left h).count_le id

/-- The second occurrence comes before every later one. -/
theorem SecondAt.lt_of_count {ids : List String} {j k : Nat} {id : String} (h : SecondAt ids j id)
    (hk : 2 ≤ (ids.take k).count id) : j < k := by
  by_contra hjk
  have hmono := count_take_mono ids id (Nat.le_of_not_lt hjk)
  have hone := h.2
  omega

theorem SecondAt.unique {ids : List String} {j k : Nat} {id : String} (hj : SecondAt ids j id)
    (hk : SecondAt ids k id) : j = k := by
  have hafterj : (ids.take (j + 1)).count id = 2 := by rw [count_take_succ hj.1, hj.2]
  have hafterk : (ids.take (k + 1)).count id = 2 := by rw [count_take_succ hk.1, hk.2]
  have hjk : j < k + 1 := hj.lt_of_count (by omega)
  have hkj : k < j + 1 := hk.lt_of_count (by omega)
  omega

theorem exists_getElem?_of_lt_count {ids : List String} {n : Nat} {id : String}
    (h : n < ids.count id) : ∃ k, ids[k]? = some id ∧ (ids.take k).count id = n := by
  induction ids generalizing n with
  | nil => simp at h
  | cons x xs ih =>
    by_cases hx : x = id
    · subst hx
      cases n with
      | zero => exact ⟨0, by simp, by simp⟩
      | succ n =>
        rw [List.count_cons_self] at h
        obtain ⟨k, hk, hcount⟩ := ih (n := n) (by omega)
        exact ⟨k + 1, by simpa using hk, by simp [hcount]⟩
    · rw [List.count_cons_of_ne hx] at h
      obtain ⟨k, hk, hcount⟩ := ih h
      exact ⟨k + 1, by simpa using hk, by simp [List.count_cons_of_ne hx, hcount]⟩

/-- Whatever occurs more than once has a second occurrence. -/
theorem exists_secondAt {ids : List String} {id : String} (h : 2 ≤ ids.count id) :
    ∃ k, SecondAt ids k id :=
  exists_getElem?_of_lt_count h

theorem Repeats.unique {ids xs ys : List String} (hxs : Repeats ids xs) (hys : Repeats ids ys) :
    xs = ys := by
  have hperm : xs.Perm ys := by
    rw [List.perm_ext_iff_of_nodup hxs.nodup hys.nodup]
    intro id
    rw [hxs.mem_iff, hys.mem_iff]
  refine List.Perm.eq_of_pairwise ?_ hxs.ordered hys.ordered hperm
  -- no two ids can each have its second occurrence before the other
  intro a b ha hb hab hba
  obtain ⟨j, hj⟩ := exists_secondAt ((hxs.mem_iff a).1 ha)
  obtain ⟨k, hk⟩ := exists_secondAt ((hys.mem_iff b).1 hb)
  have hjk := hab j k hj hk
  have hkj := hba k j hk hj
  omega

/-! ## Reading the ids -/

namespace Validator

/-- The ids met and the ids reported once the first ids have been read. -/
structure Scanned (before seen reported : List String) : Prop where
  seen_iff : ∀ id, id ∈ seen ↔ 1 ≤ before.count id
  reported_iff : ∀ id, id ∈ reported ↔ 2 ≤ before.count id

theorem count_concat (before : List String) (x id : String) :
    (before ++ [x]).count id = before.count id + if x = id then 1 else 0 := by
  simp [List.count_singleton]

/-- An id is reported where it has occurred exactly once before. -/
theorem Scanned.repeatedIds_cons {before seen reported : List String}
    (h : Scanned before seen reported) (id : String) (ids : List String) :
    ∃ seen' reported', Scanned (before ++ [id]) seen' reported' ∧
      repeatedIds seen reported (id :: ids) =
        (if before.count id = 1 then [id] else []) ++ repeatedIds seen' reported' ids := by
  have hseen := h.seen_iff id
  have hreported := h.reported_iff id
  rw [repeatedIds]
  by_cases hfresh : id ∈ seen
  · by_cases hagain : id ∈ reported
    · refine ⟨seen, reported, ⟨?_, ?_⟩, ?_⟩
      · intro x
        rw [h.seen_iff, count_concat]
        grind
      · intro x
        rw [h.reported_iff, count_concat]
        grind
      · have hcount : before.count id ≠ 1 := by grind
        simp [hfresh, hagain, hcount]
    · refine ⟨seen, id :: reported, ⟨?_, ?_⟩, ?_⟩
      · intro x
        rw [h.seen_iff, count_concat]
        grind
      · intro x
        rw [List.mem_cons, h.reported_iff, count_concat]
        grind
      · have hcount : before.count id = 1 := by grind
        simp [hfresh, hagain, hcount]
  · refine ⟨id :: seen, reported, ⟨?_, ?_⟩, ?_⟩
    · intro x
      rw [List.mem_cons, h.seen_iff, count_concat]
      grind
    · intro x
      rw [h.reported_iff, count_concat]
      grind
    · have hcount : before.count id ≠ 1 := by grind
      simp [hfresh, hcount]

/-- From some point on, the ids are reported that have not occurred twice before. -/
theorem Scanned.mem_repeatedIds_iff {before seen reported : List String}
    (h : Scanned before seen reported) (ids : List String) (id : String) :
    id ∈ repeatedIds seen reported ids ↔
      before.count id ≤ 1 ∧ 2 ≤ (before ++ ids).count id := by
  induction ids generalizing before seen reported with
  | nil =>
    rw [repeatedIds, List.append_nil]
    simp only [List.not_mem_nil, false_iff]
    omega
  | cons x ids ih =>
    obtain ⟨seen', reported', hnext, hcons⟩ := h.repeatedIds_cons x ids
    have hstep := count_concat before x id
    have htotal : (before ++ x :: ids).count id = (before ++ [x] ++ ids).count id := by simp
    have hle : (before ++ [x]).count id ≤ (before ++ [x] ++ ids).count id :=
      (List.sublist_append_left _ ids).count_le id
    rw [hcons, List.mem_append, ih hnext, htotal]
    grind

theorem Scanned.nodup_repeatedIds {before seen reported : List String}
    (h : Scanned before seen reported) (ids : List String) :
    (repeatedIds seen reported ids).Nodup := by
  induction ids generalizing before seen reported with
  | nil => exact List.nodup_nil
  | cons x ids ih =>
    obtain ⟨seen', reported', hnext, hcons⟩ := h.repeatedIds_cons x ids
    rw [hcons]
    split
    case isFalse => exact ih hnext
    case isTrue hcount =>
      refine List.nodup_cons.2 ⟨?_, ih hnext⟩
      intro hmem
      have hbefore := ((hnext.mem_repeatedIds_iff ids x).1 hmem).1
      rw [count_concat, if_pos rfl] at hbefore
      omega

/-- An id that is reported here has its second occurrence here, and those reported later have it
later. -/
theorem Scanned.ordered_repeatedIds {before seen reported : List String}
    (h : Scanned before seen reported) (ids : List String) :
    (repeatedIds seen reported ids).Pairwise fun a b =>
      ∀ j k, SecondAt (before ++ ids) j a → SecondAt (before ++ ids) k b → j < k := by
  induction ids generalizing before seen reported with
  | nil => exact List.Pairwise.nil
  | cons x ids ih =>
    obtain ⟨seen', reported', hnext, hcons⟩ := h.repeatedIds_cons x ids
    have hrest := ih hnext
    rw [List.append_assoc, List.singleton_append] at hrest
    rw [hcons]
    split
    case isFalse => exact hrest
    case isTrue hcount =>
      refine List.pairwise_cons.2 ⟨?_, hrest⟩
      intro b hb j k hj hk
      have hx : SecondAt (before ++ x :: ids) before.length x := by simp [SecondAt, hcount]
      obtain rfl : j = before.length := hj.unique hx
      have hbefore := ((hnext.mem_repeatedIds_iff ids b).1 hb).1
      by_contra hkj
      have hmono := count_take_mono (before ++ x :: ids) b
        (show k + 1 ≤ before.length + 1 by omega)
      rw [count_take_succ hk.1, hk.2] at hmono
      have htake : (before ++ x :: ids).take (before.length + 1) = before ++ [x] := by
        rw [List.take_length_add_append, List.take_succ_cons, List.take_zero]
      rw [htake] at hmono
      omega

/-- The validator finds the repeated ids. -/
theorem repeats_repeatedIds (ids : List String) : Repeats ids (repeatedIds [] [] ids) := by
  have hstart : Scanned [] [] [] := ⟨by simp, by simp⟩
  refine ⟨hstart.nodup_repeatedIds ids, ?_, hstart.ordered_repeatedIds ids⟩
  intro id
  simpa using hstart.mem_repeatedIds_iff ids id

end Validator

end TypedWorkflow
