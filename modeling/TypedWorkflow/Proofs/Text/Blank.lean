import Mathlib.Data.List.TakeWhile
import TypedWorkflow.Text.Blank

/-!
# Blanks around a text and the case of its letters

Trimming takes off the blanks at both ends of a text and no more. ASCII letters in lower case are
what they are in upper case as far as blanks are concerned, and no other character changes, so the
two can be done in any order.

## Main definitions

* `Text.Blanks`, `Text.Solid`: runs of blanks, and texts with none at their ends.
* `Text.Solid.trim_eq`, `Text.exists_eq_append_trim`: what trimming takes off.
* `Text.trim_map_toLower`: trimming and lower case.
-/

namespace TypedWorkflow.Text

/-! ## Trimming -/

/-- A run of blanks, perhaps of none. -/
def Blanks (cs : List Char) : Prop :=
  ∀ c ∈ cs, isBlank c = true

theorem blanks_nil : Blanks [] := by
  simp [Blanks]

/-- A text that is not empty and has no blank at either end. -/
structure Solid (cs : List Char) : Prop where
  ne_nil : cs ≠ []
  head : ∀ c ∈ cs.head?, isBlank c = false
  last : ∀ c ∈ cs.getLast?, isBlank c = false

theorem trimStart_append {before : List Char} (h : Blanks before) (cs : List Char) :
    trimStart (before ++ cs) = trimStart cs :=
  List.dropWhile_append_of_pos h

theorem trimEnd_append {after : List Char} (h : Blanks after) (cs : List Char) :
    trimEnd (cs ++ after) = trimEnd cs := by
  have hreverse : ∀ c ∈ after.reverse, isBlank c = true := by
    intro c hc
    exact h c (List.mem_reverse.1 hc)
  rw [trimEnd, List.reverse_append, List.dropWhile_append_of_pos hreverse, ← trimEnd]

theorem trimStart_eq_self {cs : List Char} (h : ∀ c ∈ cs.head?, isBlank c = false) :
    trimStart cs = cs := by
  cases cs with
  | nil => rfl
  | cons c cs => exact List.dropWhile_cons_of_neg (by simp [h c (by simp)])

theorem trimEnd_eq_self {cs : List Char} (h : ∀ c ∈ cs.getLast?, isBlank c = false) :
    trimEnd cs = cs := by
  have hreverse : trimStart cs.reverse = cs.reverse :=
    trimStart_eq_self (by simpa [List.head?_reverse] using h)
  rw [trimEnd, ← trimStart, hreverse, List.reverse_reverse]

/-- The blanks around a solid text are taken off. -/
theorem Solid.trim_eq {before cs after : List Char} (h : Solid cs) (hbefore : Blanks before)
    (hafter : Blanks after) : trim (before ++ cs ++ after) = cs := by
  have hhead : ∀ c ∈ (cs ++ after).head?, isBlank c = false := by
    obtain ⟨d, ds, rfl⟩ := List.exists_cons_of_ne_nil h.ne_nil
    exact h.head
  rw [trim, List.append_assoc, trimStart_append hbefore, trimStart_eq_self hhead,
    trimEnd_append hafter, trimEnd_eq_self h.last]

theorem Solid.trim_eq_self {cs : List Char} (h : Solid cs) : trim cs = cs := by
  simpa using h.trim_eq blanks_nil blanks_nil

theorem exists_eq_append_trimStart (cs : List Char) :
    ∃ before, Blanks before ∧ cs = before ++ trimStart cs := by
  refine ⟨cs.takeWhile isBlank, ?_, List.takeWhile_append_dropWhile.symm⟩
  intro c hc
  exact List.mem_takeWhile_imp hc

theorem exists_eq_trimEnd_append (cs : List Char) :
    ∃ after, Blanks after ∧ cs = trimEnd cs ++ after := by
  obtain ⟨before, hbefore, hcs⟩ := exists_eq_append_trimStart cs.reverse
  refine ⟨before.reverse, ?_, ?_⟩
  · intro c hc
    exact hbefore c (List.mem_reverse.1 hc)
  · rw [trimEnd, ← List.reverse_append, ← trimStart, ← hcs, List.reverse_reverse]

/-- A text is what trimming leaves, with blanks around it. -/
theorem exists_eq_append_trim (cs : List Char) :
    ∃ before after, Blanks before ∧ Blanks after ∧ cs = before ++ trim cs ++ after := by
  obtain ⟨before, hbefore, hcs⟩ := exists_eq_append_trimStart cs
  obtain ⟨after, hafter, hstart⟩ := exists_eq_trimEnd_append (trimStart cs)
  refine ⟨before, after, hbefore, hafter, ?_⟩
  rw [List.append_assoc, trim, ← hstart, ← hcs]

theorem solid_trim {cs : List Char} (h : trim cs ≠ []) : Solid (trim cs) := by
  have hhead (ds : List Char) : ∀ c ∈ (ds.dropWhile isBlank).head?, isBlank c = false := by
    intro c hc
    have hnot := List.head?_dropWhile_not isBlank ds
    rw [hc] at hnot
    exact hnot
  refine ⟨h, ?_, ?_⟩
  · obtain ⟨after, -, hstart⟩ := exists_eq_trimEnd_append (trimStart cs)
    obtain ⟨d, ds, hd⟩ := List.exists_cons_of_ne_nil h
    rw [← trim, hd] at hstart
    intro c hc
    refine hhead cs c ?_
    rw [← trimStart, hstart]
    rwa [hd] at hc
  · intro c hc
    refine hhead (trimStart cs).reverse c ?_
    rwa [trim, trimEnd, List.getLast?_reverse] at hc

@[simp] theorem trim_trim (cs : List Char) : trim (trim cs) = trim cs := by
  by_cases h : trim cs = []
  · rw [h]
    rfl
  · exact (solid_trim h).trim_eq_self

/-! ## Lower case -/

theorem toNat_toLower (c : Char) :
    c.toLower.toNat = if 65 ≤ c.toNat ∧ c.toNat ≤ 90 then c.toNat + 32 else c.toNat := by
  have hrange : (c.val ≥ 'A'.val ∧ c.val ≤ 'Z'.val) ↔ 65 ≤ c.toNat ∧ c.toNat ≤ 90 := by
    rw [ge_iff_le, UInt32.le_iff_toNat_le, UInt32.le_iff_toNat_le]
    exact Iff.rfl
  by_cases h : 65 ≤ c.toNat ∧ c.toNat ≤ 90
  · have hval : c.toLower.val = c.val + ('a'.val - 'A'.val) :=
      congrArg Char.val (dif_pos (hrange.2 h))
    have hsmall : c.val.toNat ≤ 90 := h.2
    rw [if_pos h]
    change c.toLower.val.toNat = c.val.toNat + 32
    rw [hval, UInt32.toNat_add]
    have hshift : ('a'.val - 'A'.val).toNat = 32 := rfl
    omega
  · have hsame : c.toLower = c := dif_neg (mt hrange.1 h)
    rw [if_neg h, hsame]

theorem isBlank_eq_false_of_letter {c : Char}
    (h : 65 ≤ c.toNat ∧ c.toNat ≤ 122) : isBlank c = false := by
  simp [isBlank, blankRanges]
  omega

@[simp] theorem isBlank_toLower (c : Char) : isBlank c.toLower = isBlank c := by
  have hlower := toNat_toLower c
  by_cases h : 65 ≤ c.toNat ∧ c.toNat ≤ 90
  · rw [if_pos h] at hlower
    rw [isBlank_eq_false_of_letter (by omega), isBlank_eq_false_of_letter (by omega)]
  · rw [if_neg h] at hlower
    rw [isBlank, isBlank, hlower]

@[simp] theorem toLower_toLower (c : Char) : c.toLower.toLower = c.toLower := by
  rw [← Char.toNat_inj, toNat_toLower, toNat_toLower]
  grind

/-- Only a letter becomes a lower case letter. -/
theorem toLower_eq_iff {c d : Char} (hd : d.toNat < 97 ∨ 122 < d.toNat)
    (hd' : d.toNat < 65 ∨ 90 < d.toNat) : c.toLower = d ↔ c = d := by
  rw [← Char.toNat_inj, ← Char.toNat_inj, toNat_toLower]
  grind

theorem blanks_map_toLower {cs : List Char} : Blanks (cs.map Char.toLower) ↔ Blanks cs := by
  simp [Blanks]

theorem solid_map_toLower {cs : List Char} : Solid (cs.map Char.toLower) ↔ Solid cs := by
  have hhead : (∀ c ∈ (cs.map Char.toLower).head?, isBlank c = false) ↔
      ∀ c ∈ cs.head?, isBlank c = false := by simp
  have hlast : (∀ c ∈ (cs.map Char.toLower).getLast?, isBlank c = false) ↔
      ∀ c ∈ cs.getLast?, isBlank c = false := by simp
  constructor
  · intro h
    exact ⟨by simpa using h.ne_nil, hhead.1 h.head, hlast.1 h.last⟩
  · intro h
    exact ⟨by simpa using h.ne_nil, hhead.2 h.head, hlast.2 h.last⟩

theorem trim_map_toLower (cs : List Char) :
    trim (cs.map Char.toLower) = (trim cs).map Char.toLower := by
  have hblank : isBlank ∘ Char.toLower = isBlank := by
    funext c
    exact isBlank_toLower c
  rw [trim, trim, trimEnd, trimEnd, trimStart, trimStart, List.dropWhile_map, hblank,
    ← List.map_reverse, List.dropWhile_map, hblank, ← List.map_reverse]

end TypedWorkflow.Text
