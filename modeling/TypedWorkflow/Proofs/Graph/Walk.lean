import Mathlib.Data.List.Nodup
import Mathlib.Logic.Relation
import TypedWorkflow.Graph.Order

/-!
# Depth-first walks

A walk keeps a stack of nodes to be looked at, on which a node may stand several times. What a step
does depends only on the node on top: it is discovered and its new targets are put above it, or it
is finished, or it is passed over. Four things hold between the steps, and carry the order that is
read off the walk:

* a node that is discovered and not finished, which we call open, is on the stack;
* from where it first stands on the stack, an open node reaches every node above it, and all its
  targets are discovered or above it;
* so a target that is not finished when its source is reaches the source;
* and if a link leads from a node to one finished later, then the later one reaches the earlier.

The links are not assumed to be free of cycles. A walk ends within its bound, since each step takes
a node off the stack or pays for what it puts there with the links of a node it discovers.

## Main definitions

* `Digraph.Linked`, `Digraph.Reaches`, `Digraph.OnCycle`: one link, and sequences of links.
* `Digraph.Step`: what one step can do.
* `Digraph.Walk.Sound`: what holds between steps.
* `Digraph.FinishOrder`, `Digraph.walkAll_cases`: what the finishing order tells, and that the walk
  from all nodes gives one unless a node links to itself.
-/

namespace TypedWorkflow.Digraph

variable {g : Digraph}

/-! ## Links -/

/-- A link leads from the first node to the second. -/
def Linked (g : Digraph) (a b : String) : Prop :=
  ∃ l ∈ g.links, l.sourceId = a ∧ l.targetId = b

/-- A sequence of links, perhaps of none, leads from the first node to the second. -/
def Reaches (g : Digraph) : String → String → Prop :=
  Relation.ReflTransGen g.Linked

/-- A sequence of links leads from a node back to itself. -/
def OnCycle (g : Digraph) (id : String) : Prop :=
  Relation.TransGen g.Linked id id

/-- Links have both ends among the ids. -/
def Closed (g : Digraph) : Prop :=
  ∀ l ∈ g.links, l.sourceId ∈ g.ids ∧ l.targetId ∈ g.ids

theorem Closed.of_linked (hg : g.Closed) {a b : String} (h : g.Linked a b) :
    a ∈ g.ids ∧ b ∈ g.ids := by
  obtain ⟨l, hl, rfl, rfl⟩ := h
  exact hg l hl

theorem mem_targetsOf_iff {a b : String} : b ∈ g.targetsOf a ↔ g.Linked a b := by
  simp [targetsOf, linksOutOf, Linked, and_assoc]

theorem mem_sourcesOf_iff {a b : String} : a ∈ g.sourcesOf b ↔ g.Linked a b := by
  simp only [sourcesOf, linksInto, List.mem_map, List.mem_filter, List.mem_reverse, beq_iff_eq,
    Linked]
  constructor
  · rintro ⟨l, ⟨hl, htarget⟩, hsource⟩
    exact ⟨l, hl, hsource, htarget⟩
  · rintro ⟨l, hl, hsource, htarget⟩
    exact ⟨l, ⟨hl, htarget⟩, hsource⟩

theorem linksToItself_iff {id : String} : g.linksToItself id = true ↔ g.Linked id id := by
  rw [linksToItself, List.contains_iff_mem, mem_targetsOf_iff]

theorem length_targetsOf (g : Digraph) (id : String) :
    (g.targetsOf id).length = g.links.countP fun l => l.sourceId = id := by
  rw [targetsOf, List.length_map, linksOutOf, ← List.countP_eq_length_filter, List.countP_reverse]
  rfl

/-! ## One step -/

/-- What a step of a walk can do with the node on top of the stack. -/
inductive Step (g : Digraph) : Walk → Except String Walk → Prop where
  | loop {discovered finished rest : List String} {id : String} (hnew : id ∉ discovered)
      (hloop : g.Linked id id) : Step g ⟨discovered, finished, id :: rest⟩ (.error id)
  | discover {discovered finished rest next : List String} {id : String} (hnew : id ∉ discovered)
      (hloop : ¬ g.Linked id id)
      (hnext : ∀ x, x ∈ next ↔ g.Linked id x ∧ x ∉ id :: discovered)
      (hlength : next.length ≤ g.links.countP fun l => l.sourceId = id) :
      Step g ⟨discovered, finished, id :: rest⟩
        (.ok ⟨id :: discovered, finished, next ++ id :: rest⟩)
  | skip {discovered finished rest : List String} {id : String} (hold : id ∈ discovered)
      (hdone : id ∈ finished) :
      Step g ⟨discovered, finished, id :: rest⟩ (.ok ⟨discovered, finished, rest⟩)
  | finish {discovered finished rest : List String} {id : String} (hold : id ∈ discovered)
      (hopen : id ∉ finished) :
      Step g ⟨discovered, finished, id :: rest⟩ (.ok ⟨discovered, id :: finished, rest⟩)

theorem step_cons (g : Digraph) (discovered finished rest : List String) (id : String) :
    Step g ⟨discovered, finished, id :: rest⟩ (g.step ⟨discovered, finished, id :: rest⟩) := by
  simp only [step, List.contains_eq_mem]
  by_cases hold : id ∈ discovered
  · by_cases hdone : id ∈ finished
    · simpa [hold, hdone] using Step.skip hold hdone
    · simpa [hold, hdone] using Step.finish hold hdone
  · by_cases hloop : g.Linked id id
    · simpa [hold, linksToItself_iff.2 hloop] using Step.loop hold hloop
    · have hitself : g.linksToItself id = false := by
        rw [← Bool.not_eq_true, linksToItself_iff]
        exact hloop
      simp only [hold, hitself, decide_false, Bool.not_false, if_true, Bool.false_eq_true, if_false]
      refine .discover hold hloop ?_ ?_
      · intro x
        simp [mem_targetsOf_iff]
      · rw [List.length_reverse, ← length_targetsOf]
        exact List.length_filter_le _ _

namespace Walk

/-! ## The bound -/

/-- How many steps are left at most: the nodes on the stack, the nodes not discovered, and the links
out of them, each of which may put a node on the stack. -/
def budget (g : Digraph) (w : Walk) : Nat :=
  w.stack.length + g.ids.countP (· ∉ w.discovered) +
    g.links.countP fun l => l.sourceId ∉ w.discovered

/-- Discovering a node takes it, and nothing else, from what is not discovered. -/
theorem countP_discover {α : Type} (f : α → String) (xs : List α) {discovered : List String}
    {id : String} (hnew : id ∉ discovered) :
    xs.countP (fun x => f x ∉ id :: discovered) + xs.countP (fun x => f x = id) =
      xs.countP fun x => f x ∉ discovered := by
  induction xs with
  | nil => rfl
  | cons x xs ih =>
    simp only [List.countP_cons, ← ih]
    by_cases hx : f x = id
    · have hfresh : f x ∉ discovered := hx ▸ hnew
      grind
    · grind

theorem budget_lt_of_step {w w' : Walk} (hstack : w.stack ⊆ g.ids) (h : Step g w (.ok w')) :
    w'.budget g < w.budget g := by
  cases h with
  | @discover discovered finished rest next id hnew hloop hnext hlength =>
    have hids := countP_discover (fun x => x) g.ids hnew
    have hlinks := countP_discover Link.sourceId g.links hnew
    have hpos : 0 < g.ids.countP fun x => x = id :=
      List.countP_pos_iff.2 ⟨id, hstack (List.mem_cons_self ..), by simp⟩
    simp only [budget, List.length_append, List.length_cons]
    omega
  | skip hold hdone => simp [budget]
  | finish hold hopen => simp [budget]

/-! ## Between steps -/

/-- What holds between the steps of a walk. -/
structure Sound (g : Digraph) (w : Walk) : Prop where
  discovered_subset : w.discovered ⊆ g.ids
  stack_subset : w.stack ⊆ g.ids
  finished_subset : w.finished ⊆ w.discovered
  nodup_finished : w.finished.Nodup
  noLoop : ∀ id ∈ w.discovered, ¬ g.Linked id id
  /-- An open node is on the stack. -/
  mem_stack : ∀ id ∈ w.discovered, id ∉ w.finished → id ∈ w.stack
  /-- From where it first stands, an open node reaches every node above it. -/
  reaches_above : ∀ above id below, w.stack = above ++ id :: below → id ∉ above →
    id ∈ w.discovered → id ∉ w.finished → ∀ x ∈ above, g.Reaches id x
  /-- The targets of an open node are discovered or above where it first stands. -/
  targets_above : ∀ above id below, w.stack = above ++ id :: below → id ∉ above →
    id ∈ w.discovered → id ∉ w.finished → ∀ x, g.Linked id x → x ∈ w.discovered ∨ x ∈ above
  /-- A target that is not finished when its source is leads back. -/
  reaches_back : ∀ id ∈ w.finished, ∀ x, g.Linked id x → x ∉ w.finished → g.Reaches x id
  /-- A link to a node finished later leads into a cycle. -/
  reaches_later : w.finished.Pairwise fun later earlier =>
    g.Linked earlier later → g.Reaches later earlier

/-- Every open node reaches the node on top. -/
theorem Sound.reaches_top {discovered finished rest : List String} {id : String}
    (hw : Sound g ⟨discovered, finished, id :: rest⟩) {x : String} (hx : x ∈ discovered)
    (hopen : x ∉ finished) : g.Reaches x id := by
  by_cases hid : x = id
  · subst hid
    exact .refl
  · have hrest : x ∈ rest := by
      have hmem : x ∈ id :: rest := hw.mem_stack x hx hopen
      exact (List.mem_cons.1 hmem).resolve_left hid
    obtain ⟨above, below, rfl, hfirst⟩ := List.eq_append_cons_of_mem hrest
    refine hw.reaches_above (id :: above) x below rfl ?_ hx hopen id (List.mem_cons_self ..)
    simp [hid, hfirst]

theorem Sound.discover {discovered finished rest next : List String} {id : String}
    (hg : g.Closed) (hw : Sound g ⟨discovered, finished, id :: rest⟩) (hnew : id ∉ discovered)
    (hloop : ¬ g.Linked id id) (hnext : ∀ x, x ∈ next ↔ g.Linked id x ∧ x ∉ id :: discovered) :
    Sound g ⟨id :: discovered, finished, next ++ id :: rest⟩ := by
  have hid : id ∈ g.ids := hw.stack_subset (List.mem_cons_self ..)
  -- the first place of an open node is below the nodes put on top, which are all new
  have hsplit : ∀ above x below, next ++ id :: rest = above ++ x :: below → x ∈ id :: discovered →
      ∃ upper, above = next ++ upper ∧ id :: rest = upper ++ x :: below := by
    intro above x below heq hx
    rcases List.append_eq_append_iff.1 heq with ⟨upper, rfl, hrest⟩ | ⟨lower, rfl, hrest⟩
    · exact ⟨upper, rfl, hrest⟩
    · cases lower with
      | nil => exact ⟨[], by simp, by simpa using hrest.symm⟩
      | cons y lower =>
        obtain ⟨rfl, -⟩ := List.cons.inj hrest
        have hmem : x ∈ above ++ x :: lower := by simp
        exact absurd hx ((hnext x).1 hmem).2
  constructor
  case discovered_subset => exact List.cons_subset.2 ⟨hid, hw.discovered_subset⟩
  case stack_subset =>
    refine List.append_subset.2 ⟨?_, hw.stack_subset⟩
    intro x hx
    exact (hg.of_linked ((hnext x).1 hx).1).2
  case finished_subset => exact List.subset_cons_of_subset id hw.finished_subset
  case nodup_finished => exact hw.nodup_finished
  case noLoop => exact List.forall_mem_cons.2 ⟨hloop, hw.noLoop⟩
  case mem_stack =>
    intro x hx hopen
    rcases List.mem_cons.1 hx with rfl | hx
    · simp
    · exact List.mem_append_right next (hw.mem_stack x hx hopen)
  case reaches_above =>
    intro above x below heq hfirst hx hopen y hy
    obtain ⟨upper, rfl, hrest⟩ := hsplit above x below heq hx
    have hupper : x ∉ upper := fun h => hfirst (List.mem_append_right next h)
    by_cases hxid : x = id
    · subst hxid
      obtain rfl : upper = [] := by
        cases upper with
        | nil => rfl
        | cons z upper =>
          obtain ⟨rfl, -⟩ := List.cons.inj hrest
          simp at hupper
      rw [List.append_nil] at hy
      exact .single ((hnext y).1 hy).1
    · have hold : x ∈ discovered := (List.mem_cons.1 hx).resolve_left hxid
      rcases List.mem_append.1 hy with hy | hy
      · exact (hw.reaches_top hold hopen).tail ((hnext y).1 hy).1
      · exact hw.reaches_above upper x below hrest hupper hold hopen y hy
  case targets_above =>
    intro above x below heq hfirst hx hopen y hlink
    obtain ⟨upper, rfl, hrest⟩ := hsplit above x below heq hx
    have hupper : x ∉ upper := fun h => hfirst (List.mem_append_right next h)
    by_cases hy : y ∈ id :: discovered
    · exact .inl hy
    · refine .inr (List.mem_append.2 ?_)
      by_cases hxid : x = id
      · subst hxid
        exact .inl ((hnext y).2 ⟨hlink, hy⟩)
      · have hold : x ∈ discovered := (List.mem_cons.1 hx).resolve_left hxid
        have htarget := hw.targets_above upper x below hrest hupper hold hopen y hlink
        exact .inr (htarget.resolve_left fun h => hy (List.mem_cons_of_mem id h))
  case reaches_back => exact hw.reaches_back
  case reaches_later => exact hw.reaches_later

/-- Taking the top off keeps what holds of the open nodes, if it is discovered and open no more. -/
theorem Sound.pop {discovered finished finished' rest : List String} {id : String}
    (hw : Sound g ⟨discovered, finished, id :: rest⟩) (hold : id ∈ discovered)
    (hdone : id ∈ finished') (hmore : finished ⊆ finished') (hsubset : finished' ⊆ discovered)
    (hnodup : finished'.Nodup)
    (hback : ∀ id ∈ finished', ∀ x, g.Linked id x → x ∉ finished' → g.Reaches x id)
    (hlater : finished'.Pairwise fun later earlier =>
      g.Linked earlier later → g.Reaches later earlier) :
    Sound g ⟨discovered, finished', rest⟩ := by
  have hne : ∀ x, x ∉ finished' → x ≠ id := by
    rintro x hx rfl
    exact hx hdone
  constructor
  case discovered_subset => exact hw.discovered_subset
  case stack_subset => exact (List.cons_subset.1 hw.stack_subset).2
  case finished_subset => exact hsubset
  case nodup_finished => exact hnodup
  case noLoop => exact hw.noLoop
  case mem_stack =>
    intro x hx hopen
    have hmem : x ∈ id :: rest := hw.mem_stack x hx fun h => hopen (hmore h)
    exact (List.mem_cons.1 hmem).resolve_left (hne x hopen)
  case reaches_above =>
    intro above x below heq hfirst hx hopen y hy
    have hfirst' : x ∉ id :: above := by simp [hne x hopen, hfirst]
    exact hw.reaches_above (id :: above) x below (congrArg (id :: ·) heq) hfirst' hx
      (fun h => hopen (hmore h)) y (List.mem_cons_of_mem id hy)
  case targets_above =>
    intro above x below heq hfirst hx hopen y hlink
    have hfirst' : x ∉ id :: above := by simp [hne x hopen, hfirst]
    rcases hw.targets_above (id :: above) x below (congrArg (id :: ·) heq) hfirst' hx
      (fun h => hopen (hmore h)) y hlink with hy | hy
    · exact .inl hy
    · rcases List.mem_cons.1 hy with rfl | hy
      · exact .inl hold
      · exact .inr hy
  case reaches_back => exact hback
  case reaches_later => exact hlater

theorem Sound.skip {discovered finished rest : List String} {id : String}
    (hw : Sound g ⟨discovered, finished, id :: rest⟩) (hold : id ∈ discovered)
    (hdone : id ∈ finished) : Sound g ⟨discovered, finished, rest⟩ :=
  hw.pop hold hdone (List.Subset.refl _) hw.finished_subset hw.nodup_finished hw.reaches_back
    hw.reaches_later

theorem Sound.finish {discovered finished rest : List String} {id : String}
    (hw : Sound g ⟨discovered, finished, id :: rest⟩) (hold : id ∈ discovered)
    (hopen : id ∉ finished) : Sound g ⟨discovered, id :: finished, rest⟩ := by
  refine hw.pop hold (List.mem_cons_self ..) (List.subset_cons_self id finished)
    (List.cons_subset.2 ⟨hold, hw.finished_subset⟩)
    (List.nodup_cons.2 ⟨hopen, hw.nodup_finished⟩) ?_ ?_
  · intro x hx y hlink hy
    have hyopen : y ∉ finished := fun h => hy (List.mem_cons_of_mem id h)
    rcases List.mem_cons.1 hx with rfl | hx
    · have hdiscovered : y ∈ discovered :=
        (hw.targets_above [] x rest rfl (by simp) hold hopen y hlink).resolve_right (by simp)
      exact hw.reaches_top hdiscovered hyopen
    · exact hw.reaches_back x hx y hlink hyopen
  · refine List.pairwise_cons.2 ⟨?_, hw.reaches_later⟩
    intro x hx hlink
    exact hw.reaches_back x hx id hlink hopen

theorem Sound.step {w w' : Walk} (hg : g.Closed) (hw : w.Sound g) (h : Step g w (.ok w')) :
    w'.Sound g := by
  cases h with
  | discover hnew hloop hnext hlength => exact hw.discover hg hnew hloop hnext
  | skip hold hdone => exact hw.skip hold hdone
  | finish hold hopen => exact hw.finish hold hopen

/-- A step loses nothing: what is discovered stays so, what is on the stack stays there or is
discovered. -/
theorem subset_of_step {w w' : Walk} (h : Step g w (.ok w')) :
    w.discovered ⊆ w'.discovered ∧ w.stack ⊆ w'.stack ++ w'.discovered := by
  cases h with
  | discover hnew hloop hnext hlength =>
    refine ⟨List.subset_cons_self _ _, ?_⟩
    intro x hx
    exact List.mem_append_left _ (List.mem_append_right _ hx)
  | skip hold hdone =>
    refine ⟨List.Subset.refl _, ?_⟩
    intro x hx
    rcases List.mem_cons.1 hx with rfl | hx
    · exact List.mem_append_right _ hold
    · exact List.mem_append_left _ hx
  | finish hold hopen =>
    refine ⟨List.Subset.refl _, ?_⟩
    intro x hx
    rcases List.mem_cons.1 hx with rfl | hx
    · exact List.mem_append_right _ hold
    · exact List.mem_append_left _ hx

end Walk

/-! ## Whole walks -/

/-- The walk has come to its end: nothing is left to be looked at, and all that was discovered or on
the stack before is discovered. -/
structure Ends (g : Digraph) (w w' : Walk) : Prop where
  sound : w'.Sound g
  stack_eq : w'.stack = []
  discovered : w.discovered ⊆ w'.discovered
  stack : w.stack ⊆ w'.discovered

/-- A walk ends within its bound, or with a node that links to itself. -/
theorem walk_cases (hg : g.Closed) {fuel : Nat} {w : Walk} (hw : w.Sound g)
    (hfuel : w.budget g ≤ fuel) :
    (∃ w', g.walk fuel w = .ok w' ∧ g.Ends w w') ∨
      ∃ id ∈ g.ids, g.Linked id id ∧ g.walk fuel w = .error id := by
  induction fuel generalizing w with
  | zero =>
    have hstack : w.stack = [] := by
      rw [← List.length_eq_zero_iff]
      rw [Walk.budget] at hfuel
      omega
    exact .inl ⟨w, rfl, hw, hstack, List.Subset.refl _, by simp [hstack]⟩
  | succ fuel ih =>
    obtain ⟨discovered, finished, stack⟩ := w
    cases stack with
    | nil => exact .inl ⟨_, rfl, hw, rfl, List.Subset.refl _, List.nil_subset _⟩
    | cons id rest =>
      have hstep := g.step_cons discovered finished rest id
      have hwalk : g.walk (fuel + 1) ⟨discovered, finished, id :: rest⟩ =
          (g.step ⟨discovered, finished, id :: rest⟩ >>= g.walk fuel) := rfl
      rw [hwalk]
      generalize g.step ⟨discovered, finished, id :: rest⟩ = result at hstep
      cases result with
      | error x =>
        cases hstep with
        | loop _ hloop => exact .inr ⟨id, hw.stack_subset (List.mem_cons_self ..), hloop, rfl⟩
      | ok w' =>
        have hbudget := Walk.budget_lt_of_step hw.stack_subset hstep
        obtain ⟨hdiscovered, hstack⟩ := Walk.subset_of_step hstep
        rcases ih (hw.step hg hstep) (by omega) with ⟨w'', hw'', hends⟩ | hloop
        · refine .inl ⟨w'', hw'', hends.sound, hends.stack_eq,
            List.Subset.trans hdiscovered hends.discovered, ?_⟩
          intro x hx
          rcases List.mem_append.1 (hstack hx) with hx | hx
          · exact hends.stack hx
          · exact hends.discovered hx
        · exact .inr hloop

/-- A walk that has ended may start again from another node. -/
theorem Walk.Sound.restart {w : Walk} (hw : w.Sound g) (hstack : w.stack = []) {id : String}
    (hid : id ∈ g.ids) : Sound g { w with stack := [id] } := by
  have hclosed : ∀ x ∈ w.discovered, x ∈ w.finished := by
    intro x hx
    by_contra hopen
    have hmem := hw.mem_stack x hx hopen
    simp [hstack] at hmem
  constructor
  case discovered_subset => exact hw.discovered_subset
  case stack_subset => simpa using hid
  case finished_subset => exact hw.finished_subset
  case nodup_finished => exact hw.nodup_finished
  case noLoop => exact hw.noLoop
  case mem_stack =>
    intro x hx hopen
    exact absurd (hclosed x hx) hopen
  case reaches_above =>
    intro above x below heq hfirst hx hopen
    exact absurd (hclosed x hx) hopen
  case targets_above =>
    intro above x below heq hfirst hx hopen
    exact absurd (hclosed x hx) hopen
  case reaches_back => exact hw.reaches_back
  case reaches_later => exact hw.reaches_later

theorem Walk.budget_restart_le (w : Walk) (id : String) :
    Walk.budget g { w with stack := [id] } ≤ g.walkBound := by
  have hids := List.countP_le_length (l := g.ids) (p := fun x => decide (x ∉ w.discovered))
  have hlinks := List.countP_le_length (l := g.links)
    (p := fun l => decide (l.sourceId ∉ w.discovered))
  simp only [budget, walkBound, List.length_cons, List.length_nil]
  omega

theorem walkAll_cases_of_sound (hg : g.Closed) {ids : List String} (hids : ids ⊆ g.ids) {w : Walk}
    (hw : w.Sound g) (hstack : w.stack = []) :
    (∃ w', g.walkAll w ids = .ok w' ∧ w'.Sound g ∧ w'.stack = [] ∧
        w.discovered ⊆ w'.discovered ∧ ids ⊆ w'.discovered) ∨
      ∃ id ∈ g.ids, g.Linked id id ∧ g.walkAll w ids = .error id := by
  induction ids generalizing w with
  | nil => exact .inl ⟨w, rfl, hw, hstack, List.Subset.refl _, List.nil_subset _⟩
  | cons id ids ih =>
    obtain ⟨hid, hrest⟩ := List.cons_subset.1 hids
    by_cases hold : id ∈ w.discovered
    · have hskip : g.walkAll w (id :: ids) = g.walkAll w ids := by simp [walkAll, hold]
      rw [hskip]
      rcases ih hrest hw hstack with ⟨w', hw', hsound, hempty, hdiscovered, hall⟩ | hloop
      · exact .inl ⟨w', hw', hsound, hempty, hdiscovered,
          List.cons_subset.2 ⟨hdiscovered hold, hall⟩⟩
      · exact .inr hloop
    · have hwalk : g.walkAll w (id :: ids) =
          (g.walk g.walkBound { w with stack := [id] } >>= fun w => g.walkAll w ids) := by
        simp [walkAll, hold]
      rw [hwalk]
      rcases walk_cases hg (hw.restart hstack hid) (w.budget_restart_le id) with
        ⟨w₁, hw₁, hends⟩ | ⟨x, hx, hloop, herror⟩
      · rw [hw₁]
        rcases ih hrest hends.sound hends.stack_eq with
          ⟨w', hw', hsound, hempty, hdiscovered, hall⟩ | hloop
        · refine .inl ⟨w', hw', hsound, hempty,
            List.Subset.trans hends.discovered hdiscovered, ?_⟩
          exact List.cons_subset.2 ⟨hdiscovered (hends.stack (List.mem_cons_self ..)), hall⟩
        · exact .inr hloop
      · rw [herror]
        exact .inr ⟨x, hx, hloop, rfl⟩

/-! ## The finishing order -/

/-- What the reverse of the finishing order of all nodes tells: it lists the nodes, none of them
links to itself, and a link from a node to one finished later leads into a cycle. -/
structure FinishOrder (g : Digraph) (order : List String) : Prop where
  nodup : order.Nodup
  mem_iff : ∀ id, id ∈ order ↔ id ∈ g.ids
  noLoop : ∀ id ∈ order, ¬ g.Linked id id
  reaches_later : order.Pairwise fun later earlier =>
    g.Linked earlier later → g.Reaches later earlier

/-- The walk from all nodes gives a finishing order, or finds a node that links to itself. -/
theorem walkAll_cases (hg : g.Closed) :
    (∃ w, g.walkAll ⟨[], [], []⟩ g.ids = .ok w ∧ g.FinishOrder w.finished) ∨
      ∃ id ∈ g.ids, g.Linked id id ∧ g.walkAll ⟨[], [], []⟩ g.ids = .error id := by
  have hstart : Walk.Sound g ⟨[], [], []⟩ := by
    constructor <;> simp
  rcases walkAll_cases_of_sound hg (List.Subset.refl _) hstart rfl with
    ⟨w, hw, hsound, hstack, -, hall⟩ | hloop
  · refine .inl ⟨w, hw, hsound.nodup_finished, ?_, ?_, hsound.reaches_later⟩
    · intro id
      constructor
      · intro hid
        exact hsound.discovered_subset (hsound.finished_subset hid)
      · intro hid
        by_contra hopen
        have hmem := hsound.mem_stack id (hall hid) hopen
        simp [hstack] at hmem
    · intro id hid
      exact hsound.noLoop id (hsound.finished_subset hid)
  · exact .inr hloop

end TypedWorkflow.Digraph
