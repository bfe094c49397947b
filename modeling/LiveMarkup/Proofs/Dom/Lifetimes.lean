import LiveMarkup.Proofs.Dom.Generations
import LiveMarkup.Proofs.Dom.Reachable

/-!
# Lifetimes of handles

A run of operations passes through trees, also while a patch is under way.  From each of them to the
next a slot is filled or freed at most once, so its generation tells how often it has been freed,
until it has been freed so often that the generations start again.  Up to then, a handle that is no
longer live does not come back.

Main definitions:

- `Dom.history`: the trees that a run passes through.
- `Dom.timesFreed`: how often a slot is freed along a list of trees.
- `Dom.Ages`: what happens to slots from one tree to the next.

Main results:

- `Dom.isChain_history`: the trees of a run age.
- `Dom.not_isLive_of_sublist`: once dead, a handle that was live is dead for good.
-/

namespace LiveMarkup

/-! ## The trees of a run -/

/-- The trees after each of the instructions that a walk follows. -/
def Patcher.steps : Patcher → List Instruction → List Dom
  | _, [] => []
  | p, i :: rest => (i.replay p).dom :: steps (i.replay p) rest

namespace Dom

/-- The trees between the start and the end of an operation: those after each instruction of a
patch, and none for any other operation. -/
def within (d : Dom) : Operation → List Dom
  | .patch target stream =>
    if d.isElement target then Patcher.steps { dom := d, frames := [{ parent := target }] } stream
    else []
  | _ => []

/-- The trees that operations pass through, without the last one. -/
def past (d : Dom) : List Operation → List Dom
  | [] => []
  | op :: rest => d :: (d.within op ++ past (d.perform op) rest)

/-- The trees that operations pass through from the empty tree on. -/
def history (ops : List Operation) : List Dom :=
  past {} ops ++ [ops.foldl perform {}]

variable {d d' : Dom}

theorem past_append (d : Dom) (first second : List Operation) :
    d.past (first ++ second) = d.past first ++ (first.foldl perform d).past second := by
  induction first generalizing d with
  | nil => rfl
  | cons op rest ih => simp [past, ih]

/-- The trees of a run up to an operation, and those from then on. -/
theorem history_append (first second : List Operation) :
    history (first ++ second) = past {} first ++
      ((first.foldl perform {}).past second ++
        [second.foldl perform (first.foldl perform {})]) := by
  rw [history, past_append, List.foldl_append, List.append_assoc]

/-- The trees of a run begin with the one at its start. -/
theorem exists_past_concat (d : Dom) (ops : List Operation) :
    ∃ later, d.past ops ++ [ops.foldl perform d] = d :: later := by
  cases ops with
  | nil => exact ⟨[], rfl⟩
  | cons op rest => exact ⟨_, rfl⟩

/-! ## Ageing -/

/-- From one tree to the next, each slot keeps its node or is filled, or it is freed and goes on to
the next generation. -/
def Ages (d d' : Dom) : Prop :=
  ∀ index,
    d'.generation index = d.generation index ∧
        (d.filled index = true → d'.filled index = true) ∨
      d'.generation index = d.generation index + 1 ∧
        d.filled index = true ∧ d'.filled index = false

theorem Fills.ages (h : d.Fills d') : d.Ages d' :=
  fun index => Or.inl ⟨h.generation_eq index, h.filled index⟩

theorem Frees.ages (h : d.Frees d') : d.Ages d' := by
  intro index
  rcases h index with ⟨hfilled, hgen⟩ | ⟨hfilled, hempty, hgen⟩
  · exact Or.inl ⟨hgen, fun hindex => hfilled.trans hindex⟩
  · exact Or.inr ⟨hgen, hfilled, hempty⟩

/-- An instruction lets the tree age. -/
theorem ages_replay (p : Patcher) (i : Instruction) : p.dom.Ages (i.replay p).dom := by
  cases i with
  | openElement tag key attrs => exact (Patcher.fills_openElement tag key attrs p).ages
  | closeElement tag => exact (Patcher.frees_closeElement tag p).ages
  | text content => exact (Patcher.fills_text content p).ages

/-- The trees of a walk age, up to its end. -/
theorem isChain_steps (p : Patcher) (stream : List Instruction) :
    List.IsChain Ages
      (p.dom :: (p.steps stream ++ [(Instruction.replayAll stream p).finish.2])) := by
  induction stream generalizing p with
  | nil => exact List.isChain_pair.mpr (Patcher.frees_finish p).ages
  | cons i rest ih => exact List.isChain_cons_cons.mpr ⟨ages_replay p i, ih (i.replay p)⟩

/-- An operation other than a patch only fills slots. -/
theorem fills_perform (d : Dom) {op : Operation}
    (hop : ∀ target stream, op ≠ .patch target stream) : d.Fills (d.perform op) := by
  cases op with
  | createElement tag => exact fills_alloc d _
  | createText content => exact fills_alloc d _
  | setAttribute id name value =>
    simp only [perform, setAttribute]
    split
    · exact (Fills.refl d).modify id _
    · exact .refl d
  | appendChild parent child =>
    simp only [perform]
    cases happend : d.appendChild parent child with
    | error e => exact .refl d
    | ok d' =>
      obtain ⟨-, -, -, rfl⟩ := appendChild_eq_ok happend
      exact (Fills.refl d).insertChild _ _ _
  | remove id =>
    simp only [perform, remove]
    split
    · exact (Fills.refl d).detach id
    · exact .refl d
  | parseInto parser parent markup =>
    simp only [perform]
    cases hparse : parseInto parser d parent markup with
    | error e => exact .refl d
    | ok result =>
      obtain ⟨added, d'⟩ := result
      obtain ⟨-, ns, rfl⟩ := parseInto_eq_ok hparse
      exact fills_importUnder d parent ns
  | patch target stream => exact absurd rfl (hop target stream)

/-- The trees of an operation age. -/
theorem isChain_within (d : Dom) (op : Operation) :
    List.IsChain Ages (d :: (d.within op ++ [d.perform op])) := by
  cases op with
  | patch target stream =>
    simp only [within, perform]
    split
    · next helement =>
      rw [patch_of_isElement d helement]
      exact isChain_steps { dom := d, frames := [{ parent := target }] } stream
    · next helement =>
      rw [patch_of_not_isElement d helement]
      exact List.isChain_pair.mpr (Fills.refl d).ages
  | _ => exact List.isChain_pair.mpr (fills_perform d (by rintro _ _ ⟨⟩)).ages

/-- What relates each tree to the next within the operations of a run does so along the whole
run. -/
theorem isChain_past_of {R : Dom → Dom → Prop} {ops : List Operation}
    (hwithin : ∀ earlier op later, ops = earlier ++ op :: later →
      List.IsChain R (earlier.foldl perform d ::
        ((earlier.foldl perform d).within op ++ [(earlier.foldl perform d).perform op]))) :
    List.IsChain R (d.past ops ++ [ops.foldl perform d]) := by
  induction ops generalizing d with
  | nil => exact List.isChain_singleton _
  | cons op rest ih =>
    -- The tree after the operation ends one chain and begins the other.
    obtain ⟨later, hlater⟩ := exists_past_concat (d.perform op) rest
    have hfirst : List.IsChain R ((d :: d.within op) ++ [d.perform op]) := hwithin [] op rest rfl
    have hrest : List.IsChain R ([d.perform op] ++ later) := by
      rw [List.singleton_append, ← hlater]
      refine ih ?_
      rintro earlier op' later' rfl
      exact hwithin (op :: earlier) op' later' rfl
    have hjoined := hfirst.append_overlap hrest (List.cons_ne_nil _ _)
    simpa [past, hlater] using hjoined

theorem isChain_past (d : Dom) (ops : List Operation) :
    List.IsChain Ages (d.past ops ++ [ops.foldl perform d]) :=
  isChain_past_of fun _ op _ _ => isChain_within _ op

/-- The trees of a run age. -/
theorem isChain_history (ops : List Operation) : List.IsChain Ages (history ops) :=
  isChain_past {} ops

/-! ## How often a slot is freed -/

/-- How often a slot is freed along a list of trees: how often it holds a node in one of them, and
none in the next. -/
def timesFreed (index : Nat) : List Dom → Nat
  | d :: d' :: rest =>
    (if d.filled index && !d'.filled index then 1 else 0) + timesFreed index (d' :: rest)
  | _ => 0

theorem timesFreed_le_append (index : Nat) (first second : List Dom) :
    timesFreed index second ≤ timesFreed index (first ++ second) := by
  induction first with
  | nil => exact Nat.le_refl _
  | cons d rest ih =>
    refine ih.trans ?_
    rw [List.cons_append]
    cases rest ++ second with
    | nil => exact Nat.le_refl _
    | cons d' later => exact Nat.le_add_left _ _

theorem timesFreed_le_length (index : Nat) (trees : List Dom) :
    timesFreed index trees ≤ trees.length := by
  induction trees with
  | nil => exact Nat.le_refl _
  | cons d rest ih =>
    cases rest with
    | nil => exact Nat.zero_le _
    | cons d' later =>
      simp only [timesFreed, List.length_cons] at ih ⊢
      split <;> omega

/-! ## The lifetime of a handle -/

/-- A handle is dead while its slot is fewer than all generations past it. -/
theorem not_isLive_of_generation {x : NodeId} {n : Nat}
    (hgen : d.generation x.index = x.generation + UInt32.ofNat n) (hpos : 0 < n)
    (hbound : n < 2 ^ 32) : d.isLive x = false := by
  rw [← Bool.not_eq_true, isLive_iff_filled, hgen]
  rintro ⟨-, hsame⟩
  have hzero : UInt32.ofNat n = 0 := by simpa using hsame
  have hmod := congrArg UInt32.toNat hzero
  rw [UInt32.toNat_ofNat', Nat.mod_eq_of_lt hbound] at hmod
  exact absurd hmod hpos.ne'

/-- Once the slot of a handle has been freed, the handle stays dead until the generations start
again. -/
theorem not_isLive_of_passed {x : NodeId} {later : List Dom} {n : Nat}
    (hchain : List.IsChain Ages (d :: later))
    (hgen : d.generation x.index = x.generation + UInt32.ofNat n) (hpos : 0 < n)
    (hbound : n + timesFreed x.index (d :: later) < 2 ^ 32) :
    ∀ e ∈ d :: later, e.isLive x = false := by
  induction later generalizing d n with
  | nil => simpa using not_isLive_of_generation hgen hpos hbound
  | cons d' rest ih =>
    obtain ⟨hstep, hrest⟩ := List.isChain_cons_cons.mp hchain
    refine List.forall_mem_cons.mpr ⟨not_isLive_of_generation hgen hpos (by omega), ?_⟩
    rcases hstep x.index with ⟨hgen', -⟩ | ⟨hgen', hfilled, hempty⟩
    · have hle := timesFreed_le_append x.index [d] (d' :: rest)
      exact ih hrest (hgen'.trans hgen) hpos (by rw [List.singleton_append] at hle; omega)
    · refine ih hrest (n := n + 1) ?_ n.succ_pos ?_
      · rw [hgen', hgen, UInt32.add_assoc, UInt32.ofNat_add]
        rfl
      · simp only [timesFreed, hfilled, hempty, Bool.not_false, Bool.and_self, if_true] at hbound
        omega

/-- A live handle stays live for a while, and is dead from then on. -/
theorem exists_lifetime {x : NodeId} {later : List Dom}
    (hchain : List.IsChain Ages (d :: later)) (hlive : d.isLive x = true)
    (hbound : timesFreed x.index (d :: later) < 2 ^ 32) :
    ∃ alive dead, later = alive ++ dead ∧ (∀ e ∈ alive, e.isLive x = true) ∧
      ∀ e ∈ dead, e.isLive x = false := by
  induction later generalizing d with
  | nil => exact ⟨[], [], rfl, by simp, by simp⟩
  | cons d' rest ih =>
    obtain ⟨hstep, hrest⟩ := List.isChain_cons_cons.mp hchain
    obtain ⟨hfilled, hgen⟩ := isLive_iff_filled.mp hlive
    rcases hstep x.index with ⟨hgen', hfilled'⟩ | ⟨hgen', -, hempty⟩
    · have hlive' : d'.isLive x = true :=
        isLive_iff_filled.mpr ⟨hfilled' hfilled, hgen'.trans hgen⟩
      have hbound' := (timesFreed_le_append x.index [d] (d' :: rest)).trans_lt hbound
      obtain ⟨alive, dead, rfl, halive, hdead⟩ := ih hrest hlive' hbound'
      exact ⟨d' :: alive, dead, rfl, List.forall_mem_cons.mpr ⟨hlive', halive⟩, hdead⟩
    · refine ⟨[], d' :: rest, rfl, by simp, ?_⟩
      refine not_isLive_of_passed (n := 1) hrest (by rw [hgen', hgen]; rfl) Nat.one_pos ?_
      simpa [timesFreed, hfilled, hempty] using hbound

/-- Once dead, a handle that was live is dead for good. -/
theorem not_isLive_of_sublist {x : NodeId} {trees : List Dom} (hchain : List.IsChain Ages trees)
    (hbound : timesFreed x.index trees < 2 ^ 32) {d₁ d₂ d₃ : Dom}
    (hsublist : [d₁, d₂, d₃].Sublist trees) (hlive : d₁.isLive x = true)
    (hdead : d₂.isLive x = false) : d₃.isLive x = false := by
  obtain ⟨first, second, rfl, hfirst, hrest⟩ := List.cons_sublist_iff.mp hsublist
  obtain ⟨before, between, rfl⟩ := List.append_of_mem hfirst
  rw [List.append_assoc] at hchain hbound
  obtain ⟨alive, dead, hsplit, halive, hafter⟩ := exists_lifetime hchain.right_of_append hlive
    ((timesFreed_le_append x.index before _).trans_lt hbound)
  have hlater : [d₂, d₃].Sublist (alive ++ dead) :=
    hsplit ▸ hrest.trans (List.sublist_append_right _ _)
  obtain ⟨l₁, l₂, hl, hl₁, hl₂⟩ := List.sublist_append_iff.mp hlater
  cases l₁ with
  | nil =>
    rw [List.nil_append] at hl
    exact hafter d₃ (hl₂.subset (by simp [← hl]))
  | cons e rest =>
    have he : d₂ = e := (List.cons.inj hl).1
    have hlive₂ := halive e (hl₁.subset (by simp))
    rw [← he, hdead] at hlive₂
    cases hlive₂

end Dom
end LiveMarkup
