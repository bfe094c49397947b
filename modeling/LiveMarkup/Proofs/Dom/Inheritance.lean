import LiveMarkup.Proofs.Dom.Chains
import LiveMarkup.Proofs.Dom.Generations
import LiveMarkup.Proofs.Dom.PatchRun

/-!
# What a patch takes over

A patch takes over a node or frees it, but it never moves a node to another parent, nor gives it
another label.  If no key is opened twice, it makes a new element only where the tree before the
patch had no child with that label.  While the patch runs, what lies at or after its cursors is
still as it was before.

Main definitions:

- `Dom.Continues`: how the tree of a patch relates to the tree before it.
- `Dom.Inherits`: how it does if no key is opened twice.
- `Dom.Awaits`: what a frame of a patch has still to do.

Main results:

- `Dom.Continues.placed`, `Dom.Continues.cut`, `Dom.Inherits.placed`, `Dom.Inherits.cut`: what holds
  when a node is placed, and when children are cut off.
- `Dom.Shows.exists_child`: the frames of a patch lie one inside the other.
- `Dom.awaits_placed`, `Dom.awaits_cut`: what frames have then still to do.
-/

namespace LiveMarkup
namespace Dom

variable {d₀ d d' : Dom}

/-! ## Labels of live nodes -/

theorem label?_congr {x : NodeId} (h : d'.data? x = d.data? x) : d'.label? x = d.label? x := by
  rw [label?, label?, h]

/-- A change of an entry that keeps its label changes no label. -/
theorem label?_modify (d : Dom) (id : NodeId) {f : LiveEntry → LiveEntry}
    (hf : ∀ e, (f e).data.label? = e.data.label?) (x : NodeId) :
    (d.modify id f).label? x = d.label? x := by
  simp only [label?, data?_eq, entry?_modify]
  split
  · next h =>
    subst h
    cases d.entry? x with
    | none => rfl
    | some e => exact hf e
  · rfl

theorem label?_insertChild (d : Dom) (parent : NodeId) (index : Nat) (child x : NodeId) :
    (d.insertChild parent index child).label? x = d.label? x := by
  have hdetach : (d.detach child).label? x = d.label? x := by
    unfold detach
    split
    · rfl
    · refine (label?_modify _ _ ?_ x).trans (label?_modify _ _ ?_ x) <;> exact fun _ => rfl
  refine (label?_modify _ _ ?_ x).trans ((label?_modify _ _ ?_ x).trans hdetach) <;>
    exact fun _ => rfl

/-- A new node changes no label. -/
theorem label?_alloc (h : d.FreeExact) {data : LiveData}
    (hsize : (d.alloc data).2.slots.size ≤ maxSlots) {x : NodeId} (hx : d.isLive x = true) :
    (d.alloc data).2.label? x = d.label? x :=
  label?_congr (by rw [data?_eq, unchanged_alloc h hsize x hx, data?_eq])

/-! ## Parents of live nodes -/

namespace Placed

variable {frame : Cursor} {id x : NodeId} {data : LiveData}

/-- A placed node is a child of the node that it is placed in. -/
theorem parent?_self (hplaced : d.Placed d' frame id data) :
    d'.parent? id = some frame.parent := by
  refine hplaced.wellFormed.parent_of_mem ?_
  rw [hplaced.children_parent]
  simp

/-- To place a node makes no difference to whether others are live. -/
theorem isLive_other (hplaced : d.Placed d' frame id data) (hx : x ≠ id) :
    d'.isLive x = d.isLive x := by
  rw [isLive_eq_data?, isLive_eq_data?, hplaced.data_other x hx]

/-- To place a node makes no difference to the parents of others. -/
theorem parent?_other (hplaced : d.Placed d' frame id data) (h : d.WellFormed) (hx : x ≠ id) :
    d'.parent? x = d.parent? x := by
  have hmem : ∀ p, x ∈ d'.children p ↔ x ∈ d.children p := by
    intro p
    by_cases hp : p = frame.parent
    · rw [hp, hplaced.children_parent, List.mem_append, List.mem_cons, List.mem_erase_of_ne hx,
        or_iff_right hx, ← List.mem_append, List.take_append_drop]
    · rw [hplaced.children_other p hp]
  refine Option.ext fun p => ?_
  constructor
  · exact fun hp => h.parent_of_mem ((hmem p).mp (hplaced.wellFormed.mem_of_parent hp))
  · exact fun hp => hplaced.wellFormed.parent_of_mem ((hmem p).mpr (h.mem_of_parent hp))

/-- To place a node makes no difference to the parents of live nodes. -/
theorem parent?_of_isLive (hplaced : d.Placed d' frame id data) (h : d.WellFormed)
    (hx : d.isLive x = true) : d'.parent? x = d.parent? x := by
  by_cases hid : x = id
  · subst hid
    rcases hplaced.origin with hdrop | hdead
    · rw [hplaced.parent?_self, h.parent_of_mem (List.mem_of_mem_drop hdrop)]
    · rw [hx] at hdead
      cases hdead
  · exact hplaced.parent?_other h hid

end Placed

/-! ## Subtrees that stay -/

/-- A subtree in which no children change keeps its nodes. -/
theorem below_iff_of_children (h : d.WellFormed) (h' : d'.WellFormed) {s : NodeId}
    (hsame : ∀ x, d.Below s x → d'.children x = d.children x) {x : NodeId} :
    d'.Below s x ↔ d.Below s x := by
  constructor
  · intro hbelow
    induction hbelow using Relation.ReflTransGen.head_induction_on with
    | refl => exact Below.refl d s
    | head hparent _ ih =>
      have hmem := h'.mem_of_parent hparent
      rw [hsame _ ih] at hmem
      exact ih.trans (below_of_parent? (h.parent_of_mem hmem))
  · intro hbelow
    induction hbelow using Relation.ReflTransGen.head_induction_on with
    | refl => exact Below.refl d' s
    | head hparent hrest ih =>
      have hmem := h.mem_of_parent hparent
      rw [← hsame _ hrest] at hmem
      exact ih.trans (below_of_parent? (h'.parent_of_mem hmem))

/-! ## Frames -/

/-- The node of the innermost frame lies below a child before the cursor of each frame around it. -/
theorem Shows.exists_child (h : d.WellFormed) {target : NodeId} {frame : Cursor}
    {outer : List Cursor} {opened : List OpenElement} {done : List LiveNode}
    (hshows : d.Shows target (frame :: outer) opened done) :
    ∀ g ∈ outer, ∃ c ∈ (d.children g.parent).take g.next, d.Below c frame.parent := by
  generalize hframes : frame :: outer = frames at hshows
  induction hshows generalizing frame outer with
  | target _ _ =>
    cases hframes
    simp
  | @entered id parent next at' frames o opened _ hchild _ _ ih =>
    cases hframes
    have hparent := h.parent_of_mem (List.mem_of_getElem? hchild)
    refine List.forall_mem_cons.mpr ⟨⟨id, ?_, Below.refl d id⟩, ?_⟩
    · refine List.mem_of_getElem? (i := at') ?_
      rw [List.getElem?_take_of_lt (Nat.lt_succ_self at'), hchild]
    · intro g hg
      obtain ⟨c, hc, hbelow⟩ := ih rfl g hg
      exact ⟨c, hc, hbelow.trans (below_of_parent? hparent)⟩

/-! ## The invariant -/

/-- A node of `d` that was live in `d₀` has the parent and the label that it had there.  Empty slots
have no handle that was live in `d₀`. -/
structure Continues (d₀ d : Dom) : Prop where
  parent?_eq : ∀ x, d₀.isLive x = true → d.isLive x = true → d.parent? x = d₀.parent? x
  label?_eq : ∀ x, d₀.isLive x = true → d.isLive x = true → d.label? x = d₀.label? x
  fresh : ∀ x, d.generation x.index = x.generation → d.filled x.index = false →
    d₀.isLive x = false

/-- What is more, a new element has a label that no former child of its parent had. -/
structure Inherits (d₀ d : Dom) : Prop extends Continues d₀ d where
  unmatched : ∀ x p c label, d₀.isLive x = false → d.parent? x = some p →
    d.label? x = some label → d₀.parent? c = some p → d₀.label? c ≠ some label

/-- The children from the cursor of a frame on are those of `d₀`, with everything below them; none
of the children that the node had in `d₀` is freed; and the keys before the cursor are used. -/
structure Awaits (d₀ d : Dom) (used : List String) (frame : Cursor) : Prop where
  live : ∀ s ∈ (d.children frame.parent).drop frame.next, d₀.isLive s = true
  below : ∀ s ∈ (d.children frame.parent).drop frame.next, ∀ x, d₀.Below s x →
    d.children x = d₀.children x
  kept : ∀ c, d₀.parent? c = some frame.parent → d.isLive c = true
  used : ∀ c ∈ (d.children frame.parent).take frame.next, ∀ tag key,
    d.label? c = some ⟨tag, some key⟩ → key ∈ used

theorem Continues.refl (d : Dom) : d.Continues d where
  parent?_eq := fun _ _ _ => rfl
  label?_eq := fun _ _ _ => rfl
  fresh := by
    intro x _ hempty
    rw [← Bool.not_eq_true, isLive_iff_filled, hempty]
    simp

theorem Inherits.refl (d : Dom) : d.Inherits d where
  toContinues := .refl d
  unmatched := by
    intro x p c label hdead hparent
    rw [isLive_of_parent? hparent] at hdead
    cases hdead

/-- A patch begins with everything awaiting it. -/
theorem awaits_start (h : d.WellFormed) (target : NodeId) :
    d.Awaits d [] { parent := target } where
  live := fun _ hs => h.isLive_child (List.mem_of_mem_drop hs)
  below := fun _ _ _ _ => rfl
  kept := fun _ hc => isLive_of_parent? hc
  used := fun _ hc => absurd hc List.not_mem_nil

/-! ## Placing a node -/

section Placing

variable {frame g : Cursor} {id : NodeId} {data : LiveData} {used used' : List String}

/-- A node that takes an empty slot was not live before the patch. -/
theorem Continues.not_isLive_of_new (hcont : d₀.Continues d) (hfills : d.Fills d') {x : NodeId}
    (hx : d.isLive x = false) (hx' : d'.isLive x = true) : d₀.isLive x = false := by
  obtain ⟨-, hgen⟩ := isLive_iff_filled.mp hx'
  rw [hfills.generation_eq] at hgen
  refine hcont.fresh x hgen ?_
  rw [← Bool.not_eq_true]
  intro hfilled
  rw [isLive_iff_filled.mpr ⟨hfilled, hgen⟩] at hx
  cases hx

/-- What was live before the patch is not concerned when slots are filled. -/
theorem Continues.isLive_of_fills (hcont : d₀.Continues d) (hfills : d.Fills d') {x : NodeId}
    (hx₀ : d₀.isLive x = true) : d'.isLive x = d.isLive x := by
  cases hx : d.isLive x with
  | true => exact hfills.isLive hx
  | false =>
    rw [← Bool.not_eq_true]
    intro hx'
    rw [hcont.not_isLive_of_new hfills hx hx'] at hx₀
    cases hx₀

/-- To place a node keeps the invariant. -/
theorem Continues.placed (hcont : d₀.Continues d) (h : d.WellFormed)
    (hplaced : d.Placed d' frame id data) (hfills : d.Fills d')
    (hlabels : ∀ x, d.isLive x = true → d'.label? x = d.label? x) : d₀.Continues d' := by
  have hlive : ∀ x, d₀.isLive x = true → d'.isLive x = true → d.isLive x = true :=
    fun x hx₀ hx' => hcont.isLive_of_fills hfills hx₀ ▸ hx'
  refine ⟨?_, ?_, ?_⟩
  · intro x hx₀ hx'
    have hx := hlive x hx₀ hx'
    rw [hplaced.parent?_of_isLive h hx, hcont.parent?_eq x hx₀ hx]
  · intro x hx₀ hx'
    have hx := hlive x hx₀ hx'
    rw [hlabels x hx, hcont.label?_eq x hx₀ hx]
  · intro x hgen hempty
    refine hcont.fresh x ((hfills.generation_eq _).symm.trans hgen) ?_
    rw [← Bool.not_eq_true]
    intro hfilled
    rw [hfills.filled _ hfilled] at hempty
    cases hempty

/-- A node that is new must have a label that no former child of its parent had. -/
theorem Inherits.placed (hin : d₀.Inherits d) (h : d.WellFormed)
    (hplaced : d.Placed d' frame id data) (hfills : d.Fills d')
    (hlabels : ∀ x, d.isLive x = true → d'.label? x = d.label? x)
    (hnew : d.isLive id = false → ∀ c label, data.label? = some label →
      d₀.parent? c = some frame.parent → d₀.label? c ≠ some label) : d₀.Inherits d' where
  toContinues := hin.toContinues.placed h hplaced hfills hlabels
  unmatched := by
    intro x p c label hx₀ hparent hlabel hc
    by_cases hx : d.isLive x = true
    · rw [hplaced.parent?_of_isLive h hx] at hparent
      rw [hlabels x hx] at hlabel
      exact hin.unmatched x p c label hx₀ hparent hlabel hc
    · -- Only the placed node can be new.
      have hid : x = id := by
        by_contra hne
        exact hx (hplaced.isLive_other hne ▸ isLive_of_parent? hparent)
      subst hid
      have hp : p = frame.parent :=
        Option.some.inj (hparent.symm.trans hplaced.parent?_self)
      have hdata : data.label? = some label := by
        rw [← hlabel, label?, hplaced.data_self, Option.bind_some]
      exact hnew (Bool.not_eq_true _ ▸ hx) c label hdata (hp ▸ hc)

/-- An element is new only if no former child of its parent has its label. -/
theorem Awaits.label?_ne (haw : d₀.Awaits d used frame) (hcont : d₀.Continues d) (h : d.WellFormed)
    {tag key : String} (hkey : key ∉ used)
    (hnone : ∀ s ∈ (d.children frame.parent).drop frame.next,
      d.label? s ≠ some ⟨tag, some key⟩) {c : NodeId} (hc : d₀.parent? c = some frame.parent) :
    d₀.label? c ≠ some ⟨tag, some key⟩ := by
  intro hlabel
  have hlive₀ := isLive_of_parent? hc
  have hlive := haw.kept c hc
  rw [← hcont.parent?_eq c hlive₀ hlive] at hc
  rw [← hcont.label?_eq c hlive₀ hlive] at hlabel
  have hmem := h.mem_of_parent hc
  rw [← List.take_append_drop frame.next (d.children frame.parent)] at hmem
  rcases List.mem_append.mp hmem with htake | hdrop
  · exact hkey (haw.used c htake tag key hlabel)
  · exact hnone c hdrop hlabel

/-- Below a node that is awaited everything is as it was. -/
theorem Awaits.below_iff (haw : d₀.Awaits d used frame) (h₀ : d₀.WellFormed) (h : d.WellFormed)
    {s x : NodeId} (hs : s ∈ (d.children frame.parent).drop frame.next) :
    d.Below s x ↔ d₀.Below s x :=
  below_iff_of_children h₀ h (haw.below s hs)

/-- After a node is placed, the cursor stands behind it. -/
theorem Awaits.placed (haw : d₀.Awaits d used frame) (h₀ : d₀.WellFormed) (h : d.WellFormed)
    (hplaced : d.Placed d' frame id data) (hfills : d.Fills d')
    (hlabels : ∀ x, d.isLive x = true → d'.label? x = d.label? x)
    (hnext : frame.next ≤ (d.children frame.parent).length) (hused : used ⊆ used')
    (hkey : ∀ tag key, data.label? = some ⟨tag, some key⟩ → key ∈ used') :
    d₀.Awaits d' used' { frame with next := frame.next + 1 } := by
  refine ⟨?_, ?_, fun c hc => hfills.isLive (haw.kept c hc), ?_⟩
  · intro s hs
    rw [hplaced.drop_next hnext] at hs
    exact haw.live s (List.mem_of_mem_erase hs)
  · intro s hs x hx
    rw [hplaced.drop_next hnext] at hs
    have hs := List.mem_of_mem_erase hs
    have hne : x ≠ frame.parent := by
      rintro rfl
      exact h.not_below_parent (h.parent_of_mem (List.mem_of_mem_drop hs))
        ((haw.below_iff h₀ h hs).mpr hx)
    rw [hplaced.children_other x hne, haw.below s hs x hx]
  · intro c hc tag key hlabel
    rw [hplaced.take_next hnext] at hc
    rcases List.mem_append.mp hc with hc | hc
    · rw [hlabels c (h.isLive_child (List.mem_of_mem_take hc))] at hlabel
      exact hused (haw.used c hc tag key hlabel)
    · rw [List.mem_singleton.mp hc, label?, hplaced.data_self, Option.bind_some] at hlabel
      exact hkey tag key hlabel

/-- A frame further out is not concerned when a node is placed. -/
theorem Awaits.placed_outer (haw : d₀.Awaits d used g) (h₀ : d₀.WellFormed) (h : d.WellFormed)
    (hplaced : d.Placed d' frame id data) (hfills : d.Fills d')
    (hlabels : ∀ x, d.isLive x = true → d'.label? x = d.label? x)
    (hinside : ∃ c ∈ (d.children g.parent).take g.next, d.Below c frame.parent)
    (hused : used ⊆ used') : d₀.Awaits d' used' g := by
  obtain ⟨c, hc, hbelow⟩ := hinside
  have hne : g.parent ≠ frame.parent := by
    intro heq
    exact h.not_below_parent (h.parent_of_mem (List.mem_of_mem_take hc)) (heq ▸ hbelow)
  have hchildren := hplaced.children_other g.parent hne
  refine ⟨?_, ?_, fun c hc => hfills.isLive (haw.kept c hc), ?_⟩
  · rw [hchildren]
    exact haw.live
  · rw [hchildren]
    intro s hs x hx
    have hxne : x ≠ frame.parent := by
      rintro rfl
      exact not_inCut_of_mem_take h hc hbelow ⟨s, hs, (haw.below_iff h₀ h hs).mpr hx⟩
    rw [hplaced.children_other x hxne, haw.below s hs x hx]
  · rw [hchildren]
    intro b hb tag key hlabel
    rw [hlabels b (h.isLive_child (List.mem_of_mem_take hb))] at hlabel
    exact hused (haw.used b hb tag key hlabel)

/-- What is placed has below it what it had in `d₀`; a node that is new has no children and had none
there. -/
theorem Awaits.below_placed (haw : d₀.Awaits d used frame) (h₀ : d₀.WellFormed) (h : d.WellFormed)
    (hcont : d₀.Continues d) (hplaced : d.Placed d' frame id data) (hfills : d.Fills d')
    (hparent : d.isLive frame.parent = true) {x : NodeId} (hx : d₀.Below id x) :
    d'.children x = d₀.children x := by
  rcases hplaced.origin with hdrop | hdead
  · have hid := h.parent_of_mem (List.mem_of_mem_drop hdrop)
    have hne : x ≠ frame.parent := by
      rintro rfl
      exact h.not_below_parent hid ((haw.below_iff h₀ h hdrop).mpr hx)
    rw [hplaced.children_other x hne, haw.below id hdrop x hx]
  · have hlive : d'.isLive id = true := isLive_of_parent? hplaced.parent?_self
    have hdead₀ := hcont.not_isLive_of_new hfills hdead hlive
    have hne : id ≠ frame.parent := by
      rintro rfl
      rw [hparent] at hdead
      cases hdead
    rcases hx.eq_or_child with rfl | ⟨c, hc, -⟩
    · rw [hplaced.children_other x hne, children_eq, children_eq, not_isLive_iff.mp hdead,
        not_isLive_iff.mp hdead₀]
    · rw [h₀.isLive_parent hc] at hdead₀
      cases hdead₀

/-- What is placed can be entered. -/
theorem Awaits.entered (haw : d₀.Awaits d used frame) (h₀ : d₀.WellFormed) (h : d.WellFormed)
    (hcont : d₀.Continues d) (hplaced : d.Placed d' frame id data) (hfills : d.Fills d')
    (hparent : d.isLive frame.parent = true) : d₀.Awaits d' used' { parent := id } := by
  have hbelow : ∀ x, d₀.Below id x → d'.children x = d₀.children x := fun _ =>
    haw.below_placed h₀ h hcont hplaced hfills hparent
  have hchildren := hbelow id (Below.refl d₀ id)
  refine ⟨?_, ?_, ?_, fun _ hc => absurd hc List.not_mem_nil⟩
  · intro s hs
    rw [List.drop_zero, hchildren] at hs
    exact h₀.isLive_child hs
  · intro s hs x hx
    rw [List.drop_zero, hchildren] at hs
    exact hbelow x ((below_of_parent? (h₀.parent_of_mem hs)).trans hx)
  · intro c hc
    have hmem := h₀.mem_of_parent hc
    rw [← hchildren] at hmem
    exact hplaced.wellFormed.isLive_child hmem

/-- When a node is placed and entered, all frames have their work still to do. -/
theorem awaits_placed {outer : List Cursor} (haw : ∀ g ∈ frame :: outer, d₀.Awaits d used g)
    (h₀ : d₀.WellFormed) (h : d.WellFormed) (hcont : d₀.Continues d)
    (hplaced : d.Placed d' frame id data) (hfills : d.Fills d')
    (hlabels : ∀ x, d.isLive x = true → d'.label? x = d.label? x)
    {target : NodeId} {opened : List OpenElement} {done : List LiveNode}
    (hshows : d.Shows target (frame :: outer) opened done) (hused : used ⊆ used')
    (hkey : ∀ tag key, data.label? = some ⟨tag, some key⟩ → key ∈ used') :
    ∀ g ∈ { parent := id } :: { frame with next := frame.next + 1 } :: outer,
      d₀.Awaits d' used' g := by
  obtain ⟨hframe, houter⟩ := List.forall_mem_cons.mp haw
  refine List.forall_mem_cons.mpr ⟨?_, List.forall_mem_cons.mpr ⟨?_, ?_⟩⟩
  · exact hframe.entered h₀ h hcont hplaced hfills hshows.isLive
  · exact hframe.placed h₀ h hplaced hfills hlabels hshows.next_le hused hkey
  · intro g hg
    exact (houter g hg).placed_outer h₀ h hplaced hfills hlabels (hshows.exists_child h g hg) hused

end Placing

/-! ## Cutting off children -/

section Cutting

variable {frame g : Cursor} {used : List String}

/-- The node of a frame further out is another one than that of the frame, and is not cut off. -/
theorem not_inCut_outer (h : d.WellFormed)
    (hinside : ∃ c ∈ (d.children g.parent).take g.next, d.Below c frame.parent) :
    g.parent ≠ frame.parent ∧ ¬ d.InCut frame.parent frame.next g.parent := by
  obtain ⟨c, hc, hbelow⟩ := hinside
  have hparent := h.parent_of_mem (List.mem_of_mem_take hc)
  exact ⟨fun heq => h.not_below_parent hparent (heq ▸ hbelow),
    fun hcut => h.not_below_parent hparent (hbelow.trans (hcut.below h))⟩

/-- What is not cut off stays live. -/
theorem isLive_cut (h : d.WellFormed) {parent x : NodeId} {next : Nat}
    (hx : ¬ d.InCut parent next x) : (d.cut parent next).isLive x = d.isLive x := by
  rw [isLive_eq_data?, isLive_eq_data?, data?_cut h hx]

/-- What is cut off was live before the patch. -/
theorem Awaits.isLive_of_inCut (haw : d₀.Awaits d used frame) (h₀ : d₀.WellFormed)
    (h : d.WellFormed) {x : NodeId} (hx : d.InCut frame.parent frame.next x) :
    d₀.isLive x = true := by
  obtain ⟨s, hs, hbelow⟩ := hx
  exact ((haw.below_iff h₀ h hs).mp hbelow).isLive (haw.live s hs)

/-- What is live after a cut was not cut off. -/
theorem not_inCut_of_isLive (h : d.WellFormed) {parent x : NodeId} {next : Nat}
    (hx : (d.cut parent next).isLive x = true) : ¬ d.InCut parent next x := by
  intro hcut
  rw [isLive_iff, entry?_cut_of_inCut h hcut] at hx
  obtain ⟨e, he⟩ := hx
  cases he

/-- To cut off what the innermost frame has left keeps the invariant. -/
theorem Continues.cut (hcont : d₀.Continues d) (h₀ : d₀.WellFormed) (h : d.WellFormed)
    (haw : d₀.Awaits d used frame) : d₀.Continues (d.cut frame.parent frame.next) := by
  have hfrees := frees_cut d frame.parent frame.next
  refine ⟨?_, ?_, ?_⟩
  · intro x hx₀ hx
    rw [parent?_cut h (not_inCut_of_isLive h hx)]
    exact hcont.parent?_eq x hx₀ (hfrees.isLive hx)
  · intro x hx₀ hx
    rw [label?_congr (data?_cut h (not_inCut_of_isLive h hx))]
    exact hcont.label?_eq x hx₀ (hfrees.isLive hx)
  · intro x hgen hempty
    rcases hfrees x.index with ⟨hfilled, hsame⟩ | ⟨hfilled, -, hnext⟩
    · exact hcont.fresh x (hsame.symm.trans hgen) (hfilled.symm.trans hempty)
    · -- The slot was freed just now, and its former handle was live before the patch.
      have hfreed : d.InCut frame.parent frame.next ⟨x.index, d.generation x.index⟩ := by
        by_contra hcut
        have hlive := isLive_of_filled hfilled
        rw [← isLive_cut h hcut, isLive_iff_filled, hempty] at hlive
        cases hlive.1
      have hgen₀ := (isLive_iff_filled.mp (haw.isLive_of_inCut h₀ h hfreed)).2
      rw [← Bool.not_eq_true]
      intro hx₀
      rw [(isLive_iff_filled.mp hx₀).2, ← hgen, hnext] at hgen₀
      simp at hgen₀

/-- Nodes have inherited the same after children are cut off. -/
theorem Inherits.cut (hin : d₀.Inherits d) (h₀ : d₀.WellFormed) (h : d.WellFormed)
    (haw : d₀.Awaits d used frame) : d₀.Inherits (d.cut frame.parent frame.next) where
  toContinues := hin.toContinues.cut h₀ h haw
  unmatched := by
    intro x p c label hx₀ hparent hlabel hc
    obtain ⟨hcut, hparent⟩ := parent?_of_parent?_cut h hparent
    rw [label?_congr (data?_cut h hcut)] at hlabel
    exact hin.unmatched x p c label hx₀ hparent hlabel hc

/-- A frame further out is not concerned when children are cut off. -/
theorem Awaits.cut_outer (haw : d₀.Awaits d used g) (hcont : d₀.Continues d)
    (h₀ : d₀.WellFormed) (h : d.WellFormed)
    (hinside : ∃ c ∈ (d.children g.parent).take g.next, d.Below c frame.parent) :
    d₀.Awaits (d.cut frame.parent frame.next) used g := by
  obtain ⟨hne, hself⟩ := not_inCut_outer h hinside
  obtain ⟨c, hc, hbelow⟩ := hinside
  have hchild : ∀ b, d.parent? b = some g.parent → ¬ d.InCut frame.parent frame.next b :=
    fun _ hb => not_inCut_child h hself hne hb
  have hchildren : (d.cut frame.parent frame.next).children g.parent = d.children g.parent := by
    rw [children_cut h hself, if_neg hne]
  refine ⟨?_, ?_, ?_, ?_⟩
  · rw [hchildren]
    exact haw.live
  · rw [hchildren]
    intro s hs x hx
    have hapart : ¬ d.Below c x := fun hcx =>
      not_inCut_of_mem_take h hc hcx ⟨s, hs, (haw.below_iff h₀ h hs).mpr hx⟩
    have hcut : ¬ d.InCut frame.parent frame.next x := fun hcut =>
      hapart (hbelow.trans (hcut.below h))
    have hxne : x ≠ frame.parent := by
      rintro rfl
      exact hapart hbelow
    rw [children_cut h hcut, if_neg hxne, haw.below s hs x hx]
  · intro b hb
    have hlive := haw.kept b hb
    rw [← hcont.parent?_eq b (isLive_of_parent? hb) hlive] at hb
    rw [isLive_cut h (hchild b hb), hlive]
  · rw [hchildren]
    intro b hb tag key hlabel
    rw [label?_congr (data?_cut h (hchild b (h.parent_of_mem (List.mem_of_mem_take hb))))] at hlabel
    exact haw.used b hb tag key hlabel

/-- When children are cut off, the frames further out have their work still to do. -/
theorem awaits_cut {outer : List Cursor} (haw : ∀ g ∈ frame :: outer, d₀.Awaits d used g)
    (hcont : d₀.Continues d) (h₀ : d₀.WellFormed) (h : d.WellFormed) {target : NodeId}
    {opened : List OpenElement} {done : List LiveNode}
    (hshows : d.Shows target (frame :: outer) opened done) :
    ∀ g ∈ outer, d₀.Awaits (d.cut frame.parent frame.next) used g := fun g hg =>
  (haw g (List.mem_cons_of_mem frame hg)).cut_outer hcont h₀ h (hshows.exists_child h g hg)

end Cutting

end Dom
end LiveMarkup
