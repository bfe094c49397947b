import LiveMarkup.Proofs.Dom.Inheritance

/-!
# What lies outside a target

A patch reads and changes only what lies below its target, whatever stream it follows: every other
node keeps its data and its links, and the target keeps its data and its parent.  Taking the target
out changes links around it as well, but like a patch it spares the nodes apart from it.

Main definitions:

- `Dom.SameOutside`: trees that differ below a target only.
- `Dom.Apart`: nodes of which neither lies in the subtree of the other.
- `Dom.Spares`: a change at a target that shows at no node apart from it.

Main results:

- `Dom.SameOutside.below_iff`: what lies above a node outside the target stays the same.
- `Dom.SameOutside.spares`: a node apart from the target keeps the trees below it.
- `Patcher.sameOutside_replay`, `Patcher.sameOutside_replayAll`: one instruction, and a whole
  stream.
- `Dom.WellFormed.sameOutside_patch`: a patch changes nothing outside its target.
- `Dom.WellFormed.forest_detach`, `Dom.WellFormed.spares_detach`: taking a node out spares the nodes
  apart from it.
-/

namespace LiveMarkup
namespace Dom

variable {d d' d'' : Dom} {target : NodeId}

/-- Two trees differ below a target only: every live node that is not the target and does not lie
below it is the same, and the target keeps its data and its parent. -/
structure SameOutside (d d' : Dom) (target : NodeId) : Prop where
  entry?_eq : ∀ x, d.isLive x = true → ¬ d.Below target x → d'.entry? x = d.entry? x
  data?_eq : d'.data? target = d.data? target
  parent?_eq : d'.parent? target = d.parent? target

/-- A live node whose data and links stay is the same. -/
theorem entry?_eq_of_parts {x : NodeId} (hlive : d.isLive x = true)
    (hdata : d'.data? x = d.data? x) (hparent : d'.parent? x = d.parent? x)
    (hchildren : d'.children x = d.children x) : d'.entry? x = d.entry? x := by
  obtain ⟨⟨data, parent, children⟩, he⟩ := isLive_iff.mp hlive
  rw [data?_eq, data?_eq, he] at hdata
  rw [parent?_eq, parent?_eq, he] at hparent
  rw [children_eq, children_eq, he] at hchildren
  cases he' : d'.entry? x with
  | none =>
    rw [he'] at hdata
    cases hdata
  | some e' =>
    obtain ⟨data', parent', children'⟩ := e'
    rw [he'] at hdata hparent hchildren
    cases hdata
    cases hparent
    cases hchildren
    rw [he]

namespace SameOutside

theorem refl (d : Dom) (target : NodeId) : d.SameOutside d target :=
  ⟨fun _ _ _ => rfl, rfl, rfl⟩

theorem isLive (hsame : d.SameOutside d' target) {x : NodeId} (hlive : d.isLive x = true)
    (hx : ¬ d.Below target x) : d'.isLive x = true := by
  rw [isLive_iff, hsame.entry?_eq x hlive hx]
  exact isLive_iff.mp hlive

/-- The way up from a node outside the target stays the same, and so does that from the target. -/
theorem below_iff (hsame : d.SameOutside d' target) (h : d.WellFormed) {a x : NodeId}
    (hlive : d.isLive x = true) (hx : d.Below target x → x = target) :
    d'.Below a x ↔ d.Below a x := by
  induction x using h.acyclic.induction with
  | _ x ih =>
    have hparent : d'.parent? x = d.parent? x := by
      by_cases htarget : x = target
      · rw [htarget, hsame.parent?_eq]
      · rw [Dom.parent?_eq, Dom.parent?_eq, hsame.entry?_eq x hlive (mt hx htarget)]
    cases hp : d.parent? x with
    | none =>
      have hstop : ∀ {e : Dom}, e.parent? x = none → (e.Below a x ↔ x = a) := by
        intro e he
        refine ⟨fun hbelow => ?_, fun heq => heq ▸ Below.refl e x⟩
        rcases hbelow.eq_or_parent with heq | ⟨q, hq, -⟩
        · exact heq
        · rw [he] at hq
          cases hq
      rw [hstop hp, hstop (hparent.trans hp)]
    | some p =>
      -- Above a node outside the target, and above the target itself, all is outside the target.
      have houtside : ¬ d.Below target p := by
        intro hbelow
        have hxt := hx (hbelow.trans (below_of_parent? hp))
        rw [hxt] at hp
        exact h.not_below_parent hp hbelow
      have hup : ∀ {e : Dom}, e.parent? x = some p → (e.Below a x ↔ x = a ∨ e.Below a p) := by
        intro e he
        constructor
        · intro hbelow
          rcases hbelow.eq_or_parent with heq | ⟨q, hq, hrest⟩
          · exact Or.inl heq
          · rw [he] at hq
            cases hq
            exact Or.inr hrest
        · rintro (rfl | hrest)
          · exact Below.refl e x
          · exact hrest.trans (below_of_parent? he)
      rw [hup hp, hup (hparent.trans hp),
        ih p hp (h.isLive_parent hp) fun hbelow => absurd hbelow houtside]

/-- No live node comes to lie below the target. -/
theorem below_of_below (hsame : d.SameOutside d' target) (h : d.WellFormed) {x : NodeId}
    (hlive : d.isLive x = true) (hbelow : d'.Below target x) : d.Below target x := by
  by_contra hout
  exact hout ((hsame.below_iff h hlive fun hbelow => absurd hbelow hout).mp hbelow)

theorem trans (h₁ : d.SameOutside d' target) (h₂ : d'.SameOutside d'' target)
    (h : d.WellFormed) : d.SameOutside d'' target where
  entry?_eq := by
    intro x hx hout
    have hout' : ¬ d'.Below target x := by
      rwa [h₁.below_iff h hx fun hbelow => absurd hbelow hout]
    rw [h₂.entry?_eq x (h₁.isLive hx hout) hout', h₁.entry?_eq x hx hout]
  data?_eq := h₂.data?_eq.trans h₁.data?_eq
  parent?_eq := h₂.parent?_eq.trans h₁.parent?_eq

/-- The target stays live. -/
theorem isLive_target (hsame : d.SameOutside d' target) (hlive : d.isLive target = true) :
    d'.isLive target = true := by
  rw [isLive_eq_data?] at hlive ⊢
  rw [hsame.data?_eq, hlive]

end SameOutside

/-! ## Nodes apart from a target -/

/-- Neither of two nodes lies in the subtree of the other. -/
def Apart (d : Dom) (a b : NodeId) : Prop :=
  ¬ d.Below a b ∧ ¬ d.Below b a

/-- A change at a target spares everything apart from it: the target stays what it is, a node apart
from it keeps its data and the trees below it, and no node outside the target comes to lie below
another. -/
structure Spares (d d' : Dom) (target : NodeId) : Prop where
  data?_target : d'.data? target = d.data? target
  data?_apart : ∀ a, d.isLive a = true → d.Apart target a → d'.data? a = d.data? a
  forest_apart : ∀ a, d.isLive a = true → d.Apart target a → d'.forest a = d.forest a
  below : ∀ a x, d.isLive x = true → (d.Below target x → x = target) →
    d'.Below a x → d.Below a x

/-- Nodes apart from each other stay so, if each is the target or apart from it. -/
theorem Spares.apart (hspares : d.Spares d' target) {a b : NodeId} (ha : d.isLive a = true)
    (hb : d.isLive b = true) (hta : a ≠ target → d.Apart target a)
    (htb : b ≠ target → d.Apart target b) (hab : d.Apart a b) : d'.Apart a b := by
  have hout : ∀ {x : NodeId}, (x ≠ target → d.Apart target x) → d.Below target x →
      x = target := by
    intro x hx hbelow
    by_contra hne
    exact (hx hne).1 hbelow
  exact ⟨fun hbelow => hab.1 (hspares.below a b hb (hout htb) hbelow),
    fun hbelow => hab.2 (hspares.below b a ha (hout hta) hbelow)⟩

/-- What changes below a target only spares the nodes apart from it. -/
theorem SameOutside.spares (hsame : d.SameOutside d' target) (h : d.WellFormed)
    (h' : d'.WellFormed) : d.Spares d' target where
  data?_target := hsame.data?_eq
  data?_apart := by
    intro a hlive hapart
    rw [Dom.data?_eq, Dom.data?_eq, hsame.entry?_eq a hlive hapart.1]
  forest_apart := by
    intro a hlive hapart
    refine h.forest_eq_of_below h' ?_
    intro x hx
    have hentry : d'.entry? x = d.entry? x := by
      refine hsame.entry?_eq x (hx.isLive hlive) ?_
      intro htarget
      rcases hx.total htarget with hat | hta
      · exact hapart.2 hat
      · exact hapart.1 hta
    exact data?_children_congr hentry
  below := fun _ _ hlive hx => (hsame.below_iff h hlive hx).mp

/-- Taking a node out leaves what lies below it as it is, and what lies below any node that is not
above it. -/
theorem WellFormed.forest_detach (h : d.WellFormed) {a : NodeId}
    (ha : d.Below a target → a = target) : (d.detach target).forest a = d.forest a := by
  refine h.forest_eq_of_below (h.detach target) ?_
  intro x hx
  refine ⟨data?_detach h target x, ?_⟩
  rw [children_detach h, List.filter_eq_self]
  intro c hc
  have hne : c ≠ target := by
    rintro rfl
    have hparent := h.parent_of_mem hc
    have heq := ha (hx.trans (below_of_parent? hparent))
    exact h.not_below_parent hparent (heq ▸ hx)
  simpa using hne

/-- Taking a node out spares the nodes apart from it. -/
theorem WellFormed.spares_detach (h : d.WellFormed) (target : NodeId) :
    d.Spares (d.detach target) target where
  data?_target := data?_detach h target target
  data?_apart := fun a _ _ => data?_detach h target a
  forest_apart := fun _ _ hapart => h.forest_detach fun hbelow => absurd hbelow hapart.2
  below := fun _ _ _ _ hbelow => below_of_below_detach h hbelow

/-! ## Changes at a cursor below the target -/

theorem Placed.sameOutside {frame : Cursor} {id : NodeId} {data : LiveData}
    (hplaced : d.Placed d' frame id data) (h : d.WellFormed) (hlive : d.isLive target = true)
    (hframe : d.Below target frame.parent) : d.SameOutside d' target := by
  have hid : ∀ x, d.isLive x = true → (d.Below target x → x = target) → x ≠ id := by
    rintro x hx hout rfl
    rcases hplaced.origin with hdrop | hdead
    · have hparent := h.parent_of_mem (List.mem_of_mem_drop hdrop)
      have heq := hout (hframe.trans (below_of_parent? hparent))
      exact h.not_below_parent hparent (heq ▸ hframe)
    · rw [hx] at hdead
      cases hdead
  refine ⟨?_, ?_, hplaced.parent?_of_isLive h hlive⟩
  · intro x hx hout
    have hne := hid x hx fun hbelow => absurd hbelow hout
    refine entry?_eq_of_parts hx (hplaced.data_other x hne) (hplaced.parent?_of_isLive h hx) ?_
    refine hplaced.children_other x ?_
    rintro rfl
    exact hout hframe
  · exact hplaced.data_other target (hid target hlive fun _ => rfl)

theorem WellFormed.sameOutside_cut (h : d.WellFormed) {parent : NodeId} (next : Nat)
    (hparent : d.Below target parent) : d.SameOutside (d.cut parent next) target := by
  have htarget : ¬ d.InCut parent next target := by
    rintro ⟨s, hs, hbelow⟩
    exact h.not_below_parent (h.parent_of_mem (List.mem_of_mem_drop hs)) (hbelow.trans hparent)
  refine ⟨?_, data?_cut h htarget, parent?_cut h htarget⟩
  intro x _ hout
  have hcut : ¬ d.InCut parent next x := fun hx => hout (hparent.trans (hx.below h))
  have hne : x ≠ parent := by
    rintro rfl
    exact hout hparent
  rw [entry?_cut h hcut]
  simp [hne]

/-- The frames of a patch lie below its target. -/
theorem Shows.below_target {frame : Cursor} {frames : List Cursor} {opened : List OpenElement}
    {done : List LiveNode} (h : d.WellFormed)
    (hshows : d.Shows target (frame :: frames) opened done) : d.Below target frame.parent := by
  generalize hframes : frame :: frames = all at hshows
  induction hshows generalizing frame frames with
  | target _ _ =>
    cases hframes
    exact Below.refl d target
  | entered _ hchild _ _ ih =>
    cases hframes
    exact (ih rfl).trans (below_of_parent? (h.parent_of_mem (List.mem_of_getElem? hchild)))

end Dom

/-! ## Patches -/

namespace Patcher

open Dom

variable {target : NodeId}

/-- One instruction changes nothing outside the target. -/
theorem sameOutside_replay {p : Patcher} {q : Option Progress} (hp : p.Follows target q)
    (hlive : p.dom.isLive target = true) (i : Instruction)
    (hsize : (i.replay p).dom.slots.size ≤ maxSlots) :
    p.dom.SameOutside (i.replay p).dom target := by
  cases hp with
  | stopped hfault h =>
    rw [replay_of_fault hfault]
    exact .refl _ _
  | running hfault h hshows =>
    obtain ⟨frame, outer, hframes, hshows⟩ := exists_frame hshows
    have hframe := hshows.below_target h
    cases i with
    | openElement tag key attrs =>
      obtain ⟨id, hplaced, -, -⟩ :=
        openElement_spec h hfault hframes hshows.isLive hshows.next_le hsize
      exact hplaced.sameOutside h hlive hframe
    | closeElement tag =>
      show p.dom.SameOutside (closeElement tag p).dom target
      simp only [closeElement, hfault, hframes, Option.isSome_none, Bool.false_eq_true, if_false]
      cases outer with
      | nil => exact .refl _ _
      | cons around rest =>
        dsimp only
        split
        · exact h.sameOutside_cut frame.next hframe
        · exact .refl _ _
    | text content =>
      obtain ⟨id, hplaced, -, -⟩ :=
        text_spec h hfault hframes hshows.isLive hshows.next_le hsize
      exact hplaced.sameOutside h hlive hframe

/-- A whole stream changes nothing outside the target. -/
theorem sameOutside_replayAll {p : Patcher} {q : Option Progress} (hp : p.Follows target q)
    (hlive : p.dom.isLive target = true) (stream : List Instruction)
    (hsize : (Instruction.replayAll stream p).dom.slots.size ≤ maxSlots) :
    p.dom.SameOutside (Instruction.replayAll stream p).dom target := by
  induction stream generalizing p q with
  | nil => exact .refl _ _
  | cons i rest ih =>
    have hbound := (slots_size_le_replayAll (i.replay p) rest).trans hsize
    have hstep := sameOutside_replay hp hlive i hbound
    exact hstep.trans
      (ih (hp.replay i hbound) (hstep.isLive_target hlive) hsize) hp.wellFormed

/-- The end of a patch changes nothing outside the target. -/
theorem sameOutside_finish {p : Patcher} {q : Option Progress} (hp : p.Follows target q) :
    p.dom.SameOutside p.finish.2 target := by
  have hsummary : ∀ {d : Dom}, p.dom.SameOutside d target →
      ∀ summary, p.dom.SameOutside { d with lastPatch := summary } target := fun hsame _ =>
    ⟨hsame.entry?_eq, hsame.data?_eq, hsame.parent?_eq⟩
  unfold finish
  split
  · exact hsummary (.refl _ _) _
  · next root hfault hframes =>
    cases hp with
    | running _ h hshows =>
      rw [hframes] at hshows
      exact hsummary (h.sameOutside_cut root.next (hshows.below_target h)) _
    | stopped hstopped _ =>
      rw [hfault] at hstopped
      cases hstopped
  · exact hsummary (.refl _ _) _
  · exact hsummary (.refl _ _) _

end Patcher

namespace Dom

variable {d : Dom} {target : NodeId}

/-- A patch changes nothing outside its target, whether it succeeds or fails. -/
theorem WellFormed.sameOutside_patch (h : d.WellFormed) (target : NodeId)
    (stream : List Instruction) (hsize : (d.patch target stream).2.slots.size ≤ maxSlots) :
    d.SameOutside (d.patch target stream).2 target := by
  by_cases helement : d.isElement target = true
  · rw [patch_of_isElement d helement] at hsize ⊢
    rw [Patcher.slots_size_finish] at hsize
    have hlive := isLive_of_isElement helement
    have hstart := Patcher.follows_start h helement
    have hrun := Patcher.sameOutside_replayAll hstart hlive stream hsize
    exact hrun.trans (Patcher.sameOutside_finish (hstart.replayAll stream hsize)) h
  · rw [patch_of_not_isElement d helement]
    exact .refl _ _

end Dom
end LiveMarkup
