import LiveMarkup.Proofs.Markup.Grafting

/-!
# Built fragments

A fragment is built from the empty one by appending nodes to it.  A node is appended under one that
is already there, so numbers grow on the way down and every node is reached from the root.  Where
nodes are only appended under the root and under elements, nothing else ever holds a node.

Main definitions:

- `Fragment.kind?`, `Fragment.isTag`: what a node is.
- `Fragment.CanHold`: the root and the elements.
- `Fragment.ancestors`: the nodes above a node.
- `Fragment.BuiltUnder`: the fragments that are built by appending under nodes of a kind.

Main results:

- `Fragment.induction_above`, `Fragment.induction_below`: induction from the parent of a node to the
  node, and from its children.
- `Fragment.BuiltUnder.invariant`: what each way of appending keeps holds of every built fragment.
- `Fragment.BuiltUnder.canHold_parent`: only the root and elements hold nodes.
- `Fragment.mem_descendants_root`: every node is reached from the root.
-/

namespace LiveMarkup
namespace Fragment

variable {f : Fragment}

/-! ## Kinds of nodes -/

/-- What a node other than the root is. -/
def kind? (f : Fragment) (id : Nat) : Option NodeKind :=
  (f.content? id).map Content.kind

/-- The root is of no kind. -/
@[simp]
theorem kind?_root (f : Fragment) : f.kind? root = none := by
  simp [kind?]

/-- Whether a node is an element. -/
def isTag (f : Fragment) (id : Nat) : Bool :=
  f.kind? id == some .tag

/-- The root and the elements can hold nodes. -/
def CanHold (f : Fragment) (id : Nat) : Prop :=
  id = root ∨ f.isTag id = true

instance (f : Fragment) (id : Nat) : Decidable (f.CanHold id) :=
  inferInstanceAs (Decidable (id = root ∨ f.isTag id = true))

/-- Whether a node is an element is decided by its content. -/
theorem isTag_of_content? {id : Nat} {content : Content} (h : f.content? id = some content) :
    f.isTag id = (content.kind == .tag) := by
  simp [isTag, kind?, h]

/-- An element has a tag and attributes. -/
theorem isTag_iff {id : Nat} :
    f.isTag id = true ↔ ∃ name attrs, f.content? id = some (.tag name attrs) := by
  cases hcontent : f.content? id with
  | none => simp [isTag, kind?, hcontent]
  | some content => cases content <;> simp [isTag, kind?, hcontent, Content.kind]

/-- A node is of the kind of texts exactly if it holds one. -/
theorem kind?_eq_text_iff {id : Nat} :
    f.kind? id = some .text ↔ ∃ data, f.content? id = some (.text data) := by
  cases hcontent : f.content? id with
  | none => simp [kind?, hcontent]
  | some content => cases content <;> simp [kind?, hcontent, Content.kind]

/-- Beyond the nodes there is no content. -/
theorem content?_eq_none_of_size_le {id : Nat} (hid : f.size ≤ id) : f.content? id = none := by
  rw [content?, contentIn?, Array.getElem?_eq_none hid]
  rfl

/-- Only the root has no content, so any other node comes after it. -/
theorem pos_of_content? {id : Nat} {content : Content} (h : f.content? id = some content) :
    0 < id := by
  refine Nat.pos_of_ne_zero ?_
  rintro rfl
  cases h.symm.trans f.content?_root

/-- An element is a node of the fragment. -/
theorem lt_size_of_isTag {id : Nat} (h : f.isTag id = true) : id < f.size := by
  by_contra hid
  obtain ⟨name, attrs, hcontent⟩ := isTag_iff.mp h
  rw [content?_eq_none_of_size_le (by omega)] at hcontent
  cases hcontent

/-- The new node has its kind, and the others keep theirs. -/
theorem kind?_append {parent : Nat} (content : Content) (hparent : parent < f.size) (id : Nat) :
    (f.append parent content).1.kind? id =
      if id = f.size then some content.kind else f.kind? id := by
  rw [kind?, content?_append content hparent]
  split <;> rfl

/-- A text with other characters is a text. -/
theorem kind?_withContent {joined : Nat} {before : String}
    (hbefore : f.content? joined = some (.text before)) (data : String) (id : Nat) :
    (f.withContent joined (.text data)).kind? id = f.kind? id := by
  rw [kind?, content?_withContent]
  split
  · next hid =>
    rw [kind?, hid, hbefore]
    rfl
  · rfl

/-- What can hold nodes can do so after one is appended. -/
theorem CanHold.append {parent : Nat} (content : Content) (hparent : parent < f.size) {id : Nat}
    (h : f.CanHold id) : (f.append parent content).1.CanHold id := by
  refine h.imp_right fun htag => ?_
  have hid := lt_size_of_isTag htag
  rwa [isTag, kind?_append content hparent, if_neg (by omega)]

/-- What can hold nodes can do so after a text is joined to another. -/
theorem CanHold.withText {joined : Nat} {before : String}
    (hbefore : f.content? joined = some (.text before)) (data : String) {id : Nat}
    (h : f.CanHold id) : (f.withContent joined (.text data)).CanHold id :=
  h.imp_right fun htag => by rwa [isTag, kind?_withContent hbefore]

/-! ## Parents and numbers -/

/-- Every node but the root has a parent. -/
theorem parent?_ne_none {id : Nat} (hpos : 0 < id) (hid : id < f.size) : f.parent? id ≠ none := by
  obtain ⟨p, -, hparent⟩ := f.linked.parent hpos hid
  exact Option.ne_none_iff_exists'.mpr ⟨p, hparent⟩

/-- The root is the only node without a parent. -/
theorem parent?_eq_none_iff {id : Nat} (hid : id < f.size) : f.parent? id = none ↔ id = root := by
  constructor
  · intro hnone
    by_contra hne
    exact parent?_ne_none (Nat.pos_of_ne_zero hne) hid hnone
  · rintro rfl
    exact f.parent?_root

/-- What holds of a node without parent, and of a node whenever it holds of its parent, holds of
every node. -/
@[elab_as_elim]
theorem induction_above (f : Fragment) {motive : Nat → Prop}
    (top : ∀ id, f.parent? id = none → motive id)
    (child : ∀ id parent, f.parent? id = some parent → motive parent → motive id) (id : Nat) :
    motive id := by
  induction id using Nat.strongRecOn with
  | ind id ih =>
    cases hparent : f.parent? id with
    | none => exact top id hparent
    | some parent => exact child id parent hparent (ih parent (parent_lt hparent))

/-- The nodes above a node, the nearest first. -/
def ancestors (f : Fragment) (id : Nat) : List Nat :=
  match _hparent : f.parent? id with
  | none => []
  | some parent => parent :: f.ancestors parent
termination_by id
decreasing_by exact parent_lt ‹_›

/-- Nothing is above a node without parent. -/
theorem ancestors_of_parent?_eq_none {id : Nat} (hnone : f.parent? id = none) :
    f.ancestors id = [] := by
  rw [ancestors]
  split
  · rfl
  · next hparent => cases hnone.symm.trans hparent

/-- Above a node is its parent, and what is above that. -/
theorem ancestors_of_parent? {id parent : Nat} (hparent : f.parent? id = some parent) :
    f.ancestors id = parent :: f.ancestors parent := by
  rw [ancestors]
  split
  · next hnone => cases hnone.symm.trans hparent
  · next hsome =>
    cases hsome.symm.trans hparent
    rfl

/-- Above a child is its parent, and what is above that. -/
theorem ancestors_of_mem_children {id c : Nat} (hc : c ∈ f.children id) :
    f.ancestors c = id :: f.ancestors id :=
  ancestors_of_parent? (mem_children_iff.mp hc)

/-- A walk visits the subtrees of the nodes ahead of it one after the other. -/
theorem walk_eq (f : Fragment) (ahead : List Nat) : f.walk ahead = ahead.flatMap f.preorder := by
  induction ahead using Fragment.walk.induct f with
  | case1 => rw [walk, List.flatMap_nil]
  | case2 id ahead ih =>
    rw [walk, ih, List.flatMap_append, List.flatMap_cons, preorder_eq, List.cons_append]

/-- The descendants are those that the walk comes to. -/
theorem descendants_eq_preorder (f : Fragment) (id : Nat) : f.descendants id = f.preorder id := by
  rw [descendants, walk_eq, List.flatMap_singleton]

/-- The nodes from a node on are the node and what is below its children. -/
theorem descendants_eq (f : Fragment) (id : Nat) :
    f.descendants id = id :: (f.children id).flatMap f.descendants := by
  rw [descendants_eq_preorder, preorder_eq, funext f.descendants_eq_preorder]

/-- What holds of a node whenever it holds of its children holds of every node. -/
@[elab_as_elim]
theorem induction_below (f : Fragment) {motive : Nat → Prop}
    (below : ∀ id, (∀ c ∈ f.children id, motive c) → motive id) (id : Nat) : motive id := by
  induction hdepth : f.size - id using Nat.strongRecOn generalizing id with
  | ind depth ih =>
    refine below id fun c hc => ?_
    have hlt := lt_of_mem_children hc
    exact ih (f.size - c) (by omega) c rfl

/-- With a node its children are reached. -/
theorem mem_descendants_of_mem_children {id x c : Nat} (hx : x ∈ f.descendants id)
    (hc : c ∈ f.children x) : c ∈ f.descendants id := by
  induction id using f.induction_below with
  | below id ih =>
    rw [descendants_eq, List.mem_cons, List.mem_flatMap] at hx
    rw [descendants_eq, List.mem_cons, List.mem_flatMap]
    rcases hx with rfl | ⟨q, hq, hx⟩
    · exact Or.inr ⟨c, hc, by rw [descendants_eq]; exact List.mem_cons_self⟩
    · exact Or.inr ⟨q, hq, ih q hq hx⟩

/-- Every node is reached from the root. -/
theorem mem_descendants_root {id : Nat} (hid : id < f.size) : id ∈ f.descendants root := by
  induction id using f.induction_above with
  | top id hnone =>
    rw [(parent?_eq_none_iff hid).mp hnone, descendants_eq]
    exact List.mem_cons_self
  | child id parent hparent ih =>
    have habove := ih (Nat.lt_trans (parent_lt hparent) hid)
    exact mem_descendants_of_mem_children habove (mem_children_iff.mpr hparent)

/-! ## Building -/

/-- The fragment is built from the empty one by appending nodes, each under a node that fits. -/
inductive BuiltUnder (fits : Fragment → Nat → Prop) : Fragment → Prop where
  | empty : BuiltUnder fits {}
  | element {f : Fragment} {parent : Nat} (h : BuiltUnder fits f) (hfits : fits f parent)
      (name : String) (attrs : List Attribute) :
      BuiltUnder fits (f.appendElement parent name attrs).1
  | text {f : Fragment} {parent : Nat} (h : BuiltUnder fits f) (hfits : fits f parent)
      (data : String) : BuiltUnder fits (f.appendText parent data).1
  | comment {f : Fragment} {parent : Nat} (h : BuiltUnder fits f) (hfits : fits f parent)
      (data : String) : BuiltUnder fits (f.appendComment parent data).1
  | directive {f : Fragment} {parent : Nat} (h : BuiltUnder fits f) (hfits : fits f parent)
      (data : String) : BuiltUnder fits (f.appendDirective parent data).1

namespace BuiltUnder

variable {fits : Fragment → Nat → Prop}

/-- What is kept when a node is appended that is no text next to a text, and when a text changes,
holds of every built fragment. -/
theorem invariant_of_joined {motive : Fragment → Prop} (hempty : motive {})
    (happend : ∀ (f : Fragment) (parent : Nat) (content : Content), parent < f.size →
      fits f parent →
      (content.kind = .text → ∀ last, (f.children parent).getLast? = some last →
        f.kind? last ≠ some .text) →
      motive f → motive (f.append parent content).1)
    (hjoin : ∀ (f : Fragment) (id : Nat) (before data : String),
      f.content? id = some (.text before) → motive f → motive (f.withContent id (.text data)))
    (h : f.BuiltUnder fits) : motive f := by
  have hgrow : ∀ (f : Fragment) (parent : Nat) (content : Content), fits f parent →
      (content.kind = .text → ∀ last, (f.children parent).getLast? = some last →
        f.kind? last ≠ some .text) →
      motive f → motive (f.append parent content).1 := by
    intro f parent content hfits happart hf
    by_cases hparent : parent < f.size
    · exact happend f parent content hparent hfits happart hf
    · rw [append, dif_neg hparent]
      exact hf
  induction h with
  | empty => exact hempty
  | @element f parent _ hfits name attrs ih =>
    exact hgrow f parent (.tag name attrs) hfits (fun hkind => by cases hkind) ih
  | @comment f parent _ hfits data ih =>
    exact hgrow f parent (.comment data) hfits (fun hkind => by cases hkind) ih
  | @directive f parent _ hfits data ih =>
    exact hgrow f parent (.directive data) hfits (fun hkind => by cases hkind) ih
  | @text f parent _ hfits data ih =>
    by_cases htext : ∃ last before, (f.children parent).getLast? = some last ∧
        f.content? last = some (.text before)
    · obtain ⟨last, before, hlast, hbefore⟩ := htext
      rw [appendText_of_text hlast hbefore]
      exact hjoin f last before _ hbefore ih
    · have hnone : ∀ last before, (f.children parent).getLast? = some last →
          f.content? last ≠ some (.text before) :=
        fun last before hlast hbefore => htext ⟨last, before, hlast, hbefore⟩
      rw [appendText_of_no_text hnone]
      refine hgrow f parent (.text data) hfits (fun _ last hlast hkind => ?_) ih
      obtain ⟨before, hbefore⟩ := kind?_eq_text_iff.mp hkind
      exact hnone last before hlast hbefore

/-- What is kept when a node is appended, and when a text changes, holds of every built fragment. -/
theorem invariant {motive : Fragment → Prop} (hempty : motive {})
    (happend : ∀ (f : Fragment) (parent : Nat) (content : Content), parent < f.size →
      fits f parent → motive f → motive (f.append parent content).1)
    (hjoin : ∀ (f : Fragment) (id : Nat) (before data : String),
      f.content? id = some (.text before) → motive f → motive (f.withContent id (.text data)))
    (h : f.BuiltUnder fits) : motive f :=
  h.invariant_of_joined hempty
    (fun f parent content hparent hfits _ => happend f parent content hparent hfits) hjoin

/-- Where nodes are appended under the root and under elements, only these hold nodes. -/
theorem canHold_parent (h : f.BuiltUnder CanHold) :
    ∀ {id parent : Nat}, f.parent? id = some parent → f.CanHold parent := by
  refine h.invariant
    (motive := fun f => ∀ {id parent}, f.parent? id = some parent → f.CanHold parent) ?_ ?_ ?_
  · intro id parent hparent
    cases id <;> cases hparent
  · intro f under content hunder hholds ih id parent hparent
    refine CanHold.append content hunder ?_
    rw [parent?_append content hunder] at hparent
    by_cases hid : id = f.size
    · rw [if_pos hid, Option.some.injEq] at hparent
      exact hparent ▸ hholds
    · rw [if_neg hid] at hparent
      exact ih hparent
  · intro f joined before data hbefore ih id parent hparent
    rw [parent?_withContent] at hparent
    exact (ih hparent).withText hbefore data

/-- Nothing but the root and elements has nodes below it. -/
theorem children_eq_nil (h : f.BuiltUnder CanHold) {id : Nat} (hid : ¬ f.CanHold id) :
    f.children id = [] := by
  refine List.eq_nil_iff_forall_not_mem.mpr fun c hc => ?_
  exact hid (h.canHold_parent (mem_children_iff.mp hc))

end BuiltUnder
end Fragment
end LiveMarkup
