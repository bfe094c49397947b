import LiveMarkup.Proofs.Markup.Nesting
import Mathlib.Data.List.Chain
import Mathlib.Data.List.Nodup
import Mathlib.Logic.Relation

/-!
# Links and walks of fragments

However a fragment was built, its links up and down say the same, so a walk down from the root
meets every node once and a walk up counts the nodes above.

Main definitions:

- `Fragment.TextsApart`: no text is the next sibling of a text.

Main results:

- `Fragment.mem_preorder_iff`: at and below a node are the nodes that it is at or above.
- `Fragment.nodup_preorder`: a walk down meets no node twice.
- `Fragment.mem_ancestors_iff`, `Fragment.depth_eq_length`: the nodes above, and their number.
- `Fragment.BuiltUnder.textsApart`: texts are joined.
- `Fragment.BuiltUnder.links_and_walks`: the links of a built fragment, and the walks along them.
-/

namespace LiveMarkup
namespace Fragment

variable {f : Fragment}

/-! ## The nodes above -/

/-- The nodes above a node are those that the way along the parents leads to. -/
theorem mem_ancestors_iff {id above : Nat} :
    above ∈ f.ancestors id ↔
      Relation.TransGen (fun c parent => f.parent? c = some parent) id above := by
  induction id using f.induction_above with
  | top id hnone =>
    rw [ancestors_of_parent?_eq_none hnone, Relation.TransGen.head'_iff]
    simp [hnone]
  | child id parent hparent ih =>
    rw [Relation.TransGen.head'_iff, ancestors_of_parent? hparent, List.mem_cons, ih]
    simp [hparent, Relation.reflTransGen_iff_eq_or_transGen]

/-- Numbers fall on the way up. -/
theorem lt_of_mem_ancestors {id above : Nat} (h : above ∈ f.ancestors id) : above < id := by
  induction id using f.induction_above with
  | top id hnone =>
    rw [ancestors_of_parent?_eq_none hnone] at h
    cases h
  | child id parent hparent ih =>
    rw [ancestors_of_parent? hparent, List.mem_cons] at h
    rcases h with rfl | h
    · exact parent_lt hparent
    · exact Nat.lt_trans (ih h) (parent_lt hparent)

theorem mem_ancestors_trans {id above top : Nat} (h : above ∈ f.ancestors id)
    (htop : top ∈ f.ancestors above) : top ∈ f.ancestors id :=
  mem_ancestors_iff.mpr ((mem_ancestors_iff.mp h).trans (mem_ancestors_iff.mp htop))

theorem nodup_ancestors (f : Fragment) (id : Nat) : (f.ancestors id).Nodup := by
  induction id using f.induction_above with
  | top id hnone =>
    rw [ancestors_of_parent?_eq_none hnone]
    exact List.nodup_nil
  | child id parent hparent ih =>
    rw [ancestors_of_parent? hparent]
    exact List.nodup_cons.mpr ⟨fun h => Nat.lt_irrefl _ (lt_of_mem_ancestors h), ih⟩

theorem depth_eq_length (f : Fragment) (id : Nat) : f.depth id = (f.ancestors id).length := by
  induction id using f.induction_above with
  | top id hnone =>
    rw [ancestors_of_parent?_eq_none hnone, depth_of_parent?_eq_none hnone]
    rfl
  | child id parent hparent ih =>
    rw [ancestors_of_parent? hparent, depth_of_parent? hparent, ih]
    rfl

/-- What lies above a child of a node is not another child of it. -/
theorem not_mem_ancestors_of_siblings {id c c' : Nat} (hc : f.parent? c = some id)
    (hc' : f.parent? c' = some id) : c' ∉ f.ancestors c := by
  rw [ancestors_of_parent? hc, List.mem_cons]
  rintro (rfl | hmem)
  · exact Nat.lt_irrefl _ (parent_lt hc')
  · exact Nat.lt_asymm (parent_lt hc') (lt_of_mem_ancestors hmem)

/-- The way up from a node comes by one child of another at most. -/
theorem eq_of_mem_ancestors {x id c c' : Nat} (hx : x = c ∨ c ∈ f.ancestors x)
    (hx' : x = c' ∨ c' ∈ f.ancestors x) (hc : f.parent? c = some id)
    (hc' : f.parent? c' = some id) : c = c' := by
  induction x using f.induction_above with
  | top x hnone =>
    rw [ancestors_of_parent?_eq_none hnone] at hx hx'
    simp_all
  | child x parent hparent ih =>
    rcases hx with rfl | hx <;> rcases hx' with rfl | hx'
    · rfl
    · exact absurd hx' (not_mem_ancestors_of_siblings hc hc')
    · exact absurd hx (not_mem_ancestors_of_siblings hc' hc)
    · rw [ancestors_of_parent? hparent, List.mem_cons] at hx hx'
      exact ih (hx.imp_left Eq.symm) (hx'.imp_left Eq.symm)

/-! ## Walks down -/

/-- At and below a node are the nodes that it is at or above. -/
theorem mem_preorder_iff {id x : Nat} : x ∈ f.preorder id ↔ x = id ∨ id ∈ f.ancestors x := by
  constructor
  · intro hx
    induction id using f.induction_below with
    | below id ih =>
      rw [preorder_eq, List.mem_cons, List.mem_flatMap] at hx
      refine hx.imp_right fun ⟨c, hc, hx⟩ => ?_
      have habove : id ∈ f.ancestors c := by
        rw [ancestors_of_mem_children hc]
        exact List.mem_cons_self
      rcases ih c hc hx with rfl | hx
      · exact habove
      · exact mem_ancestors_trans hx habove
  · intro hx
    rw [← descendants_eq_preorder]
    induction x using f.induction_above with
    | top x hnone =>
      rw [ancestors_of_parent?_eq_none hnone] at hx
      obtain rfl := hx.resolve_right List.not_mem_nil
      rw [descendants_eq]
      exact List.mem_cons_self
    | child x parent hparent ih =>
      rcases hx with rfl | hx
      · rw [descendants_eq]
        exact List.mem_cons_self
      · rw [ancestors_of_parent? hparent, List.mem_cons] at hx
        exact mem_descendants_of_mem_children (ih (hx.imp_left Eq.symm))
          (mem_children_iff.mpr hparent)

/-- A walk down meets no node twice. -/
theorem nodup_preorder (f : Fragment) (id : Nat) : (f.preorder id).Nodup := by
  induction id using f.induction_below with
  | below id ih =>
    rw [preorder_eq, List.nodup_cons, List.nodup_flatMap]
    refine ⟨fun hmem => ?_, ih, ?_⟩
    · obtain ⟨c, hc, hid⟩ := List.mem_flatMap.mp hmem
      have hlt := (lt_of_mem_children hc).1
      rcases mem_preorder_iff.mp hid with rfl | habove
      · exact Nat.lt_irrefl _ hlt
      · exact Nat.lt_asymm hlt (lt_of_mem_ancestors habove)
    · refine (f.nodup_children id).imp_of_mem fun hc hc' hne x hx hx' => hne ?_
      exact eq_of_mem_ancestors (mem_preorder_iff.mp hx) (mem_preorder_iff.mp hx')
        (mem_children_iff.mp hc) (mem_children_iff.mp hc')

/-- At and below the root are all nodes. -/
theorem mem_preorder_root {x : Nat} : x ∈ f.preorder root ↔ x < f.size := by
  constructor
  · intro hx
    rcases mem_preorder_iff.mp hx with rfl | hx
    · exact f.size_pos
    · obtain ⟨parent, hparent, -⟩ := Relation.TransGen.head'_iff.mp (mem_ancestors_iff.mp hx)
      exact lt_size_of_parent? hparent
  · intro hx
    rw [← descendants_eq_preorder]
    exact mem_descendants_root hx

/-! ## Texts -/

/-- No text is the next sibling of a text. -/
def TextsApart (f : Fragment) : Prop :=
  ∀ id, ((f.children id).map f.kind?).IsChain fun a b => ¬ (a = some .text ∧ b = some .text)

/-- A new node that is no text after a text leaves texts apart. -/
theorem TextsApart.append (h : f.TextsApart) {parent : Nat} {content : Content}
    (hparent : parent < f.size)
    (hafter : content.kind = .text → ∀ last, (f.children parent).getLast? = some last →
      f.kind? last ≠ some .text) : (f.append parent content).1.TextsApart := by
  intro id
  have hold : (f.children id).map (f.append parent content).1.kind? = (f.children id).map f.kind? :=
    List.map_congr_left fun c hc => by
      rw [kind?_append content hparent, if_neg (Nat.ne_of_lt (lt_of_mem_children hc).2)]
  rw [children_append content hparent, List.map_append, hold]
  split
  · next hid =>
    subst hid
    refine (h id).append (List.isChain_singleton _) ?_
    intro before hbefore new hnew htexts
    rw [List.getLast?_map, Option.mem_def, Option.map_eq_some_iff] at hbefore
    obtain ⟨last, hlast, rfl⟩ := hbefore
    rw [List.map_cons, List.head?_cons, Option.mem_some_iff, kind?_append content hparent,
      if_pos rfl] at hnew
    refine hafter ?_ last hlast htexts.1
    exact Option.some.inj (hnew.trans htexts.2)
  · simpa using h id

namespace BuiltUnder

variable {fits : Fragment → Nat → Prop}

/-- A text that is appended after a text joins it. -/
theorem textsApart (h : f.BuiltUnder fits) : f.TextsApart := by
  refine h.invariant_of_joined (motive := TextsApart) ?_ ?_ ?_
  · intro id
    cases id <;> exact List.isChain_nil
  · intro f parent content hparent _ hafter hf
    exact hf.append hparent hafter
  · intro f joined before data hbefore hf id
    rw [children_withContent, funext (kind?_withContent hbefore data)]
    exact hf id

/-! ## Built fragments -/

/-- However a fragment was built: the root is the only node without a parent; the children of a
node are the nodes that have it as their parent, each of them once and each after it; no two texts
stand next to each other; the walk from a node on meets the nodes at and below it in document order,
and from the root every node once; and the depth of a node is the number of nodes above it. -/
theorem links_and_walks (h : f.BuiltUnder fits) :
    (∀ id < f.size, f.parent? id = none ↔ id = root) ∧
      (∀ parent c, (f.children parent).count c = if f.parent? c = some parent then 1 else 0) ∧
      (∀ parent c, f.parent? c = some parent → parent < c ∧ c < f.size) ∧
      (∀ id, ((f.children id).map f.kind?).IsChain fun a b =>
        ¬ (a = some .text ∧ b = some .text)) ∧
      (∀ id, f.descendants id = f.preorder id) ∧
      (∀ id, (f.descendants root).count id = if id < f.size then 1 else 0) ∧
      ∀ id, (f.ancestors id).Nodup ∧
        (∀ above, above ∈ f.ancestors id ↔
          Relation.TransGen (fun c parent => f.parent? c = some parent) id above) ∧
        f.depth id = (f.ancestors id).length := by
  refine ⟨fun id hid => parent?_eq_none_iff hid, fun parent c => ?_, fun parent c hparent => ?_,
    h.textsApart, f.descendants_eq_preorder, fun id => ?_, fun id => ?_⟩
  · rw [(f.nodup_children parent).count, ite_congr (propext mem_children_iff)] <;> simp
  · exact ⟨parent_lt hparent, lt_size_of_parent? hparent⟩
  · rw [descendants_eq_preorder, (f.nodup_preorder root).count]
    simp [mem_preorder_root]
  · exact ⟨f.nodup_ancestors id, fun above => mem_ancestors_iff, f.depth_eq_length id⟩

/-- Texts that join around a comment elsewhere, an empty text, nodes below a text, and a directive
behind them: numbers come in the order of appending, walks in that of the document. -/
theorem links_and_walks_of_joined_texts :
    let span := ((({} : Fragment).appendElement 0 "div" [⟨"id", "k"⟩]).1.appendElement 1 "span"
      []).1
    let texts := (((span.appendText 2 "hello ").1.appendComment 1 "note").1.appendText 2
      "world").1
    let below := ((texts.appendText 1 "").1.appendElement 3 "b" []).1
    let f := ((below.appendDirective 0 "d").1.appendText 6 "x").1
    f.BuiltUnder (fun f parent => parent < f.size) ∧ f.size = 9 ∧
      f.content? 3 = some (.text "hello world") ∧ f.children 1 = [2, 4, 5] ∧
      f.descendants root = [0, 1, 2, 3, 6, 8, 4, 5, 7] ∧ f.ancestors 8 = [6, 3, 2, 1, 0] ∧
      f.depth 8 = 5 ∧ ∀ id, (f.descendants root).count id = if id < 9 then 1 else 0 := by
  intro span texts below f
  have hbuilt : f.BuiltUnder fun f parent => parent < f.size :=
    .text (.directive (.element (.text (.text (.comment (.text (.element (.element .empty
      (by decide) _ _) (by decide) _ _) (by decide) _) (by decide) _) (by decide) _) (by decide) _)
      (by decide) _ _) (by decide) _) (by decide) _
  have hsize : f.size = 9 := by decide +kernel
  obtain ⟨-, -, -, -, -, hcount, -⟩ := hbuilt.links_and_walks
  rw [hsize] at hcount
  refine ⟨hbuilt, hsize, by decide +kernel, by decide +kernel, ?_, ?_, ?_, hcount⟩
  all_goals decide +kernel

end BuiltUnder
end Fragment
end LiveMarkup
