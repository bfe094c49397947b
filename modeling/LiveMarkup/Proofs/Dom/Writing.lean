import LiveMarkup.Proofs.Dom.Trees
import LiveMarkup.Proofs.Markup.Appending

/-!
# Writing by following links

The markup of a fragment and that of a live tree can both be written without making trees first: go
from a node to its children, and from a text to the node that it records as its parent, which
decides whether the text is escaped.  The links go both ways, so this is the markup of the trees,
where the parent is handed down.

Main definitions:

- `Fragment.written`, `Dom.written`: markup that is written by following links.

Main results:

- `Fragment.outerMarkup_eq_written`: the markup of a node of a fragment.
- `Dom.WellFormed.outerMarkup_eq_written`, `Dom.WellFormed.innerMarkup_eq_join`: the markup of a
  live node and of what lies below it.
-/

namespace LiveMarkup

open Markup

namespace Node

/-- The markup of trees that belong to numbers or handles is that of one after the other. -/
theorem markupAll_filterMap {α : Type} (raw : Bool) (tree? : α → Option Node) (xs : List α) :
    markupAll raw (xs.filterMap tree?) =
      String.join (xs.map fun x => ((tree? x).map (markup raw)).getD "") := by
  induction xs with
  | nil => rfl
  | cons x xs ih =>
    rw [List.filterMap_cons, List.map_cons, String.join_cons, ← ih]
    cases tree? x with
    | none => simp
    | some n => rfl

end Node

/-! ## Fragments -/

namespace Fragment

/-- Whether the node that a node records as its parent keeps texts as they are. -/
def underRawText (f : Fragment) (id : Nat) : Bool :=
  (f.parent? id).any fun parent => isRawText (f.tagName parent)

/-- A node and everything below it, written from one node to the next. -/
def written (f : Fragment) (id : Nat) : String :=
  let below := String.join ((f.children id).attach.map fun c => f.written c.1)
  match f.content? id with
  | none => if id = root then below else ""
  | some (.tag name attrs) =>
    if isVoid name then startTag name attrs else startTag name attrs ++ below ++ endTag name
  | some (.text data) => if f.underRawText id then data else escapeText data
  | some (.comment data) => "<!--" ++ data ++ "-->"
  | some (.directive data) => "<" ++ data ++ ">"
termination_by f.size - id
decreasing_by
  have := lt_of_mem_children c.2
  omega

variable {f : Fragment}

/-- The markup below a node is what is written from its children. -/
theorem innerMarkup_eq_join {id : Nat}
    (hbelow : ∀ c ∈ f.children id, f.outerMarkup c = f.written c) :
    f.innerMarkup id = String.join ((f.children id).attach.map fun c => f.written c.1) := by
  have hchild : ∀ c ∈ f.children id,
      ((f.node? c).map (Node.markup (isRawText (f.tagName id)))).getD "" = f.written c := by
    intro c hc
    have hne : c ≠ root := Nat.ne_of_gt (Nat.zero_lt_of_lt (lt_of_mem_children hc).1)
    rw [← hbelow c hc, outerMarkup, if_neg hne, mem_children_iff.mp hc]
    rfl
  have hforest : f.forest id = (f.children id).filterMap f.node? := f.forest_eq id
  rw [innerMarkup, hforest, Node.markupAll_filterMap, List.map_congr_left hchild]
  simp

/-- The markup of a node is what is written from it. -/
theorem outerMarkup_eq_written (f : Fragment) (id : Nat) : f.outerMarkup id = f.written id := by
  induction id using f.induction_below with
  | below id ih =>
    rw [written, ← innerMarkup_eq_join ih]
    by_cases hroot : id = root
    · subst hroot
      rw [outerMarkup, if_pos rfl, content?_root]
      rfl
    · have hraw : ((f.parent? id).map fun parent => isRawText (f.tagName parent)).getD false =
          f.underRawText id := by
        rw [underRawText]
        cases f.parent? id <;> rfl
      rw [outerMarkup, if_neg hroot, hraw, node?, innerMarkup, tagName]
      cases hcontent : f.content? id with
      | none => simp [hroot]
      | some content => cases content <;> rfl

end Fragment

/-! ## Live trees -/

namespace LiveNode

theorem toNodes_eq_map (trees : List LiveNode) : toNodes trees = trees.map toNode := by
  induction trees with
  | nil => rfl
  | cons tree trees ih => rw [toNodes, ih, List.map_cons]

end LiveNode

namespace Dom

/-- Whether the node that a live node records as its parent keeps texts as they are. -/
def underRawText (d : Dom) (id : NodeId) : Bool :=
  (d.parent? id).any d.keepsText

/-- A live node and the nodes below it, written from one node to the next, down to a depth. -/
def writtenTo (d : Dom) : Nat → NodeId → String
  | 0, _ => ""
  | depth + 1, id =>
    match d.data? id with
    | none => ""
    | some (.element e) =>
      if isVoid e.tag then startTag e.tag e.attrs
      else startTag e.tag e.attrs ++ String.join ((d.children id).map (d.writtenTo depth)) ++
        endTag e.tag
    | some (.text content) => if d.underRawText id then content else escapeText content
    | some (.comment content) => "<!--" ++ content ++ "-->"

/-- A live node and everything below it, written from one node to the next. -/
def written (d : Dom) (id : NodeId) : String :=
  d.writtenTo (d.slots.size + 1) id

variable {d : Dom}

/-- Down to any depth, what is written is the markup of the trees. -/
theorem WellFormed.markup_treeTo? (h : d.WellFormed) :
    ∀ (depth : Nat) (id : NodeId),
      ((d.treeTo? depth id).map fun tree => tree.toNode.markup (d.underRawText id)).getD "" =
        d.writtenTo depth id
  | 0, _ => rfl
  | depth + 1, id => by
    rw [treeTo?_succ, writtenTo, data?_eq]
    cases hentry : d.entry? id with
    | none => rfl
    | some entry =>
      obtain ⟨data, parent, children⟩ := entry
      cases data with
      | text content => rfl
      | comment content => rfl
      | element e =>
        have hchildren : d.children id = children := by rw [children_eq, hentry]; rfl
        have hraw : d.keepsText id = isRawText e.tag := by
          simp [keepsText, tag?, element?, data?_eq, hentry]
        -- A child finds at its parent what is handed down to its tree.
        have hchild : ∀ c ∈ children,
            (((d.treeTo? depth c).map LiveNode.toNode).map (Node.markup (isRawText e.tag))).getD
              "" = d.writtenTo depth c := by
          intro c hc
          have hparent : d.parent? c = some id := h.parent_of_mem (hchildren ▸ hc)
          have hunder : d.underRawText c = isRawText e.tag := by
            rw [underRawText, hparent, Option.any_some, hraw]
          rw [← h.markup_treeTo? depth c, hunder, Option.map_map]
          rfl
        have hbelow : Node.markupAll (isRawText e.tag)
            (LiveNode.toNodes (children.filterMap (d.treeTo? depth))) =
              String.join (children.map (d.writtenTo depth)) := by
          rw [LiveNode.toNodes_eq_map, List.map_filterMap, Node.markupAll_filterMap,
            List.map_congr_left hchild]
        rw [hchildren, ← hbelow]
        rfl

/-- The markup of a live node is what is written from it. -/
theorem WellFormed.outerMarkup_eq_written (h : d.WellFormed) (id : NodeId) :
    d.outerMarkup id = d.written id := by
  rw [written, ← h.markup_treeTo?, underRawText, outerMarkup, tree?]
  cases d.treeTo? (d.slots.size + 1) id with
  | none => rfl
  | some tree => cases d.parent? id <;> rfl

/-- The markup below a live node is what is written from its children. -/
theorem WellFormed.innerMarkup_eq_join (h : d.WellFormed) (id : NodeId) :
    d.innerMarkup id = String.join ((d.children id).map d.written) := by
  have hchild : ∀ c ∈ d.children id,
      (((d.tree? c).map LiveNode.toNode).map (Node.markup (d.keepsText id))).getD "" =
        d.written c := by
    intro c hc
    rw [← h.outerMarkup_eq_written c, outerMarkup, h.parent_of_mem hc]
    cases d.tree? c <;> rfl
  rw [innerMarkup, forest, LiveNode.toNodes_eq_map, List.map_filterMap, Node.markupAll_filterMap,
    List.map_congr_left hchild]

end Dom
end LiveMarkup
