import LiveMarkup.Patch.Compile
import LiveMarkup.Proofs.Markup.Appending

/-!
# Where nodes stand

Compilation carries the place of a node along on its way down.  The same place can be read off the
links of a fragment, from the node upwards: the nearest element with an id above it, and from there
down to the node the number of elements that stand before each node among its siblings.

Main definitions:

- `Fragment.position`: how many elements stand before a node.
- `Fragment.anchor`, `Fragment.positions`: where a node stands.
- `Fragment.inside`: the place of the children of a node.

Main results:

- `Fragment.key_inside`: the key of a place, by the links of the node there.
- `Fragment.child_inside`: from the place of a node to that of its children.
-/

namespace LiveMarkup
namespace Fragment

/-- The key of a node that is an element with an id. -/
def authoredKey? (f : Fragment) (id : Nat) : Option String :=
  (f.content? id).bind fun content => Key.authored? content.attrs

/-- The number of elements among the siblings before a node. -/
def position (f : Fragment) (id : Nat) : Nat :=
  match f.parent? id with
  | none => 0
  | some parent => ((f.children parent).takeWhile (· != id)).countP f.isTag

/-- The key of the nearest element with an id above a node, and nothing if there is none. -/
def anchor (f : Fragment) (id : Nat) : String :=
  ((f.ancestors id).findSome? f.authoredKey?).getD ""

/-- The positions of the nodes from below the nearest element with an id, or else from below the
root, down to a node. -/
def positions (f : Fragment) (id : Nat) : List Nat :=
  ((id :: (f.ancestors id).takeWhile fun above =>
    above != root && (f.authoredKey? above).isNone).map f.position).reverse

/-- The place of the children of a node. -/
def inside (f : Fragment) (id : Nat) : Place :=
  match f.authoredKey? id with
  | some key => { anchor := key }
  | none => { anchor := f.anchor id, path := if id = root then [] else f.positions id }

variable {f : Fragment} {id c : Nat}

/-- Only an element has a key. -/
theorem exists_tag_of_authoredKey? {key : String} (h : f.authoredKey? id = some key) :
    ∃ tag attrs, f.content? id = some (.tag tag attrs) ∧ Key.authored? attrs = some key := by
  obtain ⟨content, hcontent, hkey⟩ := Option.bind_eq_some_iff.mp h
  cases content with
  | tag tag attrs => exact ⟨tag, attrs, hcontent, hkey⟩
  | _ => cases hkey

/-- The elements before a child are those among the children before it. -/
theorem position_of_children {before after : List Nat}
    (hchildren : f.children id = before ++ c :: after) :
    f.position c = before.countP f.isTag := by
  have hmem : c ∈ f.children id := by simp [hchildren]
  have hnodup := f.nodup_children id
  rw [hchildren, List.nodup_append] at hnodup
  have hbefore : ∀ x ∈ before, (x != c) = true := by
    intro x hx
    simpa using hnodup.2.2 x hx c List.mem_cons_self
  rw [position, mem_children_iff.mp hmem]
  simp only [hchildren]
  rw [List.takeWhile_append_of_pos hbefore, List.takeWhile_cons_of_neg (by simp), List.append_nil]

theorem anchor_of_mem_children (hc : c ∈ f.children id) : f.anchor c = (f.inside id).anchor := by
  rw [anchor, ancestors_of_mem_children hc, List.findSome?_cons, inside]
  cases f.authoredKey? id <;> rfl

theorem positions_of_mem_children (hc : c ∈ f.children id) :
    f.positions c = (f.inside id).path ++ [f.position c] := by
  rw [positions, ancestors_of_mem_children hc, List.map_cons, List.reverse_cons, inside]
  congr 1
  by_cases hroot : id = root
  · cases f.authoredKey? id <;> simp [hroot]
  · cases hkey : f.authoredKey? id with
    | some key => simp [hkey]
    | none => simp [hkey, hroot, positions]

/-- The key of a place among the children of a node tells where the child there stands. -/
theorem key_inside (hc : c ∈ f.children id) :
    (f.inside id).key (f.position c) = Key.structural (f.anchor c) (f.positions c) := by
  rw [Place.key, anchor_of_mem_children hc, positions_of_mem_children hc]

/-- From the place of the children of a node one comes to that of the children of a child. -/
theorem child_inside (hc : c ∈ f.children id) :
    (f.inside id).child (f.position c) (f.authoredKey? c) = f.inside c := by
  have hroot : c ≠ root := by
    have hlt := (lt_of_mem_children hc).1
    exact Nat.ne_of_gt (Nat.zero_lt_of_lt hlt)
  conv_rhs => rw [inside]
  cases f.authoredKey? c with
  | some key => rfl
  | none =>
    rw [Place.child, ← anchor_of_mem_children hc, ← positions_of_mem_children hc]
    simp [hroot]

end Fragment
end LiveMarkup
